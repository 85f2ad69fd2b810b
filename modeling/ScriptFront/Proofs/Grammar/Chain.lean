import ScriptFront.Proofs.Grammar.Loop
/-!
# `if` chains

An `if` statement is a chain of links, each `if`, a condition and a block; an `else` right
after a link's block and an `if` after it start the next link. After the last link the chain
either ends, at the first token that is not `else`, or takes `else` and one more block.
`IfLinks` lists the links from the first `if` on, each branch recorded at its own `if`.

The main statement, `if_chain_branches`, says that an `if` statement is read exactly along its
links: its branches are the links in source order, it has a final block exactly when an `else`
before no `if` follows the last link, an `else` on a later line is not part of it, and an `else`
followed by neither `if` nor `{` is refused at the token after it.
-/

set_option autoImplicit false

namespace ScriptFront

/-- The links of an `if` chain from the `if` at `c` up to `e`, right after the last link's
block: each link is `if`, a condition and a block, recorded at its `if`, and between two links
stands an `else`. -/
inductive IfLinks : Cursor → List Branch → Cursor → Prop where
  | last {c d e : Cursor} {x : Expr} {b : Block} : c.current.kind = .kwIf →
      plain (readExpr c.next) = .ok (x, d) → plain (readBlock d) = .ok (b, e) →
      IfLinks c [.mk x b c.current.start] e
  | more {c d e f : Cursor} {x : Expr} {b : Block} {bs : List Branch} :
      c.current.kind = .kwIf → plain (readExpr c.next) = .ok (x, d) →
      plain (readBlock d) = .ok (b, e) → e.current.kind = .kwElse → IfLinks e.next bs f →
      IfLinks c (.mk x b c.current.start :: bs) f

namespace IfLinks

variable {c e : Cursor} {bs : List Branch}

theorem kind (h : IfLinks c bs e) : c.current.kind = .kwIf := by
  cases h with
  | last hk => exact hk
  | more hk => exact hk

theorem ne_nil (h : IfLinks c bs e) : bs ≠ [] := by
  cases h <;> simp

end IfLinks

section Chain

variable {c e f : Cursor} {bs : List Branch}

theorem readBranches_of_links (h : IfLinks c bs e)
    (hend : e.current.kind = .kwElse → e.next.current.kind ≠ .kwIf) :
    plain (readBranches c.current.start c.next) =
      if e.current.kind = .kwElse then
        (plain (readBlock e.next)).map fun (b, f) => ((bs, some b), f)
      else .ok ((bs, none), e) := by
  induction h with
  | @last c d e x b _ hx hb =>
    rw [readBranches_eq, hx, Except.ok_bind']
    dsimp only
    rw [hb, Except.ok_bind']
    dsimp only
    by_cases he : e.current.kind = .kwElse
    · rw [if_pos he, if_neg (hend he), if_pos he]
    · rw [if_neg he, if_neg he]
  | more _ hx hb he hl ih =>
    rw [readBranches_eq, hx, Except.ok_bind']
    dsimp only
    rw [hb, Except.ok_bind']
    dsimp only
    rw [if_pos he, if_pos hl.kind, ih hend]
    split
    · cases plain (readBlock _) <;> rfl
    · rfl

/-- An `if` statement read along its links. -/
theorem readIf_of_links (h : IfLinks c bs e)
    (hend : e.current.kind = .kwElse → e.next.current.kind ≠ .kwIf) :
    plain (readIf c) =
      if e.current.kind = .kwElse then
        (plain (readBlock e.next)).map fun (b, f) => (.ifChain bs (some b) c.current.start, f)
      else .ok (.ifChain bs none c.current.start, e) := by
  rw [readIf_eq]
  simp only [Cursor.expect, Cursor.expectOr, if_pos h.kind, Except.ok_bind',
    readBranches_of_links h hend]
  split
  · cases plain (readBlock _) <;> rfl
  · rfl

theorem links_of_readBranches {bs : List Branch} {o : Option Block} (hc : c.current.kind = .kwIf)
    (h : plain (readBranches c.current.start c.next) = .ok ((bs, o), f)) :
    ∃ e, IfLinks c bs e ∧ ((e.current.kind ≠ .kwElse ∧ o = none ∧ f = e) ∨
      (e.current.kind = .kwElse ∧ e.next.current.kind ≠ .kwIf ∧
        ∃ b, plain (readBlock e.next) = .ok (b, f) ∧ o = some b)) := by
  obtain ⟨n, hn⟩ : ∃ n, c.ahead.length = n := ⟨_, rfl⟩
  -- induction on the tokens left: the next link starts further on
  induction n using Nat.strong_induction_on generalizing c bs o f with
  | _ n ih =>
    rw [readBranches_eq] at h
    obtain ⟨⟨x, d⟩, hx, h⟩ := Except.bind_eq_ok.mp h
    obtain ⟨⟨b, d1⟩, hb, h⟩ := Except.bind_eq_ok.mp h
    dsimp only at h
    split at h
    · next he =>
      split at h
      · next hi =>
        obtain ⟨⟨⟨bs', o'⟩, f'⟩, hr, heq⟩ := Except.map_eq_ok.mp h
        cases heq
        have l1 := Cursor.next_lt (by decide) hc
        have l2 := Read.lt_of_plain hx
        have l3 := Read.lt_of_plain hb
        have l4 := d1.length_next_le
        obtain ⟨e, hl, hend⟩ := ih _ (by omega) hi hr rfl
        exact ⟨e, .more hc hx hb he hl, hend⟩
      · next hi =>
        obtain ⟨⟨b', f'⟩, hb', heq⟩ := Except.map_eq_ok.mp h
        cases heq
        exact ⟨d1, .last hc hx hb, .inr ⟨he, hi, b', hb', rfl⟩⟩
    · next he =>
      cases h
      exact ⟨_, .last hc hx hb, .inl ⟨he, rfl, rfl⟩⟩

theorem readIf_else_unexpected (h : IfLinks c bs e) (he : e.current.kind = .kwElse)
    (hi : e.next.current.kind ≠ .kwIf) (hb : e.next.current.kind ≠ .openCurly) :
    plain (readIf c) =
      .error ⟨.unexpected "`\x7b`" e.next.current.describe, e.next.current.start⟩ := by
  rw [readIf_of_links h fun _ => hi, if_pos he, readBlock_eq]
  simp only [Cursor.expect, Cursor.expectOr, if_neg hb, Except.error_bind', Except.error_map]
  rfl

end Chain

/-- An `if` statement is read along its chain of links: it ends after the last link's block when
no `else` follows, takes the block after an `else` that no `if` follows, or is refused there. -/
theorem if_chain_branches (c : Cursor) :
    (∀ bs e, IfLinks c bs e → e.current.kind ≠ .kwElse →
      plain (readIf c) = .ok (.ifChain bs none c.current.start, e)) ∧
    (∀ bs e, IfLinks c bs e → e.current.kind = .kwElse → e.next.current.kind ≠ .kwIf →
      plain (readIf c) =
        (plain (readBlock e.next)).map fun (b, f) => (.ifChain bs (some b) c.current.start, f)) ∧
    (∀ bs e, IfLinks c bs e → e.current.kind = .kwElse → e.next.current.kind ≠ .kwIf →
      e.next.current.kind ≠ .openCurly →
      plain (readIf c) =
        .error ⟨.unexpected "`\x7b`" e.next.current.describe, e.next.current.start⟩) ∧
    (∀ s f, plain (readIf c) = .ok (s, f) → ∃ bs e, IfLinks c bs e ∧
      ((e.current.kind ≠ .kwElse ∧ s = .ifChain bs none c.current.start ∧ f = e) ∨
        (e.current.kind = .kwElse ∧ e.next.current.kind ≠ .kwIf ∧
          ∃ b, plain (readBlock e.next) = .ok (b, f) ∧
            s = .ifChain bs (some b) c.current.start))) := by
  refine ⟨fun bs e h he => ?_, fun bs e h he hi => ?_,
    fun bs e h he hi hb => readIf_else_unexpected h he hi hb, fun s f h => ?_⟩
  · rw [readIf_of_links h fun h' => absurd h' he, if_neg he]
  · rw [readIf_of_links h fun _ => hi, if_pos he]
  · rw [readIf_eq] at h
    obtain ⟨⟨t, d⟩, ht, h⟩ := Except.bind_eq_ok.mp h
    obtain ⟨hc, rfl, rfl⟩ := Cursor.expectOr_eq_ok_iff.mp ht
    obtain ⟨⟨⟨bs, o⟩, f'⟩, hr, heq⟩ := Except.map_eq_ok.mp h
    cases heq
    obtain ⟨e, hl, ⟨he, rfl, rfl⟩ | ⟨he, hi, b, hb, rfl⟩⟩ := links_of_readBranches hc hr
    · exact ⟨bs, _, hl, .inl ⟨he, rfl, rfl⟩⟩
    · exact ⟨bs, e, hl, .inr ⟨he, hi, b, hb, rfl⟩⟩

theorem if_chain_branches_else :
    ∃ ts s f, tokenize "if a \x7b\n\x7d else \x7b\n\x7d" none = .ok ts ∧
      plain (readIf (Cursor.ofTokens ts)) = .ok (s, f) ∧
      ∃ bs e, IfLinks (Cursor.ofTokens ts) bs e := by
  obtain ⟨ts, ⟨s, f⟩, hts, hr, -⟩ := Except.bind_map_eq_ok.mp (by decide +kernel :
    (tokenize "if a \x7b\n\x7d else \x7b\n\x7d" none >>= fun ts =>
      (plain (readIf (Cursor.ofTokens ts))).map fun _ => ()) = .ok ())
  obtain ⟨bs, e, hl, -⟩ := (if_chain_branches _).2.2.2 s f hr
  exact ⟨ts, s, f, hts, hr, bs, e, hl⟩

end ScriptFront
