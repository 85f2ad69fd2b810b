import ScriptFront.Proofs.Print.ReadStmt
/-!
# The three shapes of a `for` loop

After `for`, a `{` starts the block of a loop without condition. Otherwise the first clause is
read once, as a simple statement, and the token after it decides what it was: before `{` it is
the loop's condition, which must be an expression, and before `;` the init statement of three
clauses. The condition and the post statement follow, each optional, and the post statement may
not declare. `LoopHeader` gives the headers that this allows, each with the shape it stands for;
a loop reads exactly a header and the block after it, and stops right after the block's `}`.
-/

set_option autoImplicit false

namespace ScriptFront

def Reader.readsExpr : Reader → Bool
  | .expr | .funcLit | .level _ | .unary | .primary | .group => true
  | _ => false

theorem TokenKind.startsExpr_of_unary {k : TokenKind} {op : UnaryOp}
    (h : UnaryOp.ofKind? k = some op) : k.startsExpr := by
  cases k <;> simp_all [UnaryOp.ofKind?, TokenKind.startsExpr]

theorem TokenKind.ne_of_startsExpr' {k : TokenKind} (h : k.startsExpr) :
    k ≠ .openCurly ∧ k ≠ .semicolon :=
  ⟨ne_of_startsExpr h rfl, ne_of_startsExpr h rfl⟩

namespace Reader

open Cursor

variable {c d e f : Cursor}

theorem readsExpr_operand (l : Level) : (operand l).readsExpr := by
  cases l <;> rfl

theorem Reads.startsExpr {r : Reader} {v : Outcome} (h : Reads r c v d) :
    r.readsExpr → c.current.kind.startsExpr := by
  induction h with
  | unaryOp hop => exact fun _ => TokenKind.startsExpr_of_unary hop
  | primaryName hk | primaryInteger hk | primaryTrue hk | primaryFalse hk | primaryGroup hk
  | group hk | funcLit hk | exprFunc hk => exact fun _ => by rw [hk]; rfl
  | unaryPrimary _ _ ih | exprOr _ _ ih => exact fun _ => ih rfl
  | level _ _ ih _ => exact fun _ => ih (readsExpr_operand _)
  | _ => nofun

theorem Reads.startsExpr_simple {v : Outcome} (h : Reads simple c v d) :
    c.current.kind.startsExpr := by
  cases h with
  | simpleSingle hx | simpleAssign hx | simpleDefine hx => exact hx.startsExpr rfl

theorem Reads.closes {v : Outcome} (h : Reads blockBody c v d) :
    ∃ g : Cursor, g.current.kind = .closeCurly ∧ d = g.next := by
  generalize hr : blockBody = r at h
  induction h with
  | blockBodyEnd hk => exact ⟨_, hk, rfl⟩
  | blockBodyStmt _ _ _ _ _ ih => exact ih hr
  | _ => cases hr

end Reader

section Readings

open Reader

variable {c d e f : Cursor} {x : Expr} {s : Stmt}

theorem readExpr_starts (h : plain (readExpr c) = .ok (x, d)) : c.current.kind.startsExpr :=
  (sound expr c (.expr x) d (by rw [run, h]; rfl)).startsExpr rfl

theorem readSimple_starts (h : plain (readSimple c) = .ok (s, d)) : c.current.kind.startsExpr :=
  (sound simple c (.stmt s) d (by rw [run, h]; rfl)).startsExpr_simple

theorem readSimple_pos (h : plain (readSimple c) = .ok (s, d)) : s.pos = c.current.start := by
  cases sound simple c (.stmt s) d (by rw [run, h]; rfl) <;> rfl

theorem readSimple_single {q : Bool} {p : Position}
    (h : plain (readSimple c) = .ok (.single x q p, d)) : plain (readExpr c) = .ok (x, d) := by
  cases sound simple c _ d (by rw [run, h]; rfl) with
  | simpleSingle hx =>
    obtain ⟨⟨y, d'⟩, hy, he⟩ := Except.map_eq_ok.mp hx.run
    cases he
    exact hy

theorem readSimple_of_expr (hx : plain (readExpr c) = .ok (x, d))
    (hk : d.current.kind ≠ .comma ∧ d.current.kind ≠ .assign ∧ d.current.kind ≠ .define) :
    plain (readSimple c) = .ok (.single x false c.current.start, d) := by
  have hno : ¬((d.current.kind = .comma ∨ d.current.kind = .assign) ∨ d.current.kind = .define) := by
    rintro ((h | h) | h) <;> simp_all
  rw [readSimple_eq, hx, Except.ok_bind']
  simp only [if_neg hno]

theorem readBlock_bounds {b : Block} (h : plain (readBlock c) = .ok (b, d)) :
    c.current.kind = .openCurly ∧ ∃ g : Cursor, g.current.kind = .closeCurly ∧ d = g.next := by
  have r := sound block c (.block b) d (by rw [run, h]; rfl)
  cases r with
  | block hk hb => exact ⟨hk, hb.closes⟩

end Readings

def Cursor.Optional {α : Type} (read : Cursor → Except Error (α × Cursor)) (stop : TokenKind)
    (c : Cursor) (a : Option α) (d : Cursor) : Prop :=
  (c.current.kind = stop ∧ a = none ∧ d = c) ∨ ∃ x, read c = .ok (x, d) ∧ a = some x

/-- The header of a `for` loop, from the token after `for` up to the `{` of its block, and the
shape it gives the loop: nothing; an expression; or an optional simple statement, an optional
expression and an optional simple statement that declares nothing, separated by `;`. -/
inductive LoopHeader : Cursor → LoopShape → Cursor → Prop where
  | forever {c : Cursor} : c.current.kind = .openCurly → LoopHeader c .forever c
  | guarded {c d : Cursor} {x : Expr} : plain (readExpr c) = .ok (x, d) →
      d.current.kind = .openCurly → LoopHeader c (.guarded x) d
  | clauses {c d1 d2 d3 : Cursor} {i : Option Stmt} {x : Option Expr} {p : Option Stmt} :
      c.Optional (fun c => plain (readSimple c)) .semicolon i d1 → d1.current.kind = .semicolon →
      d1.next.Optional (fun c => plain (readExpr c)) .semicolon x d2 →
      d2.current.kind = .semicolon →
      d2.next.Optional (fun c => plain (readSimple c)) .openCurly p d3 →
      (∀ ns vs q, p ≠ some (.define ns vs q)) → d3.current.kind = .openCurly →
      LoopHeader c (.clauses i x p) d3

section Clauses

variable {c d e f : Cursor} {x : Option Expr} {p : Option Stmt}

theorem readCond_of_optional (h : c.Optional (fun c => plain (readExpr c)) .semicolon x d) :
    plain (readCond c) = .ok (x, d) := by
  rw [readCond_eq]
  rcases h with ⟨hk, rfl, rfl⟩ | ⟨y, hy, rfl⟩
  · rw [if_pos hk]
  · dsimp only at hy
    rw [if_neg (TokenKind.ne_of_startsExpr' (readExpr_starts hy)).2, hy]
    rfl

theorem optional_of_readCond (h : plain (readCond c) = .ok (x, d)) :
    c.Optional (fun c => plain (readExpr c)) .semicolon x d := by
  rw [readCond_eq] at h
  split at h
  · next hk =>
    cases h
    exact .inl ⟨hk, rfl, rfl⟩
  · obtain ⟨⟨y, d'⟩, hy, he⟩ := Except.map_eq_ok.mp h
    cases he
    exact .inr ⟨y, hy, rfl⟩

theorem readPost_of_optional (h : c.Optional (fun c => plain (readSimple c)) .openCurly p d)
    (hp : ∀ ns vs q, p ≠ some (.define ns vs q)) : plain (readPost c) = .ok (p, d) := by
  rw [readPost_eq]
  rcases h with ⟨hk, rfl, rfl⟩ | ⟨s, hs, rfl⟩
  · rw [if_pos hk]
  · dsimp only at hs
    rw [if_neg (TokenKind.ne_of_startsExpr' (readSimple_starts hs)).1, hs, Except.ok_bind']
    cases s with
    | define ns vs q => exact absurd rfl (hp ns vs q)
    | _ => rfl

theorem optional_of_readPost (h : plain (readPost c) = .ok (p, d)) :
    c.Optional (fun c => plain (readSimple c)) .openCurly p d ∧
      ∀ ns vs q, p ≠ some (.define ns vs q) := by
  rw [readPost_eq] at h
  split at h
  · next hk =>
    cases h
    exact ⟨.inl ⟨hk, rfl, rfl⟩, by simp⟩
  · obtain ⟨⟨s, d'⟩, hs, h⟩ := Except.bind_eq_ok.mp h
    cases s with
    | define ns vs q => cases h
    | _ =>
      simp only [Except.ok.injEq, Prod.mk.injEq] at h
      obtain ⟨rfl, rfl⟩ := h
      exact ⟨.inr ⟨_, hs, rfl⟩, by simp⟩

theorem readClauses_of_optional {i : Option Stmt} (h1 : c.current.kind = .semicolon)
    (hx : c.next.Optional (fun c => plain (readExpr c)) .semicolon x d)
    (h2 : d.current.kind = .semicolon)
    (hp : d.next.Optional (fun c => plain (readSimple c)) .openCurly p e)
    (hnd : ∀ ns vs q, p ≠ some (.define ns vs q)) :
    plain (readClauses i c) = (plain (readBlock e)).map fun (b, f) => ((.clauses i x p, b), f) := by
  rw [readClauses_eq]
  simp only [Cursor.expectOr, Cursor.expect, if_pos h1, Except.ok_bind', readCond_of_optional hx,
    if_pos h2, readPost_of_optional hp hnd]

theorem optional_of_readClauses {i : Option Stmt} {shape : LoopShape} {b : Block}
    (h : plain (readClauses i c) = .ok ((shape, b), f)) :
    c.current.kind = .semicolon ∧ ∃ x d p e, c.next.Optional (fun c => plain (readExpr c)) .semicolon x d ∧
      d.current.kind = .semicolon ∧ d.next.Optional (fun c => plain (readSimple c)) .openCurly p e ∧
      (∀ ns vs q, p ≠ some (.define ns vs q)) ∧ plain (readBlock e) = .ok (b, f) ∧
      shape = .clauses i x p := by
  rw [readClauses_eq] at h
  obtain ⟨⟨t, d0⟩, h0, h⟩ := Except.bind_eq_ok.mp h
  obtain ⟨hk, -, rfl⟩ := Cursor.expectOr_eq_ok_iff.mp h0
  obtain ⟨⟨x, d⟩, hx, h⟩ := Except.bind_eq_ok.mp h
  obtain ⟨⟨t', d2⟩, h2, h⟩ := Except.bind_eq_ok.mp h
  obtain ⟨hk2, -, rfl⟩ := Cursor.expectOr_eq_ok_iff.mp h2
  obtain ⟨⟨p, e⟩, hp, h⟩ := Except.bind_eq_ok.mp h
  obtain ⟨⟨b', f'⟩, hb, he⟩ := Except.map_eq_ok.mp h
  cases he
  obtain ⟨hpo, hnd⟩ := optional_of_readPost hp
  exact ⟨hk, x, d, p, e, optional_of_readCond hx, hk2, hpo, hnd, hb, rfl⟩

end Clauses

section Loop

variable {c d e f : Cursor} {s : Stmt}

/-- A loop over a header reads the block after it, with the header's shape. -/
theorem readFor_of_header {shape : LoopShape} (hc : c.current.kind = .kwFor)
    (h : LoopHeader c.next shape d) :
    plain (readFor c) = (plain (readBlock d)).map fun (b, f) => (.loop shape b c.current.start, f) := by
  rw [readFor_eq]
  simp only [Cursor.expect, Cursor.expectOr, if_pos hc, Except.ok_bind']
  cases h with
  | forever hk => rw [if_pos hk]
  | guarded hx hk =>
    have hs := TokenKind.ne_of_startsExpr' (readExpr_starts hx)
    have hsimple := readSimple_of_expr hx ⟨by rw [hk]; decide, by rw [hk]; decide, by rw [hk]; decide⟩
    rw [if_neg hs.1, if_neg hs.2, hsimple, Except.ok_bind']
    simp only [if_pos hk]
  | clauses hi h1 hx h2 hp hnd h3 =>
    rcases hi with ⟨hk, rfl, rfl⟩ | ⟨s, hs, rfl⟩
    · rw [if_neg (by rw [hk]; decide), if_pos hk, readClauses_of_optional h1 hx h2 hp hnd]
      cases plain (readBlock d) <;> rfl
    · dsimp only at hs
      have hst := TokenKind.ne_of_startsExpr' (readSimple_starts hs)
      rw [if_neg hst.1, if_neg hst.2, hs, Except.ok_bind']
      simp only [if_neg (ne_of_eq_of_ne h1 (by decide : TokenKind.semicolon ≠ .openCurly)),
        readClauses_of_optional h1 hx h2 hp hnd]
      cases plain (readBlock d) <;> rfl

theorem header_of_readFor (hc : c.current.kind = .kwFor) (h : plain (readFor c) = .ok (s, f)) :
    ∃ shape d b, LoopHeader c.next shape d ∧ plain (readBlock d) = .ok (b, f) ∧
      s = .loop shape b c.current.start := by
  rw [readFor_eq] at h
  simp only [Cursor.expect, Cursor.expectOr, if_pos hc, Except.ok_bind'] at h
  split at h
  · next hk =>
    obtain ⟨⟨b, f'⟩, hb, he⟩ := Except.map_eq_ok.mp h
    cases he
    exact ⟨_, _, b, .forever hk, hb, rfl⟩
  split at h
  · next hk0 hk =>
    obtain ⟨⟨⟨shape, b⟩, f'⟩, hcl, he⟩ := Except.map_eq_ok.mp h
    cases he
    obtain ⟨h1, x, d, p, e, hx, h2, hp, hnd, hb, rfl⟩ := optional_of_readClauses hcl
    exact ⟨_, e, b, .clauses (.inl ⟨hk, rfl, rfl⟩) h1 hx h2 hp hnd (readBlock_bounds hb).1, hb, rfl⟩
  obtain ⟨⟨s0, d⟩, hs, h⟩ := Except.bind_eq_ok.mp h
  dsimp only at h
  split at h
  · next hk =>
    split at h
    · next x q p =>
      obtain ⟨⟨b, f'⟩, hb, he⟩ := Except.map_eq_ok.mp h
      cases he
      exact ⟨_, d, b, .guarded (readSimple_single hs) hk, hb, rfl⟩
    · cases h
  · next hk =>
    obtain ⟨⟨⟨shape, b⟩, f'⟩, hcl, he⟩ := Except.map_eq_ok.mp h
    cases he
    obtain ⟨h1, x, d', p, e, hx, h2, hp, hnd, hb, rfl⟩ := optional_of_readClauses hcl
    exact ⟨_, e, b, .clauses (.inr ⟨s0, hs, rfl⟩) h1 hx h2 hp hnd (readBlock_bounds hb).1, hb, rfl⟩

theorem readFor_statement_as_value (hc : c.current.kind = .kwFor)
    (hs : plain (readSimple c.next) = .ok (s, d)) (hk : d.current.kind = .openCurly)
    (hst : (∃ ts vs p, s = .assign ts vs p) ∨ ∃ ns vs p, s = .define ns vs p) :
    plain (readFor c) = .error ⟨.statementAsValue s.render, c.next.current.start⟩ := by
  have hne := TokenKind.ne_of_startsExpr' (readSimple_starts hs)
  rw [readFor_eq]
  simp only [Cursor.expect, Cursor.expectOr, if_pos hc, Except.ok_bind']
  rw [if_neg hne.1, if_neg hne.2, hs, Except.ok_bind']
  simp only [if_pos hk]
  rw [← readSimple_pos hs]
  rcases hst with ⟨ts, vs, p, rfl⟩ | ⟨ns, vs, p, rfl⟩ <;> rfl

theorem readFor_define_post (hc : c.current.kind = .kwFor) {i : Option Stmt} {d1 d2 : Cursor}
    {x : Option Expr} {ns : List Binding} {vs : List Expr} {q : Position}
    (hi : c.next.Optional (fun c => plain (readSimple c)) .semicolon i d1)
    (h1 : d1.current.kind = .semicolon)
    (hx : d1.next.Optional (fun c => plain (readExpr c)) .semicolon x d2)
    (h2 : d2.current.kind = .semicolon)
    (hp : plain (readSimple d2.next) = .ok (.define ns vs q, e)) :
    plain (readFor c) = .error ⟨.defineInLoopPost, d2.next.current.start⟩ := by
  have hpost : plain (readPost d2.next) = .error ⟨.defineInLoopPost, d2.next.current.start⟩ := by
    rw [readPost_eq, if_neg (TokenKind.ne_of_startsExpr' (readSimple_starts hp)).1, hp]
    rfl
  have hcl : plain (readClauses i d1) = .error ⟨.defineInLoopPost, d2.next.current.start⟩ := by
    rw [readClauses_eq]
    simp only [Cursor.expectOr, Cursor.expect, if_pos h1, Except.ok_bind', readCond_of_optional hx,
      if_pos h2, hpost, Except.error_bind']
  rw [readFor_eq]
  simp only [Cursor.expect, Cursor.expectOr, if_pos hc, Except.ok_bind']
  rcases hi with ⟨hk, rfl, rfl⟩ | ⟨s, hs, rfl⟩
  · rw [if_neg (by rw [hk]; decide), if_pos hk, hcl]
    rfl
  · dsimp only at hs
    have hst := TokenKind.ne_of_startsExpr' (readSimple_starts hs)
    rw [if_neg hst.1, if_neg hst.2, hs, Except.ok_bind']
    simp only [if_neg (show d1.current.kind ≠ .openCurly by rw [h1]; decide), hcl]
    rfl

end Loop

/-- A `for` loop is read exactly when the tokens after `for` are a header of one of the three
shapes and a block follows; statements used as a condition or a defining post are refused. -/
theorem loop_header_shapes {c : Cursor} (hc : c.current.kind = .kwFor) :
    (∀ s f, plain (readFor c) = .ok (s, f) ↔ ∃ shape d b, LoopHeader c.next shape d ∧
      plain (readBlock d) = .ok (b, f) ∧ s = .loop shape b c.current.start) ∧
    (∀ shape d, LoopHeader c.next shape d → plain (readFor c) =
      (plain (readBlock d)).map fun (b, f) => (.loop shape b c.current.start, f)) ∧
    (∀ s d, plain (readSimple c.next) = .ok (s, d) → d.current.kind = .openCurly →
      ((∃ ts vs p, s = .assign ts vs p) ∨ ∃ ns vs p, s = .define ns vs p) →
      plain (readFor c) = .error ⟨.statementAsValue s.render, c.next.current.start⟩) ∧
    (∀ i d1 x d2 ns vs q e, c.next.Optional (fun c => plain (readSimple c)) .semicolon i d1 →
      d1.current.kind = .semicolon → d1.next.Optional (fun c => plain (readExpr c)) .semicolon x d2 →
      d2.current.kind = .semicolon → plain (readSimple d2.next) = .ok (.define ns vs q, e) →
      plain (readFor c) = .error ⟨.defineInLoopPost, d2.next.current.start⟩) ∧
    (∀ s f, plain (readFor c) = .ok (s, f) → ∃ g : Cursor, g.current.kind = .closeCurly ∧ f = g.next) := by
  refine ⟨fun s f => ⟨header_of_readFor hc, ?_⟩, fun _ _ => readFor_of_header hc,
    fun _ _ => readFor_statement_as_value hc, fun _ _ _ _ _ _ _ _ => readFor_define_post hc,
    fun s f h => ?_⟩
  · rintro ⟨shape, d, b, hh, hb, rfl⟩
    rw [readFor_of_header hc hh, hb]
    rfl
  · obtain ⟨shape, d, b, -, hb, -⟩ := header_of_readFor hc h
    exact (readBlock_bounds hb).2

theorem loop_header_shapes_bare_clauses :
    let c : Cursor := Cursor.ofTokens [⟨.kwFor, "for", ⟨⟨1, 1, "f"⟩, ⟨1, 4, "f"⟩⟩⟩,
      ⟨.semicolon, ";", ⟨⟨1, 5, "f"⟩, ⟨1, 6, "f"⟩⟩⟩, ⟨.semicolon, ";", ⟨⟨1, 7, "f"⟩, ⟨1, 8, "f"⟩⟩⟩,
      ⟨.openCurly, "\x7b", ⟨⟨1, 9, "f"⟩, ⟨1, 10, "f"⟩⟩⟩, ⟨.closeCurly, "\x7d", ⟨⟨1, 11, "f"⟩, ⟨1, 12, "f"⟩⟩⟩]
    c.current.kind = .kwFor ∧ plain (readFor c) = (plain (readBlock c.next.next.next)).map
      fun (b, f) => (.loop (.clauses none none none) b c.current.start, f) := by
  intro c
  have hc : c.current.kind = .kwFor := rfl
  exact ⟨hc, (loop_header_shapes hc).2.1 _ _
    (.clauses (.inl ⟨rfl, rfl, rfl⟩) rfl (.inl ⟨rfl, rfl, rfl⟩) rfl (.inl ⟨rfl, rfl, rfl⟩)
      (by simp) rfl)⟩

end ScriptFront
