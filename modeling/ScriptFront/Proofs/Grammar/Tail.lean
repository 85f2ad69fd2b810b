import ScriptFront.Proofs.Grammar.Soundness
/-!
# Reading on past the end of file

What a reader does at the end of file it does the same at a line feed, with one exception: a
statement ends its line by reading a line feed, and at the end of file it reads nothing. So put
a line feed and more tokens where the end of file was, and every successful reading still
succeeds with what it read before, stopping at the same token, except that a statement that the
end of file had ended now also reads that line feed. This is `Reads.extend`, by induction on the
derivation.

Whether a statement that ends at the end of file read a line feed last is the other half of
the story. Only a statement ever reads one last: `Reads.onLine` shows that every other reader
stops right after some other token.
-/

set_option autoImplicit false

namespace ScriptFront

namespace Cursor

variable {c d e : Cursor}

def EndsInNewline (c d : Cursor) : Prop :=
  ∃ pre t, c.ahead = pre ++ t :: d.ahead ∧ t.kind = .newline

def FollowsOnLine (d c : Cursor) : Prop := d.Follows c ∧ ¬c.EndsInNewline d

theorem endLine_of_nil (h : c.ahead = []) : c.endLine = .ok c := by
  simp [endLine, current_of_nil h, c.last_eof]

theorem not_endsInNewline_self (c : Cursor) : ¬c.EndsInNewline c := by
  rintro ⟨pre, t, h, -⟩
  have := congrArg List.length h
  simp at this
  omega

theorem endsInNewline_next (h : c.current.kind = .newline) : c.EndsInNewline c.next := by
  cases hc : c.ahead with
  | nil => simp [current_of_nil hc, c.last_eof] at h
  | cons t ts => exact ⟨[], t, by simp [hc], by rwa [current_of_ahead hc] at h⟩

theorem not_endsInNewline_next (h : c.current.kind ≠ .newline) : ¬c.EndsInNewline c.next := by
  rintro ⟨pre, t, hc, ht⟩
  cases hc' : c.ahead with
  | nil => simp [hc'] at hc
  | cons u us =>
    rw [hc', ahead_next, hc', List.tail_cons] at hc
    -- `u :: us = pre ++ t :: us` leaves no room before `t`
    have hpre : pre = [] := by
      have := congrArg List.length hc
      simp only [List.length_cons, List.length_append] at this
      exact List.length_eq_zero_iff.mp (by omega)
    subst hpre
    simp only [List.nil_append, List.cons.injEq] at hc
    rw [current_of_ahead hc', hc.1] at h
    exact h ht

theorem EndsInNewline.of_follows (h : d.EndsInNewline e) (hd : d.Follows c) :
    c.EndsInNewline e := by
  obtain ⟨pre, t, hpre, ht⟩ := h
  obtain ⟨top, htop⟩ := hd.1
  exact ⟨top ++ pre, t, by rw [← htop, hpre, List.append_assoc], ht⟩

theorem EndsInNewline.split (h : c.EndsInNewline e) (hd : d.Follows c) (he : e.Follows d) :
    d.EndsInNewline e ∨ (c.EndsInNewline d ∧ d.ahead = e.ahead) := by
  obtain ⟨pre, t, hc, ht⟩ := h
  obtain ⟨mid, hmid⟩ := he.1
  obtain ⟨top, htop⟩ := hd.1
  rcases List.eq_nil_or_concat mid with rfl | ⟨L, u, rfl⟩
  · simp only [List.nil_append] at hmid
    exact .inr ⟨⟨pre, t, by rw [← hmid]; exact hc, ht⟩, hmid.symm⟩
  · rw [List.concat_eq_append] at hmid
    have h2 : (top ++ L ++ [u]) ++ e.ahead = (pre ++ [t]) ++ e.ahead :=
      calc (top ++ L ++ [u]) ++ e.ahead = top ++ (L ++ [u] ++ e.ahead) := by simp
        _ = pre ++ [t] ++ e.ahead := by rw [hmid, htop, hc]; simp
    obtain ⟨-, htu⟩ := List.append_inj' (List.append_cancel_right h2) rfl
    simp only [List.cons.injEq, and_true] at htu
    exact .inl ⟨L, u, by rw [← hmid]; simp, htu ▸ ht⟩

namespace FollowsOnLine

theorem refl (c : Cursor) : c.FollowsOnLine c := ⟨Follows.refl c, not_endsInNewline_self c⟩

theorem trans (h : d.FollowsOnLine e) (h' : e.FollowsOnLine c) : d.FollowsOnLine c := by
  refine ⟨h.1.trans h'.1, fun hn => ?_⟩
  rcases hn.split h'.1 h.1 with hn | ⟨hn, -⟩
  · exact h.2 hn
  · exact h'.2 hn

theorem of_lt (h : d.FollowsOnLine e) (hlt : d.ahead.length < e.ahead.length)
    (h' : e.Follows c) : d.FollowsOnLine c := by
  refine ⟨h.1.trans h', fun hn => ?_⟩
  rcases hn.split h' h.1 with hn | ⟨-, heq⟩
  · exact h.2 hn
  · rw [heq] at hlt
    exact Nat.lt_irrefl _ hlt

end FollowsOnLine

theorem ahead_ne_nil_of_lt (h : d.ahead.length < c.ahead.length) : c.ahead ≠ [] :=
  List.ne_nil_of_length_pos (Nat.lt_of_le_of_lt (Nat.zero_le _) h)

theorem endsInNewline_endLine (h : c.ahead ≠ []) (he : c.endLine = .ok d) (hd : d.ahead = []) :
    c.EndsInNewline d := by
  unfold endLine at he
  split at he
  · next hk =>
    cases he
    exact endsInNewline_next hk
  · cases he
    exact absurd hd h
  · cases he
    exact absurd hd h
  · cases he

theorem next_followsOnLine {k : TokenKind} (h : c.current.kind = k) (hk : k ≠ .newline) :
    c.next.FollowsOnLine c :=
  ⟨next_follows c, not_endsInNewline_next (h ▸ hk)⟩

end Cursor

/-- A line feed and the tokens after it, up to an end of file: what is put in place of the end
of file of a cursor. -/
structure Tail where
  nl : Token
  rest : List Token
  last : Token
  nl_kind : nl.kind = .newline
  rest_ne_eof : ∀ t ∈ rest, t.kind ≠ .eof
  last_eof : last.kind = .eof

namespace Tail

variable (T : Tail) {c d e : Cursor}

theorem extend_ne_eof (c : Cursor) : ∀ t ∈ c.ahead ++ T.nl :: T.rest, t.kind ≠ .eof := by
  intro t ht
  simp only [List.mem_append, List.mem_cons] at ht
  rcases ht with ht | rfl | ht
  · exact c.ahead_ne_eof t ht
  · simp [T.nl_kind]
  · exact T.rest_ne_eof t ht

def extend (c : Cursor) : Cursor := ⟨c.ahead ++ T.nl :: T.rest, T.last, T.extend_ne_eof c, T.last_eof⟩

def after : Cursor := ⟨T.rest, T.last, T.rest_ne_eof, T.last_eof⟩

@[simp] theorem ahead_extend : (T.extend c).ahead = c.ahead ++ T.nl :: T.rest := rfl

@[simp] theorem atEnd_extend : (T.extend c).atEnd = false := by simp [Cursor.atEnd]

theorem current_extend (h : c.ahead ≠ []) : (T.extend c).current = c.current := by
  cases hc : c.ahead with
  | nil => exact absurd hc h
  | cons t ts => simp [Cursor.current, hc]

theorem current_extend_of_nil (h : c.ahead = []) : (T.extend c).current = T.nl := by
  simp [Cursor.current, h]

theorem next_extend (h : c.ahead ≠ []) : (T.extend c).next = T.extend c.next := by
  rw [Cursor.ext_iff]
  cases hc : c.ahead with
  | nil => exact absurd hc h
  | cons t ts => simp [hc, extend]

theorem next_extend_of_nil (h : c.ahead = []) : (T.extend c).next = T.after := by
  rw [Cursor.ext_iff]
  simp [h, extend, after]

theorem kind_extend_iff {k : TokenKind} (hk : k ≠ .eof) (hk' : k ≠ .newline) :
    (T.extend c).current.kind = k ↔ c.current.kind = k := by
  by_cases hc : c.ahead = []
  · rw [T.current_extend_of_nil hc, T.nl_kind, Cursor.current_of_nil hc, c.last_eof]
    exact ⟨fun h => absurd h.symm hk', fun h => absurd h.symm hk⟩
  · rw [T.current_extend hc]

theorem kind_extend {k : TokenKind} (h : c.current.kind = k) (hk : k ≠ .eof) :
    (T.extend c).current.kind = k := by
  rwa [T.current_extend (Cursor.ahead_ne_nil_of_kind hk h)]

theorem kind_extend_not_mem {ks : List TokenKind} (h : c.current.kind ∉ ks)
    (hk : TokenKind.newline ∉ ks) : (T.extend c).current.kind ∉ ks := by
  by_cases hc : c.ahead = []
  · rwa [T.current_extend_of_nil hc, T.nl_kind]
  · rwa [T.current_extend hc]

theorem kind_extend_ne {k : TokenKind} (h : c.current.kind ≠ k) (hk : k ≠ .newline) :
    (T.extend c).current.kind ≠ k := by
  simpa using T.kind_extend_not_mem (show c.current.kind ∉ [k] by simpa using h)
    (by simpa using hk.symm)

theorem opAt?_extend (l : Level) : (T.extend c).opAt? l = c.opAt? l := by
  by_cases hc : c.ahead = []
  · rw [opAt?_of_nil c hc]
    simp [Cursor.opAt?, T.current_extend_of_nil hc, T.nl_kind, BinaryOp.ofKind?]
  · rw [Cursor.opAt?, Cursor.opAt?, T.current_extend hc]

theorem ofKind?_extend : UnaryOp.ofKind? (T.extend c).current.kind = UnaryOp.ofKind? c.current.kind := by
  by_cases hc : c.ahead = []
  · rw [T.current_extend_of_nil hc, T.nl_kind, Cursor.current_of_nil hc, c.last_eof]
    rfl
  · rw [T.current_extend hc]

theorem endsReturn_extend :
    (T.extend c).current.kind.endsReturn = c.current.kind.endsReturn := by
  by_cases hc : c.ahead = []
  · rw [T.current_extend_of_nil hc, T.nl_kind, Cursor.current_of_nil hc, c.last_eof]
    rfl
  · rw [T.current_extend hc]

theorem sees_extend {k : TokenKind} (hk : k ≠ .eof) (hk' : k ≠ .newline) :
    (T.extend c).sees k = c.sees k := by
  simp [Cursor.sees, T.kind_extend_iff hk hk']

theorem extend_skip {k : TokenKind} (hk : k ≠ .eof) (hk' : k ≠ .newline) :
    T.extend (if c.current.kind = k then c.next else c) =
      if (T.extend c).current.kind = k then (T.extend c).next else T.extend c := by
  by_cases h : c.current.kind = k
  · rw [if_pos h, if_pos ((T.kind_extend_iff hk hk').mpr h),
      T.next_extend (Cursor.ahead_ne_nil_of_kind hk h)]
  · rw [if_neg h, if_neg (mt (T.kind_extend_iff hk hk').mp h)]

theorem extend_skip_of_ne_nil {k : TokenKind} (h : c.ahead ≠ []) :
    T.extend (if c.current.kind = k then c.next else c) =
      if (T.extend c).current.kind = k then (T.extend c).next else T.extend c := by
  by_cases hk : c.current.kind = k
  · rw [if_pos hk, if_pos (by rwa [T.current_extend h]), T.next_extend h]
  · rw [if_neg hk, if_neg (by rwa [T.current_extend h])]

theorem endLine_extend (h : c.ahead ≠ []) (he : c.endLine = .ok d) :
    (T.extend c).endLine = .ok (T.extend d) := by
  unfold Cursor.endLine at he ⊢
  rw [T.current_extend h]
  split at he <;> simp_all [T.next_extend h]

theorem endLine_extend_of_nil (h : c.ahead = []) : (T.extend c).endLine = .ok T.after := by
  simp [Cursor.endLine, T.current_extend_of_nil h, T.nl_kind, T.next_extend_of_nil h]

end Tail

namespace Reader

open Cursor

variable {c d : Cursor} {v : Outcome}

theorem Reads.lt_expr (h : Reads expr c v d) : d.ahead.length < c.ahead.length := by
  have h' := h.run
  rw [Reader.run] at h'
  obtain ⟨⟨x, e⟩, he, hv⟩ := Except.map_eq_ok.mp h'
  cases hv
  exact Read.lt_of_plain he

theorem Reads.lt_blockBody (h : Reads blockBody c v d) : d.ahead.length < c.ahead.length := by
  have h' := h.run
  rw [Reader.run] at h'
  obtain ⟨⟨ss, e⟩, he, hv⟩ := Except.map_eq_ok.mp h'
  cases hv
  exact Read.lt_of_plain he

theorem Reads.lt_head (h : Reads head c v d) : d.ahead.length < c.ahead.length := by
  have h' := h.run
  rw [Reader.run] at h'
  obtain ⟨⟨s, e⟩, he, hv⟩ := Except.map_eq_ok.mp h'
  cases hv
  exact Read.lt_of_plain he

theorem operand_ne_stmt (l : Level) : operand l ≠ stmt := by
  cases l <;> nofun

theorem kind_ne_newline_of_opAt? {l : Level} {op : BinaryOp} (h : c.opAt? l = some op) :
    c.current.kind ≠ .newline := by
  intro hk
  simp [Cursor.opAt?, hk, BinaryOp.ofKind?] at h

theorem kind_ne_newline_of_ofKind? {op : UnaryOp} (h : UnaryOp.ofKind? c.current.kind = some op) :
    c.current.kind ≠ .newline := by
  intro hk
  rw [hk] at h
  cases h

theorem Reads.onLine {r : Reader} (h : Reads r c v d) : r ≠ stmt → d.FollowsOnLine c := by
  induction h with
  | typeInt hk | typeBool hk | primaryName hk | primaryTrue hk | primaryFalse hk
  | blockBodyEnd hk | headBreak hk | headContinue hk =>
    exact fun _ => next_followsOnLine hk (by decide)
  | namesLast hk _ | primaryInteger hk _ | retEmpty hk _ =>
    exact fun _ => next_followsOnLine hk (by decide)
  | typeNone | moreTypesNil | paramsNone | levelRestStop | moreExprsNil | condNone | postNone =>
    exact fun _ => FollowsOnLine.refl _
  | typeListNil _ ih | typeFunc _ _ ih | paramsSome _ _ ih | primaryGroup _ _ ih
  | unaryPrimary _ _ ih | exprFunc _ _ ih | exprOr _ _ ih | condSome _ _ ih | resultsBare _ _ ih
  | headVar _ _ ih | headIf _ _ ih | headFor _ _ ih | headReturn _ _ ih | headBlock _ _ ih
  | headSimple _ _ ih | postSome _ _ _ ih | simpleSingle _ _ _ _ ih => exact fun _ => ih nofun
  | typeListCons _ _ ih1 ih2 | exprList _ _ ih1 ih2 | branchesEnd _ _ _ ih1 ih2 =>
    exact fun _ => (ih2 nofun).trans (ih1 nofun)
  | level _ _ ih1 ih2 => exact fun _ => (ih2 nofun).trans (ih1 (operand_ne_stmt _))
  | moreTypesCons hk _ _ ih1 ih2 | moreExprsCons hk _ _ ih1 ih2 =>
    exact fun _ => (ih2 nofun).trans ((ih1 nofun).trans (next_followsOnLine hk (by decide)))
  | levelRestStep hop _ _ ih1 ih2 =>
    exact fun _ => (ih2 nofun).trans ((ih1 (operand_ne_stmt _)).trans
      (next_followsOnLine rfl (kind_ne_newline_of_opAt? hop)))
  | unaryOp hop _ ih => exact fun _ => (ih nofun).trans (next_followsOnLine rfl (kind_ne_newline_of_ofKind? hop))
  | loopGuarded hk _ _ _ _ _ ih1 ih2 | loopInit hk _ _ _ _ _ ih1 ih2
  | varDeclBare hk _ _ _ ih1 ih2 =>
    exact fun _ => (ih2 nofun).trans ((ih1 nofun).trans (next_followsOnLine hk (by decide)))
  | namesMore h1 h2 _ ih =>
    exact fun _ => (ih nofun).trans ((next_followsOnLine h2 (by decide)).trans
      (next_followsOnLine h1 (by decide)))
  | paramRunLast hk _ _ _ ih | ifChain hk _ ih | loopForever hk _ _ ih | loopClauses hk _ _ ih
  | retValues hk _ _ ih => exact fun _ => (ih nofun).trans (next_followsOnLine hk (by decide))
  | resultsList hk _ h2 ih | group hk _ h2 ih =>
    exact fun _ => (next_followsOnLine h2 (by decide)).trans ((ih nofun).trans
      (next_followsOnLine hk (by decide)))
  | funcType h1 h2 _ h4 _ ih1 ih2 =>
    exact fun _ => (ih2 nofun).trans ((next_followsOnLine h4 (by decide)).trans ((ih1 nofun).trans
      ((next_followsOnLine h2 (by decide)).trans (next_followsOnLine h1 (by decide)))))
  | paramRunMore h1 _ h2 _ ih1 ih2 =>
    exact fun _ => (ih2 nofun).trans ((next_followsOnLine h2 (by decide)).trans ((ih1 nofun).trans
      (next_followsOnLine h1 (by decide))))
  | funcLit h1 h2 _ h4 _ _ ih1 ih2 ih3 =>
    exact fun _ => (ih3 nofun).trans ((ih2 nofun).trans ((next_followsOnLine h4 (by decide)).trans
      ((ih1 nofun).trans ((next_followsOnLine h2 (by decide)).trans
        (next_followsOnLine h1 (by decide))))))
  | branchesElseIf _ _ h1 h2 _ ih1 ih2 ih3 =>
    exact fun _ => (ih3 nofun).trans ((next_followsOnLine h2 (by decide)).trans
      ((next_followsOnLine h1 (by decide)).trans ((ih2 nofun).trans (ih1 nofun))))
  | branchesElse _ _ h1 _ _ ih1 ih2 ih3 | simpleAssign _ _ _ h1 _ ih1 ih2 ih3
  | simpleDefine _ _ _ h1 _ _ ih1 ih2 ih3 =>
    exact fun _ => (ih3 nofun).trans ((next_followsOnLine h1 (by decide)).trans
      ((ih2 nofun).trans (ih1 nofun)))
  | varDeclTyped hk _ _ he _ ih1 ih2 ih3 | varDeclInferred hk _ _ he _ ih1 ih2 ih3 =>
    exact fun _ => (ih3 nofun).trans ((next_followsOnLine he (by decide)).trans ((ih2 nofun).trans
      ((ih1 nofun).trans (next_followsOnLine hk (by decide)))))
  | clauses hk _ h1 _ _ ih1 ih2 ih3 =>
    exact fun _ => (ih3 nofun).trans ((ih2 nofun).trans ((next_followsOnLine h1 (by decide)).trans
      ((ih1 nofun).trans (next_followsOnLine hk (by decide)))))
  | @block c _ _ _ s ih =>
    exact fun _ => (ih nofun).of_lt s.lt_blockBody ((Follows.ite_next _ _).trans c.next_follows)
  | blockBodyStmt _ _ s1 s2 _ ih2 => exact fun _ => (ih2 nofun).of_lt s2.lt_blockBody s1.follows
  | stmtSemicolon | stmtNewline | stmtHead => exact fun h => absurd rfl h

def Extends (T : Tail) : Reader → Cursor → Outcome → Cursor → Prop
  | stmt, c, v, d =>
    (Reads stmt (T.extend c) v (T.extend d) ∧ (d.ahead = [] → c.EndsInNewline d)) ∨
    (d.ahead = [] ∧ Reads stmt (T.extend c) v T.after ∧ ¬c.EndsInNewline d)
  | r, c, v, d => Reads r (T.extend c) v (T.extend d)

theorem extends_operand (T : Tail) {l : Level} :
    Extends T (operand l) c v d ↔ Reads (operand l) (T.extend c) v (T.extend d) := by
  cases l <;> exact Iff.rfl

section Extend

variable (T : Tail)

theorem extends_stmtSemicolon (hk : c.current.kind = .semicolon) (hd : c.next.endLine = .ok d) :
    Extends T stmt c (.stmt (.empty c.current.start)) d := by
  have n1 := ahead_ne_nil_of_kind (by decide) hk
  have hv := T.current_extend n1
  by_cases n2 : c.next.ahead = []
  · rw [endLine_of_nil n2, Except.ok.injEq] at hd
    subst hd
    refine .inr ⟨n2, ?_, not_endsInNewline_next (by rw [hk]; decide)⟩
    rw [← hv]
    exact .stmtSemicolon (by rwa [hv]) (by rw [T.next_extend n1]; exact T.endLine_extend_of_nil n2)
  · refine .inl ⟨?_, fun hn => (endsInNewline_endLine n2 hd hn).of_follows (next_follows c)⟩
    rw [← hv]
    exact .stmtSemicolon (by rwa [hv]) (by rw [T.next_extend n1]; exact T.endLine_extend n2 hd)

theorem extends_stmtNewline (hk : c.current.kind = .newline) :
    Extends T stmt c (.stmt (.empty c.current.start)) c.next := by
  have n1 := ahead_ne_nil_of_kind (by decide) hk
  refine .inl ⟨?_, fun _ => endsInNewline_next hk⟩
  rw [← T.current_extend n1, ← T.next_extend n1]
  exact .stmtNewline (by rwa [T.current_extend n1])

theorem extends_stmtHead {s : Stmt} {e : Cursor} (h1 : c.current.kind ≠ .semicolon)
    (h2 : c.current.kind ≠ .newline) (hh : Reads head c (.stmt s) d)
    (he : (if d.current.kind = .semicolon then d.next else d).endLine = .ok e)
    (ih : Reads head (T.extend c) (.stmt s) (T.extend d)) :
    Extends T stmt c (.stmt (s.closedBy (d.sees .semicolon))) e := by
  have hv := T.current_extend (ahead_ne_nil_of_lt hh.lt_head)
  have hskip := T.extend_skip (c := d) (k := .semicolon) (by decide) (by decide)
  rw [← T.sees_extend (by decide) (by decide)]
  have hline : (if d.current.kind = .semicolon then d.next else d).FollowsOnLine c := by
    split
    · next hs =>
      exact (next_followsOnLine hs (by decide)).of_lt (next_lt (by decide) hs) hh.follows
    · exact hh.onLine nofun
  obtain ⟨d2, hd2⟩ : ∃ d2, (if d.current.kind = .semicolon then d.next else d) = d2 := ⟨_, rfl⟩
  rw [hd2] at he hskip hline
  by_cases n2 : d2.ahead = []
  · rw [endLine_of_nil n2, Except.ok.injEq] at he
    subst he
    refine .inr ⟨n2, .stmtHead (by rwa [hv]) (by rwa [hv]) ih ?_, hline.2⟩
    rw [← hskip]
    exact T.endLine_extend_of_nil n2
  · refine .inl ⟨.stmtHead (by rwa [hv]) (by rwa [hv]) ih ?_,
      fun hn => (endsInNewline_endLine n2 he hn).of_follows hline.1⟩
    rw [← hskip]
    exact T.endLine_extend n2 he

/-- Every successful reading reads the same once a line feed and more tokens stand where the
end of file was. -/
theorem Reads.extend {r : Reader} (h : Reads r c v d) : Extends T r c v d := by
  induction h with
  | @typeInt c hk | @typeBool c hk =>
    dsimp only [Extends]
    rw [← T.next_extend (ahead_ne_nil_of_kind (by decide) hk)]
    first
    | exact .typeInt (T.kind_extend hk (by decide))
    | exact .typeBool (T.kind_extend hk (by decide))
  | typeFunc hk _ ih => exact .typeFunc (T.kind_extend hk (by decide)) ih
  | typeNone h1 h2 h3 =>
    exact .typeNone (T.kind_extend_ne h1 (by decide)) (T.kind_extend_ne h2 (by decide))
      (T.kind_extend_ne h3 (by decide))
  | funcType h1 h2 _ h4 _ ih1 ih2 =>
    have n1 := ahead_ne_nil_of_kind (by decide) h1
    have n2 := ahead_ne_nil_of_kind (by decide) h2
    dsimp only [Extends] at ih1 ih2 ⊢
    refine .funcType (T.kind_extend h1 (by decide)) ?_ ?_ (T.kind_extend h4 (by decide)) ?_
    · rw [T.next_extend n1]
      exact T.kind_extend h2 (by decide)
    · rwa [T.next_extend n1, T.next_extend n2]
    · rwa [T.next_extend (ahead_ne_nil_of_kind (by decide) h4)]
  | typeListNil _ ih => exact .typeListNil ih
  | typeListCons _ _ ih1 ih2 => exact .typeListCons ih1 ih2
  | moreTypesCons hk _ _ ih1 ih2 =>
    dsimp only [Extends] at ih1 ih2 ⊢
    refine .moreTypesCons (T.kind_extend hk (by decide)) ?_ ih2
    rwa [T.next_extend (ahead_ne_nil_of_kind (by decide) hk)]
  | moreTypesNil hk => exact .moreTypesNil (T.kind_extend_ne hk (by decide))
  | resultsList hk _ h2 ih =>
    dsimp only [Extends] at ih ⊢
    rw [← T.next_extend (ahead_ne_nil_of_kind (by decide) h2)]
    refine .resultsList (T.kind_extend hk (by decide)) ?_ (T.kind_extend h2 (by decide))
    rwa [T.next_extend (ahead_ne_nil_of_kind (by decide) hk)]
  | resultsBare hk _ ih => exact .resultsBare (T.kind_extend_ne hk (by decide)) ih
  | @namesMore c _ _ h1 h2 _ ih =>
    have n1 := ahead_ne_nil_of_kind (by decide) h1
    have n2 := ahead_ne_nil_of_kind (by decide) h2
    dsimp only [Extends] at ih ⊢
    rw [← T.current_extend n1]
    refine .namesMore (T.kind_extend h1 (by decide)) ?_ ?_
    · rw [T.next_extend n1]
      exact T.kind_extend h2 (by decide)
    · rwa [T.next_extend n1, T.next_extend n2]
  | @namesLast c h1 h2 =>
    have n1 := ahead_ne_nil_of_kind (by decide) h1
    dsimp only [Extends]
    rw [← T.current_extend n1, ← T.next_extend n1]
    refine .namesLast (by rwa [T.current_extend n1]) ?_
    rw [T.next_extend n1]
    exact T.kind_extend_ne h2 (by decide)
  | @paramRunMore _ _ c _ d _ _ h1 _ h2 _ ih1 ih2 =>
    have n1 := ahead_ne_nil_of_kind (by decide) h1
    dsimp only [Extends] at ih1 ih2 ⊢
    rw [← T.current_extend n1, ← T.next_extend (ahead_ne_nil_of_kind (by decide) h2)] at ih2
    refine .paramRunMore (T.kind_extend h1 (by decide)) ?_ (T.kind_extend h2 (by decide)) ih2
    rwa [T.next_extend n1]
  | @paramRunLast _ _ c _ _ _ h1 _ h2 h3 ih =>
    have n1 := ahead_ne_nil_of_kind (by decide) h1
    dsimp only [Extends] at ih ⊢
    rw [← T.current_extend n1] at h3
    refine .paramRunLast (T.kind_extend h1 (by decide)) ?_ (T.kind_extend_ne h2 (by decide)) h3
    rwa [T.next_extend n1]
  | paramsNone hk => exact .paramsNone (T.kind_extend hk (by decide))
  | paramsSome hk _ ih => exact .paramsSome (T.kind_extend_ne hk (by decide)) ih
  | levelRestStop hop => exact .levelRestStop (by rwa [T.opAt?_extend])
  | @levelRestStep _ _ c _ _ _ _ _ hop _ _ ih1 ih2 =>
    have n1 : c.ahead ≠ [] := fun hn => by rw [opAt?_of_nil c hn] at hop; cases hop
    dsimp only [Extends] at ih2 ⊢
    rw [← T.current_extend n1] at ih2
    refine .levelRestStep (by rwa [T.opAt?_extend]) ?_ ih2
    rw [T.next_extend n1]
    exact (extends_operand T).mp ih1
  | moreExprsCons hk _ _ ih1 ih2 =>
    dsimp only [Extends] at ih1 ih2 ⊢
    refine .moreExprsCons (T.kind_extend hk (by decide)) ?_ ih2
    rwa [T.next_extend (ahead_ne_nil_of_kind (by decide) hk)]
  | moreExprsNil hk => exact .moreExprsNil (T.kind_extend_ne hk (by decide))
  | group hk _ h2 ih =>
    dsimp only [Extends] at ih ⊢
    rw [← T.next_extend (ahead_ne_nil_of_kind (by decide) h2)]
    refine .group (T.kind_extend hk (by decide)) ?_ (T.kind_extend h2 (by decide))
    rwa [T.next_extend (ahead_ne_nil_of_kind (by decide) hk)]
  | @primaryName c hk | @primaryTrue c hk | @primaryFalse c hk =>
    have n1 := ahead_ne_nil_of_kind (by decide) hk
    dsimp only [Extends]
    rw [← T.current_extend n1, ← T.next_extend n1]
    first
    | exact .primaryName (by rwa [T.current_extend n1])
    | exact .primaryTrue (by rwa [T.current_extend n1])
    | exact .primaryFalse (by rwa [T.current_extend n1])
  | @primaryInteger c _ hk hx =>
    have n1 := ahead_ne_nil_of_kind (by decide) hk
    dsimp only [Extends]
    rw [← T.next_extend n1]
    exact .primaryInteger (T.kind_extend hk (by decide)) (by rwa [T.current_extend n1])
  | primaryGroup hk _ ih => exact .primaryGroup (T.kind_extend hk (by decide)) ih
  | @unaryOp c _ _ _ hop _ ih =>
    have n1 : c.ahead ≠ [] := fun hn => by
      rw [current_of_nil hn, c.last_eof] at hop
      cases hop
    dsimp only [Extends] at ih ⊢
    rw [← T.current_extend n1]
    exact .unaryOp (by rwa [T.current_extend n1]) (by rwa [T.next_extend n1])
  | unaryPrimary hop _ ih => exact .unaryPrimary (by rwa [T.ofKind?_extend]) ih
  | level _ _ ih1 ih2 => exact .level ((extends_operand T).mp ih1) ih2
  | @funcLit c _ _ _ _ _ _ h1 h2 _ h4 _ _ ih1 ih2 ih3 =>
    have n1 := ahead_ne_nil_of_kind (by decide) h1
    have n2 := ahead_ne_nil_of_kind (by decide) h2
    dsimp only [Extends] at ih1 ih2 ih3 ⊢
    rw [← T.current_extend n1]
    refine .funcLit (T.kind_extend h1 (by decide)) ?_ ?_ (T.kind_extend h4 (by decide)) ?_ ih3
    · rw [T.next_extend n1]
      exact T.kind_extend h2 (by decide)
    · rwa [T.next_extend n1, T.next_extend n2]
    · rwa [T.next_extend (ahead_ne_nil_of_kind (by decide) h4)]
  | exprFunc hk _ ih => exact .exprFunc (T.kind_extend hk (by decide)) ih
  | exprOr hk _ ih => exact .exprOr (T.kind_extend_ne hk (by decide)) ih
  | exprList _ _ ih1 ih2 => exact .exprList ih1 ih2
  | condNone hk => exact .condNone (T.kind_extend hk (by decide))
  | condSome hk _ ih => exact .condSome (T.kind_extend_ne hk (by decide)) ih
  | @branchesElseIf _ _ _ _ _ e _ _ _ _ _ h1 h2 _ ih1 ih2 ih3 =>
    have n1 := ahead_ne_nil_of_kind (by decide) h1
    have n2 := ahead_ne_nil_of_kind (by decide) h2
    dsimp only [Extends] at ih1 ih2 ih3 ⊢
    rw [← T.current_extend n2, ← T.next_extend n2, ← T.next_extend n1] at ih3
    refine .branchesElseIf ih1 ih2 (T.kind_extend h1 (by decide)) ?_ ih3
    rw [T.next_extend n1]
    exact T.kind_extend h2 (by decide)
  | @branchesElse _ _ _ _ _ e _ _ _ _ h1 h2 _ ih1 ih2 ih3 =>
    have n1 := ahead_ne_nil_of_kind (by decide) h1
    dsimp only [Extends] at ih1 ih2 ih3 ⊢
    refine .branchesElse ih1 ih2 (T.kind_extend h1 (by decide)) ?_ (by rwa [T.next_extend n1])
    rw [T.next_extend n1]
    exact T.kind_extend_ne h2 (by decide)
  | branchesEnd _ _ h1 ih1 ih2 => exact .branchesEnd ih1 ih2 (T.kind_extend_ne h1 (by decide))
  | @simpleSingle c _ _ s h1 h2 h3 ih =>
    dsimp only [Extends] at ih ⊢
    rw [← T.current_extend (ahead_ne_nil_of_lt s.lt_expr)]
    exact .simpleSingle ih (T.kind_extend_ne h1 (by decide)) (T.kind_extend_ne h2 (by decide))
      (T.kind_extend_ne h3 (by decide))
  | @simpleAssign c _ d _ _ _ _ s1 hd _ he _ ih1 ih2 ih3 =>
    dsimp only [Extends] at ih1 ih2 ih3 ⊢
    rw [← T.current_extend (ahead_ne_nil_of_lt s1.lt_expr)]
    refine .simpleAssign ih1 ?_ ih2 (T.kind_extend he (by decide))
      (by rwa [T.next_extend (ahead_ne_nil_of_kind (by decide) he)])
    rcases hd with hd | hd | hd
    · exact .inl (T.kind_extend hd (by decide))
    · exact .inr (.inl (T.kind_extend hd (by decide)))
    · exact .inr (.inr (T.kind_extend hd (by decide)))
  | @simpleDefine c _ d _ _ _ _ _ s1 hd _ he hn _ ih1 ih2 ih3 =>
    dsimp only [Extends] at ih1 ih2 ih3 ⊢
    rw [← T.current_extend (ahead_ne_nil_of_lt s1.lt_expr)]
    refine .simpleDefine ih1 ?_ ih2 (T.kind_extend he (by decide)) hn
      (by rwa [T.next_extend (ahead_ne_nil_of_kind (by decide) he)])
    rcases hd with hd | hd | hd
    · exact .inl (T.kind_extend hd (by decide))
    · exact .inr (.inl (T.kind_extend hd (by decide)))
    · exact .inr (.inr (T.kind_extend hd (by decide)))
  | @block c _ _ hk s ih =>
    have n1 := ahead_ne_nil_of_kind (by decide) hk
    have n2 : c.next.ahead ≠ [] := by
      intro hn
      have hlt := s.lt_blockBody
      rw [if_neg (by rw [current_of_nil hn, c.next.last_eof]; decide), hn] at hlt
      exact Nat.not_lt_zero _ hlt
    dsimp only [Extends] at ih ⊢
    rw [← T.current_extend n1]
    refine .block (by rwa [T.current_extend n1]) ?_
    rwa [T.next_extend n1, ← T.extend_skip_of_ne_nil n2]
  | @blockBodyEnd c hk =>
    have n1 := ahead_ne_nil_of_kind (by decide) hk
    dsimp only [Extends]
    rw [← T.next_extend n1]
    exact .blockBodyEnd (T.kind_extend hk (by decide))
  | blockBodyStmt h1 _ _ s2 ih1 ih2 =>
    rcases ih1 with ⟨r1, -⟩ | ⟨hd, -, -⟩
    · exact .blockBodyStmt (T.kind_extend_ne h1 (by decide)) (T.atEnd_extend) r1 ih2
    · have := s2.lt_blockBody
      rw [hd] at this
      exact absurd this (Nat.not_lt_zero _)
  | @varDeclTyped c _ _ _ e _ _ hk _ _ he _ ih1 ih2 ih3
  | @varDeclInferred c _ _ e _ _ hk _ _ he _ ih1 ih2 ih3 =>
    have n1 := ahead_ne_nil_of_kind (by decide) hk
    dsimp only [Extends] at ih1 ih2 ih3 ⊢
    rw [← T.current_extend n1]
    first
    | exact .varDeclTyped (T.kind_extend hk (by decide)) (by rwa [T.next_extend n1]) ih2
        (T.kind_extend he (by decide)) (by rwa [T.next_extend (ahead_ne_nil_of_kind (by decide) he)])
    | exact .varDeclInferred (T.kind_extend hk (by decide)) (by rwa [T.next_extend n1]) ih2
        (T.kind_extend he (by decide)) (by rwa [T.next_extend (ahead_ne_nil_of_kind (by decide) he)])
  | @varDeclBare c _ _ _ _ hk _ _ he ih1 ih2 =>
    have n1 := ahead_ne_nil_of_kind (by decide) hk
    dsimp only [Extends] at ih1 ih2 ⊢
    rw [← T.current_extend n1]
    exact .varDeclBare (T.kind_extend hk (by decide)) (by rwa [T.next_extend n1]) ih2
      (T.kind_extend_ne he (by decide))
  | @ifChain c _ _ _ hk _ ih =>
    have n1 := ahead_ne_nil_of_kind (by decide) hk
    dsimp only [Extends] at ih ⊢
    rw [← T.current_extend n1] at ih ⊢
    exact .ifChain (T.kind_extend hk (by decide)) (by rwa [T.next_extend n1])
  | @loopForever c _ _ hk h1 _ ih | @loopClauses c _ _ _ hk h1 _ ih =>
    have n1 := ahead_ne_nil_of_kind (by decide) hk
    dsimp only [Extends] at ih ⊢
    rw [← T.current_extend n1]
    have h1' := T.kind_extend h1 (by decide)
    rw [← T.next_extend n1] at h1' ih
    first
    | exact .loopForever (T.kind_extend hk (by decide)) h1' ih
    | exact .loopClauses (T.kind_extend hk (by decide)) h1' ih
  | @loopGuarded c _ _ _ _ _ _ hk h1 h2 _ h3 _ ih1 ih2 =>
    have n1 := ahead_ne_nil_of_kind (by decide) hk
    dsimp only [Extends] at ih1 ih2 ⊢
    rw [← T.current_extend n1]
    have h1' := T.kind_extend_ne h1 (by decide)
    have h2' := T.kind_extend_ne h2 (by decide)
    rw [← T.next_extend n1] at h1' h2' ih1
    exact .loopGuarded (T.kind_extend hk (by decide)) h1' h2' ih1 (T.kind_extend h3 (by decide)) ih2
  | @loopInit c _ _ _ _ _ hk h1 h2 _ h3 _ ih1 ih2 =>
    have n1 := ahead_ne_nil_of_kind (by decide) hk
    dsimp only [Extends] at ih1 ih2 ⊢
    rw [← T.current_extend n1]
    have h1' := T.kind_extend_ne h1 (by decide)
    have h2' := T.kind_extend_ne h2 (by decide)
    rw [← T.next_extend n1] at h1' h2' ih1
    exact .loopInit (T.kind_extend hk (by decide)) h1' h2' ih1 (T.kind_extend_ne h3 (by decide)) ih2
  | @clauses _ c _ d _ _ _ _ hk _ h1 _ _ ih1 ih2 ih3 =>
    dsimp only [Extends] at ih1 ih2 ih3 ⊢
    rw [← T.next_extend (ahead_ne_nil_of_kind (by decide) hk)] at ih1
    rw [← T.next_extend (ahead_ne_nil_of_kind (by decide) h1)] at ih2
    exact .clauses (T.kind_extend hk (by decide)) ih1 (T.kind_extend h1 (by decide)) ih2 ih3
  | postNone hk => exact .postNone (T.kind_extend hk (by decide))
  | postSome hk _ hs ih => exact .postSome (T.kind_extend_ne hk (by decide)) ih hs
  | @retEmpty c hk h1 =>
    have n1 := ahead_ne_nil_of_kind (by decide) hk
    dsimp only [Extends]
    rw [← T.current_extend n1, ← T.next_extend n1]
    refine .retEmpty (by rwa [T.current_extend n1]) ?_
    rwa [T.next_extend n1, T.endsReturn_extend]
  | @retValues c _ _ hk h1 _ ih =>
    have n1 := ahead_ne_nil_of_kind (by decide) hk
    dsimp only [Extends] at ih ⊢
    rw [← T.current_extend n1]
    refine .retValues (T.kind_extend hk (by decide)) ?_ (by rwa [T.next_extend n1])
    rwa [T.next_extend n1, T.endsReturn_extend]
  | headVar hk _ ih => exact .headVar (T.kind_extend hk (by decide)) ih
  | headIf hk _ ih => exact .headIf (T.kind_extend hk (by decide)) ih
  | headFor hk _ ih => exact .headFor (T.kind_extend hk (by decide)) ih
  | headReturn hk _ ih => exact .headReturn (T.kind_extend hk (by decide)) ih
  | headBlock hk _ ih => exact .headBlock (T.kind_extend hk (by decide)) ih
  | @headBreak c hk | @headContinue c hk =>
    have n1 := ahead_ne_nil_of_kind (by decide) hk
    dsimp only [Extends]
    rw [← T.current_extend n1, ← T.next_extend n1]
    first
    | exact .headBreak (by rwa [T.current_extend n1])
    | exact .headContinue (by rwa [T.current_extend n1])
  | headSimple hk _ ih => exact .headSimple (T.kind_extend_not_mem hk (by decide)) ih
  | stmtSemicolon hk hd => exact extends_stmtSemicolon T hk hd
  | stmtNewline hk => exact extends_stmtNewline T hk
  | stmtHead h1 h2 hh he ih => exact extends_stmtHead T h1 h2 hh he ih

end Extend

end Reader

end ScriptFront
