import ScriptFront.Proofs.Grammar.Derivation
/-!
# Every successful reading is a derivation

Each reader's step equation is taken apart into the premises of one constructor of
`Reader.Reads`; the readings it calls at the way are derivations by induction on the family of
readers. Together with `Reads.run`, a reader succeeds exactly along a derivation.
-/

set_option autoImplicit false

namespace ScriptFront

theorem Cursor.expectOr_eq_ok_iff {c d : Cursor} {k : TokenKind} {e : Error} {t : Token} :
    c.expectOr k e = .ok (t, d) ↔ c.current.kind = k ∧ t = c.current ∧ d = c.next := by
  unfold Cursor.expectOr
  by_cases hk : c.current.kind = k
  · simp [hk, eq_comm]
  · simp [hk]

theorem Cursor.length_next_le (c : Cursor) : c.next.ahead.length ≤ c.ahead.length :=
  c.next_follows.length_le

theorem Level.operand_lt {l : Level} {c d : Cursor} {x : Expr} (h : l.operand c = .ok (x, d)) :
    d.ahead.length < c.ahead.length := by
  cases l <;> simp only [Level.operand, Level.tighter, Level.read] at h <;>
    exact Read.lt_of_plain h

namespace Reader

def Sound (r : Reader) (c : Cursor) : Prop := ∀ v d, r.run c = .ok (v, d) → Reads r c v d

section Below

variable {r : Reader} {c c1 : Cursor}

theorem Below.reads (ih : Below Sound r c) (hlt : c1.ahead.length < c.ahead.length)
    (r' : Reader) {α : Type} {x : Except Error (α × Cursor)} {g : α → Outcome}
    (hr : r'.run c1 = x.map fun p => (g p.1, p.2)) {a : α} {e : Cursor} (h : x = .ok (a, e)) :
    Reads r' c1 (g a) e :=
  ih.further hlt r' (g a) e (by rw [hr, h]; rfl)

theorem Below.readsHere (ih : Below Sound r c) (hle : c1.ahead.length ≤ c.ahead.length)
    (r' : Reader) (hrank : r'.rank < r.rank) {α : Type} {x : Except Error (α × Cursor)}
    {g : α → Outcome} (hr : r'.run c1 = x.map fun p => (g p.1, p.2)) {a : α} {e : Cursor}
    (h : x = .ok (a, e)) : Reads r' c1 (g a) e :=
  ih.lower hle hrank (g a) e (by rw [hr, h]; rfl)

end Below

open Cursor

theorem sound_moreTypes (c : Cursor) (ih : Below Sound moreTypes c) : Sound moreTypes c := by
  intro v d h
  simp only [run] at h
  rw [readMoreTypes_eq] at h
  split at h
  · next hk =>
    have l1 := next_lt (by decide) hk
    simp only [Except.map_eq_ok, Except.bind_eq_ok] at h
    obtain ⟨_, ⟨⟨t?, d1⟩, h1, h⟩, hvd⟩ := h
    dsimp only at *
    cases t? with
    | none => cases h
    | some t =>
      simp only [Except.map_eq_ok] at h
      obtain ⟨⟨ts, d2⟩, h2, hv⟩ := h
      dsimp only at *
      cases hv
      cases hvd
      have l2 := Attempt.le_of_plain h1
      exact .moreTypesCons hk (ih.reads l1 type rfl h1) (ih.reads (by omega) moreTypes rfl h2)
  · next hk =>
    cases h
    exact .moreTypesNil hk

theorem sound_funcType (c : Cursor) (ih : Below Sound funcType c) : Sound funcType c := by
  intro v d h
  simp only [run] at h
  rw [readFuncType_eq] at h
  simp only [Except.map_eq_ok, Except.bind_eq_ok] at h
  obtain ⟨_, ⟨⟨_, d1⟩, h1, ⟨_, d2⟩, h2, ⟨ps, d3⟩, h3, ⟨_, d4⟩, h4, ⟨rs, d5⟩, h5, hv⟩, hvd⟩ := h
  dsimp only at *
  cases hv
  cases hvd
  obtain ⟨k1, -, rfl⟩ := expectOr_eq_ok_iff.mp h1
  obtain ⟨k2, -, rfl⟩ := expectOr_eq_ok_iff.mp h2
  obtain ⟨k4, -, rfl⟩ := expectOr_eq_ok_iff.mp h4
  dsimp only at *
  have l1 := next_lt (by decide) k1
  have l2 := c.next.length_next_le
  have l3 := Attempt.le_of_plain h3
  have l4 := d3.length_next_le
  exact .funcType k1 k2 (ih.reads (by omega) typeList rfl h3) k4
    (ih.reads (by omega) results rfl h5)

theorem sound_type (c : Cursor) (ih : Below Sound type c) : Sound type c := by
  intro v d h
  simp only [run] at h
  rw [readType?_eq] at h
  split at h
  · next hk =>
    cases h
    exact .typeInt hk
  split at h
  · next hk =>
    cases h
    exact .typeBool hk
  split at h
  · next hk =>
    simp only [Except.map_eq_ok] at h
    obtain ⟨_, ⟨⟨t, d1⟩, h1, rfl⟩, hvd⟩ := h
    dsimp only at *
    cases hvd
    exact .typeFunc hk (ih.readsHere (Nat.le_refl _) funcType (by decide) rfl h1)
  · next h1 h2 h3 =>
    cases h
    exact .typeNone h1 h2 h3

theorem sound_typeList (c : Cursor) (ih : Below Sound typeList c) : Sound typeList c := by
  intro v d h
  simp only [run] at h
  rw [readTypeList_eq] at h
  simp only [Except.map_eq_ok, Except.bind_eq_ok] at h
  obtain ⟨_, ⟨⟨t?, d1⟩, h1, h⟩, hvd⟩ := h
  dsimp only at *
  have g1 := ih.readsHere (Nat.le_refl _) type (by decide) rfl h1
  cases t? with
  | none =>
    cases h
    cases hvd
    exact .typeListNil g1
  | some t =>
    simp only [Except.map_eq_ok] at h
    obtain ⟨⟨ts, d2⟩, h2, hv⟩ := h
    dsimp only at *
    cases hv
    cases hvd
    exact .typeListCons g1
      (ih.readsHere (Attempt.le_of_plain h1) moreTypes (by decide) rfl h2)

theorem sound_results (c : Cursor) (ih : Below Sound results c) : Sound results c := by
  intro v d h
  simp only [run] at h
  rw [readResults_eq] at h
  split at h
  · next hk =>
    simp only [Except.map_eq_ok, Except.bind_eq_ok] at h
    obtain ⟨_, ⟨⟨ts, d1⟩, h1, ⟨_, d2⟩, h2, hv⟩, hvd⟩ := h
    dsimp only at *
    cases hv
    cases hvd
    obtain ⟨k2, -, rfl⟩ := expectOr_eq_ok_iff.mp h2
    dsimp only at *
    exact .resultsList hk (ih.reads (next_lt (by decide) hk) typeList rfl h1) k2
  · next hk =>
    simp only [Except.map_eq_ok] at h
    obtain ⟨_, ⟨⟨t?, d1⟩, h1, rfl⟩, hvd⟩ := h
    dsimp only at *
    cases hvd
    exact .resultsBare hk (ih.readsHere (Nat.le_refl _) type (by decide) rfl h1)

theorem sound_names (c : Cursor) (ih : Below Sound names c) : Sound names c := by
  intro v d h
  simp only [run] at h
  rw [readNames_eq] at h
  simp only [Except.map_eq_ok, Except.bind_eq_ok] at h
  obtain ⟨_, ⟨⟨t, d1⟩, h1, h⟩, hvd⟩ := h
  dsimp only at *
  obtain ⟨k1, rfl, rfl⟩ := expectOr_eq_ok_iff.mp h1
  have l1 := next_lt (by decide) k1
  have l2 := c.next.length_next_le
  split at h
  · next k2 =>
    simp only [Except.map_eq_ok] at h
    obtain ⟨⟨bs, d2⟩, h2, hv⟩ := h
    dsimp only at *
    cases hv
    cases hvd
    exact .namesMore k1 k2 (ih.reads (by omega) names rfl h2)
  · next k2 =>
    cases h
    cases hvd
    exact .namesLast k1 k2

theorem sound_paramRun (c : Cursor) (pending : List Binding) (done : List Param)
    (ih : Below Sound (paramRun pending done) c) : Sound (paramRun pending done) c := by
  intro v d h
  simp only [run] at h
  rw [readParamRun_eq] at h
  simp only [Except.map_eq_ok, Except.bind_eq_ok] at h
  obtain ⟨⟨ps, d3⟩, ⟨⟨t, d1⟩, h1, ⟨ty?, d2⟩, h2, h⟩, hvd⟩ := h
  dsimp only at *
  cases hvd
  obtain ⟨k1, rfl, rfl⟩ := expectOr_eq_ok_iff.mp h1
  have l1 := next_lt (by decide) k1
  have l2 := Attempt.le_of_plain h2
  have l3 := d2.length_next_le
  have g2 := ih.reads l1 type rfl h2
  cases ty? with
  | some ty =>
    simp only at h
    split at h
    · next k2 => exact .paramRunMore k1 g2 k2 (ih.reads (by omega) (paramRun _ _) rfl h)
    · next k2 =>
      cases h
      exact .paramRunLast k1 g2 k2 rfl
  | none =>
    simp only at h
    split at h
    · next k2 => exact .paramRunMore k1 g2 k2 (ih.reads (by omega) (paramRun _ _) rfl h)
    · split at h
      · next hn => simp at hn
      · cases h

theorem sound_params (c : Cursor) (ih : Below Sound params c) : Sound params c := by
  intro v d h
  simp only [run] at h
  rw [readParams_eq] at h
  split at h
  · next hk =>
    cases h
    exact .paramsNone hk
  · next hk => exact .paramsSome hk (ih.lower (Nat.le_refl _) (by decide) v d h)

theorem sound_levelRest (c : Cursor) (l : Level) (left : Expr)
    (ih : Below Sound (levelRest l left) c) : Sound (levelRest l left) c := by
  intro v d h
  simp only [run] at h
  rw [readLevelRest_eq] at h
  split at h
  · next hop =>
    cases h
    exact .levelRestStop hop
  · next op hop =>
    have l1 := opAt?_lt hop
    simp only [Except.map_eq_ok, Except.bind_eq_ok] at h
    obtain ⟨⟨x, d2⟩, ⟨⟨r, d1⟩, h1, h2⟩, hvd⟩ := h
    dsimp only at *
    cases hvd
    have g1 := ih.reads l1 (operand l) (run_operand l _) h1
    have l2 := Level.operand_lt h1
    exact .levelRestStep hop g1 (ih.reads (by omega) (levelRest l _) rfl h2)

theorem sound_moreExprs (c : Cursor) (ih : Below Sound moreExprs c) : Sound moreExprs c := by
  intro v d h
  simp only [run] at h
  rw [readMoreExprs_eq] at h
  split at h
  · next hk =>
    have l1 := next_lt (by decide) hk
    simp only [Except.map_eq_ok, Except.bind_eq_ok] at h
    obtain ⟨_, ⟨⟨x, d1⟩, h1, ⟨xs, d2⟩, h2, hv⟩, hvd⟩ := h
    dsimp only at *
    cases hv
    cases hvd
    have l2 := Read.lt_of_plain h1
    exact .moreExprsCons hk (ih.reads l1 expr rfl h1) (ih.reads (by omega) moreExprs rfl h2)
  · next hk =>
    cases h
    exact .moreExprsNil hk

theorem sound_group (c : Cursor) (ih : Below Sound group c) : Sound group c := by
  intro v d h
  simp only [run] at h
  rw [readGroup_eq] at h
  simp only [Except.map_eq_ok, Except.bind_eq_ok] at h
  obtain ⟨_, ⟨⟨_, d1⟩, h1, ⟨x, d2⟩, h2, ⟨_, d3⟩, h3, hv⟩, hvd⟩ := h
  dsimp only at *
  cases hv
  cases hvd
  obtain ⟨k1, -, rfl⟩ := expectOr_eq_ok_iff.mp h1
  obtain ⟨k3, -, rfl⟩ := expectOr_eq_ok_iff.mp h3
  dsimp only at *
  exact .group k1 (ih.reads (next_lt (by decide) k1) (level .disjunction) rfl h2) k3

theorem sound_primary (c : Cursor) (ih : Below Sound primary c) : Sound primary c := by
  intro v d h
  simp only [run] at h
  rw [readPrimary_eq] at h
  split at h
  · next hk =>
    cases h
    exact .primaryName hk
  split at h
  · next hk =>
    simp only [Except.map_eq_ok] at h
    obtain ⟨_, ⟨x, hx, rfl⟩, hvd⟩ := h
    cases hvd
    exact .primaryInteger hk hx
  split at h
  · next hk =>
    cases h
    exact .primaryTrue hk
  split at h
  · next hk =>
    cases h
    exact .primaryFalse hk
  split at h
  · next hk =>
    simp only [Except.map_eq_ok] at h
    obtain ⟨⟨x, d1⟩, h1, hvd⟩ := h
    dsimp only at *
    cases hvd
    exact .primaryGroup hk (ih.readsHere (Nat.le_refl _) group (by decide) rfl h1)
  split at h <;> cases h

theorem sound_unary (c : Cursor) (ih : Below Sound unary c) : Sound unary c := by
  intro v d h
  simp only [run] at h
  rw [readUnary_eq] at h
  split at h
  · next op hop =>
    simp only [Except.map_eq_ok] at h
    obtain ⟨_, ⟨⟨x, d1⟩, h1, rfl⟩, hvd⟩ := h
    dsimp only at *
    cases hvd
    exact .unaryOp hop (ih.reads (unary_lt hop) unary rfl h1)
  · next hop =>
    simp only [Except.map_eq_ok] at h
    obtain ⟨⟨x, d1⟩, h1, hvd⟩ := h
    dsimp only at *
    cases hvd
    exact .unaryPrimary hop (ih.readsHere (Nat.le_refl _) primary (by decide) rfl h1)

theorem sound_level (c : Cursor) (l : Level) (ih : Below Sound (level l) c) :
    Sound (level l) c := by
  intro v d h
  simp only [run] at h
  rw [Level.read_eq] at h
  simp only [Except.map_eq_ok, Except.bind_eq_ok] at h
  obtain ⟨⟨x, d2⟩, ⟨⟨y, d1⟩, h1, h2⟩, hvd⟩ := h
  dsimp only at *
  cases hvd
  have g1 := ih.readsHere (Nat.le_refl _) (operand l) (rank_operand l) (run_operand l c) h1
  exact .level g1 (ih.reads (Level.operand_lt h1) (levelRest l _) rfl h2)

theorem sound_funcLit (c : Cursor) (ih : Below Sound funcLit c) : Sound funcLit c := by
  intro v d h
  simp only [run] at h
  rw [readFuncLit_eq] at h
  simp only [Except.map_eq_ok, Except.bind_eq_ok] at h
  obtain ⟨_, ⟨⟨t, d1⟩, h1, ⟨_, d2⟩, h2, ⟨ps, d3⟩, h3, ⟨_, d4⟩, h4, ⟨rs, d5⟩, h5, ⟨b, d6⟩, h6, hv⟩,
    hvd⟩ := h
  cases hv
  cases hvd
  obtain ⟨k1, rfl, rfl⟩ := expectOr_eq_ok_iff.mp h1
  obtain ⟨k2, -, rfl⟩ := expectOr_eq_ok_iff.mp h2
  obtain ⟨k4, -, rfl⟩ := expectOr_eq_ok_iff.mp h4
  dsimp only at *
  have l1 := next_lt (by decide) k1
  have l2 := c.next.length_next_le
  have l3 := Attempt.le_of_plain h3
  have l4 := d3.length_next_le
  have l5 := Attempt.le_of_plain h5
  exact .funcLit k1 k2 (ih.reads (by omega) params rfl h3) k4
    (ih.reads (by omega) results rfl h5) (ih.reads (by omega) block rfl h6)

theorem sound_expr (c : Cursor) (ih : Below Sound expr c) : Sound expr c := by
  intro v d h
  simp only [run] at h
  rw [readExpr_eq] at h
  simp only [Except.map_eq_ok] at h
  obtain ⟨⟨x, d1⟩, h1, hvd⟩ := h
  dsimp only at *
  cases hvd
  split at h1
  · next hk => exact .exprFunc hk (ih.readsHere (Nat.le_refl _) funcLit (by decide) rfl h1)
  · next hk =>
    exact .exprOr hk (ih.readsHere (Nat.le_refl _) (level .disjunction) (by decide) rfl h1)

theorem sound_exprList (c : Cursor) (ih : Below Sound exprList c) : Sound exprList c := by
  intro v d h
  simp only [run] at h
  rw [readExprList_eq] at h
  simp only [Except.map_eq_ok, Except.bind_eq_ok] at h
  obtain ⟨_, ⟨⟨x, d1⟩, h1, ⟨xs, d2⟩, h2, hv⟩, hvd⟩ := h
  dsimp only at *
  cases hv
  cases hvd
  exact .exprList (ih.readsHere (Nat.le_refl _) expr (by decide) rfl h1)
    (ih.reads (Read.lt_of_plain h1) moreExprs rfl h2)

theorem sound_cond (c : Cursor) (ih : Below Sound cond c) : Sound cond c := by
  intro v d h
  simp only [run] at h
  rw [readCond_eq] at h
  split at h
  · next hk =>
    cases h
    exact .condNone hk
  · next hk =>
    simp only [Except.map_eq_ok] at h
    obtain ⟨_, ⟨⟨x, d1⟩, h1, rfl⟩, hvd⟩ := h
    dsimp only at *
    cases hvd
    exact .condSome hk (ih.readsHere (Nat.le_refl _) expr (by decide) rfl h1)

theorem sound_branches (c : Cursor) (pos : Position) (ih : Below Sound (branches pos) c) :
    Sound (branches pos) c := by
  intro v d h
  simp only [run] at h
  rw [readBranches_eq] at h
  simp only [Except.map_eq_ok, Except.bind_eq_ok] at h
  obtain ⟨_, ⟨⟨x, d1⟩, h1, ⟨b, d2⟩, h2, h⟩, hvd⟩ := h
  dsimp only at *
  have g1 := ih.readsHere (Nat.le_refl _) expr (by simp [rank]) rfl h1
  have l1 := Read.lt_of_plain h1
  have g2 := ih.reads l1 block rfl h2
  have l2 := Read.lt_of_plain h2
  have l3 := d2.length_next_le
  split at h
  · next k1 =>
    split at h
    · next k2 =>
      simp only [Except.map_eq_ok] at h
      obtain ⟨⟨⟨bs, o⟩, d3⟩, h3, rfl⟩ := h
      dsimp only at *
      cases hvd
      have l4 := d2.next.length_next_le
      exact .branchesElseIf g1 g2 k1 k2 (ih.reads (by omega) (branches _) rfl h3)
    · next k2 =>
      simp only [Except.map_eq_ok] at h
      obtain ⟨⟨b', d3⟩, h3, rfl⟩ := h
      dsimp only at *
      cases hvd
      exact .branchesElse g1 g2 k1 k2 (ih.reads (by omega) block rfl h3)
  · next k1 =>
    cases h
    cases hvd
    exact .branchesEnd g1 g2 k1

theorem sound_simple (c : Cursor) (ih : Below Sound simple c) : Sound simple c := by
  intro v d h
  simp only [run] at h
  rw [readSimple_eq] at h
  simp only [Except.map_eq_ok, Except.bind_eq_ok] at h
  obtain ⟨_, ⟨⟨x, d1⟩, h1, h⟩, hvd⟩ := h
  dsimp only at *
  have g1 := ih.readsHere (Nat.le_refl _) expr (by decide) rfl h1
  have l1 := Read.lt_of_plain h1
  split at h
  · next k1 =>
    have k1' := or_assoc.mp k1
    simp only [Except.bind_eq_ok] at h
    obtain ⟨⟨xs, d2⟩, h2, h⟩ := h
    dsimp only at *
    have g2 := ih.reads l1 moreExprs rfl h2
    have l2 := Attempt.le_of_plain h2
    have l3 := d2.length_next_le
    split at h
    · next k2 =>
      simp only [Except.map_eq_ok] at h
      obtain ⟨⟨vs, d3⟩, h3, rfl⟩ := h
      dsimp only at *
      cases hvd
      exact .simpleAssign g1 k1' g2 k2 (ih.reads (by omega) exprList rfl h3)
    · simp only [Except.bind_eq_ok, Except.map_eq_ok] at h
      obtain ⟨⟨t, d3⟩, h3, bs, hbs, ⟨vs, d4⟩, h4, rfl⟩ := h
      dsimp only at *
      cases hvd
      obtain ⟨k3, -, rfl⟩ := expectOr_eq_ok_iff.mp h3
      exact .simpleDefine g1 k1' g2 k3 hbs (ih.reads (by omega) exprList rfl h4)
  · next k1 =>
    cases h
    cases hvd
    simp only [not_or] at k1
    exact .simpleSingle g1 k1.1.1 k1.1.2 k1.2

theorem sound_block (c : Cursor) (ih : Below Sound block c) : Sound block c := by
  intro v d h
  simp only [run] at h
  rw [readBlock_eq] at h
  simp only [Except.map_eq_ok, Except.bind_eq_ok] at h
  obtain ⟨_, ⟨⟨t, d1⟩, h1, ⟨ss, d2⟩, h2, hv⟩, hvd⟩ := h
  dsimp only at *
  cases hv
  cases hvd
  obtain ⟨k1, rfl, rfl⟩ := expectOr_eq_ok_iff.mp h1
  dsimp only at *
  have l1 := next_lt (by decide) k1
  have l2 : (if c.next.current.kind = .newline then c.next.next else c.next).ahead.length ≤
      c.next.ahead.length := by
    split
    · exact c.next.length_next_le
    · exact Nat.le_refl _
  exact .block k1 (ih.reads (by omega) blockBody rfl h2)

theorem sound_blockBody (c : Cursor) (ih : Below Sound blockBody c) : Sound blockBody c := by
  intro v d h
  simp only [run] at h
  rw [readBlockBody_eq] at h
  split at h
  · next hk =>
    cases h
    exact .blockBodyEnd hk
  split at h
  · cases h
  · next k1 k2 =>
    simp only [Except.map_eq_ok, Except.bind_eq_ok] at h
    obtain ⟨_, ⟨⟨s, d1⟩, h1, ⟨ss, d2⟩, h2, hv⟩, hvd⟩ := h
    dsimp only at *
    cases hv
    cases hvd
    exact .blockBodyStmt k1 (by simpa using k2)
      (ih.readsHere (Nat.le_refl _) stmt (by decide) rfl h1)
      (ih.reads (Read.lt_of_plain h1) blockBody rfl h2)

theorem sound_varDecl (c : Cursor) (ih : Below Sound varDecl c) : Sound varDecl c := by
  intro v d h
  simp only [run] at h
  rw [readVarDecl_eq] at h
  simp only [Except.map_eq_ok, Except.bind_eq_ok] at h
  obtain ⟨_, ⟨⟨t, d1⟩, h1, ⟨bs, d2⟩, h2, ⟨ty?, d3⟩, h3, h⟩, hvd⟩ := h
  dsimp only at *
  obtain ⟨k1, rfl, rfl⟩ := expectOr_eq_ok_iff.mp h1
  have l1 := next_lt (by decide) k1
  have g2 := ih.reads l1 names rfl h2
  have l2 := Read.lt_of_plain h2
  have g3 := ih.reads (by omega) type rfl h3
  have l3 := Attempt.le_of_plain h3
  have l4 := d3.length_next_le
  cases ty? with
  | some ty =>
    simp only at h
    split at h
    · next k3 =>
      simp only [Except.map_eq_ok] at h
      obtain ⟨⟨vs, d4⟩, h4, rfl⟩ := h
      dsimp only at *
      cases hvd
      exact .varDeclTyped k1 g2 g3 k3 (ih.reads (by omega) exprList rfl h4)
    · next k3 =>
      cases h
      cases hvd
      exact .varDeclBare k1 g2 g3 k3
  | none =>
    simp only [Except.bind_eq_ok, Except.map_eq_ok] at h
    obtain ⟨⟨u, d4⟩, h4, ⟨vs, d5⟩, h5, rfl⟩ := h
    dsimp only at *
    cases hvd
    obtain ⟨k3, -, rfl⟩ := expectOr_eq_ok_iff.mp h4
    exact .varDeclInferred k1 g2 g3 k3 (ih.reads (by omega) exprList rfl h5)

theorem sound_ifChain (c : Cursor) (ih : Below Sound ifChain c) : Sound ifChain c := by
  intro v d h
  simp only [run] at h
  rw [readIf_eq] at h
  simp only [Except.map_eq_ok, Except.bind_eq_ok] at h
  obtain ⟨_, ⟨⟨t, d1⟩, h1, ⟨⟨bs, o⟩, d2⟩, h2, rfl⟩, hvd⟩ := h
  dsimp only at *
  cases hvd
  obtain ⟨k1, rfl, rfl⟩ := expectOr_eq_ok_iff.mp h1
  exact .ifChain k1 (ih.reads (next_lt (by decide) k1) (branches _) rfl h2)

theorem sound_loop (c : Cursor) (ih : Below Sound loop c) : Sound loop c := by
  intro v d h
  simp only [run] at h
  rw [readFor_eq] at h
  simp only [Except.map_eq_ok, Except.bind_eq_ok] at h
  obtain ⟨_, ⟨⟨t, d1⟩, h1, h⟩, hvd⟩ := h
  dsimp only at *
  obtain ⟨k1, rfl, rfl⟩ := expectOr_eq_ok_iff.mp h1
  have l1 := next_lt (by decide) k1
  split at h
  · next k2 =>
    simp only [Except.map_eq_ok] at h
    obtain ⟨⟨b, d2⟩, h2, rfl⟩ := h
    dsimp only at *
    cases hvd
    exact .loopForever k1 k2 (ih.reads l1 block rfl h2)
  split at h
  · next k2 k3 =>
    simp only [Except.map_eq_ok] at h
    obtain ⟨⟨⟨shape, b⟩, d2⟩, h2, rfl⟩ := h
    dsimp only at *
    cases hvd
    exact .loopClauses k1 k3 (ih.reads l1 (clauses none) rfl h2)
  · next k2 k3 =>
    simp only [Except.bind_eq_ok] at h
    obtain ⟨⟨s, d2⟩, h2, h⟩ := h
    dsimp only at *
    have g2 := ih.reads l1 simple rfl h2
    have l2 := Read.lt_of_plain h2
    split at h
    · next k4 =>
      cases s with
      | single x q p =>
        simp only [Except.map_eq_ok] at h
        obtain ⟨⟨b, d3⟩, h3, rfl⟩ := h
        dsimp only at *
        cases hvd
        exact .loopGuarded k1 k2 k3 g2 k4 (ih.reads (by omega) block rfl h3)
      | _ => cases h
    · next k4 =>
      simp only [Except.map_eq_ok] at h
      obtain ⟨⟨⟨shape, b⟩, d3⟩, h3, rfl⟩ := h
      dsimp only at *
      cases hvd
      exact .loopInit k1 k2 k3 g2 k4 (ih.reads (by omega) (clauses _) rfl h3)

theorem sound_clauses (c : Cursor) (init : Option Stmt) (ih : Below Sound (clauses init) c) :
    Sound (clauses init) c := by
  intro v d h
  simp only [run] at h
  rw [readClauses_eq] at h
  simp only [Except.map_eq_ok, Except.bind_eq_ok] at h
  obtain ⟨_, ⟨⟨t, d1⟩, h1, ⟨x, d2⟩, h2, ⟨u, d3⟩, h3, ⟨p, d4⟩, h4, ⟨b, d5⟩, h5, rfl⟩, hvd⟩ := h
  dsimp only at *
  cases hvd
  obtain ⟨k1, -, rfl⟩ := expectOr_eq_ok_iff.mp h1
  obtain ⟨k3, -, rfl⟩ := expectOr_eq_ok_iff.mp h3
  have l1 := next_lt (by decide) k1
  have l2 := Attempt.le_of_plain h2
  have l3 := d2.length_next_le
  have l4 := Attempt.le_of_plain h4
  exact .clauses k1 (ih.reads l1 cond rfl h2) k3 (ih.reads (by omega) post rfl h4)
    (ih.reads (by omega) block rfl h5)

theorem sound_post (c : Cursor) (ih : Below Sound post c) : Sound post c := by
  intro v d h
  simp only [run] at h
  rw [readPost_eq] at h
  split at h
  · next hk =>
    cases h
    exact .postNone hk
  · next hk =>
    simp only [Except.map_eq_ok, Except.bind_eq_ok] at h
    obtain ⟨_, ⟨⟨s, d1⟩, h1, h⟩, hvd⟩ := h
    dsimp only at *
    have g1 := ih.readsHere (Nat.le_refl _) simple (by decide) rfl h1
    split at h
    · cases h
    · next hs =>
      cases h
      cases hvd
      exact .postSome hk g1 fun ns vs p he => hs ns vs p he

theorem sound_ret (c : Cursor) (ih : Below Sound ret c) : Sound ret c := by
  intro v d h
  simp only [run] at h
  rw [readReturn_eq] at h
  simp only [Except.map_eq_ok, Except.bind_eq_ok] at h
  obtain ⟨_, ⟨⟨t, d1⟩, h1, h⟩, hvd⟩ := h
  dsimp only at *
  obtain ⟨k1, rfl, rfl⟩ := expectOr_eq_ok_iff.mp h1
  split at h
  · next k2 =>
    cases h
    cases hvd
    exact .retEmpty k1 k2
  · next k2 =>
    simp only [Except.map_eq_ok] at h
    obtain ⟨⟨vs, d2⟩, h2, rfl⟩ := h
    dsimp only at *
    cases hvd
    exact .retValues k1 (by simpa using k2) (ih.reads (next_lt (by decide) k1) exprList rfl h2)

theorem sound_head (c : Cursor) (ih : Below Sound head c) : Sound head c := by
  intro v d h
  simp only [run] at h
  rw [readHead_eq] at h
  split at h
  · next hk => exact .headVar hk (ih.lower (Nat.le_refl _) (by decide) v d h)
  · next hk => exact .headIf hk (ih.lower (Nat.le_refl _) (by decide) v d h)
  · next hk => exact .headFor hk (ih.lower (Nat.le_refl _) (by decide) v d h)
  · next hk =>
    rw [readBreak_eq] at h
    simp only [Except.map_eq_ok] at h
    obtain ⟨_, ⟨⟨t, d1⟩, h1, rfl⟩, hvd⟩ := h
    dsimp only at *
    cases hvd
    obtain ⟨-, rfl, rfl⟩ := expectOr_eq_ok_iff.mp h1
    exact .headBreak hk
  · next hk =>
    rw [readContinue_eq] at h
    simp only [Except.map_eq_ok] at h
    obtain ⟨_, ⟨⟨t, d1⟩, h1, rfl⟩, hvd⟩ := h
    dsimp only at *
    cases hvd
    obtain ⟨-, rfl, rfl⟩ := expectOr_eq_ok_iff.mp h1
    exact .headContinue hk
  · next hk => exact .headReturn hk (ih.lower (Nat.le_refl _) (by decide) v d h)
  · next hk =>
    simp only [Except.map_eq_ok] at h
    obtain ⟨_, ⟨⟨b, d1⟩, h1, rfl⟩, hvd⟩ := h
    dsimp only at *
    cases hvd
    exact .headBlock hk (ih.readsHere (Nat.le_refl _) block (by decide) rfl h1)
  · next k1 k2 k3 k4 k5 k6 k7 =>
    exact .headSimple (by simp_all) (ih.lower (Nat.le_refl _) (by decide) v d h)

theorem sound_stmt (c : Cursor) (ih : Below Sound stmt c) : Sound stmt c := by
  intro v d h
  simp only [run] at h
  rw [readStmt_eq] at h
  split at h
  · next hk =>
    simp only [Except.map_eq_ok] at h
    obtain ⟨_, ⟨d1, h1, rfl⟩, hvd⟩ := h
    cases hvd
    exact .stmtSemicolon hk h1
  split at h
  · next hk =>
    cases h
    exact .stmtNewline hk
  · next k1 k2 =>
    simp only [Except.map_eq_ok, Except.bind_eq_ok] at h
    obtain ⟨_, ⟨⟨s, d1⟩, h1, d2, h2, hv⟩, hvd⟩ := h
    dsimp only at *
    cases hv
    cases hvd
    exact .stmtHead k1 k2 (ih.readsHere (Nat.le_refl _) head (by decide) rfl h1) h2

theorem sound : ∀ r c, Sound r c :=
  induction Sound fun r c ih => by
    cases r with
    | moreTypes => exact sound_moreTypes c ih
    | funcType => exact sound_funcType c ih
    | type => exact sound_type c ih
    | typeList => exact sound_typeList c ih
    | results => exact sound_results c ih
    | names => exact sound_names c ih
    | paramRun pending done => exact sound_paramRun c pending done ih
    | params => exact sound_params c ih
    | levelRest l left => exact sound_levelRest c l left ih
    | moreExprs => exact sound_moreExprs c ih
    | group => exact sound_group c ih
    | primary => exact sound_primary c ih
    | unary => exact sound_unary c ih
    | level l => exact sound_level c l ih
    | funcLit => exact sound_funcLit c ih
    | expr => exact sound_expr c ih
    | exprList => exact sound_exprList c ih
    | cond => exact sound_cond c ih
    | branches pos => exact sound_branches c pos ih
    | simple => exact sound_simple c ih
    | block => exact sound_block c ih
    | varDecl => exact sound_varDecl c ih
    | ifChain => exact sound_ifChain c ih
    | loop => exact sound_loop c ih
    | clauses init => exact sound_clauses c init ih
    | ret => exact sound_ret c ih
    | post => exact sound_post c ih
    | head => exact sound_head c ih
    | stmt => exact sound_stmt c ih
    | blockBody => exact sound_blockBody c ih

theorem forward (r : Reader) (c : Cursor) (v : Outcome) (d : Cursor) (h : r.run c = .ok (v, d)) :
    d.Follows c :=
  (sound r c v d h).follows

theorem reads_stmt {c : Cursor} {s : Stmt} {d : Ahead c} (h : readStmt c = .ok (s, d)) :
    Reads stmt c (.stmt s) d.1 :=
  sound _ _ _ _ (by rw [run, eq_ok_iff_plain.mp h]; rfl)

/-- A reader succeeds exactly along a derivation. -/
theorem run_eq_ok_iff {r : Reader} {c : Cursor} {v : Outcome} {d : Cursor} :
    r.run c = .ok (v, d) ↔ Reads r c v d :=
  ⟨sound r c v d, Reads.run⟩

end Reader

end ScriptFront
