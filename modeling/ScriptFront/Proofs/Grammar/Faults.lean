import ScriptFront.Proofs.Program.Budget
/-!
# The readers never fail by their own fault

Two encodings of the operators must agree for the readers to work. The binding-power table tells
a binary level's loop whether the current token is one of its operators, and the level's
combiner, a table of its own, builds the node, failing with an internal error on a kind it does
not know. The prefix reader takes a token whose kind is in one list and matches it in another
table. The type table sends a token to the reader of basic types, which fails on a token that
names none. The tables agree (`TokenKind.bindingPower?_eq`, `Level.accepts?_eq`,
`UnaryOp.ofKind?_isSome_iff`, `TokenKind.typeStart?_eq`), so no step equation of a reader has an
internal error left in it, and by induction on the family of readers no reader fails with one, at
any cursor. The main statement is `readers_never_fail_internally`.
-/

set_option autoImplicit false

namespace ScriptFront

/-- A computation that fails, if at all, by a fault of the source or of what is not handled yet,
never by a broken invariant of the reader. -/
def NoInternal {α : Type} (x : Except Error α) : Prop :=
  ∀ e, x = .error e → e.fault.kind ≠ .internal

namespace NoInternal

variable {α β : Type}

theorem ok (a : α) : NoInternal (.ok a : Except Error α) := fun _ h => by cases h

theorem error {e : Error} (h : e.fault.kind ≠ .internal) : NoInternal (.error e : Except Error α) :=
  fun _ h' => by
    cases h'
    exact h

theorem bind {x : Except Error α} {f : α → Except Error β} (hx : NoInternal x)
    (hf : ∀ a, x = .ok a → NoInternal (f a)) : NoInternal (x >>= f) := by
  intro e h
  rcases Except.bind_eq_error.mp h with h | ⟨a, ha, h⟩
  · exact hx e h
  · exact hf a ha e h

theorem map_iff {x : Except Error α} {f : α → β} : NoInternal (x.map f) ↔ NoInternal x := by
  simp only [NoInternal, Except.map_eq_error]

end NoInternal

/-! ## The cursor's steps and the checks of single tokens -/

theorem Cursor.unexpected_kind (c : Cursor) (s : String) :
    (c.unexpected s).fault.kind ≠ .internal := by
  simp [Cursor.unexpected, Fault.kind]

theorem Cursor.noInternal_expectOr {c : Cursor} {k : TokenKind} {e : Error}
    (he : e.fault.kind ≠ .internal) : NoInternal (c.expectOr k e) := by
  unfold Cursor.expectOr
  split
  · exact .ok _
  · exact .error he

theorem Cursor.noInternal_expect (c : Cursor) (k : TokenKind) : NoInternal (c.expect k) :=
  noInternal_expectOr (c.unexpected_kind _)

theorem Cursor.noInternal_endLine (c : Cursor) : NoInternal c.endLine := by
  unfold Cursor.endLine
  split
  · exact .ok _
  · exact .ok _
  · exact .ok _
  · exact .error (c.unexpected_kind _)

theorem Token.noInternal_integer (t : Token) : NoInternal t.integer := by
  unfold Token.integer
  split
  · exact .ok _
  · exact .error (by simp [Fault.kind])

theorem noInternal_bindingsOf (targets : List Expr) : NoInternal (bindingsOf targets) := by
  unfold bindingsOf
  induction targets with
  | nil => exact .ok _
  | cons x xs ih =>
    rw [List.mapM_cons]
    refine .bind ?_ fun _ _ => .bind ih fun _ _ => .ok _
    split
    · exact .ok _
    · exact .error (by simp [Fault.kind])

/-! ## Every reader -/

namespace Reader

open Cursor

def Clean (r : Reader) (c : Cursor) : Prop := NoInternal (r.run c)

section Below

variable {r : Reader} {c d : Cursor}

theorem Below.clean (ih : Below Clean r c) (hlt : d.ahead.length < c.ahead.length) (r' : Reader)
    {α : Type} {x : Except Error (α × Cursor)} {g : α → Outcome}
    (hr : r'.run d = x.map fun p => (g p.1, p.2)) : NoInternal x := by
  have h := ih.further hlt r'
  rwa [Clean, hr, NoInternal.map_iff] at h

theorem Below.cleanHere (ih : Below Clean r c) (hle : d.ahead.length ≤ c.ahead.length)
    (r' : Reader) (hrank : r'.rank < r.rank) {α : Type} {x : Except Error (α × Cursor)}
    {g : α → Outcome} (hr : r'.run d = x.map fun p => (g p.1, p.2)) : NoInternal x := by
  have h : Clean r' d := ih.lower hle hrank
  rwa [Clean, hr, NoInternal.map_iff] at h

end Below

theorem clean_moreTypes (c : Cursor) (ih : Below Clean moreTypes c) : Clean moreTypes c := by
  simp only [Clean, run, NoInternal.map_iff]
  rw [readMoreTypes_eq]
  split
  · next hk =>
    have l1 := next_lt (by decide) hk
    refine .bind (ih.clean l1 type rfl) ?_
    rintro ⟨t?, d1⟩ h1
    have l2 := Attempt.le_of_plain h1
    cases t? with
    | none => exact .error (by simp [Fault.kind])
    | some t => exact NoInternal.map_iff.mpr (ih.clean (by omega) moreTypes rfl)
  · exact .ok _

theorem clean_funcType (c : Cursor) (ih : Below Clean funcType c) : Clean funcType c := by
  simp only [Clean, run, NoInternal.map_iff]
  rw [readFuncType_eq]
  refine .bind (c.noInternal_expect _) ?_
  rintro ⟨_, d1⟩ h1
  obtain ⟨k1, -, rfl⟩ := expectOr_eq_ok_iff.mp h1
  have l1 := next_lt (by decide) k1
  refine .bind (c.next.noInternal_expect _) ?_
  rintro ⟨_, d2⟩ h2
  obtain ⟨-, -, rfl⟩ := expectOr_eq_ok_iff.mp h2
  have l2 := c.next.length_next_le
  refine .bind (ih.clean (by omega) typeList rfl) ?_
  rintro ⟨ps, d3⟩ h3
  have l3 := Attempt.le_of_plain h3
  refine .bind (d3.noInternal_expect _) ?_
  rintro ⟨_, d4⟩ h4
  obtain ⟨-, -, rfl⟩ := expectOr_eq_ok_iff.mp h4
  have l4 := d3.length_next_le
  exact .bind (ih.clean (by omega) results rfl) fun _ _ => .ok _

theorem clean_type (c : Cursor) (ih : Below Clean type c) : Clean type c := by
  simp only [Clean, run, NoInternal.map_iff]
  rw [readType?_eq]
  split
  · exact .ok _
  split
  · exact .ok _
  split
  · exact NoInternal.map_iff.mpr (ih.cleanHere (Nat.le_refl _) funcType (by decide) rfl)
  · exact .ok _

theorem clean_typeList (c : Cursor) (ih : Below Clean typeList c) : Clean typeList c := by
  simp only [Clean, run, NoInternal.map_iff]
  rw [readTypeList_eq]
  refine .bind (ih.cleanHere (Nat.le_refl _) type (by decide) rfl) ?_
  rintro ⟨t?, d1⟩ h1
  cases t? with
  | none => exact .ok _
  | some t =>
    exact NoInternal.map_iff.mpr
      (ih.cleanHere (Attempt.le_of_plain h1) moreTypes (by decide) rfl)

theorem clean_results (c : Cursor) (ih : Below Clean results c) : Clean results c := by
  simp only [Clean, run, NoInternal.map_iff]
  rw [readResults_eq]
  split
  · next hk =>
    refine .bind (ih.clean (next_lt (by decide) hk) typeList rfl) ?_
    rintro ⟨ts, d1⟩ _
    exact .bind (d1.noInternal_expect _) fun _ _ => .ok _
  · exact NoInternal.map_iff.mpr (ih.cleanHere (Nat.le_refl _) type (by decide) rfl)

theorem clean_names (c : Cursor) (ih : Below Clean names c) : Clean names c := by
  simp only [Clean, run, NoInternal.map_iff]
  rw [readNames_eq]
  refine .bind (noInternal_expectOr (c.unexpected_kind _)) ?_
  rintro ⟨t, d1⟩ h1
  obtain ⟨k1, rfl, rfl⟩ := expectOr_eq_ok_iff.mp h1
  have l1 := next_lt (by decide) k1
  have l2 := c.next.length_next_le
  dsimp only
  split
  · exact NoInternal.map_iff.mpr (ih.clean (by omega) names rfl)
  · exact .ok _

theorem clean_paramRun (c : Cursor) (pending : List Binding) (done : List Param)
    (ih : Below Clean (paramRun pending done) c) : Clean (paramRun pending done) c := by
  simp only [Clean, run, NoInternal.map_iff]
  rw [readParamRun_eq]
  refine .bind (c.noInternal_expect _) ?_
  rintro ⟨t, d1⟩ h1
  obtain ⟨k1, rfl, rfl⟩ := expectOr_eq_ok_iff.mp h1
  have l1 := next_lt (by decide) k1
  refine .bind (ih.clean l1 type rfl) ?_
  rintro ⟨ty?, d2⟩ h2
  have l2 := Attempt.le_of_plain h2
  have l3 := d2.length_next_le
  dsimp only
  split
  · exact ih.clean (by omega) (paramRun _ _) rfl
  · split
    · exact .ok _
    · exact .error (by simp [Fault.kind])

theorem clean_params (c : Cursor) (ih : Below Clean params c) : Clean params c := by
  simp only [Clean, run, NoInternal.map_iff]
  rw [readParams_eq]
  split
  · exact .ok _
  · exact ih.cleanHere (Nat.le_refl _) (paramRun [] []) (by decide) rfl

theorem clean_levelRest (c : Cursor) (l : Level) (left : Expr)
    (ih : Below Clean (levelRest l left) c) : Clean (levelRest l left) c := by
  simp only [Clean, run, NoInternal.map_iff]
  rw [readLevelRest_eq]
  split
  · exact .ok _
  · next op hop =>
    have l1 := opAt?_lt hop
    refine .bind (ih.clean l1 (operand l) (run_operand l _)) ?_
    rintro ⟨r, d1⟩ h1
    exact ih.clean (by have := Level.operand_lt h1; omega) (levelRest l _) rfl

theorem clean_moreExprs (c : Cursor) (ih : Below Clean moreExprs c) : Clean moreExprs c := by
  simp only [Clean, run, NoInternal.map_iff]
  rw [readMoreExprs_eq]
  split
  · next hk =>
    have l1 := next_lt (by decide) hk
    refine .bind (ih.clean l1 expr rfl) ?_
    rintro ⟨x, d1⟩ h1
    have l2 := Read.lt_of_plain h1
    exact .bind (ih.clean (by omega) moreExprs rfl) fun _ _ => .ok _
  · exact .ok _

theorem clean_group (c : Cursor) (ih : Below Clean group c) : Clean group c := by
  simp only [Clean, run, NoInternal.map_iff]
  rw [readGroup_eq]
  refine .bind (c.noInternal_expect _) ?_
  rintro ⟨_, d1⟩ h1
  obtain ⟨k1, -, rfl⟩ := expectOr_eq_ok_iff.mp h1
  refine .bind (ih.clean (next_lt (by decide) k1) (level .disjunction) rfl) ?_
  rintro ⟨x, d2⟩ _
  exact .bind (d2.noInternal_expect _) fun _ _ => .ok _

theorem clean_primary (c : Cursor) (ih : Below Clean primary c) : Clean primary c := by
  simp only [Clean, run, NoInternal.map_iff]
  rw [readPrimary_eq]
  split
  · exact .ok _
  split
  · exact NoInternal.map_iff.mpr c.current.noInternal_integer
  split
  · exact .ok _
  split
  · exact .ok _
  split
  · exact ih.cleanHere (Nat.le_refl _) group (by decide) rfl
  split
  · exact .error (by simp [Fault.kind])
  · exact .error (c.unexpected_kind _)

theorem clean_unary (c : Cursor) (ih : Below Clean unary c) : Clean unary c := by
  simp only [Clean, run, NoInternal.map_iff]
  rw [readUnary_eq]
  split
  · next op hop => exact NoInternal.map_iff.mpr (ih.clean (unary_lt hop) unary rfl)
  · exact ih.cleanHere (Nat.le_refl _) primary (by decide) rfl

theorem clean_level (c : Cursor) (l : Level) (ih : Below Clean (level l) c) :
    Clean (level l) c := by
  simp only [Clean, run, NoInternal.map_iff]
  rw [Level.read_eq]
  refine .bind (ih.cleanHere (Nat.le_refl _) (operand l) (rank_operand l) (run_operand l c)) ?_
  rintro ⟨x, d1⟩ h1
  exact ih.clean (Level.operand_lt h1) (levelRest l _) rfl

theorem clean_funcLit (c : Cursor) (ih : Below Clean funcLit c) : Clean funcLit c := by
  simp only [Clean, run, NoInternal.map_iff]
  rw [readFuncLit_eq]
  refine .bind (c.noInternal_expect _) ?_
  rintro ⟨t, d1⟩ h1
  obtain ⟨k1, rfl, rfl⟩ := expectOr_eq_ok_iff.mp h1
  have l1 := next_lt (by decide) k1
  refine .bind (c.next.noInternal_expect _) ?_
  rintro ⟨_, d2⟩ h2
  obtain ⟨-, -, rfl⟩ := expectOr_eq_ok_iff.mp h2
  have l2 := c.next.length_next_le
  refine .bind (ih.clean (by omega) params rfl) ?_
  rintro ⟨ps, d3⟩ h3
  have l3 := Attempt.le_of_plain h3
  refine .bind (d3.noInternal_expect _) ?_
  rintro ⟨_, d4⟩ h4
  obtain ⟨-, -, rfl⟩ := expectOr_eq_ok_iff.mp h4
  have l4 := d3.length_next_le
  refine .bind (ih.clean (by omega) results rfl) ?_
  rintro ⟨rs, d5⟩ h5
  have l5 := Attempt.le_of_plain h5
  exact .bind (ih.clean (by omega) block rfl) fun _ _ => .ok _

theorem clean_expr (c : Cursor) (ih : Below Clean expr c) : Clean expr c := by
  simp only [Clean, run, NoInternal.map_iff]
  rw [readExpr_eq]
  split
  · exact ih.cleanHere (Nat.le_refl _) funcLit (by decide) rfl
  · exact ih.cleanHere (Nat.le_refl _) (level .disjunction) (by decide) rfl

theorem clean_exprList (c : Cursor) (ih : Below Clean exprList c) : Clean exprList c := by
  simp only [Clean, run, NoInternal.map_iff]
  rw [readExprList_eq]
  refine .bind (ih.cleanHere (Nat.le_refl _) expr (by decide) rfl) ?_
  rintro ⟨x, d1⟩ h1
  exact .bind (ih.clean (Read.lt_of_plain h1) moreExprs rfl) fun _ _ => .ok _

theorem clean_cond (c : Cursor) (ih : Below Clean cond c) : Clean cond c := by
  simp only [Clean, run, NoInternal.map_iff]
  rw [readCond_eq]
  split
  · exact .ok _
  · exact NoInternal.map_iff.mpr (ih.cleanHere (Nat.le_refl _) expr (by decide) rfl)

theorem clean_branches (c : Cursor) (pos : Position) (ih : Below Clean (branches pos) c) :
    Clean (branches pos) c := by
  simp only [Clean, run, NoInternal.map_iff]
  rw [readBranches_eq]
  refine .bind (ih.cleanHere (Nat.le_refl _) expr (by simp [rank]) rfl) ?_
  rintro ⟨x, d1⟩ h1
  have l1 := Read.lt_of_plain h1
  refine .bind (ih.clean l1 block rfl) ?_
  rintro ⟨b, d2⟩ h2
  have l2 := Read.lt_of_plain h2
  have l3 := d2.length_next_le
  have l4 := d2.next.length_next_le
  dsimp only
  split
  · split
    · exact NoInternal.map_iff.mpr (ih.clean (by omega) (branches _) rfl)
    · exact NoInternal.map_iff.mpr (ih.clean (by omega) block rfl)
  · exact .ok _

theorem clean_simple (c : Cursor) (ih : Below Clean simple c) : Clean simple c := by
  simp only [Clean, run, NoInternal.map_iff]
  rw [readSimple_eq]
  refine .bind (ih.cleanHere (Nat.le_refl _) expr (by decide) rfl) ?_
  rintro ⟨x, d1⟩ h1
  have l1 := Read.lt_of_plain h1
  dsimp only
  split
  · refine .bind (ih.clean l1 moreExprs rfl) ?_
    rintro ⟨xs, d2⟩ h2
    have l2 := Attempt.le_of_plain h2
    have l3 := d2.length_next_le
    dsimp only
    split
    · exact NoInternal.map_iff.mpr (ih.clean (by omega) exprList rfl)
    · refine .bind (noInternal_expectOr (d2.unexpected_kind _)) ?_
      rintro ⟨t, d3⟩ h3
      obtain ⟨-, -, rfl⟩ := expectOr_eq_ok_iff.mp h3
      dsimp only
      exact .bind (noInternal_bindingsOf _) fun _ _ =>
        NoInternal.map_iff.mpr (ih.clean (by omega) exprList rfl)
  · exact .ok _

theorem clean_block (c : Cursor) (ih : Below Clean block c) : Clean block c := by
  simp only [Clean, run, NoInternal.map_iff]
  rw [readBlock_eq]
  refine .bind (c.noInternal_expect _) ?_
  rintro ⟨t, d1⟩ h1
  obtain ⟨k1, rfl, rfl⟩ := expectOr_eq_ok_iff.mp h1
  have l1 := next_lt (by decide) k1
  have l2 : (if c.next.current.kind = .newline then c.next.next else c.next).ahead.length ≤
      c.next.ahead.length := (Follows.ite_next c.next _).length_le
  exact .bind (ih.clean (by omega) blockBody rfl) fun _ _ => .ok _

theorem clean_blockBody (c : Cursor) (ih : Below Clean blockBody c) : Clean blockBody c := by
  simp only [Clean, run, NoInternal.map_iff]
  rw [readBlockBody_eq]
  split
  · exact .ok _
  split
  · exact .error (c.unexpected_kind _)
  · refine .bind (ih.cleanHere (Nat.le_refl _) stmt (by decide) rfl) ?_
    rintro ⟨s, d1⟩ h1
    exact .bind (ih.clean (Read.lt_of_plain h1) blockBody rfl) fun _ _ => .ok _

theorem clean_varDecl (c : Cursor) (ih : Below Clean varDecl c) : Clean varDecl c := by
  simp only [Clean, run, NoInternal.map_iff]
  rw [readVarDecl_eq]
  refine .bind (c.noInternal_expect _) ?_
  rintro ⟨t, d1⟩ h1
  obtain ⟨k1, rfl, rfl⟩ := expectOr_eq_ok_iff.mp h1
  have l1 := next_lt (by decide) k1
  refine .bind (ih.clean l1 names rfl) ?_
  rintro ⟨bs, d2⟩ h2
  have l2 := Read.lt_of_plain h2
  refine .bind (ih.clean (by omega) type rfl) ?_
  rintro ⟨ty?, d3⟩ h3
  have l3 := Attempt.le_of_plain h3
  have l4 := d3.length_next_le
  cases ty? with
  | some ty =>
    dsimp only
    split
    · exact NoInternal.map_iff.mpr (ih.clean (by omega) exprList rfl)
    · exact .ok _
  | none =>
    refine .bind (d3.noInternal_expect _) ?_
    rintro ⟨_, d4⟩ h4
    obtain ⟨-, -, rfl⟩ := expectOr_eq_ok_iff.mp h4
    exact NoInternal.map_iff.mpr (ih.clean (by omega) exprList rfl)

theorem clean_ifChain (c : Cursor) (ih : Below Clean ifChain c) : Clean ifChain c := by
  simp only [Clean, run, NoInternal.map_iff]
  rw [readIf_eq]
  refine .bind (c.noInternal_expect _) ?_
  rintro ⟨t, d1⟩ h1
  obtain ⟨k1, rfl, rfl⟩ := expectOr_eq_ok_iff.mp h1
  exact NoInternal.map_iff.mpr (ih.clean (next_lt (by decide) k1) (branches _) rfl)

theorem clean_loop (c : Cursor) (ih : Below Clean loop c) : Clean loop c := by
  simp only [Clean, run, NoInternal.map_iff]
  rw [readFor_eq]
  refine .bind (c.noInternal_expect _) ?_
  rintro ⟨t, d1⟩ h1
  obtain ⟨k1, rfl, rfl⟩ := expectOr_eq_ok_iff.mp h1
  have l1 := next_lt (by decide) k1
  dsimp only
  split
  · exact NoInternal.map_iff.mpr (ih.clean l1 block rfl)
  split
  · exact NoInternal.map_iff.mpr (ih.clean l1 (clauses none) rfl)
  · refine .bind (ih.clean l1 simple rfl) ?_
    rintro ⟨s, d2⟩ h2
    have l2 := Read.lt_of_plain h2
    dsimp only
    split
    · split
      · exact NoInternal.map_iff.mpr (ih.clean (by omega) block rfl)
      · exact .error (by simp [Fault.kind])
    · exact NoInternal.map_iff.mpr (ih.clean (by omega) (clauses _) rfl)

theorem clean_clauses (c : Cursor) (init : Option Stmt) (ih : Below Clean (clauses init) c) :
    Clean (clauses init) c := by
  simp only [Clean, run, NoInternal.map_iff]
  rw [readClauses_eq]
  refine .bind (noInternal_expectOr (c.unexpected_kind _)) ?_
  rintro ⟨_, d1⟩ h1
  obtain ⟨k1, -, rfl⟩ := expectOr_eq_ok_iff.mp h1
  have l1 := next_lt (by decide) k1
  refine .bind (ih.clean l1 cond rfl) ?_
  rintro ⟨x, d2⟩ h2
  have l2 := Attempt.le_of_plain h2
  refine .bind (d2.noInternal_expect _) ?_
  rintro ⟨_, d3⟩ h3
  obtain ⟨-, -, rfl⟩ := expectOr_eq_ok_iff.mp h3
  have l3 := d2.length_next_le
  refine .bind (ih.clean (by omega) post rfl) ?_
  rintro ⟨p, d4⟩ h4
  have l4 := Attempt.le_of_plain h4
  exact NoInternal.map_iff.mpr (ih.clean (by omega) block rfl)

theorem clean_post (c : Cursor) (ih : Below Clean post c) : Clean post c := by
  simp only [Clean, run, NoInternal.map_iff]
  rw [readPost_eq]
  split
  · exact .ok _
  · refine .bind (ih.cleanHere (Nat.le_refl _) simple (by decide) rfl) ?_
    rintro ⟨s, d1⟩ _
    dsimp only
    split
    · exact .error (by simp [Fault.kind])
    · exact .ok _

theorem clean_ret (c : Cursor) (ih : Below Clean ret c) : Clean ret c := by
  simp only [Clean, run, NoInternal.map_iff]
  rw [readReturn_eq]
  refine .bind (c.noInternal_expect _) ?_
  rintro ⟨t, d1⟩ h1
  obtain ⟨k1, rfl, rfl⟩ := expectOr_eq_ok_iff.mp h1
  dsimp only
  split
  · exact .ok _
  · exact NoInternal.map_iff.mpr (ih.clean (next_lt (by decide) k1) exprList rfl)

theorem clean_head (c : Cursor) (ih : Below Clean head c) : Clean head c := by
  simp only [Clean, run, NoInternal.map_iff]
  rw [readHead_eq]
  split
  · exact ih.cleanHere (Nat.le_refl _) varDecl (by decide) rfl
  · exact ih.cleanHere (Nat.le_refl _) ifChain (by decide) rfl
  · exact ih.cleanHere (Nat.le_refl _) loop (by decide) rfl
  · rw [readBreak_eq]
    exact NoInternal.map_iff.mpr (c.noInternal_expect _)
  · rw [readContinue_eq]
    exact NoInternal.map_iff.mpr (c.noInternal_expect _)
  · exact ih.cleanHere (Nat.le_refl _) ret (by decide) rfl
  · exact NoInternal.map_iff.mpr (ih.cleanHere (Nat.le_refl _) block (by decide) rfl)
  · exact ih.cleanHere (Nat.le_refl _) simple (by decide) rfl

theorem clean_stmt (c : Cursor) (ih : Below Clean stmt c) : Clean stmt c := by
  simp only [Clean, run, NoInternal.map_iff]
  rw [readStmt_eq]
  split
  · exact NoInternal.map_iff.mpr c.next.noInternal_endLine
  split
  · exact .ok _
  · refine .bind (ih.cleanHere (Nat.le_refl _) head (by decide) rfl) ?_
    rintro ⟨s, d1⟩ _
    exact .bind (noInternal_endLine _) fun _ _ => .ok _

/-- No reader, at any cursor, fails with an internal error. -/
theorem clean : ∀ r c, Clean r c :=
  induction Clean fun r c ih => by
    cases r with
    | moreTypes => exact clean_moreTypes c ih
    | funcType => exact clean_funcType c ih
    | type => exact clean_type c ih
    | typeList => exact clean_typeList c ih
    | results => exact clean_results c ih
    | names => exact clean_names c ih
    | paramRun pending done => exact clean_paramRun c pending done ih
    | params => exact clean_params c ih
    | levelRest l left => exact clean_levelRest c l left ih
    | moreExprs => exact clean_moreExprs c ih
    | group => exact clean_group c ih
    | primary => exact clean_primary c ih
    | unary => exact clean_unary c ih
    | level l => exact clean_level c l ih
    | funcLit => exact clean_funcLit c ih
    | expr => exact clean_expr c ih
    | exprList => exact clean_exprList c ih
    | cond => exact clean_cond c ih
    | branches pos => exact clean_branches c pos ih
    | simple => exact clean_simple c ih
    | block => exact clean_block c ih
    | varDecl => exact clean_varDecl c ih
    | ifChain => exact clean_ifChain c ih
    | loop => exact clean_loop c ih
    | clauses init => exact clean_clauses c init ih
    | ret => exact clean_ret c ih
    | post => exact clean_post c ih
    | head => exact clean_head c ih
    | stmt => exact clean_stmt c ih
    | blockBody => exact clean_blockBody c ih

theorem noInternal_of_run (r : Reader) (c : Cursor) {α : Type} {x : Except Error (α × Cursor)}
    {g : α → Outcome} (hr : r.run c = x.map fun p => (g p.1, p.2)) : NoInternal x := by
  have h := clean r c
  rwa [Clean, hr, NoInternal.map_iff] at h

end Reader

/-! ## Entry points and programs -/

theorem noInternal_plain {α : Type} {P : Cursor → Prop}
    {x : Except Error (α × {d : Cursor // P d})} : NoInternal (plain x) ↔ NoInternal x := by
  cases x <;> simp [NoInternal, plain]

theorem Rule.noInternal_wrapRead {α : Type} {c : Cursor} (f : α → RuleValue) {x : Read α c}
    (h : NoInternal (plain x)) : NoInternal (Rule.wrapRead f x) := by
  cases x <;> simp_all [NoInternal, plain, Rule.wrapRead]

theorem Rule.noInternal_wrap {α : Type} {c : Cursor} (f : α → RuleValue) {x : Attempt α c}
    (h : NoInternal (plain x)) : NoInternal (Rule.wrap f x) := by
  cases x <;> simp_all [NoInternal, plain, Rule.wrap]

open Reader in
theorem Rule.noInternal_run (r : Rule) (c : Cursor) : NoInternal (r.run c) := by
  cases r with
  | expr => exact noInternal_wrapRead _ (noInternal_of_run .expr c rfl)
  | orLevel => exact noInternal_wrapRead _ (noInternal_of_run (.level .disjunction) c rfl)
  | andLevel => exact noInternal_wrapRead _ (noInternal_of_run (.level .conjunction) c rfl)
  | comparison => exact noInternal_wrapRead _ (noInternal_of_run (.level .comparison) c rfl)
  | additive => exact noInternal_wrapRead _ (noInternal_of_run (.level .additive) c rfl)
  | multiplicative =>
    exact noInternal_wrapRead _ (noInternal_of_run (.level .multiplicative) c rfl)
  | unary => exact noInternal_wrapRead _ (noInternal_of_run .unary c rfl)
  | primary => exact noInternal_wrapRead _ (noInternal_of_run .primary c rfl)
  | grouping => exact noInternal_wrapRead _ (noInternal_of_run .group c rfl)
  | funcLit => exact noInternal_wrapRead _ (noInternal_of_run .funcLit c rfl)
  | exprList => exact noInternal_wrapRead _ (noInternal_of_run .exprList c rfl)
  | stmt => exact noInternal_wrapRead _ (noInternal_of_run .stmt c rfl)
  | simpleStmt => exact noInternal_wrapRead _ (noInternal_of_run .simple c rfl)
  | block => exact noInternal_wrapRead _ (noInternal_of_run .block c rfl)
  | varDecl => exact noInternal_wrapRead _ (noInternal_of_run .varDecl c rfl)
  | ifChain => exact noInternal_wrapRead _ (noInternal_of_run .ifChain c rfl)
  | loop => exact noInternal_wrapRead _ (noInternal_of_run .loop c rfl)
  | breakStmt =>
    refine noInternal_wrapRead _ ?_
    rw [readBreak_eq]
    exact NoInternal.map_iff.mpr (c.noInternal_expect _)
  | continueStmt =>
    refine noInternal_wrapRead _ ?_
    rw [readContinue_eq]
    exact NoInternal.map_iff.mpr (c.noInternal_expect _)
  | returnStmt => exact noInternal_wrapRead _ (noInternal_of_run .ret c rfl)
  | type => exact noInternal_wrap _ (noInternal_of_run .type c rfl)
  | typeList => exact noInternal_wrap _ (noInternal_of_run .typeList c rfl)
  | results => exact noInternal_wrap _ (noInternal_of_run .results c rfl)

theorem readStmt_noInternal (c : Cursor) : NoInternal (readStmt c) :=
  noInternal_plain.mp (Reader.noInternal_of_run .stmt c rfl)

namespace Program

theorem items_noInternal (c : Cursor) : ∀ x ∈ items c, NoInternal x := by
  fun_induction items c with
  | case1 c h => simp
  | case2 c h e he =>
    simp only [List.mem_singleton, forall_eq]
    exact .error (readStmt_noInternal c e he)
  | case3 c h s d hd hs ih =>
    simp only [List.mem_cons, forall_eq_or_imp]
    exact ⟨.ok _, ih⟩

theorem readAll_noInternal (c : Cursor) : NoInternal (readAll c) := by
  fun_induction readAll c with
  | case1 c h => exact .ok _
  | case2 c h e he => exact .error (readStmt_noInternal c e he)
  | case3 c h s d hd hs ih => exact NoInternal.map_iff.mpr ih

end Program

theorem Level.accepts?_isSome_iff (l : Level) (k : TokenKind) :
    (l.accepts? k).isSome ↔ k.bindingPower? = some l := by
  rw [Level.accepts?_eq, TokenKind.bindingPower?_eq]
  cases BinaryOp.ofKind? k with
  | none => simp
  | some op => by_cases h : op.level = l <;> simp [h]

theorem TokenKind.typeStart?_eq_basic_iff (k : TokenKind) :
    k.typeStart? = some .basic ↔ (BasicType.ofKind? k).isSome := by
  rw [TokenKind.typeStart?_eq]
  by_cases hf : k = .kwFunc
  · subst hf
    decide
  · rw [if_neg hf]
    cases BasicType.ofKind? k <;> simp

/-- No grammar function fails with an internal error, at any cursor over any tokens, because the
operator and type tables agree with the readers that consult them. -/
theorem readers_never_fail_internally :
    (∀ (r : Rule) (c : Cursor) (e : Error), r.run c = .error e → e.fault.kind ≠ .internal) ∧
    (∀ (ts : List Token) (e : Error), Program.ofTokens ts = .error e →
      e.fault.kind ≠ .internal) ∧
    (∀ (ts : List Token) (n : Nat) (e : Error),
      some (.error e) ∈ Program.steps n (some (Cursor.ofTokens ts)) → e.fault.kind ≠ .internal) ∧
    (∀ (l : Level) (k : TokenKind), (l.accepts? k).isSome ↔ k.bindingPower? = some l) ∧
    (∀ k : TokenKind, (UnaryOp.ofKind? k).isSome ↔ k ∈ prefixKinds) ∧
    (∀ k : TokenKind, k.typeStart? = some .basic ↔ k = .kwInt ∨ k = .kwBool) := by
  refine ⟨fun r c => Rule.noInternal_run r c, fun ts => Program.readAll_noInternal _, ?steps,
    Level.accepts?_isSome_iff, UnaryOp.ofKind?_isSome_iff, ?basic⟩
  case steps =>
    intro ts n e he
    rw [Program.steps_eq_items, List.mem_map] at he
    obtain ⟨i, -, hi⟩ := he
    exact Program.items_noInternal _ _ (List.mem_of_getElem? hi) e rfl
  case basic =>
    intro k
    rw [TokenKind.typeStart?_eq_basic_iff]
    cases k <;> simp [BasicType.ofKind?]

theorem readers_never_fail_internally_else :
    ∃ ts e, tokenize "else" none = .ok ts ∧ Program.ofTokens ts = .error e ∧
      e.fault.kind ≠ .internal := by
  obtain ⟨ts, hts⟩ := Except.exists_of_toBool (x := tokenize "else" none) (by decide +kernel)
  have hbad : (Program.ofSource "else" "shell").toBool = false := by decide +kernel
  rw [Program.ofSource, show tokenize "else" (some "shell") = tokenize "else" none from rfl, hts,
    Except.ok_bind'] at hbad
  cases hp : Program.ofTokens ts with
  | ok p => rw [hp] at hbad; cases hbad
  | error e => exact ⟨ts, e, hts, hp, readers_never_fail_internally.2.1 ts e hp⟩

end ScriptFront
