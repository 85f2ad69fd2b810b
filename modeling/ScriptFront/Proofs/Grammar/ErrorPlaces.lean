import ScriptFront.Proofs.Grammar.Positions
/-!
# Where the readers' errors point

Every error of a reader names a place where a token from the reader's cursor on starts, the end
of file included. The readers report an unexpected token at that token, a bad number at its
literal, the definition of something that is not a name at that target, a statement used as a
value at its first token, and a run of parameters left without a type at the first of its names,
which the run is given and which stand at their identifiers (`Reader.points`). The proof takes one
step per reader, by the induction of `Reader.induction`; a program that cannot be read then fails
at the start of one of its tokens (`Program.readAll_points`).
-/

set_option autoImplicit false

namespace ScriptFront

namespace Cursor

variable {c d : Cursor} {p : Position}

def StartsAt (c : Cursor) (p : Position) : Prop := p = c.last.start ∨ ∃ t ∈ c.ahead, t.start = p

theorem startsAt_current (c : Cursor) : c.StartsAt c.current.start := by
  cases h : c.ahead with
  | nil => exact .inl (by rw [current_of_nil h])
  | cons t rest => exact .inr ⟨t, by rw [h]; exact List.mem_cons_self, by rw [current_of_ahead h]⟩

theorem StartsAt.of_follows (h : d.StartsAt p) (hd : d.Follows c) : c.StartsAt p := by
  rcases h with h | ⟨t, ht, he⟩
  · exact .inl (by rw [h, hd.2])
  · exact .inr ⟨t, hd.1.subset ht, he⟩

theorem Sits.startsAt {e : Cursor} {a : Position × Anchor} (h : c.Sits e a) : c.StartsAt a.1 := by
  obtain ⟨t, ht, he, -⟩ := h.ahead
  exact .inr ⟨t, ht, he⟩

end Cursor

def Error.At (e : Error) (c : Cursor) : Prop := c.StartsAt e.position

theorem Error.At.of_follows {e : Error} {c d : Cursor} (h : e.At d) (hd : d.Follows c) : e.At c :=
  Cursor.StartsAt.of_follows h hd

def FailsWith {α : Type} (P : Error → Prop) (x : Except Error α) : Prop :=
  ∀ e, x = .error e → P e

namespace FailsWith

variable {α β : Type} {P Q : Error → Prop}

theorem ok (a : α) : FailsWith P (.ok a : Except Error α) := fun _ h => by cases h

theorem error {e : Error} (h : P e) : FailsWith P (.error e : Except Error α) := fun _ h' => by
  cases h'
  exact h

theorem bind {x : Except Error α} {f : α → Except Error β} (hx : FailsWith P x)
    (hf : ∀ a, x = .ok a → FailsWith P (f a)) : FailsWith P (x >>= f) := by
  intro e h
  rcases Except.bind_eq_error.mp h with h | ⟨a, ha, h⟩
  · exact hx e h
  · exact hf a ha e h

theorem map_iff {x : Except Error α} {f : α → β} : FailsWith P (x.map f) ↔ FailsWith P x := by
  simp only [FailsWith, Except.map_eq_error]

theorem mono {x : Except Error α} (h : FailsWith P x) (hPQ : ∀ e, P e → Q e) : FailsWith Q x :=
  fun e he => hPQ e (h e he)

end FailsWith

/-! ## The cursor's steps and the checks of single tokens -/

namespace Cursor

variable {c d : Cursor}

theorem unexpected_at (d : Cursor) (s : String) : (d.unexpected s).At d := startsAt_current d

theorem failsWith_expectOr (hd : d.Follows c) {k : TokenKind} {e : Error} (he : e.At d) :
    FailsWith (·.At c) (d.expectOr k e) := by
  unfold Cursor.expectOr
  split
  · exact .ok _
  · exact .error (he.of_follows hd)

theorem failsWith_expect (hd : d.Follows c) (k : TokenKind) : FailsWith (·.At c) (d.expect k) :=
  failsWith_expectOr hd (d.unexpected_at _)

theorem failsWith_endLine (hd : d.Follows c) : FailsWith (·.At c) d.endLine := by
  unfold Cursor.endLine
  split
  · exact .ok _
  · exact .ok _
  · exact .ok _
  · exact .error ((d.unexpected_at _).of_follows hd)

end Cursor

theorem Token.failsWith_integer {t : Token} {c : Cursor} (ht : c.StartsAt t.start) :
    FailsWith (·.At c) t.integer := by
  unfold Token.integer
  split
  · exact .ok _
  · exact .error ht

theorem failsWith_bindingsOf (targets : List Expr) :
    FailsWith (fun e => ∃ x ∈ targets, e.position = x.pos) (bindingsOf targets) := by
  unfold bindingsOf
  induction targets with
  | nil => exact .ok _
  | cons x xs ih =>
    rw [List.mapM_cons]
    refine .bind ?_ fun _ _ => .bind (ih.mono fun e he => ?_) fun _ _ => .ok _
    · split
      · exact .ok _
      · exact .error ⟨x, List.mem_cons_self, rfl⟩
    · obtain ⟨y, hy, he⟩ := he
      exact ⟨y, List.mem_cons_of_mem _ hy, he⟩

theorem Expr.pos_mem_anchors (x : Expr) : ∃ an, (x.pos, an) ∈ x.anchors := by
  cases x with
  | binary op l r p => exact ⟨_, List.mem_append_right _ List.mem_cons_self⟩
  | _ => exact ⟨_, List.mem_cons_self⟩

theorem Expr.mem_anchorsAll {xs : List Expr} {x : Expr} {a : Position × Anchor} (hx : x ∈ xs)
    (ha : a ∈ x.anchors) : a ∈ Expr.anchorsAll xs := by
  induction xs with
  | nil => cases hx
  | cons y ys ih =>
    rcases List.mem_cons.mp hx with rfl | hx
    · exact List.mem_append_left _ ha
    · exact List.mem_append_right _ (ih hx)

theorem Cursor.Hosts.startsAt_pos {c d : Cursor} {xs : List Expr} {x : Expr}
    (g : c.Hosts d (Expr.anchorsAll xs)) (hx : x ∈ xs) : c.StartsAt x.pos := by
  obtain ⟨an, ha⟩ := x.pos_mem_anchors
  exact (g _ (Expr.mem_anchorsAll hx ha)).startsAt

/-! ## Every reader -/

namespace Reader

open Cursor

def blamed : Reader → List Position
  | paramRun pending _ => pending.map (·.pos)
  | _ => []

/-- A run of a reader fails, if at all, at the start of a token from its cursor on, or at a
position of what it was given. -/
def Points (r : Reader) (c : Cursor) : Prop :=
  FailsWith (fun e => e.At c ∨ e.position ∈ r.blamed) (r.run c)

theorem blamed_operand (l : Level) : (operand l).blamed = [] := by
  cases l <;> rfl

theorem follows_of (r : Reader) {c d : Cursor} {α : Type} {x : Except Error (α × Cursor)}
    {g : α → Outcome} {a : α} (hr : r.run c = x.map fun p => (g p.1, p.2))
    (h : x = .ok (a, d)) : d.Follows c :=
  forward r c (g a) d (by rw [hr, h]; rfl)

theorem points_of {r : Reader} {c : Cursor} (hb : r.blamed = []) {α : Type}
    {x : Except Error (α × Cursor)} {g : α → Outcome} (hr : r.run c = x.map fun p => (g p.1, p.2))
    (h : FailsWith (·.At c) x) : Points r c := by
  rw [Points, hr, FailsWith.map_iff, hb]
  exact h.mono fun _ he => .inl he

section Below

variable {r : Reader} {c d : Cursor}

theorem Below.points (ih : Below Points r c) (hlt : d.ahead.length < c.ahead.length)
    (hd : d.Follows c) (r' : Reader) (hb : r'.blamed = []) {α : Type}
    {x : Except Error (α × Cursor)} {g : α → Outcome}
    (hr : r'.run d = x.map fun p => (g p.1, p.2)) : FailsWith (·.At c) x := by
  have h := ih.further hlt r'
  rw [Points, hr, FailsWith.map_iff, hb] at h
  exact h.mono fun _ he => (he.resolve_right List.not_mem_nil).of_follows hd

theorem Below.pointsHere (ih : Below Points r c) (hd : d.Follows c) (r' : Reader)
    (hrank : r'.rank < r.rank) (hb : r'.blamed = []) {α : Type} {x : Except Error (α × Cursor)}
    {g : α → Outcome} (hr : r'.run d = x.map fun p => (g p.1, p.2)) : FailsWith (·.At c) x := by
  have h : Points r' d := ih.lower hd.length_le hrank
  rw [Points, hr, FailsWith.map_iff, hb] at h
  exact h.mono fun _ he => (he.resolve_right List.not_mem_nil).of_follows hd

end Below

theorem points_moreTypes (c : Cursor) (ih : Below Points moreTypes c) : Points moreTypes c := by
  refine points_of rfl rfl ?_
  rw [readMoreTypes_eq]
  split
  · next hk =>
    have l1 := next_lt (by decide) hk
    refine .bind (ih.points l1 (next_follows c) type rfl rfl) ?_
    rintro ⟨t?, d1⟩ h1
    have f1 := follows_of type rfl h1
    have l2 := f1.length_le
    cases t? with
    | none => exact .error ((startsAt_current c.next).of_follows (next_follows c))
    | some t =>
      exact FailsWith.map_iff.mpr
        (ih.points (by omega) (f1.trans (next_follows c)) moreTypes rfl rfl)
  · exact .ok _

theorem points_funcType (c : Cursor) (ih : Below Points funcType c) : Points funcType c := by
  refine points_of rfl rfl ?_
  rw [readFuncType_eq]
  refine .bind (failsWith_expect (.refl c) _) ?_
  rintro ⟨_, d1⟩ h1
  obtain ⟨k1, -, rfl⟩ := expectOr_eq_ok_iff.mp h1
  have l1 := next_lt (by decide) k1
  have n1 := next_follows c
  refine .bind (failsWith_expect n1 _) ?_
  rintro ⟨_, d2⟩ h2
  obtain ⟨-, -, rfl⟩ := expectOr_eq_ok_iff.mp h2
  have l2 := c.next.length_next_le
  have n2 := (next_follows c.next).trans n1
  refine .bind (ih.points (by omega) n2 typeList rfl rfl) ?_
  rintro ⟨ps, d3⟩ h3
  have f3 := follows_of typeList rfl h3
  have l3 := f3.length_le
  refine .bind (failsWith_expect (f3.trans n2) _) ?_
  rintro ⟨_, d4⟩ h4
  obtain ⟨-, -, rfl⟩ := expectOr_eq_ok_iff.mp h4
  have l4 := d3.length_next_le
  exact .bind (ih.points (by omega) ((next_follows d3).trans (f3.trans n2)) results rfl rfl)
    fun _ _ => .ok _

theorem points_type (c : Cursor) (ih : Below Points type c) : Points type c := by
  refine points_of rfl rfl ?_
  rw [readType?_eq]
  split
  · exact .ok _
  split
  · exact .ok _
  split
  · exact FailsWith.map_iff.mpr (ih.pointsHere (.refl c) funcType (by decide) rfl rfl)
  · exact .ok _

theorem points_typeList (c : Cursor) (ih : Below Points typeList c) : Points typeList c := by
  refine points_of rfl rfl ?_
  rw [readTypeList_eq]
  refine .bind (ih.pointsHere (.refl c) type (by decide) rfl rfl) ?_
  rintro ⟨t?, d1⟩ h1
  cases t? with
  | none => exact .ok _
  | some t =>
    exact FailsWith.map_iff.mpr
      (ih.pointsHere (follows_of type rfl h1) moreTypes (by decide) rfl rfl)

theorem points_results (c : Cursor) (ih : Below Points results c) : Points results c := by
  refine points_of rfl rfl ?_
  rw [readResults_eq]
  split
  · next hk =>
    refine .bind (ih.points (next_lt (by decide) hk) (next_follows c) typeList rfl rfl) ?_
    rintro ⟨ts, d1⟩ h1
    exact .bind (failsWith_expect ((follows_of typeList rfl h1).trans (next_follows c)) _)
      fun _ _ => .ok _
  · exact FailsWith.map_iff.mpr (ih.pointsHere (.refl c) type (by decide) rfl rfl)

theorem points_names (c : Cursor) (ih : Below Points names c) : Points names c := by
  refine points_of rfl rfl ?_
  rw [readNames_eq]
  refine .bind (failsWith_expectOr (.refl c) (c.unexpected_at _)) ?_
  rintro ⟨t, d1⟩ h1
  obtain ⟨k1, rfl, rfl⟩ := expectOr_eq_ok_iff.mp h1
  have l1 := next_lt (by decide) k1
  have l2 := c.next.length_next_le
  dsimp only
  split
  · exact FailsWith.map_iff.mpr
      (ih.points (by omega) ((next_follows c.next).trans (next_follows c)) names rfl rfl)
  · exact .ok _

theorem blamed_waiting {c : Cursor} {pending : List Binding} {p : Position}
    (h : p ∈ (pending ++ [c.current.binding]).map (·.pos)) :
    c.StartsAt p ∨ p ∈ pending.map (·.pos) := by
  rw [List.map_append, List.mem_append] at h
  rcases h with h | h
  · exact .inr h
  · rw [List.map_singleton, List.mem_singleton] at h
    rw [h]
    exact .inl (startsAt_current c)

theorem points_paramRun (c : Cursor) (pending : List Binding) (done : List Param)
    (ih : Below Points (paramRun pending done) c) : Points (paramRun pending done) c := by
  rw [Points, run, FailsWith.map_iff, readParamRun_eq]
  refine .bind ((failsWith_expect (.refl c) _).mono fun _ he => .inl he) ?_
  rintro ⟨t, d1⟩ h1
  obtain ⟨k1, rfl, rfl⟩ := expectOr_eq_ok_iff.mp h1
  have l1 := next_lt (by decide) k1
  refine .bind ((ih.points l1 (next_follows c) type rfl rfl).mono fun _ he => .inl he) ?_
  rintro ⟨ty?, d2⟩ h2
  have f2 := (follows_of type rfl h2).trans (next_follows c)
  have l2 := (follows_of type rfl h2).length_le
  have l3 := d2.length_next_le
  have next : ∀ q : List Binding, (∀ p ∈ q.map (·.pos), c.StartsAt p ∨ p ∈ pending.map (·.pos)) →
      ∀ done', FailsWith (fun e => e.At c ∨ e.position ∈ pending.map (·.pos))
        (plain (readParamRun d2.next q done')) := by
    intro q hq done'
    have h := ih.further (d := d2.next) (by omega) (paramRun q done')
    rw [Points, run, FailsWith.map_iff] at h
    refine h.mono fun e he => ?_
    rcases he with he | he
    · exact .inl (he.of_follows ((next_follows d2).trans f2))
    · exact hq _ he
  cases ty? with
  | some ty =>
    dsimp only
    split
    · exact next [] (fun _ h => absurd h List.not_mem_nil) _
    · exact .ok _
  | none =>
    dsimp only
    split
    · exact next _ (fun _ h => blamed_waiting h) _
    · split
      · exact .ok _
      · next b bs hb =>
        refine .error (blamed_waiting ?_)
        rw [hb]
        exact List.mem_map_of_mem List.mem_cons_self

theorem points_params (c : Cursor) (ih : Below Points params c) : Points params c := by
  refine points_of rfl rfl ?_
  rw [readParams_eq]
  split
  · exact .ok _
  · exact ih.pointsHere (.refl c) (paramRun [] []) (by decide) rfl rfl

theorem points_levelRest (c : Cursor) (l : Level) (left : Expr)
    (ih : Below Points (levelRest l left) c) : Points (levelRest l left) c := by
  refine points_of rfl rfl ?_
  rw [readLevelRest_eq]
  split
  · exact .ok _
  · next op hop =>
    have l1 := opAt?_lt hop
    refine .bind (ih.points l1 (next_follows c) (operand l) (blamed_operand l)
      (run_operand l _)) ?_
    rintro ⟨r, d1⟩ h1
    have f1 := follows_of (operand l) (run_operand l _) h1
    exact ih.points (by have := Level.operand_lt h1; omega) (f1.trans (next_follows c))
      (levelRest l _) rfl rfl

theorem points_moreExprs (c : Cursor) (ih : Below Points moreExprs c) : Points moreExprs c := by
  refine points_of rfl rfl ?_
  rw [readMoreExprs_eq]
  split
  · next hk =>
    have l1 := next_lt (by decide) hk
    refine .bind (ih.points l1 (next_follows c) expr rfl rfl) ?_
    rintro ⟨x, d1⟩ h1
    have l2 := Read.lt_of_plain h1
    exact .bind (ih.points (by omega) ((follows_of expr rfl h1).trans (next_follows c))
      moreExprs rfl rfl) fun _ _ => .ok _
  · exact .ok _

theorem points_group (c : Cursor) (ih : Below Points group c) : Points group c := by
  refine points_of rfl rfl ?_
  rw [readGroup_eq]
  refine .bind (failsWith_expect (.refl c) _) ?_
  rintro ⟨_, d1⟩ h1
  obtain ⟨k1, -, rfl⟩ := expectOr_eq_ok_iff.mp h1
  refine .bind (ih.points (next_lt (by decide) k1) (next_follows c) (level .disjunction)
    rfl rfl) ?_
  rintro ⟨x, d2⟩ h2
  exact .bind (failsWith_expect ((follows_of (level .disjunction) rfl h2).trans
    (next_follows c)) _) fun _ _ => .ok _

theorem points_primary (c : Cursor) (ih : Below Points primary c) : Points primary c := by
  refine points_of rfl rfl ?_
  rw [readPrimary_eq]
  split
  · exact .ok _
  split
  · exact FailsWith.map_iff.mpr (Token.failsWith_integer (startsAt_current c))
  split
  · exact .ok _
  split
  · exact .ok _
  split
  · exact ih.pointsHere (.refl c) group (by decide) rfl rfl
  split
  · exact .error (startsAt_current c)
  · exact .error (c.unexpected_at _)

theorem points_unary (c : Cursor) (ih : Below Points unary c) : Points unary c := by
  refine points_of rfl rfl ?_
  rw [readUnary_eq]
  split
  · next op hop =>
    exact FailsWith.map_iff.mpr (ih.points (unary_lt hop) (next_follows c) unary rfl rfl)
  · exact ih.pointsHere (.refl c) primary (by decide) rfl rfl

theorem points_level (c : Cursor) (l : Level) (ih : Below Points (level l) c) :
    Points (level l) c := by
  refine points_of rfl rfl ?_
  rw [Level.read_eq]
  refine .bind (ih.pointsHere (.refl c) (operand l) (rank_operand l) (blamed_operand l)
    (run_operand l c)) ?_
  rintro ⟨x, d1⟩ h1
  exact ih.points (Level.operand_lt h1) (follows_of (operand l) (run_operand l c) h1)
    (levelRest l _) rfl rfl

theorem points_funcLit (c : Cursor) (ih : Below Points funcLit c) : Points funcLit c := by
  refine points_of rfl rfl ?_
  rw [readFuncLit_eq]
  refine .bind (failsWith_expect (.refl c) _) ?_
  rintro ⟨t, d1⟩ h1
  obtain ⟨k1, rfl, rfl⟩ := expectOr_eq_ok_iff.mp h1
  have l1 := next_lt (by decide) k1
  have n1 := next_follows c
  refine .bind (failsWith_expect n1 _) ?_
  rintro ⟨_, d2⟩ h2
  obtain ⟨-, -, rfl⟩ := expectOr_eq_ok_iff.mp h2
  have l2 := c.next.length_next_le
  have n2 := (next_follows c.next).trans n1
  refine .bind (ih.points (by omega) n2 params rfl rfl) ?_
  rintro ⟨ps, d3⟩ h3
  have f3 := (follows_of params rfl h3).trans n2
  have l3 := Attempt.le_of_plain h3
  refine .bind (failsWith_expect f3 _) ?_
  rintro ⟨_, d4⟩ h4
  obtain ⟨-, -, rfl⟩ := expectOr_eq_ok_iff.mp h4
  have l4 := d3.length_next_le
  have f4 := (next_follows d3).trans f3
  refine .bind (ih.points (by omega) f4 results rfl rfl) ?_
  rintro ⟨rs, d5⟩ h5
  have l5 := Attempt.le_of_plain h5
  exact .bind (ih.points (by omega) ((follows_of results rfl h5).trans f4) block rfl rfl)
    fun _ _ => .ok _

theorem points_expr (c : Cursor) (ih : Below Points expr c) : Points expr c := by
  refine points_of rfl rfl ?_
  rw [readExpr_eq]
  split
  · exact ih.pointsHere (.refl c) funcLit (by decide) rfl rfl
  · exact ih.pointsHere (.refl c) (level .disjunction) (by decide) rfl rfl

theorem points_exprList (c : Cursor) (ih : Below Points exprList c) : Points exprList c := by
  refine points_of rfl rfl ?_
  rw [readExprList_eq]
  refine .bind (ih.pointsHere (.refl c) expr (by decide) rfl rfl) ?_
  rintro ⟨x, d1⟩ h1
  exact .bind (ih.points (Read.lt_of_plain h1) (follows_of expr rfl h1) moreExprs rfl rfl)
    fun _ _ => .ok _

theorem points_cond (c : Cursor) (ih : Below Points cond c) : Points cond c := by
  refine points_of rfl rfl ?_
  rw [readCond_eq]
  split
  · exact .ok _
  · exact FailsWith.map_iff.mpr (ih.pointsHere (.refl c) expr (by decide) rfl rfl)

theorem points_branches (c : Cursor) (pos : Position) (ih : Below Points (branches pos) c) :
    Points (branches pos) c := by
  refine points_of rfl rfl ?_
  rw [readBranches_eq]
  refine .bind (ih.pointsHere (.refl c) expr (by simp [rank]) rfl rfl) ?_
  rintro ⟨x, d1⟩ h1
  have f1 := follows_of expr rfl h1
  have l1 := Read.lt_of_plain h1
  refine .bind (ih.points l1 f1 block rfl rfl) ?_
  rintro ⟨b, d2⟩ h2
  have f2 := (follows_of block rfl h2).trans f1
  have l2 := Read.lt_of_plain h2
  have l3 := d2.length_next_le
  have l4 := d2.next.length_next_le
  have n2 := (next_follows d2).trans f2
  dsimp only
  split
  · split
    · exact FailsWith.map_iff.mpr
        (ih.points (by omega) ((next_follows d2.next).trans n2) (branches _) rfl rfl)
    · exact FailsWith.map_iff.mpr (ih.points (by omega) n2 block rfl rfl)
  · exact .ok _

theorem points_simple (c : Cursor) (ih : Below Points simple c) : Points simple c := by
  refine points_of rfl rfl ?_
  rw [readSimple_eq]
  refine .bind (ih.pointsHere (.refl c) expr (by decide) rfl rfl) ?_
  rintro ⟨x, d1⟩ h1
  have l1 := Read.lt_of_plain h1
  have r1 := sound expr c (.expr x) d1 (by rw [run, h1]; rfl)
  dsimp only
  split
  · refine .bind (ih.points l1 r1.follows moreExprs rfl rfl) ?_
    rintro ⟨xs, d2⟩ h2
    have r2 := sound moreExprs d1 (.exprs xs) d2 (by rw [run, h2]; rfl)
    have f2 := r2.follows.trans r1.follows
    have l2 := r2.follows.length_le
    have l3 := d2.length_next_le
    dsimp only
    split
    · exact FailsWith.map_iff.mpr
        (ih.points (by omega) ((next_follows d2).trans f2) exprList rfl rfl)
    · refine .bind (failsWith_expectOr f2 (d2.unexpected_at _)) ?_
      rintro ⟨t, d3⟩ h3
      obtain ⟨-, -, rfl⟩ := expectOr_eq_ok_iff.mp h3
      have g : c.Hosts d2 (Expr.anchorsAll (x :: xs)) :=
        ((r1.hosts c (.refl c) (hosts_nil _ _)).later r2.follows.length_le).append
          (r2.hosts c r1.follows (hosts_nil _ _))
      refine .bind ((failsWith_bindingsOf _).mono fun e he => ?_) fun _ _ =>
        FailsWith.map_iff.mpr (ih.points (by omega) ((next_follows d2).trans f2) exprList rfl rfl)
      obtain ⟨y, hy, he⟩ := he
      rw [Error.At, he]
      exact g.startsAt_pos hy
  · exact .ok _

theorem points_block (c : Cursor) (ih : Below Points block c) : Points block c := by
  refine points_of rfl rfl ?_
  rw [readBlock_eq]
  refine .bind (failsWith_expect (.refl c) _) ?_
  rintro ⟨t, d1⟩ h1
  obtain ⟨k1, rfl, rfl⟩ := expectOr_eq_ok_iff.mp h1
  have l1 := next_lt (by decide) k1
  have hb := Follows.ite_next c.next (c.next.current.kind = .newline)
  have l2 := hb.length_le
  exact .bind (ih.points (by omega) (hb.trans (next_follows c)) blockBody rfl rfl)
    fun _ _ => .ok _

theorem points_blockBody (c : Cursor) (ih : Below Points blockBody c) : Points blockBody c := by
  refine points_of rfl rfl ?_
  rw [readBlockBody_eq]
  split
  · exact .ok _
  split
  · exact .error (c.unexpected_at _)
  · refine .bind (ih.pointsHere (.refl c) stmt (by decide) rfl rfl) ?_
    rintro ⟨s, d1⟩ h1
    exact .bind (ih.points (Read.lt_of_plain h1) (follows_of stmt rfl h1) blockBody rfl rfl)
      fun _ _ => .ok _

theorem points_varDecl (c : Cursor) (ih : Below Points varDecl c) : Points varDecl c := by
  refine points_of rfl rfl ?_
  rw [readVarDecl_eq]
  refine .bind (failsWith_expect (.refl c) _) ?_
  rintro ⟨t, d1⟩ h1
  obtain ⟨k1, rfl, rfl⟩ := expectOr_eq_ok_iff.mp h1
  have l1 := next_lt (by decide) k1
  refine .bind (ih.points l1 (next_follows c) names rfl rfl) ?_
  rintro ⟨bs, d2⟩ h2
  have f2 := (follows_of names rfl h2).trans (next_follows c)
  have l2 := Read.lt_of_plain h2
  refine .bind (ih.points (by omega) f2 type rfl rfl) ?_
  rintro ⟨ty?, d3⟩ h3
  have f3 := (follows_of type rfl h3).trans f2
  have l3 := Attempt.le_of_plain h3
  have l4 := d3.length_next_le
  have n3 := (next_follows d3).trans f3
  cases ty? with
  | some ty =>
    dsimp only
    split
    · exact FailsWith.map_iff.mpr (ih.points (by omega) n3 exprList rfl rfl)
    · exact .ok _
  | none =>
    refine .bind (failsWith_expect f3 _) ?_
    rintro ⟨_, d4⟩ h4
    obtain ⟨-, -, rfl⟩ := expectOr_eq_ok_iff.mp h4
    exact FailsWith.map_iff.mpr (ih.points (by omega) n3 exprList rfl rfl)

theorem points_ifChain (c : Cursor) (ih : Below Points ifChain c) : Points ifChain c := by
  refine points_of rfl rfl ?_
  rw [readIf_eq]
  refine .bind (failsWith_expect (.refl c) _) ?_
  rintro ⟨t, d1⟩ h1
  obtain ⟨k1, rfl, rfl⟩ := expectOr_eq_ok_iff.mp h1
  exact FailsWith.map_iff.mpr
    (ih.points (next_lt (by decide) k1) (next_follows c) (branches _) rfl rfl)

theorem points_loop (c : Cursor) (ih : Below Points loop c) : Points loop c := by
  refine points_of rfl rfl ?_
  rw [readFor_eq]
  refine .bind (failsWith_expect (.refl c) _) ?_
  rintro ⟨t, d1⟩ h1
  obtain ⟨k1, rfl, rfl⟩ := expectOr_eq_ok_iff.mp h1
  have l1 := next_lt (by decide) k1
  have n1 := next_follows c
  dsimp only
  split
  · exact FailsWith.map_iff.mpr (ih.points l1 n1 block rfl rfl)
  split
  · exact FailsWith.map_iff.mpr (ih.points l1 n1 (clauses none) rfl rfl)
  · refine .bind (ih.points l1 n1 simple rfl rfl) ?_
    rintro ⟨s, d2⟩ h2
    have f2 := (follows_of simple rfl h2).trans n1
    have l2 := Read.lt_of_plain h2
    dsimp only
    split
    · split
      · exact FailsWith.map_iff.mpr (ih.points (by omega) f2 block rfl rfl)
      · have hs : c.StartsAt s.pos := by
          rw [readSimple_pos h2]
          exact (startsAt_current c.next).of_follows n1
        exact .error hs
    · exact FailsWith.map_iff.mpr (ih.points (by omega) f2 (clauses _) rfl rfl)

theorem points_clauses (c : Cursor) (init : Option Stmt) (ih : Below Points (clauses init) c) :
    Points (clauses init) c := by
  refine points_of rfl rfl ?_
  rw [readClauses_eq]
  refine .bind (failsWith_expectOr (.refl c) (c.unexpected_at _)) ?_
  rintro ⟨_, d1⟩ h1
  obtain ⟨k1, -, rfl⟩ := expectOr_eq_ok_iff.mp h1
  have l1 := next_lt (by decide) k1
  have n1 := next_follows c
  refine .bind (ih.points l1 n1 cond rfl rfl) ?_
  rintro ⟨x, d2⟩ h2
  have f2 := (follows_of cond rfl h2).trans n1
  have l2 := Attempt.le_of_plain h2
  refine .bind (failsWith_expect f2 _) ?_
  rintro ⟨_, d3⟩ h3
  obtain ⟨-, -, rfl⟩ := expectOr_eq_ok_iff.mp h3
  have l3 := d2.length_next_le
  have n2 := (next_follows d2).trans f2
  refine .bind (ih.points (by omega) n2 post rfl rfl) ?_
  rintro ⟨p, d4⟩ h4
  have l4 := Attempt.le_of_plain h4
  exact FailsWith.map_iff.mpr
    (ih.points (by omega) ((follows_of post rfl h4).trans n2) block rfl rfl)

theorem points_post (c : Cursor) (ih : Below Points post c) : Points post c := by
  refine points_of rfl rfl ?_
  rw [readPost_eq]
  split
  · exact .ok _
  · refine .bind (ih.pointsHere (.refl c) simple (by decide) rfl rfl) ?_
    rintro ⟨s, d1⟩ _
    dsimp only
    split
    · exact .error (startsAt_current c)
    · exact .ok _

theorem points_ret (c : Cursor) (ih : Below Points ret c) : Points ret c := by
  refine points_of rfl rfl ?_
  rw [readReturn_eq]
  refine .bind (failsWith_expect (.refl c) _) ?_
  rintro ⟨t, d1⟩ h1
  obtain ⟨k1, rfl, rfl⟩ := expectOr_eq_ok_iff.mp h1
  dsimp only
  split
  · exact .ok _
  · exact FailsWith.map_iff.mpr
      (ih.points (next_lt (by decide) k1) (next_follows c) exprList rfl rfl)

theorem points_head (c : Cursor) (ih : Below Points head c) : Points head c := by
  refine points_of rfl rfl ?_
  rw [readHead_eq]
  split
  · exact ih.pointsHere (.refl c) varDecl (by decide) rfl rfl
  · exact ih.pointsHere (.refl c) ifChain (by decide) rfl rfl
  · exact ih.pointsHere (.refl c) loop (by decide) rfl rfl
  · rw [readBreak_eq]
    exact FailsWith.map_iff.mpr (failsWith_expect (.refl c) _)
  · rw [readContinue_eq]
    exact FailsWith.map_iff.mpr (failsWith_expect (.refl c) _)
  · exact ih.pointsHere (.refl c) ret (by decide) rfl rfl
  · exact FailsWith.map_iff.mpr (ih.pointsHere (.refl c) block (by decide) rfl rfl)
  · exact ih.pointsHere (.refl c) simple (by decide) rfl rfl

theorem points_stmt (c : Cursor) (ih : Below Points stmt c) : Points stmt c := by
  refine points_of rfl rfl ?_
  rw [readStmt_eq]
  split
  · exact FailsWith.map_iff.mpr (failsWith_endLine (next_follows c))
  split
  · exact .ok _
  · refine .bind (ih.pointsHere (.refl c) head (by decide) rfl rfl) ?_
    rintro ⟨s, d1⟩ h1
    exact .bind (failsWith_endLine ((Follows.ite_next d1 _).trans (follows_of head rfl h1)))
      fun _ _ => .ok _

/-- Every reader, at every cursor, fails at a token from the cursor on or at a name it was
given. -/
theorem points : ∀ r c, Points r c :=
  induction Points fun r c ih => by
    cases r with
    | moreTypes => exact points_moreTypes c ih
    | funcType => exact points_funcType c ih
    | type => exact points_type c ih
    | typeList => exact points_typeList c ih
    | results => exact points_results c ih
    | names => exact points_names c ih
    | paramRun pending done => exact points_paramRun c pending done ih
    | params => exact points_params c ih
    | levelRest l left => exact points_levelRest c l left ih
    | moreExprs => exact points_moreExprs c ih
    | group => exact points_group c ih
    | primary => exact points_primary c ih
    | unary => exact points_unary c ih
    | level l => exact points_level c l ih
    | funcLit => exact points_funcLit c ih
    | expr => exact points_expr c ih
    | exprList => exact points_exprList c ih
    | cond => exact points_cond c ih
    | branches pos => exact points_branches c pos ih
    | simple => exact points_simple c ih
    | block => exact points_block c ih
    | varDecl => exact points_varDecl c ih
    | ifChain => exact points_ifChain c ih
    | loop => exact points_loop c ih
    | clauses init => exact points_clauses c init ih
    | ret => exact points_ret c ih
    | post => exact points_post c ih
    | head => exact points_head c ih
    | stmt => exact points_stmt c ih
    | blockBody => exact points_blockBody c ih

end Reader

theorem readStmt_points {c : Cursor} {e : Error} (h : plain (readStmt c) = .error e) : e.At c := by
  have hp := Reader.points .stmt c
  rw [Reader.Points, Reader.run, FailsWith.map_iff] at hp
  exact (hp e h).resolve_right List.not_mem_nil

/-- A program that cannot be read is refused at one of its tokens, or at its end of file. -/
theorem Program.readAll_points {c : Cursor} {e : Error} (h : Program.readAll c = .error e) :
    e.At c := by
  fun_induction Program.readAll c with
  | case1 => cases h
  | case2 c _ e' he =>
    cases h
    exact readStmt_points (eq_error_iff_plain.mp he)
  | case3 c _ s d _ hs ih =>
    exact (ih (Except.map_eq_error.mp h)).of_follows (Reader.reads_stmt hs).follows

end ScriptFront
