import ScriptFront.Proofs.Grammar.Steps
/-!
# One equation per reader

Each reader of the grammar, seen through `plain`, is a short chain of `Except` steps over the
cursor's own operations and the plain views of the readers it calls. These equations are what
every later proof unfolds; the readers themselves are opened only here.

Each equation follows its reader step by step: a split on the step's reading, the failing branch
closed at once, and the value and the cursor carried into the next step.
-/

set_option autoImplicit false

namespace ScriptFront

/-! ## Opening one step

A reader is a chain of steps, each a reading that fails or gives a value and a cursor further
on. Splitting on one step leaves an equation about the step's reading; these lemmas turn it
into one about the plain view that the equations below are written in. -/

section Opening

variable {α : Type} {c d : Cursor} {k : TokenKind}

theorem Read.plain_of_lift {h : d.ahead.length < c.ahead.length} {r : Read α d} {x : Read α c}
    (hx : Read.lift h r = x) : plain r = plain x := by
  rw [← hx, plain_lift]

theorem Attempt.plain_of_lift {h : d.ahead.length < c.ahead.length} {r : Attempt α d}
    {x : Read α c} (hx : Attempt.lift h r = x) : plain r = plain x := by
  rw [← hx, plain_attemptLift]

theorem Attempt.plain_of_liftWithin {h : d.ahead.length ≤ c.ahead.length} {r : Attempt α d}
    {x : Attempt α c} (hx : Attempt.liftWithin h r = x) : plain r = plain x := by
  rw [← hx, plain_attemptLiftWithin]

theorem Cursor.expect_of_need (hk : k ≠ .eof) {x : Read Token c} (hx : c.need k = x) :
    c.expect k = plain x := by
  rw [← hx, Cursor.plain_need hk]

theorem Cursor.expect_of_lift_need (hk : k ≠ .eof) {h : d.ahead.length < c.ahead.length}
    {x : Read Token c} (hx : Read.lift h (d.need k) = x) : d.expect k = plain x := by
  rw [← hx, plain_lift, Cursor.plain_need hk]

theorem Cursor.expectOr_of_needOr (hk : k ≠ .eof) {e : Error} {x : Read Token c}
    (hx : c.needOr k e = x) : c.expectOr k e = plain x := by
  rw [← hx, Cursor.plain_needOr hk]

theorem Cursor.expectOr_of_lift_needOr (hk : k ≠ .eof) {e : Error}
    {h : d.ahead.length < c.ahead.length} {x : Read Token c} (hx : Read.lift h (d.needOr k e) = x) :
    d.expectOr k e = plain x := by
  rw [← hx, plain_lift, Cursor.plain_needOr hk]

theorem Cursor.of_take?_eq_some {t : Token} {hd : d.ahead.length < c.ahead.length}
    (h : c.take? k = some (t, ⟨d, hd⟩)) : c.current.kind = k ∧ t = c.current ∧ d = c.next := by
  obtain ⟨-, hk, ht, hd⟩ := Cursor.take?_eq_some_iff.mp h
  exact ⟨hk, ht, hd⟩

end Opening

variable (c : Cursor)

/-! ## Types and names -/

theorem takeIf?_eq_none_iff {p : Token → Bool} : c.takeIf? p = none ↔ c.ahead = [] ∨ p c.current = false := by
  unfold Cursor.takeIf?
  split
  · next hn => simp [hn]
  · next u us hu =>
    rw [Cursor.current_of_ahead hu]
    cases p u <;> simp [hu]

theorem takeIf?_eq_some_iff {p : Token → Bool} {t : Token} {d : Ahead c} :
    c.takeIf? p = some (t, d) ↔ c.ahead ≠ [] ∧ p c.current = true ∧ t = c.current ∧ d.1 = c.next := by
  unfold Cursor.takeIf?
  split
  · next hn => simp [hn]
  · next u us hu =>
    rw [Cursor.current_of_ahead hu]
    by_cases hp : p u = true
    · simp only [hp, ↓reduceIte, Option.some.injEq, Prod.mk.injEq, ne_eq, reduceCtorEq,
        not_false_eq_true, true_and, hu]
      constructor
      · rintro ⟨rfl, hd⟩
        exact ⟨rfl, by rw [← hd, Cursor.rest_val]⟩
      · rintro ⟨rfl, hd⟩
        exact ⟨rfl, Subtype.ext (by rw [Cursor.rest_val, hd])⟩
    · simp [hp]

theorem readBasicType_eq {b : BasicType} (h : BasicType.ofKind? c.current.kind = some b) :
    plain (readBasicType c) = .ok (.basic b, c.next) := by
  have hn : c.ahead ≠ [] := fun hn => by
    rw [Cursor.current_of_nil hn, c.last_eof] at h
    cases h
  unfold readBasicType
  split
  · next t d hs =>
    obtain ⟨-, -, rfl, hd⟩ := (takeIf?_eq_some_iff c).mp hs
    simp [h, hd]
  · next hs =>
    rcases (takeIf?_eq_none_iff c).mp hs with hn' | hf
    · exact absurd hn' hn
    · cases hf

theorem readType?_eq : plain (readType? c) =
    if c.current.kind = .kwInt then .ok (some (.basic .int), c.next)
    else if c.current.kind = .kwBool then .ok (some (.basic .bool), c.next)
    else if c.current.kind = .kwFunc then (plain (readFuncType c)).map fun (t, d) => (some t, d)
    else .ok (none, c) := by
  rw [readType?]
  by_cases hi : c.current.kind = .kwInt
  · have hs : c.current.kind.typeStart? = some .basic := by rw [hi]; rfl
    have hb := readBasicType_eq c (b := .int) (by rw [hi]; rfl)
    simp only [hs, if_pos hi]
    split <;> simp_all [eq_ok_iff_plain, Ahead.within]
  by_cases hbo : c.current.kind = .kwBool
  · have hs : c.current.kind.typeStart? = some .basic := by rw [hbo]; rfl
    have hb := readBasicType_eq c (b := .bool) (by rw [hbo]; rfl)
    simp only [hs, if_neg hi, if_pos hbo]
    split <;> simp_all [eq_ok_iff_plain, Ahead.within]
  by_cases hf : c.current.kind = .kwFunc
  · have hs : c.current.kind.typeStart? = some .func := by rw [hf]; rfl
    simp only [hs, if_neg hi, if_neg hbo, if_pos hf]
    split <;> simp_all [eq_ok_iff_plain, eq_error_iff_plain, Ahead.within, Except.map]
  have hs : c.current.kind.typeStart? = none := by
    rw [TokenKind.typeStart?_eq, if_neg hf]
    generalize c.current.kind = k at hi hbo
    cases k <;> simp_all [BasicType.ofKind?]
  simp only [hs, if_neg hi, if_neg hbo, if_neg hf]
  rfl

theorem readFuncType_eq : plain (readFuncType c) = (do
    let (_, d1) ← c.expect .kwFunc
    let (_, d2) ← d1.expect .openParen
    let (ps, d3) ← plain (readTypeList d2)
    let (_, d4) ← d3.expect .closeParen
    let (rs, d5) ← plain (readResults d4)
    .ok (.func ps rs, d5) : Except Error (Ty × Cursor)) := by
  rw [readFuncType]
  split
  · next e h => rw [Cursor.expect_of_need (by decide) h]; rfl
  rename_i _ d1 h1 h
  simp only [Cursor.expect_of_need (by decide) h, plain_ok, Except.ok_bind']
  split
  · next e h => rw [Cursor.expect_of_lift_need (by decide) h]; rfl
  rename_i _ d2 h2 h
  simp only [Cursor.expect_of_lift_need (by decide) h, plain_ok, Except.ok_bind']
  split
  · next e h => rw [Attempt.plain_of_lift h]; rfl
  rename_i ps d3 h3 h
  simp only [Attempt.plain_of_lift h, plain_ok, Except.ok_bind']
  split
  · next e h => rw [Cursor.expect_of_lift_need (by decide) h]; rfl
  rename_i _ d4 h4 h
  simp only [Cursor.expect_of_lift_need (by decide) h, plain_ok, Except.ok_bind']
  split
  · next e h => rw [Attempt.plain_of_lift h]; rfl
  · next rs d5 h => rw [Attempt.plain_of_lift h]; rfl

theorem readTypeList_eq : plain (readTypeList c) = (do
    let (t?, d) ← plain (readType? c)
    match t? with
    | none => .ok ([], d)
    | some t => (plain (readMoreTypes d)).map fun (ts, d') => (t :: ts, d')) := by
  rw [readTypeList]
  split
  · next e h => rw [h]; rfl
  · next w h => rw [h]; rfl
  rename_i t d hd h
  simp only [h, plain_ok, Except.ok_bind']
  split
  · next e h => rw [Attempt.plain_of_liftWithin h]; rfl
  · next ts d' h => rw [Attempt.plain_of_liftWithin h]; rfl

theorem readMoreTypes_eq : plain (readMoreTypes c) =
    if c.current.kind = .comma then (do
      let (t?, d) ← plain (readType? c.next)
      match t? with
      | none => .error ⟨.missingTypeAfterComma c.next.current.describe, c.next.current.start⟩
      | some t => (plain (readMoreTypes d)).map fun (ts, d') => (t :: ts, d'))
    else .ok ([], c) := by
  rw [readMoreTypes]
  split
  · next h => rw [if_neg (Cursor.kind_ne_of_take?_eq_none (by decide) h)]; rfl
  rename_i _ d hd h
  obtain ⟨hk, -, rfl⟩ := Cursor.of_take?_eq_some h
  rw [if_pos hk]
  split
  · next e h => rw [Attempt.plain_of_lift h]; rfl
  · next w h => rw [Attempt.plain_of_lift h]; rfl
  rename_i t d' hd' h
  simp only [Attempt.plain_of_lift h, plain_ok, Except.ok_bind']
  split
  · next e h => rw [Attempt.plain_of_liftWithin h]; rfl
  · next ts d'' h => rw [Attempt.plain_of_liftWithin h]; rfl

theorem readResults_eq : plain (readResults c) =
    if c.current.kind = .openParen then (do
      let (ts, d) ← plain (readTypeList c.next)
      let (_, d') ← d.expect .closeParen
      .ok (ts, d'))
    else (plain (readType? c)).map fun (t?, d) => (t?.toList, d) := by
  rw [readResults]
  split
  · rename_i _ d hd h
    obtain ⟨hk, -, rfl⟩ := Cursor.of_take?_eq_some h
    rw [if_pos hk]
    split
    · next e h => rw [Attempt.plain_of_lift h]; rfl
    rename_i ts d' hd' h
    simp only [Attempt.plain_of_lift h, plain_ok, Except.ok_bind']
    split
    · next e h => rw [Cursor.expect_of_lift_need (by decide) h]; rfl
    · next t d'' h => rw [Cursor.expect_of_lift_need (by decide) h]; rfl
  · next h =>
    rw [if_neg (Cursor.kind_ne_of_take?_eq_none (by decide) h)]
    split
    · next e h => rw [h]; rfl
    · next t w h => rw [h]; rfl

theorem readNames_eq : plain (readNames c) = (do
    let (t, d) ← c.expectOr .identifier (c.unexpected "identifier during variable declaration")
    if d.current.kind = .comma then (plain (readNames d.next)).map fun (bs, d') => (t.binding :: bs, d')
    else .ok ([t.binding], d)) := by
  rw [readNames]
  split
  · next e h => rw [Cursor.expectOr_of_needOr (by decide) h]; rfl
  rename_i t d hd h
  simp only [Cursor.expectOr_of_needOr (by decide) h, plain_ok, Except.ok_bind']
  split
  · next h => rw [if_neg (Cursor.kind_ne_of_take?_eq_none (by decide) h)]; rfl
  rename_i _ d' hd' h
  obtain ⟨hk, -, rfl⟩ := Cursor.of_take?_eq_some h
  rw [if_pos hk, ← plain_lift hd']
  split
  · next e h => rw [Read.plain_of_lift h]; rfl
  · next bs d'' h => rw [Read.plain_of_lift h]; rfl

theorem readParamRun_eq (pending : List Binding) (done : List Param) :
    plain (readParamRun c pending done) = (do
      let (t, d) ← c.expect .identifier
      let (ty?, d') ← plain (readType? d)
      let run := pending ++ [t.binding]
      let (pending', done') : List Binding × List Param := match ty? with
        | some ty => ([], done ++ run.map (Binding.typed ty))
        | none => (run, done)
      if d'.current.kind = .comma then plain (readParamRun d'.next pending' done')
      else
        match pending' with
        | [] => .ok (done', d')
        | b :: _ => .error ⟨.missingParameterType b.name, b.pos⟩) := by
  rw [readParamRun]
  split
  · next e h => rw [Cursor.expect_of_need (by decide) h]; rfl
  rename_i t d hd h
  simp only [Cursor.expect_of_need (by decide) h, plain_ok, Except.ok_bind']
  split
  · next e h => rw [Attempt.plain_of_lift h]; rfl
  rename_i ty? d' hd' h
  simp only [Attempt.plain_of_lift h, plain_ok, Except.ok_bind']
  cases ty? with
  | some ty =>
    dsimp only
    split
    · rename_i _ d'' hd'' h
      obtain ⟨hk, -, rfl⟩ := Cursor.of_take?_eq_some h
      rw [if_pos hk, ← plain_lift hd'']
      split
      · next e h => rw [Read.plain_of_lift h]
      · next ps e h => rw [Read.plain_of_lift h]
    · next h => rw [if_neg (Cursor.kind_ne_of_take?_eq_none (by decide) h)]; rfl
  | none =>
    dsimp only
    split
    · rename_i _ d'' hd'' h
      obtain ⟨hk, -, rfl⟩ := Cursor.of_take?_eq_some h
      rw [if_pos hk, ← plain_lift hd'']
      split
      · next e h => rw [Read.plain_of_lift h]
      · next ps e h => rw [Read.plain_of_lift h]
    · next h =>
      rw [if_neg (Cursor.kind_ne_of_take?_eq_none (by decide) h)]
      obtain ⟨b, bs, hb⟩ := List.exists_cons_of_ne_nil (by simp : pending ++ [t.binding] ≠ [])
      rw [hb]
      rfl

theorem readParams_eq : plain (readParams c) =
    if c.current.kind = .closeParen then .ok ([], c) else plain (readParamRun c [] []) := by
  rw [readParams]
  by_cases hk : c.current.kind = .closeParen
  · simp [Cursor.sees, hk, Cursor.here]
  · simp [Cursor.sees, hk]

/-! ## Expressions -/

def Level.read (l : Level) (c : Cursor) : Except Error (Expr × Cursor) :=
  match l with
  | .disjunction => plain (readOr c)
  | .conjunction => plain (readAnd c)
  | .comparison => plain (readComparison c)
  | .additive => plain (readAdditive c)
  | .multiplicative => plain (readMultiplicative c)

def Level.operand (l : Level) (c : Cursor) : Except Error (Expr × Cursor) :=
  match l.tighter with
  | some m => m.read c
  | none => plain (readUnary c)

def Cursor.opAt? (c : Cursor) (l : Level) : Option BinaryOp :=
  match BinaryOp.ofKind? c.current.kind with
  | some op => if op.level = l then some op else none
  | none => none

theorem readExpr_eq : plain (readExpr c) =
    if c.current.kind = .kwFunc then plain (readFuncLit c) else plain (readOr c) := by
  rw [readExpr]
  simp only [Cursor.sees, beq_iff_eq]
  split <;> rfl

theorem readFuncLit_eq : plain (readFuncLit c) = (do
    let (t, d1) ← c.expect .kwFunc
    let (_, d2) ← d1.expect .openParen
    let (ps, d3) ← plain (readParams d2)
    let (_, d4) ← d3.expect .closeParen
    let (rs, d5) ← plain (readResults d4)
    let (b, d6) ← plain (readBlock d5)
    .ok (.func ps rs b t.start, d6)) := by
  rw [readFuncLit]
  split
  · next e h => rw [Cursor.expect_of_need (by decide) h]; rfl
  rename_i t d1 h1 h
  simp only [Cursor.expect_of_need (by decide) h, plain_ok, Except.ok_bind']
  split
  · next e h => rw [Cursor.expect_of_lift_need (by decide) h]; rfl
  rename_i _ d2 h2 h
  simp only [Cursor.expect_of_lift_need (by decide) h, plain_ok, Except.ok_bind']
  split
  · next e h => rw [Attempt.plain_of_lift h]; rfl
  rename_i ps d3 h3 h
  simp only [Attempt.plain_of_lift h, plain_ok, Except.ok_bind']
  split
  · next e h => rw [Cursor.expect_of_lift_need (by decide) h]; rfl
  rename_i _ d4 h4 h
  simp only [Cursor.expect_of_lift_need (by decide) h, plain_ok, Except.ok_bind']
  split
  · next e h => rw [Attempt.plain_of_lift h]; rfl
  rename_i rs d5 h5 h
  simp only [Attempt.plain_of_lift h, plain_ok, Except.ok_bind']
  split
  · next e h => rw [Read.plain_of_lift h]; rfl
  · next b d6 h => rw [Read.plain_of_lift h]; rfl

theorem Level.read_eq (l : Level) :
    l.read c = l.operand c >>= fun (x, d) => plain (readLevelRest l x d) := by
  cases l <;> simp only [Level.read, Level.operand, Level.tighter]
  · rw [readOr]
    split <;> simp_all [eq_ok_iff_plain, eq_error_iff_plain]
  · rw [readAnd]
    split <;> simp_all [eq_ok_iff_plain, eq_error_iff_plain]
  · rw [readComparison]
    split <;> simp_all [eq_ok_iff_plain, eq_error_iff_plain]
  · rw [readAdditive]
    split <;> simp_all [eq_ok_iff_plain, eq_error_iff_plain]
  · rw [readMultiplicative]
    split <;> simp_all [eq_ok_iff_plain, eq_error_iff_plain]

theorem opAt?_of_nil {l : Level} (hn : c.ahead = []) : c.opAt? l = none := by
  have : BinaryOp.ofKind? c.current.kind = none := by
    rw [Cursor.current_of_nil hn, c.last_eof]
    rfl
  simp [Cursor.opAt?, this]

theorem bindingPower?_current (l : Level) :
    (c.current.kind.bindingPower? == some l) = (c.opAt? l).isSome := by
  rw [TokenKind.bindingPower?_eq, Cursor.opAt?]
  cases BinaryOp.ofKind? c.current.kind with
  | none => rfl
  | some op => by_cases hl : op.level = l <;> simp [hl]

theorem takeInfix?_eq_none_iff (l : Level) : c.takeInfix? l = none ↔ c.opAt? l = none := by
  rw [Cursor.takeInfix?, takeIf?_eq_none_iff, bindingPower?_current]
  constructor
  · rintro (hn | h)
    · exact opAt?_of_nil c hn
    · simpa using h
  · intro h
    exact .inr (by simp [h])

theorem takeInfix?_eq_some_iff (l : Level) {t : Token} {d : Ahead c} :
    c.takeInfix? l = some (t, d) ↔ (c.opAt? l).isSome ∧ t = c.current ∧ d.1 = c.next := by
  rw [Cursor.takeInfix?, takeIf?_eq_some_iff, bindingPower?_current]
  constructor
  · rintro ⟨-, h, ht, hd⟩
    exact ⟨h, ht, hd⟩
  · rintro ⟨h, ht, hd⟩
    refine ⟨fun hn => ?_, h, ht, hd⟩
    rw [opAt?_of_nil c hn] at h
    cases h

theorem combine_of_opAt? {l : Level} {op : BinaryOp} (h : c.opAt? l = some op) (left right : Expr) :
    l.combine c.current left right = .ok (.binary op left right c.current.start) := by
  have ha : l.accepts? c.current.kind = some op := by
    rw [Level.accepts?_eq]
    unfold Cursor.opAt? at h
    split at h
    · next op' hop =>
      split at h
      · next hl =>
        cases h
        simp [hop, hl]
      · cases h
    · cases h
  simp [Level.combine, ha]

theorem readLevelRest_eq (l : Level) (left : Expr) : plain (readLevelRest l left c) =
    match c.opAt? l with
    | none => .ok (left, c)
    | some op => l.operand c.next >>= fun (r, d) =>
        plain (readLevelRest l (.binary op left r c.current.start) d) := by
  rw [readLevelRest]
  split
  · next h =>
    rw [(takeInfix?_eq_none_iff c l).mp h]
    rfl
  · next t d hd h =>
    obtain ⟨hop, rfl, hdn⟩ := (takeInfix?_eq_some_iff c l).mp h
    obtain ⟨op, hop⟩ := Option.isSome_iff_exists.mp hop
    subst hdn
    rw [hop]
    cases l <;> simp only [Level.operand, Level.tighter, Level.read] <;>
      split <;> simp_all [eq_ok_iff_plain, eq_error_iff_plain, combine_of_opAt? c hop]

theorem ofKind?_current_of_nil (hn : c.ahead = []) : UnaryOp.ofKind? c.current.kind = none := by
  rw [Cursor.current_of_nil hn, c.last_eof]
  rfl

theorem prefixKinds_contains_current :
    prefixKinds.contains c.current.kind = (UnaryOp.ofKind? c.current.kind).isSome := by
  rw [Bool.eq_iff_iff, UnaryOp.ofKind?_isSome_iff]
  simp

theorem takeAny?_prefix_eq_none_iff :
    c.takeAny? prefixKinds = none ↔ UnaryOp.ofKind? c.current.kind = none := by
  rw [Cursor.takeAny?, takeIf?_eq_none_iff, prefixKinds_contains_current]
  constructor
  · rintro (hn | h)
    · exact ofKind?_current_of_nil c hn
    · simpa using h
  · intro h
    exact .inr (by simp [h])

theorem takeAny?_prefix_eq_some_iff {t : Token} {d : Ahead c} :
    c.takeAny? prefixKinds = some (t, d) ↔
      (UnaryOp.ofKind? c.current.kind).isSome ∧ t = c.current ∧ d.1 = c.next := by
  rw [Cursor.takeAny?, takeIf?_eq_some_iff, prefixKinds_contains_current]
  constructor
  · rintro ⟨-, h, ht, hd⟩
    exact ⟨h, ht, hd⟩
  · rintro ⟨h, ht, hd⟩
    refine ⟨fun hn => ?_, h, ht, hd⟩
    rw [ofKind?_current_of_nil c hn] at h
    cases h

theorem readUnary_eq : plain (readUnary c) =
    match UnaryOp.ofKind? c.current.kind with
    | some op => (plain (readUnary c.next)).map fun (x, d) => (.unary op x c.current.start, d)
    | none => plain (readPrimary c) := by
  rw [readUnary]
  split
  · next t d hd h =>
    obtain ⟨hop, rfl, hdn⟩ := (takeAny?_prefix_eq_some_iff c).mp h
    obtain ⟨op, hop⟩ := Option.isSome_iff_exists.mp hop
    subst hdn
    rw [hop]
    simp only
    split <;> simp_all [eq_ok_iff_plain, eq_error_iff_plain, Except.map]
  · next h =>
    rw [(takeAny?_prefix_eq_none_iff c).mp h]

theorem readPrimary_eq : plain (readPrimary c) =
    if c.current.kind = .identifier then .ok (.name c.current.text c.current.start, c.next)
    else if c.current.kind = .number then c.current.integer.map fun x => (x, c.next)
    else if c.current.kind = .kwTrue then .ok (.boolean true c.current.start, c.next)
    else if c.current.kind = .kwFalse then .ok (.boolean false c.current.start, c.next)
    else if c.current.kind = .openParen then plain (readGroup c)
    else if c.current.kind = .string then
      .error ⟨.notImplemented "string literal expression", c.current.start⟩
    else .error (c.unexpected "expression") := by
  rw [readPrimary]
  split
  · rename_i t d h
    obtain ⟨hk, rfl, hd⟩ := Cursor.take?_eq_some_iff.mp h |>.2
    simp [hk, hd]
  rename_i h
  rw [if_neg (Cursor.kind_ne_of_take?_eq_none (by decide) h)]
  split
  · rename_i t d h
    obtain ⟨hk, rfl, hd⟩ := Cursor.take?_eq_some_iff.mp h |>.2
    rw [if_pos hk]
    split <;> simp_all [Except.map]
  rename_i h
  rw [if_neg (Cursor.kind_ne_of_take?_eq_none (by decide) h)]
  split
  · rename_i t d h
    obtain ⟨hk, rfl, hd⟩ := Cursor.take?_eq_some_iff.mp h |>.2
    simp [hk, hd]
  rename_i h
  rw [if_neg (Cursor.kind_ne_of_take?_eq_none (by decide) h)]
  split
  · rename_i t d h
    obtain ⟨hk, rfl, hd⟩ := Cursor.take?_eq_some_iff.mp h |>.2
    simp [hk, hd]
  rename_i h
  rw [if_neg (Cursor.kind_ne_of_take?_eq_none (by decide) h)]
  simp only [Cursor.sees, beq_iff_eq]
  split
  · rfl
  · split <;> rfl

theorem readGroup_eq : plain (readGroup c) = (do
    let (_, d) ← c.expect .openParen
    let (x, d') ← plain (readOr d)
    let (_, d'') ← d'.expect .closeParen
    .ok (x, d'')) := by
  rw [readGroup]
  split
  · next e h => rw [Cursor.expect_of_need (by decide) h]; rfl
  rename_i _ d hd h
  simp only [Cursor.expect_of_need (by decide) h, plain_ok, Except.ok_bind']
  split
  · next e h => rw [Read.plain_of_lift h]; rfl
  rename_i x d' hd' h
  simp only [Read.plain_of_lift h, plain_ok, Except.ok_bind']
  split
  · next e h => rw [Cursor.expect_of_lift_need (by decide) h]; rfl
  · next t d'' h => rw [Cursor.expect_of_lift_need (by decide) h]; rfl

theorem readExprList_eq : plain (readExprList c) = (do
    let (x, d) ← plain (readExpr c)
    let (xs, d') ← plain (readMoreExprs d)
    .ok (x :: xs, d')) := by
  rw [readExprList]
  split
  · next e h => rw [h]; rfl
  rename_i x d hd h
  simp only [h, plain_ok, Except.ok_bind']
  split
  · next e h => rw [Attempt.plain_of_lift h]; rfl
  · next xs d' h => rw [Attempt.plain_of_lift h]; rfl

theorem readMoreExprs_eq : plain (readMoreExprs c) =
    if c.current.kind = .comma then (do
      let (x, d) ← plain (readExpr c.next)
      let (xs, d') ← plain (readMoreExprs d)
      .ok (x :: xs, d'))
    else .ok ([], c) := by
  rw [readMoreExprs]
  split
  · next h => rw [if_neg (Cursor.kind_ne_of_take?_eq_none (by decide) h)]; rfl
  rename_i _ d hd h
  obtain ⟨hk, -, rfl⟩ := Cursor.of_take?_eq_some h
  rw [if_pos hk]
  split
  · next e h => rw [Read.plain_of_lift h]; rfl
  rename_i x d' hd' h
  simp only [Read.plain_of_lift h, plain_ok, Except.ok_bind']
  split
  · next e h => rw [Attempt.plain_of_lift h]; rfl
  · next xs d'' h => rw [Attempt.plain_of_lift h]; rfl

/-! ## Statements and blocks -/

theorem readBlock_eq : plain (readBlock c) = (do
    let (t, d) ← c.expect .openCurly
    let (ss, d') ← plain (readBlockBody (if d.current.kind = .newline then d.next else d))
    .ok (.mk ss t.start, d')) := by
  rw [readBlock]
  split
  · next e h => rw [Cursor.expect_of_need (by decide) h]; rfl
  rename_i t d hd h
  simp only [Cursor.expect_of_need (by decide) h, plain_ok, Except.ok_bind']
  rw [← Cursor.skip_val (by decide : TokenKind.newline ≠ .eof),
    ← plain_liftWithin (d.skip .newline).2]
  split
  · next e h => rw [Read.plain_of_lift h]; rfl
  · next ss d2 h => rw [Read.plain_of_lift h]; rfl

theorem readBlockBody_eq : plain (readBlockBody c) =
    if c.current.kind = .closeCurly then .ok ([], c.next)
    else if c.atEnd then .error (c.unexpected "`\x7d`")
    else (do
      let (s, d) ← plain (readStmt c)
      let (ss, d') ← plain (readBlockBody d)
      .ok (s :: ss, d')) := by
  rw [readBlockBody]
  split
  · rename_i _ d h
    obtain ⟨-, hk, -, hd⟩ := Cursor.take?_eq_some_iff.mp h
    simp [hk, hd]
  rename_i h
  rw [if_neg (Cursor.kind_ne_of_take?_eq_none (by decide) h)]
  split
  · rfl
  split
  · next e h => rw [h]; rfl
  rename_i s d hd h
  simp only [h, plain_ok, Except.ok_bind']
  split
  · next e h => rw [Read.plain_of_lift h]; rfl
  · next ss d' h => rw [Read.plain_of_lift h]; rfl

theorem readStmt_eq : plain (readStmt c) =
    if c.current.kind = .semicolon then c.next.endLine.map fun d => (.empty c.current.start, d)
    else if c.current.kind = .newline then .ok (.empty c.current.start, c.next)
    else (do
      let (s, d) ← plain (readHead c)
      let d2 ← (if d.current.kind = .semicolon then d.next else d).endLine
      .ok (s.closedBy (d.sees .semicolon), d2)) := by
  rw [readStmt]
  split
  · rename_i t d hd h
    obtain ⟨hk, rfl, rfl⟩ := Cursor.of_take?_eq_some h
    rw [if_pos hk]
    split
    · next e h => rw [Cursor.finishLine_eq_error_iff.mp h]; rfl
    · next w h => rw [Cursor.finishLine_eq_ok_iff.mp h]; rfl
  rename_i h
  rw [if_neg (Cursor.kind_ne_of_take?_eq_none (by decide) h)]
  split
  · rename_i t d h
    obtain ⟨hk, rfl, hd⟩ := Cursor.take?_eq_some_iff.mp h |>.2
    simp [hk, hd]
  rename_i h
  rw [if_neg (Cursor.kind_ne_of_take?_eq_none (by decide) h)]
  split
  · next e h => rw [h]; rfl
  rename_i s d hd h
  simp only [h, plain_ok, Except.ok_bind']
  rw [← Cursor.skip_val (by decide : TokenKind.semicolon ≠ .eof)]
  split
  · next e h => rw [Cursor.finishLine_eq_error_iff.mp h]; rfl
  · next w h => rw [Cursor.finishLine_eq_ok_iff.mp h]; rfl

theorem readHead_eq : plain (readHead c) =
    match c.current.kind with
    | .kwVar => plain (readVarDecl c)
    | .kwIf => plain (readIf c)
    | .kwFor => plain (readFor c)
    | .kwBreak => plain (readBreak c)
    | .kwContinue => plain (readContinue c)
    | .kwReturn => plain (readReturn c)
    | .openCurly => (plain (readBlock c)).map fun (b, d) => (.block b, d)
    | _ => plain (readSimple c) := by
  rw [readHead]
  cases c.current.kind <;> try rfl
  cases readBlock c <;> rfl

theorem readSimple_eq : plain (readSimple c) = (do
    let (first, d) ← plain (readExpr c)
    if (d.current.kind = .comma ∨ d.current.kind = .assign) ∨ d.current.kind = .define then (do
      let (more, d1) ← plain (readMoreExprs d)
      if d1.current.kind = .assign then
        (plain (readExprList d1.next)).map fun (vs, d3) =>
          (.assign (first :: more) vs c.current.start, d3)
      else (do
        let (_, d2) ← d1.expectOr .define (d1.unexpected "`=` or `:=`")
        let names ← bindingsOf (first :: more)
        (plain (readExprList d2)).map fun (vs, d3) => (.define names vs c.current.start, d3)))
    else .ok (.single first false c.current.start, d)) := by
  rw [readSimple]
  split
  · next e h => rw [h]; rfl
  rename_i first d hd h
  simp only [h, plain_ok, Except.ok_bind', Cursor.sees, beq_iff_eq, Bool.or_eq_true]
  by_cases hc : (d.current.kind = .comma ∨ d.current.kind = .assign) ∨ d.current.kind = .define
  · rw [if_pos hc, if_pos hc]
    split
    · next e h => rw [Attempt.plain_of_lift h]; rfl
    rename_i more d1 h1 h
    simp only [Attempt.plain_of_lift h, plain_ok, Except.ok_bind']
    split
    · rename_i _ d2 h2 h
      obtain ⟨hk, -, rfl⟩ := Cursor.of_take?_eq_some h
      rw [if_pos hk, ← plain_lift h2]
      split
      · next e h => rw [Read.plain_of_lift h]; rfl
      · next vs d3 h => rw [Read.plain_of_lift h]; rfl
    · rename_i h
      rw [if_neg (Cursor.kind_ne_of_take?_eq_none (by decide) h)]
      split
      · next e h => rw [Cursor.expectOr_of_lift_needOr (by decide) h]; rfl
      rename_i _ d2 h2 h
      simp only [Cursor.expectOr_of_lift_needOr (by decide) h, plain_ok, Except.ok_bind']
      split
      · next e h => rw [h]; rfl
      rename_i names h
      simp only [h, Except.ok_bind']
      split
      · next e h => rw [Read.plain_of_lift h]; rfl
      · next vs d3 h => rw [Read.plain_of_lift h]; rfl
  · rw [if_neg hc, if_neg hc]
    rfl

theorem readVarDecl_eq : plain (readVarDecl c) = (do
    let (t, d) ← c.expect .kwVar
    let (names, d1) ← plain (readNames d)
    let (ty?, d2) ← plain (readType? d1)
    match ty? with
    | some ty =>
      if d2.current.kind = .assign then
        (plain (readExprList d2.next)).map fun (vs, d4) =>
          (.varDecl names (.typed ty (some vs)) t.start, d4)
      else .ok (.varDecl names (.typed ty none) t.start, d2)
    | none => do
      let (_, d3) ← d2.expect .assign
      (plain (readExprList d3)).map fun (vs, d4) => (.varDecl names (.inferred vs) t.start, d4)) := by
  rw [readVarDecl]
  split
  · next e h => rw [Cursor.expect_of_need (by decide) h]; rfl
  rename_i t d hd h
  simp only [Cursor.expect_of_need (by decide) h, plain_ok, Except.ok_bind']
  split
  · next e h => rw [Read.plain_of_lift h]; rfl
  rename_i names d1 h1 h
  simp only [Read.plain_of_lift h, plain_ok, Except.ok_bind']
  split
  · next e h => rw [Attempt.plain_of_lift h]; rfl
  · rename_i ty d2 h2 h
    simp only [Attempt.plain_of_lift h, plain_ok, Except.ok_bind']
    split
    · rename_i _ d3 h3 h
      obtain ⟨hk, -, rfl⟩ := Cursor.of_take?_eq_some h
      rw [if_pos hk, ← plain_lift h3]
      split
      · next e h => rw [Read.plain_of_lift h]; rfl
      · next vs d4 h => rw [Read.plain_of_lift h]; rfl
    · rename_i h
      rw [if_neg (Cursor.kind_ne_of_take?_eq_none (by decide) h)]
      rfl
  · rename_i d2 h2 h
    simp only [Attempt.plain_of_lift h, plain_ok, Except.ok_bind']
    split
    · next e h => rw [Cursor.expect_of_lift_need (by decide) h]; rfl
    rename_i _ d3 h3 h
    simp only [Cursor.expect_of_lift_need (by decide) h, plain_ok, Except.ok_bind']
    split
    · next e h => rw [Read.plain_of_lift h]; rfl
    · next vs d4 h => rw [Read.plain_of_lift h]; rfl

theorem readIf_eq : plain (readIf c) = (do
    let (t, d) ← c.expect .kwIf
    (plain (readBranches t.start d)).map fun ((bs, o), d') => (.ifChain bs o t.start, d')) := by
  rw [readIf]
  split
  · next e h => rw [Cursor.expect_of_need (by decide) h]; rfl
  rename_i t d hd h
  simp only [Cursor.expect_of_need (by decide) h, plain_ok, Except.ok_bind']
  split
  · next e h => rw [Read.plain_of_lift h]; rfl
  · next bs o d' h => rw [Read.plain_of_lift h]; rfl

theorem readBranches_eq (pos : Position) : plain (readBranches pos c) = (do
    let (cond, d) ← plain (readExpr c)
    let (body, d1) ← plain (readBlock d)
    if d1.current.kind = .kwElse then
      if d1.next.current.kind = .kwIf then
        (plain (readBranches d1.next.current.start d1.next.next)).map
          fun ((bs, o), d4) => ((.mk cond body pos :: bs, o), d4)
      else (plain (readBlock d1.next)).map fun (b, d3) => (([.mk cond body pos], some b), d3)
    else .ok (([.mk cond body pos], none), d1)) := by
  rw [readBranches]
  split
  · next e h => rw [h]; rfl
  rename_i cond d hd h
  simp only [h, plain_ok, Except.ok_bind']
  split
  · next e h => rw [Read.plain_of_lift h]; rfl
  rename_i body d1 h1 h
  simp only [Read.plain_of_lift h, plain_ok, Except.ok_bind']
  split
  · next h => rw [if_neg (Cursor.kind_ne_of_take?_eq_none (by decide) h)]; rfl
  rename_i _ d2 h2 h
  obtain ⟨hk, -, rfl⟩ := Cursor.of_take?_eq_some h
  rw [if_pos hk]
  split
  · rename_i t d3 h3 h
    obtain ⟨hk', rfl, rfl⟩ := Cursor.of_take?_eq_some h
    rw [if_pos hk', ← plain_lift h3, ← plain_lift h2]
    split
    · next e h => rw [Read.plain_of_lift h]; rfl
    · next bs o d4 h => rw [Read.plain_of_lift h]; rfl
  · rename_i h
    rw [if_neg (Cursor.kind_ne_of_take?_eq_none (by decide) h), ← plain_lift h2]
    split
    · next e h => rw [Read.plain_of_lift h]; rfl
    · next b d3 h => rw [Read.plain_of_lift h]; rfl

theorem readFor_eq : plain (readFor c) = (do
    let (t, d) ← c.expect .kwFor
    if d.current.kind = .openCurly then
      (plain (readBlock d)).map fun (b, d1) => (.loop .forever b t.start, d1)
    else if d.current.kind = .semicolon then
      (plain (readClauses none d)).map fun ((shape, b), d1) => (.loop shape b t.start, d1)
    else do
      let (s, d1) ← plain (readSimple d)
      if d1.current.kind = .openCurly then
        match s with
        | .single x _ _ =>
          (plain (readBlock d1)).map fun (b, d2) => (.loop (.guarded x) b t.start, d2)
        | s => .error ⟨.statementAsValue s.render, s.pos⟩
      else
        (plain (readClauses (some s) d1)).map fun ((shape, b), d2) => (.loop shape b t.start, d2)) := by
  rw [readFor]
  split
  · next e h => rw [Cursor.expect_of_need (by decide) h]; rfl
  rename_i t d hd h
  simp only [Cursor.expect_of_need (by decide) h, plain_ok, Except.ok_bind', Cursor.sees,
    beq_iff_eq]
  split
  · split
    · next e h => rw [Read.plain_of_lift h]; rfl
    · next b d1 h => rw [Read.plain_of_lift h]; rfl
  split
  · split
    · next e h => rw [Read.plain_of_lift h]; rfl
    · next shape b d1 h => rw [Read.plain_of_lift h]; rfl
  split
  · next e h => rw [Read.plain_of_lift h]; rfl
  rename_i s d1 h1 h
  simp only [Read.plain_of_lift h, plain_ok, Except.ok_bind']
  split
  · split
    · split
      · next e h => rw [Read.plain_of_lift h]; rfl
      · next b d2 h => rw [Read.plain_of_lift h]; rfl
    · next hs =>
      cases s with
      | single x discard pos => exact absurd rfl (hs x discard pos)
      | _ => rfl
  · split
    · next e h => rw [Read.plain_of_lift h]; rfl
    · next shape b d2 h => rw [Read.plain_of_lift h]; rfl

theorem readClauses_eq (init : Option Stmt) : plain (readClauses init c) = (do
    let (_, d) ← c.expectOr .semicolon (c.unexpected "`\x7b` or `;`")
    let (cond, d1) ← plain (readCond d)
    let (_, d2) ← d1.expect .semicolon
    let (post, d3) ← plain (readPost d2)
    (plain (readBlock d3)).map fun (b, d4) => ((.clauses init cond post, b), d4)) := by
  rw [readClauses]
  split
  · next e h => rw [Cursor.expectOr_of_needOr (by decide) h]; rfl
  rename_i _ d hd h
  simp only [Cursor.expectOr_of_needOr (by decide) h, plain_ok, Except.ok_bind']
  split
  · next e h => rw [Attempt.plain_of_lift h]; rfl
  rename_i cond d1 h1 h
  simp only [Attempt.plain_of_lift h, plain_ok, Except.ok_bind']
  split
  · next e h => rw [Cursor.expect_of_lift_need (by decide) h]; rfl
  rename_i _ d2 h2 h
  simp only [Cursor.expect_of_lift_need (by decide) h, plain_ok, Except.ok_bind']
  split
  · next e h => rw [Attempt.plain_of_lift h]; rfl
  rename_i post d3 h3 h
  simp only [Attempt.plain_of_lift h, plain_ok, Except.ok_bind']
  split
  · next e h => rw [Read.plain_of_lift h]; rfl
  · next b d4 h => rw [Read.plain_of_lift h]; rfl

theorem readCond_eq : plain (readCond c) =
    if c.current.kind = .semicolon then .ok (none, c)
    else (plain (readExpr c)).map fun (x, d) => (some x, d) := by
  rw [readCond]
  simp only [Cursor.sees, beq_iff_eq]
  split
  · rfl
  · split
    · next e h => rw [h]; rfl
    · next x d h => rw [h]; rfl

theorem readPost_eq : plain (readPost c) =
    if c.current.kind = .openCurly then .ok (none, c)
    else (do
      let (s, d) ← plain (readSimple c)
      match s with
      | .define .. => .error ⟨.defineInLoopPost, c.current.start⟩
      | s => .ok (some s, d)) := by
  rw [readPost]
  simp only [Cursor.sees, beq_iff_eq]
  split
  · rfl
  split
  · next e h => rw [h]; rfl
  · next ns vs p d h => rw [h]; rfl
  · next s d hs h =>
    simp only [h, plain_ok, Except.ok_bind']
    cases s with
    | define ns vs p => exact absurd rfl (hs ns vs p)
    | _ => rfl

theorem readReturn_eq : plain (readReturn c) = (do
    let (t, d) ← c.expect .kwReturn
    if d.current.kind.endsReturn then .ok (.ret [] t.start, d)
    else (plain (readExprList d)).map fun (vs, d') => (.ret vs t.start, d')) := by
  rw [readReturn]
  split
  · next e h => rw [Cursor.expect_of_need (by decide) h]; rfl
  rename_i t d hd h
  simp only [Cursor.expect_of_need (by decide) h, plain_ok, Except.ok_bind']
  split
  · rfl
  split
  · next e h => rw [Read.plain_of_lift h]; rfl
  · next vs d' h => rw [Read.plain_of_lift h]; rfl

theorem readBreak_eq : plain (readBreak c) =
    (c.expect .kwBreak).map fun (t, d) => (.breakLoop t.start, d) := by
  rw [readBreak]
  split
  · next e h => rw [Cursor.expect_of_need (by decide) h]; rfl
  · next t d h => rw [Cursor.expect_of_need (by decide) h]; rfl

theorem readContinue_eq : plain (readContinue c) =
    (c.expect .kwContinue).map fun (t, d) => (.continueLoop t.start, d) := by
  rw [readContinue]
  split
  · next e h => rw [Cursor.expect_of_need (by decide) h]; rfl
  · next t d h => rw [Cursor.expect_of_need (by decide) h]; rfl

end ScriptFront
