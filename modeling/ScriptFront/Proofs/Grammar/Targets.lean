import ScriptFront.Proofs.Grammar.Shaped
/-!
# The targets of a defining assignment

A simple statement reads its first expression once, and only the token after it tells an
expression statement, an assignment and a defining assignment apart: the targets before `=` or
`:=` are read as general expressions either way, and only then reinterpreted. Before `:=` every
target must be a name, parentheses being gone by then; the first target that is not a name is
reported by its source text at its own position, before any token after `:=` is read, so no
error among the values can take its place. Names declare their bindings in order, and the values
are the list read after `:=`. A list of two or more expressions that neither `=` nor `:=`
follows is an error at the token after it.
-/

set_option autoImplicit false

namespace ScriptFront

def Expr.binding? : Expr → Option Binding
  | .name n p => some ⟨n, p⟩
  | _ => none

section Bindings

theorem bindingsOf_cons (x : Expr) (xs : List Expr) :
    bindingsOf (x :: xs) = match x.binding? with
      | some b => (bindingsOf xs).map (b :: ·)
      | none => .error ⟨.nonNameDefined x.render, x.pos⟩ := by
  cases x with
  | name n p => exact Reader.bindingsOf_cons_name n p xs
  | _ => simp [bindingsOf, Expr.binding?, List.mapM_cons]

theorem bindingsOf_of_names {xs : List Expr} (h : ∀ x ∈ xs, x.binding?.isSome) :
    bindingsOf xs = .ok (xs.filterMap Expr.binding?) := by
  induction xs with
  | nil => rfl
  | cons x xs ih =>
    obtain ⟨b, hb⟩ := Option.isSome_iff_exists.mp (h x List.mem_cons_self)
    rw [bindingsOf_cons, hb, ih fun y hy => h y (List.mem_cons_of_mem _ hy)]
    simp [hb]

theorem bindingsOf_of_first_non_name {pre post : List Expr} {x : Expr}
    (hpre : ∀ y ∈ pre, y.binding?.isSome) (hx : x.binding? = none) :
    bindingsOf (pre ++ x :: post) = .error ⟨.nonNameDefined x.render, x.pos⟩ := by
  induction pre with
  | nil => rw [List.nil_append, bindingsOf_cons, hx]
  | cons y pre ih =>
    obtain ⟨b, hb⟩ := Option.isSome_iff_exists.mp (hpre y List.mem_cons_self)
    rw [List.cons_append, bindingsOf_cons, hb, ih fun z hz => hpre z (List.mem_cons_of_mem _ hz)]
    rfl

end Bindings

section Targets

variable {c d e : Cursor} {xs more : List Expr}

theorem readExprList_split (h : plain (readExprList c) = .ok (xs, e)) :
    ∃ x d more, plain (readExpr c) = .ok (x, d) ∧ plain (readMoreExprs d) = .ok (more, e) ∧
      xs = x :: more := by
  rw [readExprList_eq] at h
  obtain ⟨⟨x, d⟩, hx, h⟩ := Except.bind_eq_ok.mp h
  obtain ⟨⟨more, e'⟩, hm, h⟩ := Except.bind_eq_ok.mp h
  cases h
  exact ⟨x, d, more, hx, hm, rfl⟩

theorem readMoreExprs_cases (h : plain (readMoreExprs d) = .ok (more, e)) :
    (d.current.kind = .comma ∧ more ≠ []) ∨ (d.current.kind ≠ .comma ∧ more = [] ∧ e = d) := by
  rw [readMoreExprs_eq] at h
  split at h
  · next hc =>
    obtain ⟨⟨x, d1⟩, -, h⟩ := Except.bind_eq_ok.mp h
    obtain ⟨⟨xs, d2⟩, -, h⟩ := Except.bind_eq_ok.mp h
    cases h
    exact .inl ⟨hc, List.cons_ne_nil _ _⟩
  · next hc =>
    cases h
    exact .inr ⟨hc, rfl, rfl⟩

/-- Targets read up to a `:=` make a defining assignment: the targets are checked first, and
only if all are names are the values after `:=` read. -/
theorem readSimple_of_define (hxs : plain (readExprList c) = .ok (xs, e))
    (he : e.current.kind = .define) :
    plain (readSimple c) = bindingsOf xs >>= fun ns =>
      (plain (readExprList e.next)).map fun (vs, f) => (.define ns vs c.current.start, f) := by
  obtain ⟨x, d, more, hx, hmore, rfl⟩ := readExprList_split hxs
  have hgo : (d.current.kind = .comma ∨ d.current.kind = .assign) ∨ d.current.kind = .define := by
    rcases readMoreExprs_cases hmore with ⟨hc, -⟩ | ⟨-, -, rfl⟩
    · exact .inl (.inl hc)
    · exact .inr he
  have hna : e.current.kind ≠ .assign := by rw [he]; decide
  rw [readSimple_eq, hx, Except.ok_bind']
  simp only [if_pos hgo, hmore, Except.ok_bind', if_neg hna, Cursor.expectOr, if_pos he]

theorem readSimple_of_unassigned (hxs : plain (readExprList c) = .ok (xs, e))
    (h2 : 2 ≤ xs.length) (ha : e.current.kind ≠ .assign) (hd : e.current.kind ≠ .define) :
    plain (readSimple c) = .error (e.unexpected "`=` or `:=`") := by
  obtain ⟨x, d, more, hx, hmore, rfl⟩ := readExprList_split hxs
  have hc : d.current.kind = .comma := by
    rcases readMoreExprs_cases hmore with ⟨hc, -⟩ | ⟨-, rfl, -⟩
    · exact hc
    · simp at h2
  have hgo : (d.current.kind = .comma ∨ d.current.kind = .assign) ∨ d.current.kind = .define :=
    .inl (.inl hc)
  rw [readSimple_eq, hx, Except.ok_bind']
  simp only [if_pos hgo, hmore, Except.ok_bind', if_neg ha, Cursor.expectOr, if_neg hd,
    Except.error_bind']

end Targets

/-- Targets before `:=` declare their bindings when all are names; otherwise the first that is
not a name is the error, at its own position. -/
theorem simple_define_targets {c e : Cursor} {xs : List Expr}
    (hxs : plain (readExprList c) = .ok (xs, e)) :
    (e.current.kind = .define →
      (∀ pre x post, xs = pre ++ x :: post → (∀ y ∈ pre, y.binding?.isSome) →
        x.binding? = none → plain (readSimple c) = .error ⟨.nonNameDefined x.render, x.pos⟩) ∧
      ((∀ y ∈ xs, y.binding?.isSome) → plain (readSimple c) =
        (plain (readExprList e.next)).map fun (vs, f) =>
          (.define (xs.filterMap Expr.binding?) vs c.current.start, f))) ∧
    (2 ≤ xs.length → e.current.kind ≠ .assign → e.current.kind ≠ .define →
      plain (readSimple c) = .error (e.unexpected "`=` or `:=`")) := by
  refine ⟨fun he => ⟨?_, fun hall => ?_⟩, readSimple_of_unassigned hxs⟩
  · rintro pre x post rfl hpre hx
    rw [readSimple_of_define hxs he, bindingsOf_of_first_non_name hpre hx]
    rfl
  · rw [readSimple_of_define hxs he, bindingsOf_of_names hall]
    rfl

theorem simple_define_targets_sum :
    let c : Cursor := Cursor.ofTokens [⟨.identifier, "a", ⟨⟨1, 1, "f"⟩, ⟨1, 2, "f"⟩⟩⟩,
      ⟨.comma, ",", ⟨⟨1, 2, "f"⟩, ⟨1, 3, "f"⟩⟩⟩, ⟨.identifier, "b", ⟨⟨1, 4, "f"⟩, ⟨1, 5, "f"⟩⟩⟩,
      ⟨.plus, "+", ⟨⟨1, 6, "f"⟩, ⟨1, 7, "f"⟩⟩⟩, ⟨.number, "1", ⟨⟨1, 8, "f"⟩, ⟨1, 9, "f"⟩⟩⟩,
      ⟨.define, ":=", ⟨⟨1, 10, "f"⟩, ⟨1, 12, "f"⟩⟩⟩, ⟨.number, "1", ⟨⟨1, 13, "f"⟩, ⟨1, 14, "f"⟩⟩⟩]
    ∃ xs e, plain (readExprList c) = .ok (xs, e) ∧ e.current.kind = .define ∧
      plain (readSimple c) = .error ⟨.nonNameDefined "b + 1", ⟨1, 6, "f"⟩⟩ := by
  intro c
  obtain ⟨⟨xs, e⟩, h⟩ := Except.exists_of_toBool (x := plain (readExprList c)) (by decide +kernel)
  have facts : (plain (readExprList c)).toOption.map (fun p => (p.2.current.kind,
      p.1.map Expr.binding?, p.1.map Expr.render, p.1.map Expr.pos)) =
      some (.define, [some ⟨"a", ⟨1, 1, "f"⟩⟩, none], ["a", "b + 1"], [⟨1, 1, "f"⟩, ⟨1, 6, "f"⟩]) := by
    decide +kernel
  rw [h] at facts
  simp only [Except.toOption, Option.map_some, Option.some.injEq, Prod.mk.injEq] at facts
  obtain ⟨he, hb, hr, hp⟩ := facts
  rcases xs with _ | ⟨a, _ | ⟨x, _ | ⟨y, ys⟩⟩⟩ <;> simp only [List.map_cons, List.map_nil,
    List.cons.injEq, List.nil_eq, reduceCtorEq, and_false, and_true] at hb
  obtain ⟨ha, hx⟩ := hb
  simp only [List.map_cons, List.map_nil, List.cons.injEq, and_true] at hr hp
  refine ⟨[a, x], e, h, he, ?_⟩
  have r := (simple_define_targets h).1 he |>.1 [a] x [] rfl (by simp [ha]) hx
  rwa [hr.2, hp.2] at r

end ScriptFront
