import Mathlib.Data.List.TakeWhile
import ScriptFront.Proofs.Grammar.Unfold
/-!
# Parameters that share a type

The parameters of a function literal come as items separated by commas, each a name and,
optionally, a type. A name without a type takes the type written on the first item after it that
has one: in `a, b int, c bool` both `a` and `b` are `int`. The reader keeps the names still
waiting for a type and hands them the next type it reads, so the parameters come out one per
name, in order, each with the type of the first typed item at or after it (`Param.Shares`). Names
after the last type never get one, and the first of them is the error.
-/

set_option autoImplicit false

namespace ScriptFront

namespace Param

def typeAt (items : List (Binding × Option Ty)) (i : Nat) : Option Ty :=
  (items.drop i).findSome? (·.2)

def untypedTail (items : List (Binding × Option Ty)) : List Binding :=
  ((items.reverse.takeWhile (·.2.isNone)).reverse).map (·.1)

/-- `ps` declares the items one by one, in order: each item's name and position, with the type
of the first item at or after it that carries one. -/
def Shares (items : List (Binding × Option Ty)) (ps : List Param) : Prop :=
  ps.length = items.length ∧ ∀ i (hi : i < items.length),
    ∃ ty, typeAt items i = some ty ∧ ps[i]? = some (items[i].1.typed ty)

variable {items : List (Binding × Option Ty)} {ps : List Param} {b : Binding} {ty : Ty}

theorem typeAt_cons_succ (x : Binding × Option Ty) (i : Nat) :
    typeAt (x :: items) (i + 1) = typeAt items i := by
  simp [typeAt]

theorem typeAt_run (us : List Binding) :
    typeAt (us.map (·, none) ++ (b, some ty) :: items) 0 = some ty := by
  induction us with
  | nil => rfl
  | cons u us ih =>
    rw [typeAt, List.drop_zero, List.map_cons, List.cons_append, List.findSome?_cons]
    exact ih

theorem shares_nil : Shares [] [] := ⟨rfl, fun _ hi => absurd hi (Nat.not_lt_zero _)⟩

theorem Shares.cons {t : Option Ty} (h : Shares items ps) (ht : typeAt ((b, t) :: items) 0 = some ty) :
    Shares ((b, t) :: items) (b.typed ty :: ps) := by
  refine ⟨by simp [h.1], fun i hi => ?_⟩
  cases i with
  | zero => exact ⟨ty, ht, rfl⟩
  | succ i =>
    obtain ⟨ty', ht', hp⟩ := h.2 i (by simpa using hi)
    exact ⟨ty', by rw [typeAt_cons_succ, ht'], by simpa using hp⟩

theorem Shares.run (us : List Binding) (h : Shares items ps) :
    Shares (us.map (·, none) ++ (b, some ty) :: items) ((us ++ [b]).map (Binding.typed ty) ++ ps) := by
  induction us with
  | nil => exact h.cons rfl
  | cons u us ih => exact ih.cons (typeAt_run (u :: us))

theorem untypedTail_typed (xs : List (Binding × Option Ty)) :
    untypedTail (xs ++ (b, some ty) :: items) = untypedTail items := by
  have hstop : ((b, some ty) :: xs.reverse).takeWhile (fun x : Binding × Option Ty => x.2.isNone) = [] :=
    List.takeWhile_cons_of_neg (by simp)
  unfold untypedTail
  rw [List.reverse_append, List.reverse_cons, List.append_assoc, List.singleton_append,
    List.takeWhile_append]
  split
  · next hlen =>
    rw [hstop, List.append_nil, (List.takeWhile_prefix _).eq_of_length hlen]
  · rfl

theorem untypedTail_untyped (h : ∀ x ∈ items, x.2 = none) : untypedTail items = items.map (·.1) := by
  have hall : ∀ x ∈ items.reverse, (fun x : Binding × Option Ty => x.2.isNone) x := by
    intro x hx
    simp [h x (List.mem_reverse.mp hx)]
  unfold untypedTail
  rw [List.takeWhile_eq_self_iff.mpr hall, List.reverse_reverse]

theorem untypedTail_of_last_typed {pre : List (Binding × Option Ty)} :
    untypedTail (pre ++ [(b, some ty)]) = [] :=
  (untypedTail_typed pre).trans (by simp [untypedTail])

theorem untypedTail_of_untyped_rest {pre rest : List (Binding × Option Ty)}
    (hrest : ∀ x ∈ rest, x.2 = none) (hpre : ∀ x ∈ pre.getLast?, x.2.isSome) :
    untypedTail (pre ++ (b, none) :: rest) = b :: rest.map (·.1) := by
  have hnone : ∀ x ∈ (b, none) :: rest, x.2 = none := by
    intro x hx
    rcases List.mem_cons.mp hx with rfl | hx
    · rfl
    · exact hrest x hx
  rcases List.eq_nil_or_concat pre with rfl | ⟨pre', ⟨b', t'⟩, rfl⟩
  · rw [List.nil_append, untypedTail_untyped hnone, List.map_cons]
  · rw [List.concat_eq_append] at hpre ⊢
    obtain ⟨ty', rfl⟩ := Option.isSome_iff_exists.mp (hpre (b', t') (by simp))
    rw [List.append_assoc, List.singleton_append, untypedTail_typed, untypedTail_untyped hnone,
      List.map_cons]

theorem untypedTail_eq_nil_iff :
    untypedTail items = [] ↔ items = [] ∨ ∃ pre b ty, items = pre ++ [(b, some ty)] := by
  rcases List.eq_nil_or_concat items with rfl | ⟨pre, ⟨b, t⟩, rfl⟩
  · simp [untypedTail]
  · rw [List.concat_eq_append]
    cases t with
    | some ty => exact iff_of_true untypedTail_of_last_typed (.inr ⟨pre, b, ty, rfl⟩)
    | none =>
      have hne : untypedTail (pre ++ [(b, none)]) ≠ [] := by simp [untypedTail]
      refine iff_of_false hne ?_
      rintro (h | ⟨pre', b', ty, h⟩)
      · simp at h
      · simpa using (List.append_inj' h rfl).2

end Param

/-- Parameter items from `c` to `d`, separated by commas: each a name and then, if one is
written, a type as the reader of types reads it. -/
inductive ParamItems : Cursor → List (Binding × Option Ty) → Cursor → Prop where
  | last {c d : Cursor} {ty : Option Ty} : c.current.kind = .identifier →
      plain (readType? c.next) = .ok (ty, d) → ParamItems c [(c.current.binding, ty)] d
  | more {c d e : Cursor} {ty : Option Ty} {items : List (Binding × Option Ty)} :
      c.current.kind = .identifier → plain (readType? c.next) = .ok (ty, d) →
      d.current.kind = .comma → ParamItems d.next items e →
      ParamItems c ((c.current.binding, ty) :: items) e

open Param

theorem readParamRun_items {c d : Cursor} {items : List (Binding × Option Ty)}
    (h : ParamItems c items d) (hd : d.current.kind ≠ .comma) (pending : List Binding)
    (done : List Param) :
    (untypedTail (pending.map (·, none) ++ items) = [] → ∃ ps,
      plain (readParamRun c pending done) = .ok (done ++ ps, d) ∧
      Shares (pending.map (·, none) ++ items) ps) ∧
    (∀ b bs, untypedTail (pending.map (·, none) ++ items) = b :: bs →
      plain (readParamRun c pending done) = .error ⟨.missingParameterType b.name, b.pos⟩) := by
  induction h generalizing pending done with
  | @last c d ty hk hty =>
    rw [readParamRun_eq]
    simp only [Cursor.expect, Cursor.expectOr, if_pos hk, Except.ok_bind', hty, if_neg hd]
    cases ty with
    | some ty =>
      rw [untypedTail_typed, untypedTail, List.reverse_nil]
      refine ⟨fun _ => ⟨(pending ++ [c.current.binding]).map (Binding.typed ty), rfl, ?_⟩,
        fun b bs hb => absurd hb.symm (List.cons_ne_nil b bs)⟩
      simpa using (shares_nil.run pending : Shares _ _)
    | none =>
      have ht : untypedTail (pending.map (·, none) ++ [(c.current.binding, none)]) =
          pending ++ [c.current.binding] := by
        have hnone : ∀ x ∈ pending.map (·, none) ++ [(c.current.binding, none)],
            x.2 = (none : Option Ty) := by
          intro x hx
          simp only [List.mem_append, List.mem_map, List.mem_singleton] at hx
          rcases hx with ⟨u, -, rfl⟩ | rfl <;> rfl
        rw [untypedTail_untyped hnone]
        simp [Function.comp_def]
      rw [ht]
      refine ⟨fun hn => absurd hn (by simp), fun b bs hb => ?_⟩
      rw [hb]
  | @more c d e ty items hk hty hc _ ih =>
    rw [readParamRun_eq]
    simp only [Cursor.expect, Cursor.expectOr, if_pos hk, Except.ok_bind', hty, if_pos hc]
    cases ty with
    | some ty =>
      obtain ⟨ihs, ihe⟩ := ih hd [] (done ++ (pending ++ [c.current.binding]).map (Binding.typed ty))
      rw [List.map_nil, List.nil_append] at ihs ihe
      rw [untypedTail_typed]
      refine ⟨fun hn => ?_, ihe⟩
      obtain ⟨ps, hr, hs⟩ := ihs hn
      exact ⟨_, by rw [hr, List.append_assoc], hs.run pending⟩
    | none =>
      have hl : pending.map (·, none) ++ (c.current.binding, none) :: items =
          (pending ++ [c.current.binding]).map (·, none) ++ items := by simp
      rw [hl]
      exact ih hd (pending ++ [c.current.binding]) done

section Literal

variable {f c d : Cursor} {items : List (Binding × Option Ty)}

theorem readParams_items (h : ParamItems c items d) : plain (readParams c) = plain (readParamRun c [] []) := by
  have hk : c.current.kind = .identifier := by cases h <;> assumption
  rw [readParams_eq, if_neg (by rw [hk]; decide)]

/-- The parameters of a literal whose list `(` … `)` ends at `d`: read, sharing their types,
when no name is left without a type, and otherwise an error at the first such name. -/
theorem readParams_spec (h : items = [] ∧ d = c ∨ ParamItems c items d)
    (hd : d.current.kind = .closeParen) :
    (untypedTail items = [] → ∃ ps, plain (readParams c) = .ok (ps, d) ∧ Shares items ps) ∧
    (∀ b bs, untypedTail items = b :: bs →
      plain (readParams c) = .error ⟨.missingParameterType b.name, b.pos⟩) := by
  rcases h with ⟨rfl, rfl⟩ | h
  · refine ⟨fun _ => ⟨[], by rw [readParams_eq, if_pos hd], shares_nil⟩, fun b bs hb => ?_⟩
    simp [untypedTail] at hb
  · have run := readParamRun_items h (by rw [hd]; decide) [] []
    simp only [List.map_nil, List.nil_append, ← readParams_items h] at run
    exact run

theorem Param.Shares.signature {ps : List Param} (h : Shares items ps) (rs : List Ty) :
    ∃ tys, Expr.signature ps rs = .func tys rs ∧ tys.length = items.length ∧
      ∀ i < items.length, tys[i]? = typeAt items i := by
  refine ⟨ps.map (·.ty), rfl, by simp [h.1], fun i hi => ?_⟩
  obtain ⟨ty, ht, hp⟩ := h.2 i hi
  rw [List.getElem?_map, hp, ht]
  rfl

theorem readFuncLit_of_params {ps : List Param} (hf : f.current.kind = .kwFunc)
    (hp : f.next.current.kind = .openParen) (hps : plain (readParams f.next.next) = .ok (ps, d))
    (hd : d.current.kind = .closeParen) :
    plain (readFuncLit f) = plain (readResults d.next) >>= fun r =>
      (plain (readBlock r.2)).map fun bl => (.func ps r.1 bl.1 f.current.start, bl.2) := by
  rw [readFuncLit_eq]
  simp only [Cursor.expect, Cursor.expectOr, if_pos hf, if_pos hp, Except.ok_bind', hps, if_pos hd]
  cases plain (readResults d.next) with
  | error e => rfl
  | ok r => cases plain (readBlock r.2) <;> rfl

theorem readFuncLit_of_params_error {e : Error} (hf : f.current.kind = .kwFunc)
    (hp : f.next.current.kind = .openParen) (hps : plain (readParams f.next.next) = .error e) :
    plain (readFuncLit f) = .error e := by
  rw [readFuncLit_eq]
  simp only [Cursor.expect, Cursor.expectOr, if_pos hf, if_pos hp, Except.ok_bind', hps]
  rfl

end Literal

/-- The parameters of a function literal share types: each name takes the type written on the
first item at or after it, and names after the last type are refused at the first of them. -/
theorem params_share_types {f d : Cursor} {items : List (Binding × Option Ty)}
    (hf : f.current.kind = .kwFunc) (hp : f.next.current.kind = .openParen)
    (h : items = [] ∧ d = f.next.next ∨ ParamItems f.next.next items d)
    (hd : d.current.kind = .closeParen) :
    ((∃ ps e, plain (readParams f.next.next) = .ok (ps, e)) ↔
      items = [] ∨ ∃ pre b ty, items = pre ++ [(b, some ty)]) ∧
    ((items = [] ∨ ∃ pre b ty, items = pre ++ [(b, some ty)]) → ∃ ps,
      plain (readParams f.next.next) = .ok (ps, d) ∧ Shares items ps ∧
      plain (readFuncLit f) = (plain (readResults d.next) >>= fun r =>
        (plain (readBlock r.2)).map fun bl => (.func ps r.1 bl.1 f.current.start, bl.2)) ∧
      ∀ rs, ∃ tys, Expr.signature ps rs = .func tys rs ∧ tys.length = items.length ∧
        ∀ i < items.length, tys[i]? = typeAt items i) ∧
    (∀ pre b rest, items = pre ++ (b, none) :: rest → (∀ x ∈ rest, x.2 = none) →
      (∀ x ∈ pre.getLast?, x.2.isSome) →
      plain (readParams f.next.next) = .error ⟨.missingParameterType b.name, b.pos⟩ ∧
      plain (readFuncLit f) = .error ⟨.missingParameterType b.name, b.pos⟩) := by
  obtain ⟨hok, herr⟩ := readParams_spec h hd
  refine ⟨⟨?_, fun hl => ?_⟩, fun hl => ?_, fun pre b rest he hrest hpre => ?_⟩
  · rintro ⟨ps, e, hr⟩
    refine untypedTail_eq_nil_iff.mp ?_
    cases ht : untypedTail items with
    | nil => rfl
    | cons b bs => rw [herr b bs ht] at hr; cases hr
  · obtain ⟨ps, hr, -⟩ := hok (untypedTail_eq_nil_iff.mpr hl)
    exact ⟨ps, d, hr⟩
  · obtain ⟨ps, hr, hs⟩ := hok (untypedTail_eq_nil_iff.mpr hl)
    exact ⟨ps, hr, hs, readFuncLit_of_params hf hp hr hd, hs.signature⟩
  · subst he
    have hr := herr b _ (untypedTail_of_untyped_rest hrest hpre)
    exact ⟨hr, readFuncLit_of_params_error hf hp hr⟩

theorem params_share_types_runs :
    let f : Cursor := Cursor.ofTokens [⟨.kwFunc, "func", ⟨⟨1, 1, "f"⟩, ⟨1, 5, "f"⟩⟩⟩,
      ⟨.openParen, "(", ⟨⟨1, 5, "f"⟩, ⟨1, 6, "f"⟩⟩⟩, ⟨.identifier, "a", ⟨⟨1, 6, "f"⟩, ⟨1, 7, "f"⟩⟩⟩,
      ⟨.comma, ",", ⟨⟨1, 7, "f"⟩, ⟨1, 8, "f"⟩⟩⟩, ⟨.identifier, "b", ⟨⟨1, 9, "f"⟩, ⟨1, 10, "f"⟩⟩⟩,
      ⟨.kwInt, "int", ⟨⟨1, 11, "f"⟩, ⟨1, 14, "f"⟩⟩⟩, ⟨.comma, ",", ⟨⟨1, 14, "f"⟩, ⟨1, 15, "f"⟩⟩⟩,
      ⟨.identifier, "c", ⟨⟨1, 16, "f"⟩, ⟨1, 17, "f"⟩⟩⟩, ⟨.kwBool, "bool", ⟨⟨1, 18, "f"⟩, ⟨1, 22, "f"⟩⟩⟩,
      ⟨.closeParen, ")", ⟨⟨1, 22, "f"⟩, ⟨1, 23, "f"⟩⟩⟩]
    let items : List (Binding × Option Ty) := [(⟨"a", ⟨1, 6, "f"⟩⟩, none),
      (⟨"b", ⟨1, 9, "f"⟩⟩, some (.basic .int)), (⟨"c", ⟨1, 16, "f"⟩⟩, some (.basic .bool))]
    f.current.kind = .kwFunc ∧ f.next.current.kind = .openParen ∧ ∃ d,
      ParamItems f.next.next items d ∧ d.current.kind = .closeParen ∧
      ∃ ps, plain (readParams f.next.next) = .ok (ps, d) ∧ Shares items ps := by
  intro f items
  have hf : f.current.kind = .kwFunc := rfl
  have hp : f.next.current.kind = .openParen := rfl
  -- the items from the last back to the first, each ending where the next begins
  have hc : ParamItems f.next.next.next.next.next.next.next
      [(⟨"c", ⟨1, 16, "f"⟩⟩, some (.basic .bool))] f.next.next.next.next.next.next.next.next.next :=
    .last rfl (by rw [readType?_eq]; rfl)
  have hb : ParamItems f.next.next.next.next
      [(⟨"b", ⟨1, 9, "f"⟩⟩, some (.basic .int)), (⟨"c", ⟨1, 16, "f"⟩⟩, some (.basic .bool))]
      f.next.next.next.next.next.next.next.next.next :=
    .more rfl (by rw [readType?_eq]; rfl) rfl hc
  have hitems : ParamItems f.next.next items f.next.next.next.next.next.next.next.next.next :=
    .more rfl (by rw [readType?_eq]; rfl) rfl hb
  have hd : (f.next.next.next.next.next.next.next.next.next).current.kind = .closeParen := rfl
  obtain ⟨ps, hr, hs, -⟩ := (params_share_types hf hp (.inr hitems) hd).2.1
    (.inr ⟨[(⟨"a", ⟨1, 6, "f"⟩⟩, none), (⟨"b", ⟨1, 9, "f"⟩⟩, some (.basic .int))],
      ⟨"c", ⟨1, 16, "f"⟩⟩, .basic .bool, rfl⟩)
  exact ⟨hf, hp, _, hitems, hd, ps, hr, hs⟩

end ScriptFront
