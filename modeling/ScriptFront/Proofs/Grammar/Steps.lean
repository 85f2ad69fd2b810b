import Mathlib.Control.Monad.Basic
import ScriptFront.Grammar.Rule
/-!
# Readings without their proofs

A reading's result carries a proof of how far its cursor moved, and the readers match on those
proofs as they go. Here every reading is seen through `plain`, which keeps the value and the
cursor and forgets the proof, and every reader gets one equation that says in plain `Except`
steps what it does. Later proofs use these equations and never unfold a reader.
-/

set_option autoImplicit false

namespace ScriptFront

def plain {α : Type} {P : Cursor → Prop} :
    Except Error (α × {d : Cursor // P d}) → Except Error (α × Cursor)
  | .ok (a, d) => .ok (a, d.1)
  | .error e => .error e

section Plain

variable {α : Type}

@[simp] theorem plain_ok {P : Cursor → Prop} (a : α) (d : {d : Cursor // P d}) :
    plain (.ok (a, d)) = .ok (a, d.1) := rfl

@[simp] theorem plain_error {P : Cursor → Prop} (e : Error) :
    plain (.error e : Except Error (α × {d : Cursor // P d})) = .error e := rfl

@[simp] theorem plain_lift {c d : Cursor} (h : d.ahead.length < c.ahead.length) (r : Read α d) :
    plain (Read.lift h r) = plain r := by
  cases r <;> rfl

@[simp] theorem plain_liftWithin {c d : Cursor} (h : d.ahead.length ≤ c.ahead.length)
    (r : Read α d) : plain (Read.liftWithin h r) = plain r := by
  cases r <;> rfl

@[simp] theorem plain_attemptLift {c d : Cursor} (h : d.ahead.length < c.ahead.length)
    (r : Attempt α d) : plain (Attempt.lift h r) = plain r := by
  cases r <;> rfl

@[simp] theorem plain_attemptLiftWithin {c d : Cursor} (h : d.ahead.length ≤ c.ahead.length)
    (r : Attempt α d) : plain (Attempt.liftWithin h r) = plain r := by
  cases r <;> rfl

@[simp] theorem plain_attempt {c : Cursor} (r : Read α c) : plain (Read.attempt r) = plain r := by
  cases r <;> rfl

theorem eq_ok_iff_plain {P : Cursor → Prop} {r : Except Error (α × {d : Cursor // P d})}
    {a : α} {e : {d : Cursor // P d}} : r = .ok (a, e) ↔ plain r = .ok (a, e.1) := by
  cases r with
  | error => simp [plain]
  | ok p =>
    obtain ⟨b, d, hd⟩ := p
    obtain ⟨e, he⟩ := e
    simp [plain]

theorem eq_error_iff_plain {P : Cursor → Prop} {r : Except Error (α × {d : Cursor // P d})}
    {e : Error} : r = .error e ↔ plain r = .error e := by
  cases r <;> simp [plain]

theorem Read.lt_of_plain {c d : Cursor} {r : Read α c} {a : α} (h : plain r = .ok (a, d)) :
    d.ahead.length < c.ahead.length := by
  cases r with
  | error => cases h
  | ok p =>
    obtain ⟨b, d', hd'⟩ := p
    simp only [plain, Except.ok.injEq, Prod.mk.injEq] at h
    obtain ⟨-, rfl⟩ := h
    exact hd'

theorem Attempt.le_of_plain {c d : Cursor} {r : Attempt α c} {a : α} (h : plain r = .ok (a, d)) :
    d.ahead.length ≤ c.ahead.length := by
  cases r with
  | error => cases h
  | ok p =>
    obtain ⟨b, d', hd'⟩ := p
    simp only [plain, Except.ok.injEq, Prod.mk.injEq] at h
    obtain ⟨-, rfl⟩ := h
    exact hd'

end Plain

/-! ## The cursor's own steps -/

namespace Cursor

variable {c : Cursor} {k : TokenKind}

theorem sees_eq_true : c.sees k = true ↔ c.current.kind = k := by simp [sees]

theorem sees_eq_false : c.sees k = false ↔ c.current.kind ≠ k := by simp [sees]

@[simp] theorem last_next (c : Cursor) : c.next.last = c.last := by
  unfold next
  split <;> simp [rest]

theorem ahead_ne_nil_of_kind (hk : k ≠ .eof) (h : c.current.kind = k) : c.ahead ≠ [] := by
  intro hn
  rw [current_of_nil hn, c.last_eof] at h
  exact hk h.symm

theorem ext_iff {c d : Cursor} : c = d ↔ c.ahead = d.ahead ∧ c.last = d.last := by
  cases c
  cases d
  simp

theorem rest_val {t : Token} {ts : List Token} (h : c.ahead = t :: ts) : (c.rest h).1 = c.next := by
  rw [ext_iff]
  simp [rest, h]

theorem take?_eq_some_iff {t : Token} {d : Ahead c} :
    c.take? k = some (t, d) ↔ k ≠ .eof ∧ c.current.kind = k ∧ t = c.current ∧ d.1 = c.next := by
  unfold take? takeIf?
  split
  · next hn =>
    simp only [reduceCtorEq, false_iff, not_and]
    intro hk hkc
    exact absurd hn (ahead_ne_nil_of_kind hk hkc)
  · next u us hu =>
    have hne : u.kind ≠ .eof := c.ahead_ne_eof u (by simp [hu])
    have hcur : c.current = u := current_of_ahead hu
    by_cases hk : u.kind = k
    · subst hk
      simp only [beq_self_eq_true, ↓reduceIte, Option.some.injEq, Prod.mk.injEq, hcur, ne_eq,
        hne, not_false_eq_true, true_and]
      constructor
      · rintro ⟨rfl, hd⟩
        exact ⟨rfl, by rw [← hd, rest_val]⟩
      · rintro ⟨rfl, hd⟩
        exact ⟨rfl, Subtype.ext (by rw [rest_val, hd])⟩
    · simp [hk, hcur]

theorem take?_eq_none_iff : c.take? k = none ↔ k = .eof ∨ c.current.kind ≠ k := by
  unfold take? takeIf?
  split
  · next hn =>
    simp only [true_iff]
    rw [current_of_nil hn, c.last_eof]
    by_cases hk : k = .eof
    · exact .inl hk
    · exact .inr (Ne.symm hk)
  · next u us hu =>
    have hne : u.kind ≠ .eof := c.ahead_ne_eof u (by simp [hu])
    rw [current_of_ahead hu]
    by_cases hk : u.kind = k
    · subst hk
      simp [hne]
    · simp [hk]

theorem kind_ne_of_take?_eq_none (hk : k ≠ .eof) (h : c.take? k = none) : c.current.kind ≠ k :=
  (take?_eq_none_iff.mp h).resolve_left hk

theorem plain_needOr (hk : k ≠ .eof) (e : Error) : plain (c.needOr k e) = c.expectOr k e := by
  unfold needOr expectOr
  rcases h : c.take? k with _ | ⟨t, d⟩
  · simp [kind_ne_of_take?_eq_none hk h]
  · obtain ⟨-, hkc, rfl, hd⟩ := take?_eq_some_iff.mp h
    simp [hkc, hd]

theorem plain_need (hk : k ≠ .eof) : plain (c.need k) = c.expect k :=
  plain_needOr hk _

theorem skip_val (hk : k ≠ .eof) : (c.skip k).1 = if c.current.kind = k then c.next else c := by
  unfold skip
  rcases h : c.take? k with _ | ⟨t, d⟩
  · simp [kind_ne_of_take?_eq_none hk h, here]
  · obtain ⟨-, hkc, -, hd⟩ := take?_eq_some_iff.mp h
    simp [hkc, ← hd, Ahead.within]

theorem skip_eq_iff (hk : k ≠ .eof) {w : Within c} :
    c.skip k = w ↔ w.1 = if c.current.kind = k then c.next else c := by
  rw [← skip_val hk]
  exact ⟨fun h => by rw [h], fun h => Subtype.ext h.symm⟩

theorem finishLine_val : c.finishLine.map Subtype.val = c.endLine := by
  unfold finishLine endLine
  rcases h : c.take? .newline with _ | ⟨t, d⟩
  · have hn : c.current.kind ≠ .newline := kind_ne_of_take?_eq_none (by decide) h
    by_cases hc : c.current.kind = .closeCurly
    · simp [sees, hc, here, Except.map]
    by_cases he : c.current.kind = .eof
    · simp [sees, he, here, Except.map]
    have hno : (c.sees .closeCurly || c.sees .eof) = false := by simp [sees, hc, he]
    simp only [hno, Bool.false_eq_true, ↓reduceIte]
    simp [Except.map]
  · obtain ⟨-, hkc, -, hd⟩ := take?_eq_some_iff.mp h
    simp [hkc, Ahead.within, hd, Except.map]

theorem finishLine_eq_ok_iff {w : Within c} : c.finishLine = .ok w ↔ c.endLine = .ok w.1 := by
  rw [← finishLine_val]
  cases c.finishLine with
  | error e => simp [Except.map]
  | ok v => simp [Except.map, Subtype.ext_iff]

theorem finishLine_eq_error_iff {e : Error} : c.finishLine = .error e ↔ c.endLine = .error e := by
  rw [← finishLine_val]
  cases c.finishLine <;> simp [Except.map]

end Cursor

end ScriptFront
