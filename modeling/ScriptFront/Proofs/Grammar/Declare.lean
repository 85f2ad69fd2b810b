import ScriptFront.Proofs.Grammar.Soundness
/-!
# Variable declarations

`var`, one or more names separated by commas, and then a type, `=` and values, or both. The
names are read while a comma follows one; what comes after the last name decides the shape of
the declaration. A type is read softly: where no type starts nothing is read, and a type that
starts is read as far as it goes, which is never past a token that no type is written with, so
the `=` after a function type without results stays for the declaration.

The main statement, `var_decl_shapes`, gives the three shapes and the two refusals.
-/

set_option autoImplicit false

namespace ScriptFront

namespace Cursor

def Listed : Cursor → List Token → Cursor → Prop
  | c, [], d => d = c
  | c, n :: ns, d =>
    c.current = n ∧ n.kind = .identifier ∧ c.next.current.kind = .comma ∧ Listed c.next.next ns d

def ReadsOnly (p : TokenKind → Prop) (c d : Cursor) : Prop :=
  ∃ pre : List Token, c.ahead = pre ++ d.ahead ∧ ∀ t ∈ pre, p t.kind

variable {p : TokenKind → Prop} {c d e : Cursor}

theorem ReadsOnly.refl (c : Cursor) : c.ReadsOnly p c := ⟨[], rfl, by simp⟩

theorem ReadsOnly.next (hk : p c.current.kind) (hne : c.current.kind ≠ .eof) :
    c.ReadsOnly p c.next := by
  obtain ⟨t, ts, hc⟩ := List.exists_cons_of_ne_nil (ahead_ne_nil_of_kind hne rfl)
  refine ⟨[t], by simp [hc], ?_⟩
  simpa [current_of_ahead hc] using hk

theorem ReadsOnly.trans (h1 : c.ReadsOnly p d) (h2 : d.ReadsOnly p e) : c.ReadsOnly p e := by
  obtain ⟨pre1, hc, hp1⟩ := h1
  obtain ⟨pre2, hd, hp2⟩ := h2
  refine ⟨pre1 ++ pre2, by rw [hc, hd, List.append_assoc], fun t ht => ?_⟩
  rcases List.mem_append.mp ht with ht | ht
  · exact hp1 t ht
  · exact hp2 t ht

end Cursor

/-! ## Names -/

section Names

variable {c d : Cursor} {ns : List Token}

theorem readNames_of_listed (h : c.Listed ns d) (hk : d.current.kind = .identifier)
    (hc : d.next.current.kind ≠ .comma) :
    plain (readNames c) = .ok ((ns ++ [d.current]).map Token.binding, d.next) := by
  induction ns generalizing c with
  | nil =>
    obtain rfl : d = c := h
    rw [readNames_eq]
    simp [Cursor.expectOr, hk, hc]
  | cons n ns ih =>
    obtain ⟨rfl, hn, hcomma, hl⟩ := h
    rw [readNames_eq]
    simp [Cursor.expectOr, hn, hcomma, ih hl]

theorem readNames_unexpected (h : c.Listed ns d) (hk : d.current.kind ≠ .identifier) :
    plain (readNames c) =
      .error ⟨.unexpected "identifier during variable declaration" d.current.describe,
        d.current.start⟩ := by
  induction ns generalizing c with
  | nil =>
    obtain rfl : d = c := h
    rw [readNames_eq]
    simp [Cursor.expectOr, hk, Cursor.unexpected]
  | cons n ns ih =>
    obtain ⟨rfl, hn, hcomma, hl⟩ := h
    rw [readNames_eq]
    simp [Cursor.expectOr, hn, hcomma, ih hl]

end Names

/-! ## Types are written with few kinds of token -/

def TokenKind.typeKinds : List TokenKind :=
  [.kwInt, .kwBool, .kwFunc, .openParen, .closeParen, .comma]

theorem Cursor.typeKinds_next {c : Cursor} {k : TokenKind} (hk : c.current.kind = k)
    (hm : k ∈ TokenKind.typeKinds) : c.ReadsOnly (· ∈ TokenKind.typeKinds) c.next := by
  have hne : k ≠ .eof := by
    rintro rfl
    simp [TokenKind.typeKinds] at hm
  exact .next (by rw [hk]; exact hm) (by rw [hk]; exact hne)

namespace Reader

def readsType : Reader → Bool
  | type | funcType | typeList | moreTypes | results => true
  | _ => false

open Cursor in
theorem Reads.typeKinds {r : Reader} {c : Cursor} {v : Outcome} {d : Cursor} (h : Reads r c v d) :
    r.readsType → c.ReadsOnly (· ∈ TokenKind.typeKinds) d := by
  induction h with
  | typeInt hk | typeBool hk => exact fun _ => typeKinds_next hk (by decide)
  | typeNone | moreTypesNil => intro _; exact .refl _
  | typeFunc _ _ ih | typeListNil _ ih | resultsBare _ _ ih => intro _; exact ih rfl
  | typeListCons _ _ ih1 ih2 => intro _; exact (ih1 rfl).trans (ih2 rfl)
  | funcType h1 h2 _ h4 _ ih1 ih2 =>
    intro _
    exact (typeKinds_next h1 (by decide)).trans ((typeKinds_next h2 (by decide)).trans
      ((ih1 rfl).trans ((typeKinds_next h4 (by decide)).trans (ih2 rfl))))
  | moreTypesCons hk _ _ ih1 ih2 =>
    intro _
    exact (typeKinds_next hk (by decide)).trans ((ih1 rfl).trans (ih2 rfl))
  | resultsList h1 _ h2 ih =>
    intro _
    exact (typeKinds_next h1 (by decide)).trans ((ih rfl).trans (typeKinds_next h2 (by decide)))
  | _ => nofun

end Reader

/-- A type is read only over the tokens that types are written with, so never over an `=`. -/
theorem readType?_typeKinds {c e : Cursor} {t : Option Ty} (h : plain (readType? c) = .ok (t, e)) :
    c.ReadsOnly (· ∈ TokenKind.typeKinds) e :=
  (Reader.sound .type c (.type t) e (by rw [Reader.run, h]; rfl)).typeKinds rfl

theorem readType?_none {c : Cursor} (h : c.current.kind ∉ [.kwInt, .kwBool, .kwFunc]) :
    plain (readType? c) = .ok (none, c) := by
  simp only [List.mem_cons, List.not_mem_nil, or_false, not_or] at h
  rw [readType?_eq, if_neg h.1, if_neg h.2.1, if_neg h.2.2]

/-! ## Declarations -/

/-- A variable declaration is typed, with or without values, or has values alone, by what
follows its names; it is refused where a name or the `=` is due and missing. -/
theorem var_decl_shapes {c : Cursor} (hc : c.current.kind = .kwVar) :
    (∀ ns d T e, c.next.Listed ns d → d.current.kind = .identifier →
      d.next.current.kind ≠ .comma → plain (readType? d.next) = .ok (some T, e) →
      e.current.kind = .assign →
      plain (readVarDecl c) = (plain (readExprList e.next)).map fun (vs, f) =>
        (.varDecl ((ns ++ [d.current]).map Token.binding) (.typed T (some vs)) c.current.start,
          f)) ∧
    (∀ ns d T e, c.next.Listed ns d → d.current.kind = .identifier →
      d.next.current.kind ≠ .comma → plain (readType? d.next) = .ok (some T, e) →
      e.current.kind ≠ .assign →
      plain (readVarDecl c) =
        .ok (.varDecl ((ns ++ [d.current]).map Token.binding) (.typed T none) c.current.start,
          e)) ∧
    (∀ ns d, c.next.Listed ns d → d.current.kind = .identifier →
      d.next.current.kind = .assign →
      plain (readVarDecl c) = (plain (readExprList d.next.next)).map fun (vs, f) =>
        (.varDecl ((ns ++ [d.current]).map Token.binding) (.inferred vs) c.current.start, f)) ∧
    (∀ ns d, c.next.Listed ns d → d.current.kind = .identifier →
      d.next.current.kind ∉ [.kwInt, .kwBool, .kwFunc, .assign, .comma] →
      plain (readVarDecl c) =
        .error ⟨.unexpected "`=`" d.next.current.describe, d.next.current.start⟩) ∧
    (∀ ns d, c.next.Listed ns d → d.current.kind ≠ .identifier →
      plain (readVarDecl c) =
        .error ⟨.unexpected "identifier during variable declaration" d.current.describe,
          d.current.start⟩) ∧
    (∀ d t e, plain (readType? d) = .ok (t, e) → d.ReadsOnly (· ∈ TokenKind.typeKinds) e) := by
  refine ⟨fun ns d T e h hk hcomma ht ha => ?_, fun ns d T e h hk hcomma ht ha => ?_,
    fun ns d h hk ha => ?_, fun ns d h hk hr => ?_, fun ns d h hk => ?_,
    fun _ _ _ ht => readType?_typeKinds ht⟩
  · rw [readVarDecl_eq]
    simp only [Cursor.expect, Cursor.expectOr, if_pos hc, Except.ok_bind',
      readNames_of_listed h hk hcomma, ht, if_pos ha]
  · rw [readVarDecl_eq]
    simp only [Cursor.expect, Cursor.expectOr, if_pos hc, Except.ok_bind',
      readNames_of_listed h hk hcomma, ht, if_neg ha]
  · have hn : d.next.current.kind ≠ .comma := by rw [ha]; decide
    have hty : plain (readType? d.next) = .ok (none, d.next) :=
      readType?_none (by rw [ha]; decide)
    rw [readVarDecl_eq]
    simp only [Cursor.expect, Cursor.expectOr, if_pos hc, Except.ok_bind',
      readNames_of_listed h hk hn, hty, if_pos ha]
  · simp only [List.mem_cons, List.not_mem_nil, or_false, not_or] at hr
    have hty : plain (readType? d.next) = .ok (none, d.next) :=
      readType?_none (by simp [hr.1, hr.2.1, hr.2.2.1])
    rw [readVarDecl_eq]
    simp only [Cursor.expect, Cursor.expectOr, if_pos hc, Except.ok_bind',
      readNames_of_listed h hk hr.2.2.2.2, hty, if_neg hr.2.2.2.1, Except.error_bind']
    rfl
  · rw [readVarDecl_eq]
    simp only [Cursor.expect, Cursor.expectOr, if_pos hc, Except.ok_bind',
      readNames_unexpected h hk, Except.error_bind']

theorem var_decl_shapes_inferred :
    let c : Cursor := Cursor.ofTokens [⟨.kwVar, "var", ⟨⟨1, 1, "f"⟩, ⟨1, 4, "f"⟩⟩⟩,
      ⟨.identifier, "x", ⟨⟨1, 5, "f"⟩, ⟨1, 6, "f"⟩⟩⟩, ⟨.comma, ",", ⟨⟨1, 6, "f"⟩, ⟨1, 7, "f"⟩⟩⟩,
      ⟨.identifier, "y", ⟨⟨1, 8, "f"⟩, ⟨1, 9, "f"⟩⟩⟩, ⟨.assign, "=", ⟨⟨1, 10, "f"⟩, ⟨1, 11, "f"⟩⟩⟩,
      ⟨.number, "1", ⟨⟨1, 12, "f"⟩, ⟨1, 13, "f"⟩⟩⟩]
    c.current.kind = .kwVar ∧ plain (readVarDecl c) =
      (plain (readExprList c.next.next.next.next.next)).map fun (vs, f) =>
        (.varDecl [⟨"x", ⟨1, 5, "f"⟩⟩, ⟨"y", ⟨1, 8, "f"⟩⟩] (.inferred vs) ⟨1, 1, "f"⟩, f) := by
  intro c
  have hc : c.current.kind = .kwVar := rfl
  exact ⟨hc, (var_decl_shapes hc).2.2.1 [c.next.current] c.next.next.next
    ⟨rfl, rfl, rfl, rfl⟩ rfl rfl⟩

end ScriptFront
