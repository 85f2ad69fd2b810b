import ScriptFront.Proofs.Print.Lexes
import ScriptFront.Proofs.Tree.Shape
import ScriptFront.Token.Scan
/-!
# Scanning printed text

The printer writes the tokens of `Expr.lexes` and its companions with blanks and line feeds
between them. A word, a number or an operator it writes is always followed by a blank, a line
feed, a comma, a parenthesis or a `;`, none of which can go on with it, and every other
punctuator ends where it starts; so scanning the printed text of a shaped tree gives exactly
those tokens. `Scans cs ls` says that the characters `cs` scan as `ls` before any text that
starts with such a stop, and the printed text is put together from such pieces.
-/

set_option autoImplicit false

namespace ScriptFront

def stopChars : List Char := [' ', '\n', ',', '(', ')', ';']

def Stops (cs : List Char) : Prop := ∀ c ∈ cs.head?, c ∈ stopChars

def FreeHead (cs : List Char) : Prop := ∀ c ∈ cs.head?, c ≠ '=' ∧ c ≠ '/'

/-- Scanning `cs` before any text that starts with a stop gives the tokens `ls` first, none of
them an end of file, and then what that text gives. -/
def Scans (cs : List Char) (ls : List Lex) : Prop :=
  ∀ rest, Stops rest → ∀ p, ∃ q ts, ts.map Token.lex = ls ∧ (∀ t ∈ ts, t.kind ≠ .eof) ∧
    scanFrom (cs ++ rest) p = (scanFrom rest q).map (ts ++ ·)

theorem Stops.append {cs rest : List Char} (h : Stops cs) (hr : Stops rest) :
    Stops (cs ++ rest) := by
  cases cs with
  | nil => exact hr
  | cons c cs => exact h

theorem Stops.freeHead {cs : List Char} (h : Stops cs) : FreeHead cs := by
  intro c hc
  have := h c hc
  simp only [stopChars, List.mem_cons, List.not_mem_nil, or_false] at this
  rcases this with rfl | rfl | rfl | rfl | rfl | rfl <;> decide

theorem FreeHead.append {cs rest : List Char} (h : FreeHead cs) (hr : FreeHead rest) :
    FreeHead (cs ++ rest) := by
  cases cs with
  | nil => exact hr
  | cons c cs => exact h

theorem scanFrom_nil (p : Position) : scanFrom [] p = .ok [Token.endAt p] := by
  rw [scanFrom]
  rfl

theorem scanFrom_of_token {cs w rest : List Char} {l : Lexeme} {p : Position} {t : Token}
    (h : Lexeme.split? cs = some (l, w, rest)) (ht : l.token? w ⟨p, p.advance w⟩ = .ok (some t)) :
    scanFrom cs p = (scanFrom rest (p.advance w)).map (t :: ·) := by
  rw [scanFrom]
  split
  · next hn => rw [h] at hn; cases hn
  · next l' w' rest' h' =>
    rw [h] at h'
    cases h'
    simp [Lexeme.after_eq_advance h, ht]

theorem scanFrom_space (rest : List Char) (p : Position) :
    scanFrom (' ' :: rest) p = scanFrom rest (p.next ' ') := by
  have hs : Lexeme.split? (' ' :: rest) = some (.blank, ' ' :: rest.takeWhile Lexeme.isBlankChar,
      rest.dropWhile Lexeme.isBlankChar) := by
    simp [Lexeme.split?, Lexeme.isWordStart, Lexeme.isBlankChar]
  rw [scanFrom]
  split
  · next hn => rw [hs] at hn; cases hn
  · next l' w' rest' h' =>
    rw [hs] at h'
    cases h'
    simp only [Lexeme.token?, Lexeme.after_eq_advance hs, Position.advance_cons]
    cases rest with
    | nil => simp
    | cons c rest =>
      by_cases hc : Lexeme.isBlankChar c
      · have hs' : Lexeme.split? (c :: rest) = some (.blank, c :: rest.takeWhile Lexeme.isBlankChar,
            rest.dropWhile Lexeme.isBlankChar) := by
          have hw : Lexeme.isWordStart c = false := by
            simp only [Lexeme.isBlankChar, Bool.or_eq_true, beq_iff_eq] at hc
            rcases hc with (rfl | rfl) | rfl <;> decide
          have hd : c.isDigit = false := by
            simp only [Lexeme.isBlankChar, Bool.or_eq_true, beq_iff_eq] at hc
            rcases hc with (rfl | rfl) | rfl <;> decide
          simp [Lexeme.split?, hw, hd, hc]
        rw [scanFrom.eq_def (c :: rest)]
        split
        · next hn => rw [hs'] at hn; cases hn
        · next l'' w'' rest'' h'' =>
          rw [hs'] at h''
          cases h''
          simp [Lexeme.token?, Lexeme.after_eq_advance hs', hc]
      · simp [hc]

theorem split?_punctuator : ∀ p ∈ TokenKind.punctuators, ∀ rest : List Char, FreeHead rest →
    Lexeme.split? (p.1 ++ rest) = some (.punctuator p.2, p.1, rest) ∧
      p.2.spelling? = some (String.ofList p.1) := by
  simp only [TokenKind.punctuators, List.forall_mem_cons, List.not_mem_nil, false_implies,
    implies_true, and_true]
  refine ⟨?_, ?_, ?_, ?_, ?_, ?_, ?_, ?_, ?_, ?_, ?_, ?_, ?_, ?_, ?_, ?_, ?_, ?_, ?_, ?_, ?_, ?_,
    ?_⟩ <;>
  · intro rest h
    cases rest with
    | nil =>
      simp [Lexeme.split?, Lexeme.punctuator?, TokenKind.punctuators, Lexeme.isWordStart,
        Lexeme.isBlankChar, List.isPrefixOf, TokenKind.spelling?]
    | cons c rest =>
      obtain ⟨h1, h2⟩ := h c rfl
      simp [Lexeme.split?, Lexeme.punctuator?, TokenKind.punctuators, Lexeme.isWordStart,
        Lexeme.isBlankChar, List.isPrefixOf, TokenKind.spelling?, Ne.symm h1, h2]

theorem TokenKind.ofWord_ne {k : TokenKind} (hk : k ≠ .identifier)
    (hr : ∀ p ∈ TokenKind.reserved, p.2 ≠ k) (w : String) : TokenKind.ofWord w ≠ k := by
  unfold TokenKind.ofWord
  cases h : TokenKind.reserved.find? (·.1 == w) with
  | none => simpa using hk.symm
  | some r => simpa using hr r (List.mem_of_find?_eq_some h)

theorem TokenKind.ofWord_ne_eof (w : String) : TokenKind.ofWord w ≠ .eof :=
  TokenKind.ofWord_ne (by decide) (by decide) w

theorem Lexeme.isWordStart_of_isDigit {c : Char} (h : c.isDigit) : Lexeme.isWordStart c = false := by
  have hd : c.toNat ≤ 57 := by
    simp only [Char.isDigit, Bool.and_eq_true, decide_eq_true_eq] at h
    exact UInt32.le_iff_toNat_le.mp h.2
  change ((decide (c.val ≥ 'A'.val ∧ c.val ≤ 'Z'.val) ||
    (decide (c.val ≥ 'a'.val) && decide (c.val ≤ 'z'.val))) || c == '_') = false
  have h_ : c ≠ '_' := by
    rintro rfl
    simp at hd
  simp [UInt32.le_iff_toNat_le, h_]
  omega

theorem isName_word {n : String} (h : isName n) : TokenKind.ofWord n = .identifier ∧
    ∃ c ws, n.toList = c :: ws ∧ Lexeme.isWordStart c ∧ ∀ x ∈ ws, Lexeme.isWordChar x := by
  have hr : n ∉ TokenKind.reserved.map (·.1) := by
    have : reservedWords = TokenKind.reserved.map (·.1) := rfl
    simp only [isName, Bool.and_eq_true, Bool.not_eq_true'] at h
    rw [this] at h
    simpa using h.2
  refine ⟨?_, ?_⟩
  · simp only [TokenKind.ofWord]
    rw [List.find?_eq_none.mpr fun x hx => by simpa using fun h' => hr (List.mem_map.mpr ⟨x, hx, h'⟩)]
    rfl
  · simp only [isName, Bool.and_eq_true] at h
    obtain ⟨h, -⟩ := h
    cases hn : n.toList with
    | nil => simp [hn] at h
    | cons c ws =>
      simp only [hn, Bool.and_eq_true, List.all_eq_true] at h
      exact ⟨c, ws, rfl, h.1, fun x hx => by simpa [Lexeme.isWordChar] using h.2 x hx⟩

theorem reserved_word : ∀ p ∈ TokenKind.reserved, TokenKind.ofWord p.1 = p.2 ∧
    p.2.spelling? = some p.1 ∧
    ∃ c ws, p.1.toList = c :: ws ∧ Lexeme.isWordStart c ∧ ∀ x ∈ ws, Lexeme.isWordChar x := by
  simp only [TokenKind.reserved, List.forall_mem_cons, List.not_mem_nil, false_implies,
    implies_true, and_true]
  -- the letters are checked as one `List.all`: deciding the bounded `∀` over characters
  -- directly may pick an instance that enumerates every character
  refine ⟨?_, ?_, ?_, ?_, ?_, ?_, ?_, ?_, ?_, ?_, ?_, ?_⟩ <;>
    exact ⟨by decide, rfl, _, _, rfl, by decide, List.all_eq_true.mp (by decide)⟩

namespace Scans

variable {cs ds : List Char} {ls ms : List Lex}

theorem nil : Scans [] [] := fun rest _ p =>
  ⟨p, [], rfl, by simp, by rw [List.nil_append]; cases scanFrom rest p <;> rfl⟩

theorem append (h : Scans cs ls) (h' : Scans ds ms) (hs : Stops ds) : Scans (cs ++ ds) (ls ++ ms) := by
  intro rest hr p
  obtain ⟨q, ts, hts, hne, heq⟩ := h (ds ++ rest) (hs.append hr) p
  obtain ⟨q', ts', hts', hne', heq'⟩ := h' rest hr q
  refine ⟨q', ts ++ ts', by simp [hts, hts'], fun t ht => ?_, ?_⟩
  · rcases List.mem_append.mp ht with ht | ht
    · exact hne t ht
    · exact hne' t ht
  · rw [List.append_assoc, heq, heq']
    cases scanFrom rest q' <;> simp [Except.map]

theorem space (h : Scans cs ls) : Scans (' ' :: cs) ls := by
  intro rest hr p
  obtain ⟨q, ts, hts, hne, heq⟩ := h rest hr (p.next ' ')
  exact ⟨q, ts, hts, hne, by rw [List.cons_append, scanFrom_space, heq]⟩

theorem spaces (n : Nat) (h : Scans cs ls) : Scans (List.replicate n ' ' ++ cs) ls := by
  induction n with
  | zero => simpa using h
  | succ n ih => simpa [List.replicate_succ] using ih.space

theorem lexeme {w : List Char} {l : Lexeme} {lx : Lex} {P : List Char → Prop}
    (hs : ∀ rest, P rest → Lexeme.split? (w ++ rest) = some (l, w, rest))
    (ht : ∀ sp, ∃ t : Token, l.token? w sp = .ok (some t) ∧ t.lex = lx ∧ t.kind ≠ .eof)
    (h : Scans cs ls) (hP : ∀ rest, Stops rest → P (cs ++ rest)) : Scans (w ++ cs) (lx :: ls) := by
  intro rest hr p
  obtain ⟨q, ts, hts, hne, heq⟩ := h rest hr (p.advance w)
  obtain ⟨t, htok, hl, hk⟩ := ht ⟨p, p.advance w⟩
  refine ⟨q, t :: ts, by simp [hl, hts], fun u hu => ?_, ?_⟩
  · rcases List.mem_cons.mp hu with rfl | hu
    · exact hk
    · exact hne u hu
  · rw [List.append_assoc, scanFrom_of_token (hs _ (hP rest hr)) htok, heq]
    cases scanFrom rest q <;> rfl

theorem punct {w : List Char} {k : TokenKind} (hk : (w, k) ∈ TokenKind.punctuators)
    (h : Scans cs ls) (hcs : FreeHead cs) : Scans (w ++ cs) (k.lex :: ls) := by
  refine lexeme (P := FreeHead) (fun rest hr => (split?_punctuator _ hk rest hr).1)
    (fun sp => ⟨⟨k, String.ofList w, sp⟩, rfl, ?_, ?_⟩) h (fun rest hr => hcs.append hr.freeHead)
  · simp [Token.lex, TokenKind.lex, (split?_punctuator _ hk [] (by simp [FreeHead])).2]
  · intro hk'
    subst hk'
    simp [TokenKind.punctuators] at hk

theorem punct_end {w : List Char} {k : TokenKind} (hk : (w, k) ∈ TokenKind.punctuators) :
    Scans w [k.lex] := by
  simpa using punct hk nil (by simp [FreeHead])

theorem word {c : Char} {ws : List Char} (hc : Lexeme.isWordStart c)
    (hws : ∀ x ∈ ws, Lexeme.isWordChar x) (h : Scans cs ls) (hcs : Stops cs) :
    Scans ((c :: ws) ++ cs) ((TokenKind.ofWord (String.ofList (c :: ws)),
      String.ofList (c :: ws)) :: ls) := by
  refine lexeme (l := .word) (P := Stops) (fun rest hr => ?_)
    (fun sp => ⟨⟨TokenKind.ofWord (String.ofList (c :: ws)), String.ofList (c :: ws), sp⟩, rfl, rfl,
      TokenKind.ofWord_ne_eof _⟩) h (fun rest hr => hcs.append hr)
  have hr' : (rest.takeWhile Lexeme.isWordChar) = [] ∧ rest.dropWhile Lexeme.isWordChar = rest := by
    cases rest with
    | nil => simp
    | cons x rest =>
      have hx := hr x rfl
      have : Lexeme.isWordChar x = false := by
        simp only [stopChars, List.mem_cons, List.not_mem_nil, or_false] at hx
        rcases hx with rfl | rfl | rfl | rfl | rfl | rfl <;> decide
      simp [this]
  simp [Lexeme.split?, hc, List.takeWhile_append_of_pos hws, List.dropWhile_append_of_pos hws, hr']

theorem name {n : String} (hn : isName n) (h : Scans cs ls) (hcs : Stops cs) :
    Scans (n.toList ++ cs) ((.identifier, n) :: ls) := by
  obtain ⟨hk, c, ws, hw, hc, hws⟩ := isName_word hn
  have := word hc hws h hcs
  rwa [← hw, String.ofList_toList, hk] at this

theorem reserved {w : String} {k : TokenKind} (hk : (w, k) ∈ TokenKind.reserved)
    (h : Scans cs ls) (hcs : Stops cs) : Scans (w.toList ++ cs) (k.lex :: ls) := by
  obtain ⟨hkw, hsp, c, ws, hw, hc, hws⟩ := reserved_word _ hk
  have := word hc hws h hcs
  rwa [← hw, String.ofList_toList, hkw, show (k, w) = k.lex by simp [TokenKind.lex, hsp]] at this

theorem number (v : Nat) (h : Scans cs ls) (hcs : Stops cs) :
    Scans ((toString v).toList ++ cs) ((.number, toString v) :: ls) := by
  have hd : ∀ x ∈ (toString v).toList, x.isDigit := by
    simpa using fun x hx => Nat.isDigit_of_mem_toDigits (by decide) (by decide) hx
  obtain ⟨c, ds, hcd⟩ := List.exists_cons_of_ne_nil (by simp :
    (toString v).toList ≠ [])
  have hc : c.isDigit := hd c (by rw [hcd]; simp)
  have hds : ∀ x ∈ ds, x.isDigit := fun x hx => hd x (by rw [hcd]; simp [hx])
  rw [hcd]
  refine lexeme (l := .number) (P := Stops) (fun rest hr => ?_)
    (fun sp => ⟨⟨.number, toString v, sp⟩, by simp only [Lexeme.token?]; rw [← hcd, String.ofList_toList],
      rfl, by simp⟩)
    h (fun rest hr => hcs.append hr)
  have hr' : rest.takeWhile Char.isDigit = [] ∧ rest.dropWhile Char.isDigit = rest := by
    cases rest with
    | nil => simp
    | cons x rest =>
      have hx := hr x rfl
      have : x.isDigit = false := by
        simp only [stopChars, List.mem_cons, List.not_mem_nil, or_false] at hx
        rcases hx with rfl | rfl | rfl | rfl | rfl | rfl <;> decide
      simp [this]
  simp [Lexeme.split?, Lexeme.isWordStart_of_isDigit hc, hc, List.takeWhile_append_of_pos hds,
    List.dropWhile_append_of_pos hds, hr']

theorem newline (h : Scans cs ls) : Scans ('\n' :: cs) (newlineLex :: ls) :=
  lexeme (w := ['\n']) (l := .newline) (P := fun _ => True)
    (fun rest _ => by simp [Lexeme.split?, Lexeme.isWordStart, Lexeme.isBlankChar])
    (fun sp => ⟨⟨.newline, "\n", sp⟩, rfl, rfl, by simp⟩) h (fun _ _ => trivial)

theorem eq_nil {ls : List Lex} (h : Scans [] ls) : ls = [] := by
  obtain ⟨q, ts, hts, -, heq⟩ := h [] (by simp [Stops]) Position.null
  rw [List.nil_append, scanFrom_nil, scanFrom_nil] at heq
  simp only [Except.map, Except.ok.injEq] at heq
  have := congrArg List.length heq
  simp at this
  subst this
  exact hts.symm

theorem intercalate (sep : List Char) (sepLex : List Lex)
    (hsep : ∀ {cs ls}, Scans cs ls → Scans (sep ++ cs) (sepLex ++ ls))
    (hstop : ∀ cs, Stops (sep ++ cs)) {α : Type} (f : α → List Char) (g : α → List Lex) :
    ∀ xs : List α, (∀ x ∈ xs, Scans (f x) (g x)) →
      Scans (sep.intercalate (xs.map f)) (sepLex.intercalate (xs.map g))
  | [], _ => nil
  | [x], h => by simpa using h x (by simp)
  | x :: y :: xs, h => by
    have ih := intercalate sep sepLex hsep hstop f g (y :: xs) fun z hz => h z (List.mem_cons_of_mem _ hz)
    show Scans (sep.intercalate (f x :: (y :: xs).map f)) (sepLex.intercalate (g x :: (y :: xs).map g))
    rw [List.intercalate_cons_of_ne_nil (by simp), List.intercalate_cons_of_ne_nil (by simp),
      List.append_assoc, List.append_assoc]
    exact (h x (by simp)).append (hsep ih) (hstop _)

theorem commas {α : Type} (f : α → List Char) (g : α → List Lex) (xs : List α)
    (h : ∀ x ∈ xs, Scans (f x) (g x)) :
    Scans (", ".toList.intercalate (xs.map f)) (commaLexes (xs.map g)) :=
  intercalate [',', ' '] [TokenKind.comma.lex]
    (fun h => punct (w := [',']) (by decide) h.space (by simp [FreeHead]))
    (fun _ => by simp [Stops, stopChars]) f g xs h

end Scans

end ScriptFront
