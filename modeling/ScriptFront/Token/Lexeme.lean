import ScriptFront.Token.Kind
/-!
# Lexemes

A source is read as a sequence of lexemes. At each place the classes are tried in a fixed
order and the first that matches takes the longest run it can: a word, a number, a run of
blanks, a line feed, a string literal, a line comment, or a punctuator. A string literal runs
to its first quote that no backslash escapes and may hold no line feed. The main statement,
`split?_append`, says that a lexeme is a non-empty piece of the text and the rest follows it.
-/

set_option autoImplicit false

namespace ScriptFront

/-- The class of a lexeme. -/
inductive Lexeme where
  | word | number | blank | newline | string | comment
  | punctuator (kind : TokenKind)
deriving Repr, DecidableEq, Inhabited

namespace Lexeme

def isWordStart (c : Char) : Bool := c.isAlpha || c == '_'

def isWordChar (c : Char) : Bool := c.isAlphanum || c == '_'

def isBlankChar (c : Char) : Bool := c == ' ' || c == '\t' || c == '\r'

def stringBody : List Char → Option (List Char × List Char)
  | [] => none
  | c :: r =>
    if c = '"' then some ([], r)
    else if c = '\n' then none
    else if c = '\\' then
      match r with
      | [] => none
      | e :: r' => if e = '\n' then none else (stringBody r').map fun p => (c :: e :: p.1, p.2)
    else (stringBody r).map fun p => (c :: p.1, p.2)

def punctuator? (cs : List Char) : Option (List Char × TokenKind) :=
  TokenKind.punctuators.find? fun p => p.1.isPrefixOf cs

/-- The lexeme at the front of the text: its class, its characters and the rest of the text;
none if no class matches there, and none for the empty text. -/
def split? : List Char → Option (Lexeme × List Char × List Char)
  | [] => none
  | c :: r =>
    if isWordStart c then some (.word, c :: r.takeWhile isWordChar, r.dropWhile isWordChar)
    else if c.isDigit then
      some (.number, c :: r.takeWhile Char.isDigit, r.dropWhile Char.isDigit)
    else if isBlankChar c then
      some (.blank, c :: r.takeWhile isBlankChar, r.dropWhile isBlankChar)
    else if c = '\n' then some (.newline, [c], r)
    else if c = '"' then (stringBody r).map fun p => (.string, c :: p.1 ++ ['"'], p.2)
    else if c = '/' ∧ r.head? = some '/' then
      some (.comment, c :: r.takeWhile (· != '\n'), r.dropWhile (· != '\n'))
    else (punctuator? (c :: r)).map fun p => (.punctuator p.2, p.1, (c :: r).drop p.1.length)

theorem stringBody_append {r b rest : List Char} (h : stringBody r = some (b, rest)) :
    b ++ '"' :: rest = r := by
  induction r using stringBody.induct generalizing b rest with
  | case1 => rw [stringBody.eq_def] at h; simp at h
  | case2 r =>
    rw [stringBody.eq_def] at h; simp at h
    obtain ⟨rfl, rfl⟩ := h
    rfl
  | case3 r => rw [stringBody.eq_def] at h; simp at h
  | case4 => rw [stringBody.eq_def] at h; simp at h
  | case5 r => rw [stringBody.eq_def] at h; simp at h
  | case6 e r he _ _ ih =>
    cases hs : stringBody r with
    | none => rw [stringBody.eq_def] at h; simp [he, hs] at h
    | some p =>
      rw [stringBody.eq_def] at h; simp [he, hs] at h
      obtain ⟨rfl, rfl⟩ := h
      simp [ih hs]
  | case7 c r hq hn hb ih =>
    cases hs : stringBody r with
    | none => rw [stringBody.eq_def] at h; simp [hq, hn, hb, hs] at h
    | some p =>
      rw [stringBody.eq_def] at h; simp [hq, hn, hb, hs] at h
      obtain ⟨rfl, rfl⟩ := h
      simp [ih hs]

theorem punctuator?_append {cs w : List Char} {k : TokenKind}
    (h : punctuator? cs = some (w, k)) : w ++ cs.drop w.length = cs ∧ w ≠ [] := by
  have hm := List.mem_of_find?_eq_some h
  have hp := List.find?_some h
  simp only [List.isPrefixOf_iff_prefix] at hp
  refine ⟨?_, ?_⟩
  · obtain ⟨t, rfl⟩ := hp
    simp
  · rintro rfl
    simp [TokenKind.punctuators] at hm

theorem split?_append {cs w rest : List Char} {l : Lexeme}
    (h : split? cs = some (l, w, rest)) : w ++ rest = cs ∧ w ≠ [] := by
  match cs with
  | [] => simp [split?] at h
  | c :: r =>
    simp only [split?] at h
    split at h
    · simp only [Option.some.injEq, Prod.mk.injEq] at h
      obtain ⟨-, rfl, rfl⟩ := h
      simp
    split at h
    · simp only [Option.some.injEq, Prod.mk.injEq] at h
      obtain ⟨-, rfl, rfl⟩ := h
      simp
    split at h
    · simp only [Option.some.injEq, Prod.mk.injEq] at h
      obtain ⟨-, rfl, rfl⟩ := h
      simp
    split at h
    · simp only [Option.some.injEq, Prod.mk.injEq] at h
      obtain ⟨-, rfl, rfl⟩ := h
      simp_all
    split at h
    · simp only [Option.map_eq_some_iff, Prod.mk.injEq] at h
      obtain ⟨⟨b, t⟩, hb, -, rfl, rfl⟩ := h
      have := stringBody_append hb
      subst_vars
      simp
    split at h
    · simp only [Option.some.injEq, Prod.mk.injEq] at h
      obtain ⟨-, rfl, rfl⟩ := h
      simp
    · simp only [Option.map_eq_some_iff, Prod.mk.injEq] at h
      obtain ⟨⟨w', k⟩, hp, -, rfl, rfl⟩ := h
      exact punctuator?_append hp

theorem split?_string {cs w rest : List Char} (h : split? cs = some (.string, w, rest)) :
    ∃ body, w = '"' :: (body ++ ['"']) := by
  match cs with
  | [] => simp [split?] at h
  | c :: r =>
    simp only [split?] at h
    split at h
    · simp at h
    split at h
    · simp at h
    split at h
    · simp at h
    split at h
    · simp at h
    split at h
    · simp only [Option.map_eq_some_iff, Prod.mk.injEq] at h
      obtain ⟨⟨b, t⟩, hb, -, rfl, rfl⟩ := h
      subst_vars
      exact ⟨b, by simp⟩
    split at h
    · simp at h
    · simp only [Option.map_eq_some_iff, Prod.mk.injEq] at h
      obtain ⟨_, _, h1, _⟩ := h
      cases h1

theorem stringBody_no_newline {r b rest : List Char} (h : stringBody r = some (b, rest)) :
    '\n' ∉ b := by
  induction r using stringBody.induct generalizing b rest with
  | case1 => rw [stringBody.eq_def] at h; simp at h
  | case2 r =>
    rw [stringBody.eq_def] at h; simp at h
    obtain ⟨rfl, rfl⟩ := h
    simp
  | case3 r => rw [stringBody.eq_def] at h; simp at h
  | case4 => rw [stringBody.eq_def] at h; simp at h
  | case5 r => rw [stringBody.eq_def] at h; simp at h
  | case6 e r he _ _ ih =>
    cases hs : stringBody r with
    | none => rw [stringBody.eq_def] at h; simp [he, hs] at h
    | some p =>
      rw [stringBody.eq_def] at h; simp [he, hs] at h
      obtain ⟨rfl, rfl⟩ := h
      simp [Ne.symm he, ih hs]
  | case7 c r hq hn hb ih =>
    cases hs : stringBody r with
    | none => rw [stringBody.eq_def] at h; simp [hq, hn, hb, hs] at h
    | some p =>
      rw [stringBody.eq_def] at h; simp [hq, hn, hb, hs] at h
      obtain ⟨rfl, rfl⟩ := h
      simp [Ne.symm hn, ih hs]

theorem split?_newline_cases {cs w rest : List Char} {l : Lexeme} (h : split? cs = some (l, w, rest)) :
    (l = .newline ∧ w = ['\n']) ∨ (l ≠ .newline ∧ '\n' ∉ w) := by
  cases cs with
  | nil => simp [split?] at h
  | cons c r =>
    simp only [split?] at h
    split at h
    · next hc =>
      simp only [Option.some.injEq, Prod.mk.injEq] at h
      obtain ⟨rfl, rfl, -⟩ := h
      refine .inr ⟨by decide, fun hn => ?_⟩
      rcases List.mem_cons.mp hn with hn | hn
      · rw [← hn] at hc; exact absurd hc (by decide)
      · exact absurd (List.all_eq_true.mp List.all_takeWhile _ hn) (by decide)
    split at h
    · next hc =>
      simp only [Option.some.injEq, Prod.mk.injEq] at h
      obtain ⟨rfl, rfl, -⟩ := h
      refine .inr ⟨by decide, fun hn => ?_⟩
      rcases List.mem_cons.mp hn with hn | hn
      · rw [← hn] at hc; exact absurd hc (by decide)
      · exact absurd (List.all_eq_true.mp List.all_takeWhile _ hn) (by decide)
    split at h
    · next hc =>
      simp only [Option.some.injEq, Prod.mk.injEq] at h
      obtain ⟨rfl, rfl, -⟩ := h
      refine .inr ⟨by decide, fun hn => ?_⟩
      rcases List.mem_cons.mp hn with hn | hn
      · rw [← hn] at hc; exact absurd hc (by decide)
      · exact absurd (List.all_eq_true.mp List.all_takeWhile _ hn) (by decide)
    split at h
    · next hc =>
      simp only [Option.some.injEq, Prod.mk.injEq] at h
      obtain ⟨rfl, rfl, -⟩ := h
      exact .inl ⟨rfl, by rw [hc]⟩
    split at h
    · next hq =>
      simp only [Option.map_eq_some_iff, Prod.mk.injEq] at h
      obtain ⟨⟨b, t⟩, hb, rfl, rfl, -⟩ := h
      subst hq
      exact .inr ⟨by decide, by simpa using stringBody_no_newline hb⟩
    split at h
    · simp only [Option.some.injEq, Prod.mk.injEq] at h
      obtain ⟨rfl, rfl, -⟩ := h
      refine .inr ⟨by decide, fun hn => ?_⟩
      rcases List.mem_cons.mp hn with hn | hn
      · simp_all
      · simpa using List.all_eq_true.mp List.all_takeWhile _ hn
    · simp only [Option.map_eq_some_iff, Prod.mk.injEq] at h
      obtain ⟨⟨w', k⟩, hp, rfl, rfl, -⟩ := h
      have key : ∀ p ∈ TokenKind.punctuators, '\n' ∉ p.1 := by decide
      exact .inr ⟨by simp, key _ (List.mem_of_find?_eq_some hp)⟩

theorem split?_shorter {cs w rest : List Char} {l : Lexeme}
    (h : split? cs = some (l, w, rest)) : rest.length < cs.length := by
  obtain ⟨he, hw⟩ := split?_append h
  rw [← he, List.length_append]
  have : w.length ≠ 0 := by simpa using hw
  omega

end Lexeme

end ScriptFront
