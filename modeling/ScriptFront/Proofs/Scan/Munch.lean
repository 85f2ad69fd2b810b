import ScriptFront.Proofs.Print.ScanText
/-!
# The scanner takes the longest lexeme

The classes of lexemes are said here character by character, apart from the scanner. The
scanner tries them in a fixed order, yet at each place it takes the longest text of any class:
no two classes start alike but a slash and a comment, and a punctuator that another one extends
is tried after it. `tokenize_longest_lexemes` says that a source scans exactly when it splits
into longest lexemes (`Munch`) whose string literals decode, with the tokens of those lexemes.
-/

set_option autoImplicit false

namespace ScriptFront

namespace Lexeme

inductive StringBody : List Char → Prop
  | nil : StringBody []
  | plain {c : Char} {cs : List Char} :
      c ≠ '"' → c ≠ '\\' → c ≠ '\n' → StringBody cs → StringBody (c :: cs)
  | escape {e : Char} {cs : List Char} : e ≠ '\n' → StringBody cs → StringBody ('\\' :: e :: cs)

def IsHexDigit (c : Char) : Prop :=
  ('0' ≤ c ∧ c ≤ '9') ∨ ('a' ≤ c ∧ c ≤ 'f') ∨ ('A' ≤ c ∧ c ≤ 'F')

inductive HexEscapes : List Char → Prop
  | nil : HexEscapes []
  | plain {c : Char} {cs : List Char} : c ≠ '\\' → HexEscapes cs → HexEscapes (c :: cs)
  | escape {e : Char} {cs : List Char} : e ≠ 'x' → HexEscapes cs → HexEscapes ('\\' :: e :: cs)
  | hex {a : Char} {cs : List Char} :
      IsHexDigit a → HexEscapes (a :: cs) → HexEscapes ('\\' :: 'x' :: a :: cs)

def Spells : Lexeme → List Char → Prop
  | .word, w => ∃ c cs, w = c :: cs ∧ isWordStart c ∧ ∀ x ∈ cs, isWordChar x
  | .number, w => w ≠ [] ∧ ∀ x ∈ w, x.isDigit
  | .blank, w => w ≠ [] ∧ ∀ x ∈ w, isBlankChar x
  | .newline, w => w = ['\n']
  | .string, w => ∃ body, w = '"' :: (body ++ ['"']) ∧ StringBody body
  | .comment, w => ∃ cs, w = '/' :: '/' :: cs ∧ '\n' ∉ cs
  | .punctuator k, w => (w, k) ∈ TokenKind.punctuators

def Longest (w cs : List Char) : Prop := ∀ l v, Spells l v → v <+: cs → v.length ≤ w.length

def Decodes : Lexeme → List Char → Prop
  | .string, w => HexEscapes (w.drop 1).dropLast
  | _, _ => True

/-! ### String literals -/

theorem stringBody_of_body {b : List Char} (hb : StringBody b) (rest : List Char) :
    stringBody (b ++ '"' :: rest) = some (b, rest) := by
  induction hb with
  | nil => rw [stringBody.eq_def]; simp
  | plain hq hs hn _ ih => rw [stringBody.eq_def]; simp [hq, hs, hn, ih]
  | escape he _ ih => rw [stringBody.eq_def]; simp [he, ih]

theorem body_of_stringBody {r b rest : List Char} (h : stringBody r = some (b, rest)) :
    StringBody b := by
  induction r using stringBody.induct generalizing b rest with
  | case1 => rw [stringBody.eq_def] at h; simp at h
  | case2 r =>
    rw [stringBody.eq_def] at h
    simp only [if_pos, Option.some.injEq, Prod.mk.injEq] at h
    obtain ⟨rfl, -⟩ := h
    exact .nil
  | case3 r => rw [stringBody.eq_def] at h; simp at h
  | case4 => rw [stringBody.eq_def] at h; simp at h
  | case5 r => rw [stringBody.eq_def] at h; simp at h
  | case6 e r he _ _ ih =>
    rw [stringBody.eq_def] at h
    simp [he] at h
    obtain ⟨b', hs, rfl⟩ := h
    exact .escape he (ih hs)
  | case7 c r hq hn hb ih =>
    rw [stringBody.eq_def] at h
    simp [hq, hn, hb] at h
    obtain ⟨b', hs, rfl⟩ := h
    exact .plain hq hb hn (ih hs)

theorem stringBody_eq_some_iff {r b rest : List Char} :
    stringBody r = some (b, rest) ↔ r = b ++ '"' :: rest ∧ StringBody b := by
  constructor
  · intro h
    exact ⟨(stringBody_append h).symm, body_of_stringBody h⟩
  · rintro ⟨rfl, hb⟩
    exact stringBody_of_body hb rest

/-! ### Escapes

The scanner reads a literal's body pair by pair and its value is decoded character by
character; the two readings agree because a hexadecimal digit is never a backslash, so the
digits after `\x` are plain characters of the body. -/

theorem isHexDigit_iff (c : Char) : IsHexDigit c ↔ (Escape.hexValue? c).isSome := by
  unfold IsHexDigit Escape.hexValue?
  split
  · simp_all
  · split
    · simp_all
    · split <;> simp_all

theorem IsHexDigit.ne_backslash {c : Char} (h : IsHexDigit c) : c ≠ '\\' := by
  rintro rfl
  simp [IsHexDigit] at h

theorem hexEscapes_cons_iff {c : Char} {cs : List Char} (hc : c ≠ '\\') :
    HexEscapes (c :: cs) ↔ HexEscapes cs := by
  constructor
  · intro h
    cases h with
    | plain _ h => exact h
    | escape => exact absurd rfl hc
    | hex => exact absurd rfl hc
  · exact .plain hc

theorem hexEscapes_escape_iff {e : Char} {cs : List Char} (he : e ≠ 'x') :
    HexEscapes ('\\' :: e :: cs) ↔ HexEscapes cs := by
  constructor
  · intro h
    cases h with
    | plain hc => exact absurd rfl hc
    | escape _ h => exact h
    | hex => exact absurd rfl he
  · exact .escape he

theorem hexEscapes_x_iff {cs : List Char} :
    HexEscapes ('\\' :: 'x' :: cs) ↔ (∃ a ∈ cs.head?, IsHexDigit a) ∧ HexEscapes cs := by
  constructor
  · intro h
    cases h with
    | plain hc => exact absurd rfl hc
    | escape he => exact absurd rfl he
    | hex ha h => exact ⟨⟨_, rfl, ha⟩, h⟩
  · rintro ⟨⟨a, ha, hx⟩, h⟩
    cases cs with
    | nil => cases ha
    | cons b cs =>
      obtain rfl : b = a := Option.some.inj ha
      exact .hex hx h

end Lexeme

namespace Escape

open Lexeme

theorem decode_cons {c : Char} (r : List Char) (hc : c ≠ '\\') :
    decode (c :: r) = (decode r).map (c :: ·) := by
  rw [decode.eq_def]
  split <;> simp_all

theorem decode_escape {e : Char} (r : List Char) (he : e ≠ 'x') :
    decode ('\\' :: e :: r) = (decode r).map (single e ++ ·) := by
  rw [decode.eq_def]
  split
  · simp_all
  · simp_all
  · simp_all
  · next hne heq =>
    obtain ⟨rfl, rfl⟩ := heq
    exact absurd rfl (hne _ _ rfl)

theorem decode_hex_isSome {a : Char} (r : List Char) (ha : IsHexDigit a) :
    (decode ('\\' :: 'x' :: a :: r)).isSome = (decode r).isSome := by
  obtain ⟨va, hva⟩ := Option.isSome_iff_exists.mp ((isHexDigit_iff a).mp ha)
  rw [decode.eq_def]
  simp only [hva]
  cases r with
  | nil => rw [decode.eq_def]; rfl
  | cons b more =>
    cases hb : hexValue? b with
    | some vb =>
      have hbx : IsHexDigit b := (isHexDigit_iff b).mpr (by simp [hb])
      simp [hb, decode_cons more hbx.ne_backslash]
    | none => simp [hb]

theorem decode_x_isSome (r : List Char) :
    (decode ('\\' :: 'x' :: r)).isSome ↔ (∃ a ∈ r.head?, IsHexDigit a) ∧ (decode r).isSome := by
  cases r with
  | nil =>
    rw [decode.eq_def]
    simp
  | cons a r =>
    by_cases ha : IsHexDigit a
    · rw [decode_hex_isSome r ha, decode_cons r ha.ne_backslash]
      simp [ha]
    · have hv : hexValue? a = none := by simpa [isHexDigit_iff] using ha
      rw [decode.eq_def]
      simp [hv, ha]

theorem decode_isSome_iff {b : List Char} (hb : StringBody b) :
    (decode b).isSome ↔ HexEscapes b := by
  induction hb with
  | nil =>
    rw [decode.eq_def]
    simp [HexEscapes.nil]
  | plain _ hs _ _ ih => rw [decode_cons _ hs, Option.isSome_map, ih, hexEscapes_cons_iff hs]
  | @escape e cs _ _ ih =>
    by_cases hx : e = 'x'
    · subst hx
      rw [decode_x_isSome, ih, hexEscapes_x_iff]
    · rw [decode_escape _ hx, Option.isSome_map, ih, hexEscapes_escape_iff hx]

end Escape

namespace Lexeme

/-! ### The lexeme at the front of a text -/

theorem isBlankChar_start {c : Char} (h : isBlankChar c) :
    isWordStart c = false ∧ c.isDigit = false := by
  simp only [isBlankChar, Bool.or_eq_true, beq_iff_eq] at h
  rcases h with (rfl | rfl) | rfl <;> decide

theorem split?_word {c : Char} (r : List Char) (h : isWordStart c) :
    split? (c :: r) = some (.word, c :: r.takeWhile isWordChar, r.dropWhile isWordChar) := by
  simp [split?, h]

theorem split?_number {c : Char} (r : List Char) (h : c.isDigit) :
    split? (c :: r) = some (.number, c :: r.takeWhile Char.isDigit, r.dropWhile Char.isDigit) := by
  simp [split?, isWordStart_of_isDigit h, h]

theorem split?_blank {c : Char} (r : List Char) (h : isBlankChar c) :
    split? (c :: r) = some (.blank, c :: r.takeWhile isBlankChar, r.dropWhile isBlankChar) := by
  obtain ⟨hw, hd⟩ := isBlankChar_start h
  simp [split?, hw, hd, h]

theorem split?_newline (r : List Char) : split? ('\n' :: r) = some (.newline, ['\n'], r) := by
  have hw : isWordStart '\n' = false := by decide
  simp [split?, hw, isBlankChar]

theorem split?_quote (r : List Char) :
    split? ('"' :: r) = (stringBody r).map fun p => (.string, '"' :: p.1 ++ ['"'], p.2) := by
  have hw : isWordStart '"' = false := by decide
  simp [split?, hw, isBlankChar]

theorem split?_comment (r : List Char) :
    split? ('/' :: '/' :: r) =
      some (.comment, '/' :: '/' :: r.takeWhile (· != '\n'), r.dropWhile (· != '\n')) := by
  have hw : isWordStart '/' = false := by decide
  simp [split?, hw, isBlankChar]

theorem split?_punct {c : Char} (r : List Char) (hw : isWordStart c = false)
    (hd : c.isDigit = false) (hb : isBlankChar c = false) (hn : c ≠ '\n') (hq : c ≠ '"')
    (hc : ¬(c = '/' ∧ r.head? = some '/')) :
    split? (c :: r) =
      (punctuator? (c :: r)).map fun p => (.punctuator p.2, p.1, (c :: r).drop p.1.length) := by
  simp [split?, hw, hd, hb, hn, hq, hc]

theorem punctuator_head {w : List Char} {k : TokenKind} (h : (w, k) ∈ TokenKind.punctuators) :
    ∃ c cs, w = c :: cs ∧ isWordStart c = false ∧ c.isDigit = false ∧ isBlankChar c = false ∧
      c ≠ '\n' ∧ c ≠ '"' ∧ (c = '/' → cs = []) := by
  have key : TokenKind.punctuators.all (fun p => !p.1.isEmpty && p.1.head?.all (fun c =>
      !isWordStart c && !c.isDigit && !isBlankChar c && c != '\n' && c != '"') &&
      (p.1.head? != some '/' || p.1.tail.isEmpty)) = true := by decide
  have hw := List.all_eq_true.mp key (w, k) h
  cases w with
  | nil => simp at hw
  | cons c cs =>
    simp only [List.isEmpty_cons, Bool.not_false, List.head?_cons, Option.all_some,
      Bool.and_eq_true, Bool.not_eq_eq_eq_not, Bool.not_true, bne_iff_ne, ne_eq,
      Option.some.injEq, List.tail_cons, List.isEmpty_iff, Bool.or_eq_true]
      at hw
    obtain ⟨⟨-, ⟨⟨⟨hws, hd⟩, hb⟩, hn⟩, hq⟩, hs⟩ := hw
    exact ⟨c, cs, rfl, hws, hd, hb, hn, hq, fun hc => hs.resolve_left (by simpa using hc)⟩

theorem punctuators_pairwise :
    TokenKind.punctuators.Pairwise (fun p q => ¬ p.1 <+: q.1) := by
  decide

theorem punctuator?_longest {cs w v : List Char} {k k' : TokenKind}
    (h : punctuator? cs = some (w, k)) (hv : (v, k') ∈ TokenKind.punctuators) (hp : v <+: cs) :
    v.length ≤ w.length ∧ (v.length = w.length → k' = k) := by
  obtain ⟨hw, as, bs, hsplit, hnot⟩ := List.find?_eq_some_iff_append.mp h
  have hpair := punctuators_pairwise
  have hwp : w <+: cs := List.isPrefixOf_iff_prefix.mp hw
  rw [hsplit] at hv hpair
  rcases List.mem_append.mp hv with hv | hv
  · have := hnot _ hv
    simp [List.isPrefixOf_iff_prefix.mpr hp] at this
  rcases List.mem_cons.mp hv with hv | hv
  · cases hv
    exact ⟨Nat.le_refl _, fun _ => rfl⟩
  have hlt : v.length < w.length := by
    refine Nat.lt_of_not_le fun hle => ?_
    have hwv : w <+: v := List.prefix_of_prefix_length_le hwp hp hle
    exact (List.pairwise_cons.mp (List.pairwise_append.mp hpair).2.1).1 _ hv hwv
  exact ⟨Nat.le_of_lt hlt, fun he => absurd he (Nat.ne_of_lt hlt)⟩

theorem Spells.le_split {l : Lexeme} {v cs : List Char} (hv : l.Spells v) (hp : v <+: cs) :
    ∃ l' w rest, split? cs = some (l', w, rest) ∧ v.length ≤ w.length ∧
      (v.length = w.length → l' = l) := by
  obtain ⟨t, rfl⟩ := hp
  cases l with
  | word =>
    obtain ⟨c, vs, rfl, hc, hvs⟩ := hv
    refine ⟨_, _, _, split?_word _ hc, ?_, fun _ => rfl⟩
    simp [List.takeWhile_append_of_pos hvs]
  | number =>
    obtain ⟨hne, hvs⟩ := hv
    obtain ⟨c, vs, rfl⟩ := List.exists_cons_of_ne_nil hne
    have hvs' : ∀ x ∈ vs, x.isDigit = true := fun x hx => hvs x (List.mem_cons_of_mem c hx)
    refine ⟨_, _, _, split?_number _ (hvs c (by simp)), ?_, fun _ => rfl⟩
    simp [List.takeWhile_append_of_pos hvs']
  | blank =>
    obtain ⟨hne, hvs⟩ := hv
    obtain ⟨c, vs, rfl⟩ := List.exists_cons_of_ne_nil hne
    have hvs' : ∀ x ∈ vs, isBlankChar x = true := fun x hx => hvs x (List.mem_cons_of_mem c hx)
    refine ⟨_, _, _, split?_blank _ (hvs c (by simp)), ?_, fun _ => rfl⟩
    simp [List.takeWhile_append_of_pos hvs']
  | newline =>
    obtain rfl : v = ['\n'] := hv
    exact ⟨_, _, _, split?_newline t, Nat.le_refl _, fun _ => rfl⟩
  | string =>
    obtain ⟨body, rfl, hb⟩ := hv
    refine ⟨.string, '"' :: (body ++ ['"']), t, ?_, Nat.le_refl _, fun _ => rfl⟩
    rw [show ('"' :: (body ++ ['"'])) ++ t = '"' :: (body ++ '"' :: t) by simp, split?_quote,
      stringBody_of_body hb]
    rfl
  | comment =>
    obtain ⟨vs, rfl, hvs⟩ := hv
    refine ⟨_, _, _, split?_comment _, ?_, fun _ => rfl⟩
    have hne : ∀ x ∈ vs, (x != '\n') = true := fun x hx => by
      simp only [bne_iff_ne, ne_eq]
      rintro rfl
      exact hvs hx
    simp [List.takeWhile_append_of_pos hne]
  | punctuator k =>
    obtain ⟨c, vs, rfl, hw, hd, hb, hn, hq, hslash⟩ := punctuator_head hv
    rw [List.cons_append]
    by_cases hcom : c = '/' ∧ (vs ++ t).head? = some '/'
    · obtain ⟨rfl, hh⟩ := hcom
      obtain rfl := hslash rfl
      obtain ⟨t', rfl⟩ : ∃ t', t = '/' :: t' := by
        cases t with
        | nil => simp at hh
        | cons x t' => exact ⟨t', by simpa using hh⟩
      exact ⟨_, _, _, split?_comment t', by simp, fun h => by simp at h⟩
    · obtain ⟨⟨w, k'⟩, hf⟩ : ∃ p, punctuator? (c :: (vs ++ t)) = some p := by
        refine Option.isSome_iff_exists.mp (List.find?_isSome.mpr ⟨_, hv, ?_⟩)
        exact List.isPrefixOf_iff_prefix.mpr (List.prefix_append (c :: vs) t)
      obtain ⟨hle, hk⟩ := punctuator?_longest hf hv (List.prefix_append (c :: vs) t)
      refine ⟨_, _, _, by rw [split?_punct _ hw hd hb hn hq hcom, hf]; rfl, hle, ?_⟩
      intro he
      rw [hk he]

theorem split?_spells {cs w rest : List Char} {l : Lexeme} (h : split? cs = some (l, w, rest)) :
    l.Spells w := by
  cases cs with
  | nil => simp [split?] at h
  | cons c r =>
    simp only [split?] at h
    split at h
    · next hc =>
      simp only [Option.some.injEq, Prod.mk.injEq] at h
      obtain ⟨rfl, rfl, -⟩ := h
      exact ⟨c, _, rfl, hc, fun x hx => List.all_eq_true.mp List.all_takeWhile _ hx⟩
    split at h
    · next hd =>
      simp only [Option.some.injEq, Prod.mk.injEq] at h
      obtain ⟨rfl, rfl, -⟩ := h
      refine ⟨by simp, fun x hx => ?_⟩
      rcases List.mem_cons.mp hx with rfl | hx
      · exact hd
      · exact List.all_eq_true.mp List.all_takeWhile _ hx
    split at h
    · next hb =>
      simp only [Option.some.injEq, Prod.mk.injEq] at h
      obtain ⟨rfl, rfl, -⟩ := h
      refine ⟨by simp, fun x hx => ?_⟩
      rcases List.mem_cons.mp hx with rfl | hx
      · exact hb
      · exact List.all_eq_true.mp List.all_takeWhile _ hx
    split at h
    · next hn =>
      simp only [Option.some.injEq, Prod.mk.injEq] at h
      obtain ⟨rfl, rfl, -⟩ := h
      rw [hn]
      rfl
    split at h
    · next hq =>
      simp only [Option.map_eq_some_iff, Prod.mk.injEq] at h
      obtain ⟨⟨b, t⟩, hs, rfl, rfl, -⟩ := h
      subst hq
      exact ⟨b, by simp, body_of_stringBody hs⟩
    split at h
    · next hc =>
      simp only [Option.some.injEq, Prod.mk.injEq] at h
      obtain ⟨rfl, rfl, -⟩ := h
      obtain ⟨rfl, hr⟩ := hc
      obtain ⟨r', rfl⟩ : ∃ r', r = '/' :: r' := by
        cases r with
        | nil => simp at hr
        | cons x r' => exact ⟨r', by simpa using hr⟩
      refine ⟨r'.takeWhile (· != '\n'), by simp, fun hx => ?_⟩
      simpa using List.all_eq_true.mp List.all_takeWhile _ hx
    · simp only [Option.map_eq_some_iff, Prod.mk.injEq] at h
      obtain ⟨⟨w', k⟩, hp, rfl, rfl, -⟩ := h
      exact List.mem_of_find?_eq_some hp

theorem split?_longest {cs w rest : List Char} {l : Lexeme}
    (h : split? cs = some (l, w, rest)) : Longest w cs := by
  intro l' v hv hp
  obtain ⟨l'', w', rest', h', hle, -⟩ := hv.le_split hp
  rw [h] at h'
  cases h'
  exact hle

theorem split?_eq_none_iff {cs : List Char} :
    split? cs = none ↔ ∀ l v, Spells l v → ¬ v <+: cs := by
  constructor
  · intro h l v hv hp
    obtain ⟨_, _, _, h', -⟩ := hv.le_split hp
    rw [h] at h'
    cases h'
  · intro h
    cases hs : split? cs with
    | none => rfl
    | some x =>
      obtain ⟨l, w, rest⟩ := x
      exact absurd ⟨rest, (split?_append hs).1⟩ (h l w (split?_spells hs))

/-- The lexeme that the scanner takes is the longest text of any class at the front of the
text, and its class is the class of that text. -/
theorem split?_eq_some_iff {cs w rest : List Char} {l : Lexeme} :
    split? cs = some (l, w, rest) ↔ cs = w ++ rest ∧ l.Spells w ∧ Longest w cs := by
  constructor
  · intro h
    exact ⟨(split?_append h).1.symm, split?_spells h, split?_longest h⟩
  · rintro ⟨rfl, hw, hlong⟩
    obtain ⟨l', w', rest', h', hle, hcls⟩ := hw.le_split (List.prefix_append w rest)
    have hp' : w' <+: w ++ rest := ⟨rest', (split?_append h').1⟩
    have hlen : w.length = w'.length := Nat.le_antisymm hle (hlong l' w' (split?_spells h') hp')
    obtain rfl := hcls hlen
    obtain rfl : w = w' :=
      (List.prefix_of_prefix_length_le (List.prefix_append w rest) hp' (Nat.le_of_eq hlen)).eq_of_length hlen
    obtain rfl : rest = rest' := List.append_cancel_left (split?_append h').1.symm
    exact h'

/-! ### Splitting a source into lexemes -/

/-- `cs` splits into the lexemes `ws`, each the longest text of any class at its place, and
then the text `rest`. -/
inductive Munch : List Char → List (Lexeme × List Char) → List Char → Prop
  | stop (cs : List Char) : Munch cs [] cs
  | lexeme {l : Lexeme} {w cs rest : List Char} {ws : List (Lexeme × List Char)} :
      l.Spells w → Longest w (w ++ cs) → Munch cs ws rest → Munch (w ++ cs) ((l, w) :: ws) rest

def tokenOf? : Lexeme → List Char → Option (TokenKind × String)
  | .word, w => some (TokenKind.ofWord (String.ofList w), String.ofList w)
  | .number, w => some (.number, String.ofList w)
  | .blank, _ => none
  | .newline, _ => some (.newline, "\n")
  | .string, w => some (.string, String.ofList ((Escape.decode (w.drop 1).dropLast).getD []))
  | .comment, _ => none
  | .punctuator k, w => some (k, String.ofList w)

def lexemeTokens : List (Lexeme × List Char) → Position → List Token
  | [], p => [Token.endAt p]
  | (l, w) :: ws, p =>
    ((l.tokenOf? w).map fun kv => (⟨kv.1, kv.2, ⟨p, p.advance w⟩⟩ : Token)).toList ++
      lexemeTokens ws (p.advance w)

/-- Where a scan stops, and the fault it reports there: no text of any class starts there,
and the fault names the first character; or the longest lexeme there is a string literal
with a `\x` that has no digit after it, and the fault names that escape. -/
def Stuck (rest : List Char) (f : Fault) : Prop :=
  (∃ c r, rest = c :: r ∧ (∀ l v, Spells l v → ¬ v <+: rest) ∧
      f = .unrecognised (String.singleton c)) ∨
  (∃ w r, rest = w ++ r ∧ Spells .string w ∧ Longest w rest ∧ ¬ Decodes .string w ∧
      f = .unrecognised Escape.badEscape)

theorem munch_nil_iff {cs rest : List Char} : Munch cs [] rest ↔ rest = cs := by
  constructor
  · intro h
    cases h
    rfl
  · rintro rfl
    exact .stop _

theorem Munch.split {cs r w : List Char} {l : Lexeme} {ws : List (Lexeme × List Char)}
    (h : Munch cs ((l, w) :: ws) r) : ∃ rest, split? cs = some (l, w, rest) ∧ Munch rest ws r := by
  cases h with
  | lexeme hw hlong hm => exact ⟨_, split?_eq_some_iff.mpr ⟨rfl, hw, hlong⟩, hm⟩

theorem Munch.of_split {cs w rest r : List Char} {l : Lexeme} {ws : List (Lexeme × List Char)}
    (h : split? cs = some (l, w, rest)) (hm : Munch rest ws r) : Munch cs ((l, w) :: ws) r := by
  obtain ⟨rfl, hw, hlong⟩ := split?_eq_some_iff.mp h
  exact .lexeme hw hlong hm

theorem exists_munch_iff {cs w rest : List Char} {l : Lexeme}
    (h : split? cs = some (l, w, rest)) {P : List (Lexeme × List Char) → Prop} :
    (∃ ws, Munch cs ws [] ∧ P ws) ↔ ∃ ws, Munch rest ws [] ∧ P ((l, w) :: ws) := by
  constructor
  · rintro ⟨ws, hm, hp⟩
    cases ws with
    | nil =>
      obtain rfl := munch_nil_iff.mp hm
      simp [split?] at h
    | cons lw ws =>
      obtain ⟨l', w'⟩ := lw
      obtain ⟨rest', h', hm'⟩ := hm.split
      rw [h] at h'
      cases h'
      exact ⟨ws, hm', hp⟩
  · rintro ⟨ws, hm, hp⟩
    exact ⟨_, .of_split h hm, hp⟩

theorem Munch.eq_append {cs rest : List Char} {ws : List (Lexeme × List Char)}
    (h : Munch cs ws rest) : cs = ws.flatMap Prod.snd ++ rest := by
  induction h with
  | stop => rfl
  | lexeme _ _ _ ih => simp [ih]

theorem lexemeTokens_cons (l : Lexeme) (w : List Char) (ws : List (Lexeme × List Char))
    (p : Position) :
    lexemeTokens ((l, w) :: ws) p =
      ((l.tokenOf? w).map fun kv => (⟨kv.1, kv.2, ⟨p, p.advance w⟩⟩ : Token)).toList ++
        lexemeTokens ws (p.advance w) := rfl

theorem token?_cases {l : Lexeme} {w : List Char} (hs : l.Spells w) (span : Span) :
    (l.Decodes w ∧ l.token? w span = .ok ((l.tokenOf? w).map fun kv => ⟨kv.1, kv.2, span⟩)) ∨
    (l = .string ∧ ¬ l.Decodes w ∧
      l.token? w span = .error ⟨.unrecognised Escape.badEscape, span.start⟩) := by
  cases l with
  | string =>
    obtain ⟨body, rfl, hb⟩ := hs
    have hbody : (('"' :: (body ++ ['"'])).drop 1).dropLast = body := by simp
    have hdec : Decodes .string ('"' :: (body ++ ['"'])) ↔ (Escape.decode body).isSome := by
      rw [Decodes, hbody, Escape.decode_isSome_iff hb]
    cases hv : Escape.decode body with
    | some v =>
      refine .inl ⟨hdec.mpr (by simp [hv]), ?_⟩
      simp [token?, tokenOf?, hv]
    | none =>
      refine .inr ⟨rfl, fun hd => by simpa [hv] using hdec.mp hd, ?_⟩
      simp [token?, hv]
  | word | number | blank | newline | comment => exact .inl ⟨trivial, rfl⟩
  | punctuator k => exact .inl ⟨trivial, rfl⟩

/-- The scanner succeeds exactly on the texts that split into longest lexemes whose string
literals all decode, and then gives the tokens of those lexemes. -/
theorem scanFrom_eq_ok_iff (cs : List Char) (p : Position) (ts : List Token) :
    scanFrom cs p = .ok ts ↔
      ∃ ws, Munch cs ws [] ∧ (∀ lw ∈ ws, lw.1.Decodes lw.2) ∧ ts = lexemeTokens ws p := by
  fun_induction scanFrom cs p generalizing ts with
  | case1 p =>
    simp only [Except.ok.injEq]
    constructor
    · rintro rfl
      exact ⟨[], .stop [], by simp, rfl⟩
    · rintro ⟨ws, hm, -, rfl⟩
      cases ws with
      | nil => rfl
      | cons lw ws =>
        obtain ⟨rest, h, -⟩ := hm.split
        simp [split?] at h
  | case2 p c r hs =>
    simp only [reduceCtorEq, false_iff, not_exists, not_and]
    intro ws hm
    cases ws with
    | nil => simp [munch_nil_iff] at hm
    | cons lw ws =>
      obtain ⟨rest, h, -⟩ := hm.split
      rw [hs] at h
      cases h
  | case3 cs p l w rest hs q e he =>
    simp only [reduceCtorEq, false_iff, not_exists, not_and]
    intro ws hm hd _
    obtain ⟨ws', hm', hd'⟩ := (exists_munch_iff hs (P := fun ws => ∀ lw ∈ ws, lw.1.Decodes lw.2)).mp
      ⟨ws, hm, hd⟩
    rcases token?_cases (split?_spells hs) ⟨p, q⟩ with ⟨-, hok⟩ | ⟨-, hnd, -⟩
    · rw [hok] at he
      cases he
    · exact hnd (hd' (l, w) List.mem_cons_self)
  | case4 cs p l w rest hs q hn ih =>
    rw [ih, exists_munch_iff hs]
    rcases token?_cases (split?_spells hs) ⟨p, q⟩ with ⟨hd, hok⟩ | ⟨-, -, herr⟩
    · rw [hok] at hn
      have ht : l.tokenOf? w = none := by simpa using hn
      simp [lexemeTokens_cons, ht, hd, q, after_eq_advance hs]
    · rw [herr] at hn
      cases hn
  | case5 cs p l w rest hs q t ht ih =>
    rw [Except.map_eq_ok, exists_munch_iff hs]
    rcases token?_cases (split?_spells hs) ⟨p, q⟩ with ⟨hd, hok⟩ | ⟨-, -, herr⟩
    · rw [hok] at ht
      obtain ⟨kv, hkv, rfl⟩ : ∃ kv, l.tokenOf? w = some kv ∧ ⟨kv.1, kv.2, ⟨p, q⟩⟩ = t := by
        simpa using ht
      simp only [ih, lexemeTokens_cons, hkv, List.mem_cons, forall_eq_or_imp, hd, true_and]
      simp only [q, after_eq_advance hs]
      constructor
      · rintro ⟨ts', ⟨ws, hm, hws, rfl⟩, rfl⟩
        exact ⟨ws, hm, hws, rfl⟩
      · rintro ⟨ws, hm, hws, rfl⟩
        exact ⟨_, ⟨ws, hm, hws, rfl⟩, rfl⟩
    · rw [herr] at ht
      cases ht

theorem scanFrom_eq_error {cs : List Char} {p : Position} {e : Error}
    (h : scanFrom cs p = .error e) :
    ∃ ws rest, Munch cs ws rest ∧ (∀ lw ∈ ws, lw.1.Decodes lw.2) ∧ Stuck rest e.fault ∧
      e.position = p.advance (ws.flatMap Prod.snd) := by
  fun_induction scanFrom cs p with
  | case1 => cases h
  | case2 p c r hs =>
    cases h
    exact ⟨[], c :: r, .stop _, by simp, .inl ⟨c, r, rfl, split?_eq_none_iff.mp hs, rfl⟩, rfl⟩
  | case3 cs p l w rest hs q e' he =>
    cases h
    have hw := split?_spells hs
    rcases token?_cases hw ⟨p, q⟩ with ⟨-, hok⟩ | ⟨rfl, hnd, herr⟩
    · rw [hok] at he
      cases he
    · rw [herr] at he
      cases he
      obtain ⟨hcs, -, hlong⟩ := split?_eq_some_iff.mp hs
      exact ⟨[], cs, .stop _, by simp, .inr ⟨w, rest, hcs, hw, hlong, hnd, rfl⟩, rfl⟩
  | case4 cs p l w rest hs q hn ih =>
    obtain ⟨ws, r, hm, hd, hst, hpos⟩ := ih h
    rcases token?_cases (split?_spells hs) ⟨p, q⟩ with ⟨hdw, -⟩ | ⟨-, -, herr⟩
    · refine ⟨(l, w) :: ws, r, .of_split hs hm, ?_, hst, ?_⟩
      · simpa [hdw] using hd
      · simp [hpos, q, after_eq_advance hs, Position.advance_append]
    · rw [herr] at hn
      cases hn
  | case5 cs p l w rest hs q t ht ih =>
    obtain ⟨ws, r, hm, hd, hst, hpos⟩ := ih (Except.map_eq_error.mp h)
    rcases token?_cases (split?_spells hs) ⟨p, q⟩ with ⟨hdw, -⟩ | ⟨-, -, herr⟩
    · refine ⟨(l, w) :: ws, r, .of_split hs hm, ?_, hst, ?_⟩
      · simpa [hdw] using hd
      · simp [hpos, q, after_eq_advance hs, Position.advance_append]
    · rw [herr] at ht
      cases ht

end Lexeme

/-- A source scans exactly when it splits into longest lexemes whose string literals decode;
a failing scan reports the place where that split stops. -/
theorem tokenize_longest_lexemes (source file : String) :
    (∀ ts, tokenize source file = .ok ts ↔
      ∃ ws, Lexeme.Munch source.toList ws [] ∧ (∀ lw ∈ ws, lw.1.Decodes lw.2) ∧
        ts = Lexeme.lexemeTokens ws (Position.first file)) ∧
    (∀ e, tokenize source file = .error e →
      ∃ ws rest, Lexeme.Munch source.toList ws rest ∧ (∀ lw ∈ ws, lw.1.Decodes lw.2) ∧
        Lexeme.Stuck rest e.fault ∧
        e.position = (Position.first file).advance (ws.flatMap Prod.snd)) :=
  ⟨fun ts => Lexeme.scanFrom_eq_ok_iff _ _ ts, fun _ h => Lexeme.scanFrom_eq_error h⟩

theorem tokenize_longest_lexemes_define :
    ∃ ts ws, tokenize "x := 1" "f" = .ok ts ∧ Lexeme.Munch "x := 1".toList ws [] ∧
      (∀ lw ∈ ws, lw.1.Decodes lw.2) ∧ ts = Lexeme.lexemeTokens ws (Position.first "f") := by
  obtain ⟨ts, hts⟩ := Except.exists_of_toBool (x := tokenize "x := 1" "f") (by decide +kernel)
  obtain ⟨ws, hm, hd, hws⟩ := ((tokenize_longest_lexemes "x := 1" "f").1 ts).mp hts
  exact ⟨ts, ws, hts, hm, hd, hws⟩

end ScriptFront
