import ScriptFront.Token.Basic
import ScriptFront.Token.Lexeme
import ScriptFront.Token.Escape
import ScriptFront.Diagnostic.Fault
/-!
# Scanning a source into tokens

The scanner reads lexemes from the front of the source until it is used up. Blanks and
comments leave no token; a string literal leaves its value; every other lexeme leaves a
token of its text. Each token spans the characters of its lexeme, so a line feed's token
ends at the first column of the next line. The list ends with an end-of-file token at the
place after the last character. Scanning stops at the first character where no lexeme
starts, and at the first string literal with an `\x` escape that has no digit.
-/

set_option autoImplicit false

namespace ScriptFront

def Lexeme.token? (l : Lexeme) (w : List Char) (span : Span) : Except Error (Option Token) :=
  match l with
  | .word => .ok (some ⟨TokenKind.ofWord (String.ofList w), String.ofList w, span⟩)
  | .number => .ok (some ⟨.number, String.ofList w, span⟩)
  | .blank | .comment => .ok none
  | .newline => .ok (some ⟨.newline, "\n", span⟩)
  | .string =>
    match Escape.decode (w.drop 1).dropLast with
    | some v => .ok (some ⟨.string, String.ofList v, span⟩)
    | none => .error ⟨.unrecognised Escape.badEscape, span.start⟩
  | .punctuator k => .ok (some ⟨k, String.ofList w, span⟩)

def Lexeme.after (l : Lexeme) (w : List Char) (p : Position) : Position :=
  match l with
  | .newline => ⟨p.line + 1, 1, p.file⟩
  | _ => ⟨p.line, p.column + w.length.toUInt32, p.file⟩

/-- The tokens of the text `cs`, which starts at `p`. -/
def scanFrom (cs : List Char) (p : Position) : Except Error (List Token) :=
  match _hs : Lexeme.split? cs with
  | none =>
    match cs with
    | [] => .ok [Token.endAt p]
    | c :: _ => .error ⟨.unrecognised (String.singleton c), p⟩
  | some (l, w, rest) =>
    let q := l.after w p
    match l.token? w ⟨p, q⟩ with
    | .error e => .error e
    | .ok none => scanFrom rest q
    | .ok (some t) => (scanFrom rest q).map (t :: ·)
termination_by cs.length
decreasing_by all_goals exact Lexeme.split?_shorter _hs

theorem Lexeme.after_eq_advance {cs w rest : List Char} {l : Lexeme}
    (h : split? cs = some (l, w, rest)) (p : Position) : l.after w p = p.advance w := by
  rcases split?_newline_cases h with ⟨rfl, rfl⟩ | ⟨hl, hn⟩
  · rfl
  · rw [Position.advance_of_no_newline p w hn]
    cases l <;> first | exact absurd rfl hl | rfl

def defaultFile : String := "shell"

/-- The tokens of `source`, whose positions name `file`, or `shell` when no name is given. -/
def tokenize (source : String) (file : Option String) : Except Error (List Token) :=
  scanFrom source.toList (Position.first (file.getD defaultFile))

theorem scanFrom_length (cs : List Char) (p : Position) (ts : List Token)
    (h : scanFrom cs p = .ok ts) : ts.length ≤ cs.length + 1 := by
  fun_induction scanFrom cs p generalizing ts with
  | case1 =>
    cases h
    simp
  | case2 => cases h
  | case3 => cases h
  | case4 cs p l w rest hs q _ ih =>
    have := ih ts h
    have := Lexeme.split?_shorter hs
    omega
  | case5 cs p l w rest hs q t _ ih =>
    cases hr : scanFrom rest q with
    | error e => rw [hr] at h; cases h
    | ok us =>
      rw [hr] at h
      cases h
      have := ih us hr
      have := Lexeme.split?_shorter hs
      simp only [List.length_cons]
      omega

theorem tokenize_length (source : String) (file : Option String) (ts : List Token)
    (h : tokenize source file = .ok ts) : ts.length ≤ source.toList.length + 1 :=
  scanFrom_length _ _ ts h

end ScriptFront
