/-!
# Escapes in string literals

The value of a string literal is its body with the escapes replaced. A backslash before `n`,
`t`, `r`, `0`, a backslash or a quote stands for a line feed, a tab, a carriage return, NUL,
a backslash or a quote. A backslash before `x` takes one or two hexadecimal digits after it
and stands for the character with that code, from U+0000 to U+00FF; with no digit after the
`x` the literal has no value. Before any other character the backslash stays, with the
character after it.
-/

set_option autoImplicit false

namespace ScriptFront.Escape

def hexValue? (c : Char) : Option Nat :=
  if '0' ≤ c ∧ c ≤ '9' then some (c.toNat - '0'.toNat)
  else if 'a' ≤ c ∧ c ≤ 'f' then some (c.toNat - 'a'.toNat + 10)
  else if 'A' ≤ c ∧ c ≤ 'F' then some (c.toNat - 'A'.toNat + 10)
  else none

def single (e : Char) : List Char :=
  match e with
  | 'n' => ['\n']
  | 't' => ['\t']
  | 'r' => ['\r']
  | '0' => ['\x00']
  | '\\' => ['\\']
  | '"' => ['"']
  | e => ['\\', e]

/-- The value of a literal's body; none if a `\x` has no hexadecimal digit after it. -/
def decode : List Char → Option (List Char)
  | [] => some []
  | '\\' :: 'x' :: r =>
    match r with
    | [] => none
    | a :: rest =>
      match hexValue? a with
      | none => none
      | some va =>
        match rest with
        | [] => some [Char.ofNat va]
        | b :: more =>
          match hexValue? b with
          | some vb => (decode more).map (Char.ofNat (16 * va + vb) :: ·)
          | none => (decode (b :: more)).map (Char.ofNat va :: ·)
  | '\\' :: e :: r => (decode r).map (single e ++ ·)
  | c :: r => (decode r).map (c :: ·)
termination_by cs => cs.length

def badEscape : String := "\\x"

end ScriptFront.Escape
