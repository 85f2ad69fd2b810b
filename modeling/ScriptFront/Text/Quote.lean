import ScriptFront.Text.Printable
import ScriptFront.Text.Extend
/-!
# Quoted text

Diagnostics show a text value between double quotes. Inside the quotes a backslash, a quote
and the control characters NUL, tab, carriage return and line feed take their short escapes;
every other character that is not printable, or that would join the character before it,
is written as its code point in lower-case hexadecimal, as in `\u{200b}`. The result reads
on one line and shows every character of the text.
-/

set_option autoImplicit false

namespace ScriptFront.Text

def hexDigits (n : Nat) : List Char := Nat.toDigits 16 n

def codeEscape (c : Char) : List Char :=
  ['\\', 'u', '\x7b'] ++ hexDigits c.toNat ++ ['\x7d']

def quoteChar (c : Char) : List Char :=
  match c with
  | '\x00' => ['\\', '0']
  | '\t' => ['\\', 't']
  | '\r' => ['\\', 'r']
  | '\n' => ['\\', 'n']
  | '\\' => ['\\', '\\']
  | '"' => ['\\', '"']
  | c => if isGraphemeExtend c || !isPrintable c then codeEscape c else [c]

/-- The text between double quotes, each character written as `quoteChar` says. -/
def quote (s : String) : String :=
  String.ofList ('"' :: s.toList.flatMap quoteChar ++ ['"'])

end ScriptFront.Text
