import ScriptFront.Token.Kind
import ScriptFront.Source.Position
import ScriptFront.Text.Quote
/-!
# Tokens

A token is a kind, a text and the span it covers. The text of a string token is its decoded
value, a line feed's text is the line feed and the end of file's text is `EOF`; every other
token's text is the source it was read from.
-/

set_option autoImplicit false

namespace ScriptFront

/-- One token of a source. -/
structure Token where
  kind : TokenKind
  text : String
  span : Span
deriving Repr, DecidableEq, Inhabited

namespace Token

def start (t : Token) : Position := t.span.start

def showsText (t : Token) : Bool :=
  t.kind == .number || t.kind == .string || t.kind == .identifier

/-- How diagnostics name the token: an identifier or a number by its text in backticks, a
string by its quoted value, any other token by its kind. -/
def describe (t : Token) : String :=
  match t.kind with
  | .identifier | .number => "`" ++ t.text ++ "`"
  | .string => Text.quote t.text
  | k => k.describe

def dump (t : Token) : String :=
  t.start.render ++ " " ++ t.kind.name ++ " (" ++ (if t.showsText then t.text else "") ++ ")"

def endAt (p : Position) : Token := ⟨.eof, "EOF", ⟨p, p⟩⟩

end Token

end ScriptFront
