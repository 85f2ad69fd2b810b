/-!
# Kinds of tokens

Every token has a kind. Numbers, strings and identifiers carry a text of their own; every
other kind has a fixed spelling: the punctuators, the reserved words of statements and
literals, and the names of the basic types. Line feeds are tokens too, because a line feed
ends a statement, and a token list ends with an end-of-file token.
-/

set_option autoImplicit false

namespace ScriptFront

/-- The kind of a token. -/
inductive TokenKind where
  | eof | newline | number | string | identifier
  | openCurly | closeCurly | openParen | closeParen
  | assign | define | equal | bang | notEqual
  | less | lessEqual | greater | greaterEqual
  | orOr | andAnd | dot | semicolon | comma
  | plus | minus | slash | star | percent
  | kwVar | kwFunc | kwIf | kwElse | kwFor | kwBreak | kwContinue | kwReturn
  | kwTrue | kwFalse | kwInt | kwBool
deriving Repr, DecidableEq, Inhabited

namespace TokenKind

def all : List TokenKind :=
  [eof, newline, number, string, identifier, openCurly, closeCurly, openParen, closeParen,
   assign, define, equal, bang, notEqual, less, lessEqual, greater, greaterEqual, orOr, andAnd,
   dot, semicolon, comma, plus, minus, slash, star, percent, kwVar, kwFunc, kwIf, kwElse, kwFor,
   kwBreak, kwContinue, kwReturn, kwTrue, kwFalse, kwInt, kwBool]

def name : TokenKind → String
  | eof => "EOF" | newline => "Newline" | number => "Number" | string => "String"
  | identifier => "Identifier" | openCurly => "OpenCurly" | closeCurly => "CloseCurly"
  | openParen => "OpenParen" | closeParen => "CloseParen" | assign => "Assignment"
  | define => "Define" | equal => "Equals" | bang => "Not" | notEqual => "NotEquals"
  | less => "Less" | lessEqual => "LessEquals" | greater => "Greater"
  | greaterEqual => "GreaterEquals" | orOr => "Or" | andAnd => "And" | dot => "Dot"
  | semicolon => "Semicolon" | comma => "Comma" | plus => "Plus" | minus => "Dash"
  | slash => "Slash" | star => "Star" | percent => "Percent" | kwVar => "Var"
  | kwFunc => "Func" | kwIf => "If" | kwElse => "Else" | kwFor => "For" | kwBreak => "Break"
  | kwContinue => "Continue" | kwReturn => "Return" | kwTrue => "True" | kwFalse => "False"
  | kwInt => "Int" | kwBool => "Bool"

def ofName? (s : String) : Option TokenKind := all.find? (·.name == s)

def spelling? : TokenKind → Option String
  | eof | newline | number | string | identifier => none
  | openCurly => some "\x7b" | closeCurly => some "\x7d" | openParen => some "("
  | closeParen => some ")" | assign => some "=" | define => some ":=" | equal => some "=="
  | bang => some "!" | notEqual => some "!=" | less => some "<" | lessEqual => some "<="
  | greater => some ">" | greaterEqual => some ">=" | orOr => some "||" | andAnd => some "&&"
  | dot => some "." | semicolon => some ";" | comma => some "," | plus => some "+"
  | minus => some "-" | slash => some "/" | star => some "*" | percent => some "%"
  | kwVar => some "var" | kwFunc => some "func" | kwIf => some "if" | kwElse => some "else"
  | kwFor => some "for" | kwBreak => some "break" | kwContinue => some "continue"
  | kwReturn => some "return" | kwTrue => some "true" | kwFalse => some "false"
  | kwInt => some "int" | kwBool => some "bool"

def describe (k : TokenKind) : String :=
  match k with
  | eof => "end of file"
  | newline => "newline"
  | number => "integer literal"
  | string => "string literal"
  | identifier => "identifier"
  | k => "`" ++ (k.spelling?.getD "") ++ "`"

def reserved : List (String × TokenKind) :=
  [("var", kwVar), ("func", kwFunc), ("if", kwIf), ("else", kwElse), ("for", kwFor),
   ("break", kwBreak), ("continue", kwContinue), ("return", kwReturn), ("true", kwTrue),
   ("false", kwFalse), ("int", kwInt), ("bool", kwBool)]

def ofWord (w : String) : TokenKind := ((reserved.find? (·.1 == w)).map (·.2)).getD identifier

/-- The punctuators in the order in which the scanner tries them: a longer punctuator comes
before every punctuator that is a prefix of it, so the first that matches is the longest. -/
def punctuators : List (List Char × TokenKind) :=
  [(['\x7b'], openCurly), (['\x7d'], closeCurly), (['('], openParen), ([')'], closeParen),
   ([':', '='], define), (['=', '='], equal), (['!', '='], notEqual), (['!'], bang),
   (['='], assign), (['<', '='], lessEqual), (['<'], less), (['>', '='], greaterEqual),
   (['>'], greater), (['|', '|'], orOr), (['&', '&'], andAnd), (['.'], dot), ([';'], semicolon),
   ([','], comma), (['+'], plus), (['-'], minus), (['/'], slash), (['*'], star),
   (['%'], percent)]

end TokenKind

end ScriptFront
