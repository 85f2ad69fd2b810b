import ScriptFront.Token.Cursor
/-!
# Readings

A reading takes a cursor and gives a value and the cursor after it, or an error. Its type says
how far the cursor moves: a `Read` moves it on by at least one token, an `Attempt` may leave
it where it was. Since every grammar function that calls another at the same cursor calls one
of a lower rank, and every other call is at a cursor further on, the grammar ends on every
token list by well-founded recursion on the number of tokens ahead.
-/

set_option autoImplicit false

namespace ScriptFront

abbrev Ahead (c : Cursor) := {d : Cursor // d.ahead.length < c.ahead.length}

abbrev Within (c : Cursor) := {d : Cursor // d.ahead.length ≤ c.ahead.length}

/-- A reading from `c` that reads at least one token. -/
abbrev Read (α : Type) (c : Cursor) := Except Error (α × Ahead c)

abbrev Attempt (α : Type) (c : Cursor) := Except Error (α × Within c)

theorem Cursor.le_of_ahead {c d : Cursor} (h : d.ahead.length < c.ahead.length) :
    d.ahead.length ≤ c.ahead.length := Nat.le_of_lt h

def Ahead.within {c : Cursor} (d : Ahead c) : Within c := ⟨d.1, Cursor.le_of_ahead d.2⟩

namespace Cursor

def takeIf? (c : Cursor) (p : Token → Bool) : Option (Token × Ahead c) :=
  match h : c.ahead with
  | [] => none
  | t :: _ => if p t then some (t, c.rest h) else none

def take? (c : Cursor) (k : TokenKind) : Option (Token × Ahead c) := c.takeIf? (·.kind == k)

def needOr (c : Cursor) (k : TokenKind) (e : Error) : Read Token c :=
  match c.take? k with
  | some r => .ok r
  | none => .error e

def need (c : Cursor) (k : TokenKind) : Read Token c := c.needOr k (c.unexpected k.describe)

def sees (c : Cursor) (k : TokenKind) : Bool := c.current.kind == k

def here (c : Cursor) : Within c := ⟨c, Nat.le_refl _⟩

def skip (c : Cursor) (k : TokenKind) : Within c :=
  match c.take? k with
  | some (_, d) => Ahead.within d
  | none => c.here

/-- The end of a line: a line feed is read; a closing brace or the end of file also end the
line and stay to be read. -/
def finishLine (c : Cursor) : Except Error (Within c) :=
  match c.take? .newline with
  | some (_, d) => .ok (Ahead.within d)
  | none =>
    if c.sees .closeCurly || c.sees .eof then .ok c.here
    else .error (c.unexpected TokenKind.newline.describe)

end Cursor

def Ahead.within' {c d : Cursor} (h : d.ahead.length < c.ahead.length) (w : Within d) : Ahead c :=
  ⟨w.1, Nat.lt_of_le_of_lt w.2 h⟩

def Within.trans {c d : Cursor} (h : d.ahead.length ≤ c.ahead.length) (w : Within d) : Within c :=
  ⟨w.1, Nat.le_trans w.2 h⟩

def Read.lift {α : Type} {c d : Cursor} (h : d.ahead.length < c.ahead.length) :
    Read α d → Read α c
  | .ok (a, e) => .ok (a, ⟨e.1, Nat.lt_trans e.2 h⟩)
  | .error err => .error err

def Read.liftWithin {α : Type} {c d : Cursor} (h : d.ahead.length ≤ c.ahead.length) :
    Read α d → Read α c
  | .ok (a, e) => .ok (a, ⟨e.1, Nat.lt_of_lt_of_le e.2 h⟩)
  | .error err => .error err

def Attempt.lift {α : Type} {c d : Cursor} (h : d.ahead.length < c.ahead.length) :
    Attempt α d → Read α c
  | .ok (a, e) => .ok (a, ⟨e.1, Nat.lt_of_le_of_lt e.2 h⟩)
  | .error err => .error err

def Attempt.liftWithin {α : Type} {c d : Cursor} (h : d.ahead.length ≤ c.ahead.length) :
    Attempt α d → Attempt α c
  | .ok (a, e) => .ok (a, ⟨e.1, Nat.le_trans e.2 h⟩)
  | .error err => .error err

def Read.attempt {α : Type} {c : Cursor} : Read α c → Attempt α c
  | .ok (a, e) => .ok (a, Ahead.within e)
  | .error err => .error err

end ScriptFront
