import ScriptFront.Grammar.Phrase
import ScriptFront.Token.Scan
import ScriptFront.Tree.Same
/-!
# Programs

A program is read statement by statement until only the end of file is left; reading stops at
the first error. A source is scanned first and its tokens read. Reading the printed form of a
program gives a program of the same shape.
-/

set_option autoImplicit false

namespace ScriptFront

namespace Program

/-- The top-level statements from the cursor on, each as it is read, up to and including the
first error. -/
def items (c : Cursor) : List (Except Error Stmt) :=
  if c.atEnd then []
  else
    match readStmt c with
    | .error e => [.error e]
    | .ok (s, ⟨d, _⟩) => .ok s :: items d
termination_by c.ahead.length

/-- One step of reading the top-level statements lazily: from a reading place, or from none once
reading has ended, the next statement or error, and the place after it. Reading ends when only
the end of file is left, and after the first error. -/
def next : Option Cursor → Option (Except Error Stmt) × Option Cursor
  | none => (none, none)
  | some c =>
    if c.atEnd then (none, none)
    else
      match readStmt c with
      | .ok (s, d) => (some (.ok s), some d.1)
      | .error e => (some (.error e), none)

def steps : Nat → Option Cursor → List (Option (Except Error Stmt))
  | 0, _ => []
  | n + 1, st => (next st).1 :: steps n (next st).2

/-- All the statements from the cursor on, or the first error. -/
def readAll (c : Cursor) : Except Error Program :=
  if c.atEnd then .ok []
  else
    match readStmt c with
    | .error e => .error e
    | .ok (s, ⟨d, _⟩) => (readAll d).map (s :: ·)
termination_by c.ahead.length

def ofTokens (ts : List Token) : Except Error Program := readAll (Cursor.ofTokens ts)

def ofSource (source file : String) : Except Error Program := do
  ofTokens (← tokenize source file)

end Program

structure Reprint where
  same : Bool
  source : String

/-- Prints `p` and reads the print again under the name `file`. -/
def Program.reprint (p : Program) (file : String) : Except Error Reprint :=
  match Program.ofSource p.render file with
  | .ok q => .ok ⟨p.same q, q.render⟩
  | .error e => .error e

end ScriptFront
