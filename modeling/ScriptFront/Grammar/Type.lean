import ScriptFront.Grammar.Read
import ScriptFront.Tree.Type
/-!
# Reading types

A type starts with `int`, `bool` or `func`; where none of them is current, no type is read and
nothing is consumed, but once a type has started a malformed rest is an error. A function type
is `func`, a list of parameter types between parentheses, and its results: a list between
parentheses, one type, or nothing. In a list every comma must be followed by a type.
-/

set_option autoImplicit false

namespace ScriptFront

inductive TypeStart where
  | basic
  | func
deriving Repr, DecidableEq

/-- The type table: the kinds a type starts with, each with how the type is read, in the order
of registration. -/
def typeTable : List (TokenKind × TypeStart) :=
  [(.kwInt, .basic), (.kwBool, .basic), (.kwFunc, .func)]

def TokenKind.typeStart? (k : TokenKind) : Option TypeStart :=
  (typeTable.reverse.find? (·.1 == k)).map (·.2)

def BasicType.ofKind? : TokenKind → Option BasicType
  | .kwInt => some .int
  | .kwBool => some .bool
  | _ => none

theorem TokenKind.typeStart?_eq (k : TokenKind) :
    k.typeStart? = if k = .kwFunc then some .func
      else (BasicType.ofKind? k).map fun _ => .basic := by
  cases k <;> rfl

def registeredAsBasic (t : Token) : Error :=
  ⟨.internal (t.describe ++ " registered as a basic type"), t.start⟩

def readBasicType (c : Cursor) : Read Ty c :=
  match c.takeIf? fun _ => true with
  | some (t, d) =>
    match BasicType.ofKind? t.kind with
    | some b => .ok (.basic b, d)
    | none => .error (registeredAsBasic t)
  | none => .error (registeredAsBasic c.current)

mutual

def readType? (c : Cursor) : Attempt (Option Ty) c :=
  match c.current.kind.typeStart? with
  | some .basic =>
    match readBasicType c with
    | .ok (t, d) => .ok (some t, Ahead.within d)
    | .error e => .error e
  | some .func =>
    match readFuncType c with
    | .ok (t, d) => .ok (some t, Ahead.within d)
    | .error e => .error e
  | none => .ok (none, c.here)
termination_by c.ahead.length * 8 + 3
decreasing_by all_goals omega

def readFuncType (c : Cursor) : Read Ty c :=
  match c.need .kwFunc with
  | .error e => .error e
  | .ok (_, ⟨d1, h1⟩) =>
    match Read.lift h1 (d1.need .openParen) with
    | .error e => .error e
    | .ok (_, ⟨d2, h2⟩) =>
      match Attempt.lift h2 (readTypeList d2) with
      | .error e => .error e
      | .ok (ps, ⟨d3, h3⟩) =>
        match Read.lift h3 (d3.need .closeParen) with
        | .error e => .error e
        | .ok (_, ⟨d4, h4⟩) =>
          match Attempt.lift h4 (readResults d4) with
          | .error e => .error e
          | .ok (rs, d5) => .ok (.func ps rs, d5)
termination_by c.ahead.length * 8 + 2
decreasing_by all_goals omega

def readTypeList (c : Cursor) : Attempt (List Ty) c :=
  match readType? c with
  | .error e => .error e
  | .ok (none, w) => .ok ([], w)
  | .ok (some t, ⟨d, hd⟩) =>
    match Attempt.liftWithin hd (readMoreTypes d) with
    | .error e => .error e
    | .ok (ts, d') => .ok (t :: ts, d')
termination_by c.ahead.length * 8 + 4
decreasing_by all_goals omega

def readMoreTypes (c : Cursor) : Attempt (List Ty) c :=
  match c.take? .comma with
  | none => .ok ([], c.here)
  | some (_, ⟨d, hd⟩) =>
    match Attempt.lift hd (readType? d) with
    | .error e => .error e
    | .ok (none, _) => .error ⟨.missingTypeAfterComma d.current.describe, d.current.start⟩
    | .ok (some t, ⟨d', hd'⟩) =>
      match Attempt.liftWithin (Cursor.le_of_ahead hd') (readMoreTypes d') with
      | .error e => .error e
      | .ok (ts, d'') => .ok (t :: ts, d'')
termination_by c.ahead.length * 8 + 1
decreasing_by all_goals omega

def readResults (c : Cursor) : Attempt (List Ty) c :=
  match c.take? .openParen with
  | some (_, ⟨d, hd⟩) =>
    match Attempt.lift hd (readTypeList d) with
    | .error e => .error e
    | .ok (ts, ⟨d', hd'⟩) =>
      match Read.lift hd' (d'.need .closeParen) with
      | .error e => .error e
      | .ok (_, d'') => .ok (ts, Ahead.within d'')
  | none =>
    match readType? c with
    | .error e => .error e
    | .ok (t, w) => .ok (t.toList, w)
termination_by c.ahead.length * 8 + 5
decreasing_by all_goals omega

end

end ScriptFront
