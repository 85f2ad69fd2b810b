import ScriptFront.Grammar.Type
import ScriptFront.Tree.Basic
/-!
# Reading declared names and parameters

A variable declaration names one or more identifiers separated by commas. A function literal's
parameters come in runs of names that share the type written after the last of them: in
`a, b int, c bool` both `a` and `b` are `int`. Names after the last type have no type, which
is an error at the first of them.
-/

set_option autoImplicit false

namespace ScriptFront

def Token.binding (t : Token) : Binding := ⟨t.text, t.start⟩

def readNames (c : Cursor) : Read (List Binding) c :=
  match c.needOr .identifier (c.unexpected "identifier during variable declaration") with
  | .error e => .error e
  | .ok (t, ⟨d, hd⟩) =>
    match d.take? .comma with
    | none => .ok ([t.binding], ⟨d, hd⟩)
    | some (_, ⟨d', hd'⟩) =>
      match Read.lift hd (Read.lift hd' (readNames d')) with
      | .error e => .error e
      | .ok (bs, d'') => .ok (t.binding :: bs, d'')
termination_by c.ahead.length

def Binding.typed (ty : Ty) (b : Binding) : Param := ⟨b.name, ty, b.pos⟩

/-- Parameters from the cursor on, after the typed `done` and the untyped `pending`: a name,
an optional type that closes the pending run, and a comma before the next name. -/
def readParamRun (c : Cursor) (pending : List Binding) (done : List Param) :
    Read (List Param) c :=
  match c.need .identifier with
  | .error e => .error e
  | .ok (t, ⟨d, hd⟩) =>
    match Attempt.lift hd (readType? d) with
    | .error e => .error e
    | .ok (ty?, ⟨d', hd'⟩) =>
      let run := pending ++ [t.binding]
      let (pending', done') := match ty? with
        | some ty => (([] : List Binding), done ++ run.map (Binding.typed ty))
        | none => (run, done)
      match d'.take? .comma with
      | some (_, ⟨d'', hd''⟩) =>
        match Read.lift hd' (Read.lift hd'' (readParamRun d'' pending' done')) with
        | .error e => .error e
        | .ok (ps, e) => .ok (ps, e)
      | none =>
        match pending' with
        | [] => .ok (done', ⟨d', hd'⟩)
        | b :: _ => .error ⟨.missingParameterType b.name, b.pos⟩
termination_by c.ahead.length

def readParams (c : Cursor) : Attempt (List Param) c :=
  if c.sees .closeParen then .ok ([], c.here)
  else
    Read.attempt (readParamRun c [] [])

end ScriptFront
