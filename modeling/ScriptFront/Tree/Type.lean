/-!
# Types

A type is a basic type, `int` or `bool`, or the type of a function: the types of its
parameters and of its results. A function type is written `func(P, Q) R`, with several results
between parentheses and no result at all written as nothing.
-/

set_option autoImplicit false

namespace ScriptFront

inductive BasicType where
  | int
  | bool
deriving Repr, DecidableEq, Inhabited

def BasicType.name : BasicType → String
  | .int => "int"
  | .bool => "bool"

/-- A type. -/
inductive Ty where
  | basic (b : BasicType)
  | func (params results : List Ty)
deriving Repr, Inhabited

def resultsText : List String → String
  | [] => ""
  | [r] => " " ++ r
  | rs => " (" ++ ", ".intercalate rs ++ ")"

mutual

def Ty.render : Ty → String
  | .basic b => b.name
  | .func ps rs => "func(" ++ ", ".intercalate (Ty.renderAll ps) ++ ")" ++
      resultsText (Ty.renderAll rs)

def Ty.renderAll : List Ty → List String
  | [] => []
  | t :: ts => t.render :: Ty.renderAll ts

end

mutual

def Ty.same : Ty → Ty → Bool
  | .basic a, .basic b => a == b
  | .func ps rs, .func qs ss => Ty.sameAll ps qs && Ty.sameAll rs ss
  | _, _ => false

def Ty.sameAll : List Ty → List Ty → Bool
  | [], [] => true
  | t :: ts, u :: us => t.same u && Ty.sameAll ts us
  | _, _ => false

end

@[simp] theorem Ty.renderAll_eq_map (ts : List Ty) : Ty.renderAll ts = ts.map Ty.render := by
  induction ts with
  | nil => rfl
  | cons t ts ih => simp [Ty.renderAll, ih]

end ScriptFront
