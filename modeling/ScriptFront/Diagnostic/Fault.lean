import ScriptFront.Source.Position
import ScriptFront.Text.Quote
/-!
# Faults and errors

A fault is the cause of a failure to read a source; an error is a fault at a position. Each
fault has a name, a one-line detail, an optional tip that suggests a repair, and a kind that
says whose the failure is: the source's, a construct the reader does not handle yet, or the
reader's own. Texts that a fault quotes as values are written as `Text.quote` says.
-/

set_option autoImplicit false

namespace ScriptFront

/-- Why a source could not be read. -/
inductive Fault where
  | unrecognised (text : String)
  | unexpected (expected found : String)
  | badNumber (text : String)
  | nonNameDefined (expr : String)
  | defineInLoopPost
  | statementAsValue (stmt : String)
  | missingTypeAfterComma (found : String)
  | missingParameterType (name : String)
  | notImplemented (construct : String)
  | internal (message : String)
deriving Repr, DecidableEq, Inhabited

inductive ErrorKind where
  | source
  | unsupported
  | internal
deriving Repr, DecidableEq, Inhabited

def ErrorKind.name : ErrorKind → String
  | .source => "Syntax"
  | .unsupported => "NotImplemented"
  | .internal => "Internal"

namespace Fault

def name : Fault → String
  | .unrecognised _ => "UnrecognisedToken"
  | .unexpected _ _ => "UnexpectedToken"
  | .badNumber _ => "NumberParseError"
  | .nonNameDefined _ => "NonNameOnLeftOfDefine"
  | .defineInLoopPost => "DeclarationInForPost"
  | .statementAsValue _ => "StatementUsedAsValue"
  | .missingTypeAfterComma _ => "MissingTypeAfterComma"
  | .missingParameterType _ => "MissingParameterType"
  | .notImplemented _ => "NotImplementedError"
  | .internal _ => "InternalError"

def detail : Fault → String
  | .unrecognised t => "unrecognised token: " ++ Text.quote t
  | .unexpected e f => "unexpected " ++ f ++ ", expected " ++ e
  | .badNumber t => "error parsing number: " ++ Text.quote t
  | .nonNameDefined e => "non-name " ++ e ++ " on left side of :="
  | .defineInLoopPost => "cannot declare in post statement of for loop"
  | .statementAsValue s => "cannot use " ++ s ++ " as value"
  | .missingTypeAfterComma f => "expected type after comma, found " ++ f
  | .missingParameterType n => "missing type for parameter " ++ Text.quote n
  | .notImplemented c => "not implemented: " ++ c
  | .internal m => "internal error: " ++ m

def tip : Fault → Option String
  | .unrecognised _ => none
  | .unexpected e f => some ("expected " ++ e ++ ", found " ++ f)
  | .badNumber t => some ("Invalid number: `" ++ t ++
      "`, literals are unsigned and must fit in a 64-bit signed integer")
  | .nonNameDefined e => some ("`" ++ e ++ "` is not a name, only names can be declared with `:=`")
  | .defineInLoopPost => some "Use `=` instead of `:=` in the post statement of a for loop"
  | .statementAsValue s => some ("`" ++ s ++ "` is a statement, a loop condition must be an expression")
  | .missingTypeAfterComma f => some ("Expected a type after `,`, found " ++ f)
  | .missingParameterType n => some ("Parameter `" ++ n ++ "` needs a type, either its own or one following it")
  | .notImplemented _ => some "This feature is expected to be handled, but has not yet been implemented"
  | .internal _ => none

def kind : Fault → ErrorKind
  | .notImplemented _ => .unsupported
  | .internal _ => .internal
  | _ => .source

end Fault

/-- A fault at the position where it was found. -/
structure Error where
  fault : Fault
  position : Position
deriving Repr, DecidableEq, Inhabited

def Error.message (e : Error) : String := e.position.render ++ ": " ++ e.fault.detail

/-! ## Steps of `Except`

Every reading of a source ends in an `Except Error`. These lemmas take one step of such a
computation apart. -/

section Bind

variable {ε α β : Type}

@[simp] theorem Except.ok_bind' (a : α) (f : α → Except ε β) : (Except.ok a >>= f) = f a := rfl

@[simp] theorem Except.error_bind' (e : ε) (f : α → Except ε β) :
    (Except.error e >>= f) = Except.error e := rfl

@[simp] theorem Except.ok_map (f : α → β) (a : α) :
    (Except.ok a : Except ε α).map f = Except.ok (f a) := rfl

@[simp] theorem Except.error_map (f : α → β) (e : ε) :
    (Except.error e : Except ε α).map f = Except.error e := rfl

theorem Except.bind_eq_ok {x : Except ε α} {f : α → Except ε β} {b : β} :
    x >>= f = .ok b ↔ ∃ a, x = .ok a ∧ f a = .ok b := by
  cases x <;> simp

theorem Except.map_eq_ok {x : Except ε α} {f : α → β} {b : β} :
    x.map f = .ok b ↔ ∃ a, x = .ok a ∧ f a = b := by
  cases x <;> simp [Except.map]

theorem Except.map_eq_error {x : Except ε α} {f : α → β} {e : ε} :
    x.map f = .error e ↔ x = .error e := by
  cases x <;> simp [Except.map]

theorem Except.bind_eq_error {x : Except ε α} {f : α → Except ε β} {e : ε} :
    x >>= f = .error e ↔ x = .error e ∨ ∃ a, x = .ok a ∧ f a = .error e := by
  cases x <;> simp

theorem Except.bind_map_eq_ok {γ : Type} {δ : α → Type} {x : Except ε α}
    {f : (a : α) → Except ε (δ a)} {g : (a : α) → δ a → γ} {c : γ} :
    (x >>= fun a => (f a).map (g a)) = .ok c ↔ ∃ a b, x = .ok a ∧ f a = .ok b ∧ g a b = c := by
  cases x <;> simp [Except.map_eq_ok]

theorem Except.exists_of_toBool {x : Except ε α} (h : x.toBool = true) : ∃ a, x = .ok a := by
  cases x with
  | error e => cases h
  | ok a => exact ⟨a, rfl⟩

end Bind

end ScriptFront
