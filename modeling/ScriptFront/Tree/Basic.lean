import ScriptFront.Tree.Type
import ScriptFront.Source.Position
/-!
# Programs as trees

A program is a list of statements. Expressions are names, integers, booleans, prefix and
binary operations, and function literals, whose bodies are blocks of statements, so the three
kinds of tree nest in each other. Every node keeps the position where it starts in the source;
a binary or prefix operation keeps the position of its operator.
-/

set_option autoImplicit false

namespace ScriptFront

inductive UnaryOp where
  | negate
  | not
deriving Repr, DecidableEq, Inhabited

inductive Level where
  | disjunction
  | conjunction
  | comparison
  | additive
  | multiplicative
deriving Repr, DecidableEq, Inhabited

inductive BinaryOp where
  | logicalOr | logicalAnd
  | equal | notEqual | greater | less | greaterEqual | lessEqual
  | add | subtract
  | multiply | divide | modulo
deriving Repr, DecidableEq, Inhabited

structure Binding where
  name : String
  pos : Position
deriving Repr, DecidableEq, Inhabited

structure Param where
  name : String
  ty : Ty
  pos : Position
deriving Repr, Inhabited

mutual

/-- An expression. -/
inductive Expr where
  | name (ident : String) (pos : Position)
  | integer (value : Int) (pos : Position)
  | boolean (value : Bool) (pos : Position)
  | unary (op : UnaryOp) (operand : Expr) (pos : Position)
  | binary (op : BinaryOp) (left right : Expr) (pos : Position)
  | func (params : List Param) (results : List Ty) (body : Block) (pos : Position)

inductive Block where
  | mk (body : List Stmt) (pos : Position)

/-- A statement. -/
inductive Stmt where
  | empty (pos : Position)
  | single (e : Expr) (discard : Bool) (pos : Position)
  | varDecl (names : List Binding) (spec : VarSpec) (pos : Position)
  | block (b : Block)
  | ifChain (branches : List Branch) (otherwise : Option Block) (pos : Position)
  | loop (shape : LoopShape) (body : Block) (pos : Position)
  | breakLoop (pos : Position)
  | continueLoop (pos : Position)
  | ret (values : List Expr) (pos : Position)
  | assign (targets values : List Expr) (pos : Position)
  | define (names : List Binding) (values : List Expr) (pos : Position)

inductive Branch where
  | mk (cond : Expr) (body : Block) (pos : Position)

inductive VarSpec where
  | typed (ty : Ty) (values : Option (List Expr))
  | inferred (values : List Expr)

inductive LoopShape where
  | forever
  | guarded (cond : Expr)
  | clauses (init : Option Stmt) (cond : Option Expr) (post : Option Stmt)

end

instance : Inhabited Expr := ⟨.boolean false default⟩
instance : Inhabited Stmt := ⟨.empty default⟩
instance : Inhabited Block := ⟨.mk [] default⟩

def Block.body : Block → List Stmt
  | .mk ss _ => ss

def Block.pos : Block → Position
  | .mk _ p => p

def Expr.pos : Expr → Position
  | .name _ p | .integer _ p | .boolean _ p | .unary _ _ p | .binary _ _ _ p | .func _ _ _ p => p

def Stmt.pos : Stmt → Position
  | .empty p | .single _ _ p | .varDecl _ _ p | .ifChain _ _ p | .loop _ _ p
  | .breakLoop p | .continueLoop p | .ret _ p | .assign _ _ p | .define _ _ p => p
  | .block b => b.pos

def Expr.signature (params : List Param) (results : List Ty) : Ty :=
  .func (params.map (·.ty)) results

abbrev Program := List Stmt

end ScriptFront
