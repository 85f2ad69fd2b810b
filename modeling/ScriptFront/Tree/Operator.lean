import ScriptFront.Tree.Basic
/-!
# Operators and precedence

Each binary operator belongs to one level; levels bind from `||`, the loosest, through `&&`,
the comparisons and the additive operators to the multiplicative ones, and prefix operators
bind tighter than all of them. The precedence of an expression is that of its outermost node:
0 for a function literal, 1 to 5 for the binary levels, 6 for a prefix operation and 7 for a
name or literal.
-/

set_option autoImplicit false

namespace ScriptFront

def UnaryOp.symbol : UnaryOp → String
  | .negate => "-"
  | .not => "!"

def BinaryOp.level : BinaryOp → Level
  | .logicalOr => .disjunction
  | .logicalAnd => .conjunction
  | .equal | .notEqual | .greater | .less | .greaterEqual | .lessEqual => .comparison
  | .add | .subtract => .additive
  | .multiply | .divide | .modulo => .multiplicative

def BinaryOp.symbol : BinaryOp → String
  | .logicalOr => "||" | .logicalAnd => "&&"
  | .equal => "==" | .notEqual => "!=" | .greater => ">" | .less => "<"
  | .greaterEqual => ">=" | .lessEqual => "<="
  | .add => "+" | .subtract => "-"
  | .multiply => "*" | .divide => "/" | .modulo => "%"

def Level.precedence : Level → Nat
  | .disjunction => 1
  | .conjunction => 2
  | .comparison => 3
  | .additive => 4
  | .multiplicative => 5

def Level.tighter : Level → Option Level
  | .disjunction => some .conjunction
  | .conjunction => some .comparison
  | .comparison => some .additive
  | .additive => some .multiplicative
  | .multiplicative => none

def BinaryOp.precedence (op : BinaryOp) : Nat := op.level.precedence

/-- The precedence of an expression's outermost node. -/
def Expr.precedence : Expr → Nat
  | .func .. => 0
  | .binary op .. => op.precedence
  | .unary .. => 6
  | .name .. | .integer .. | .boolean .. => 7

def UnaryOp.precedence : Nat := 6

theorem Level.precedence_tighter {l m : Level} (h : l.tighter = some m) :
    l.precedence + 1 = m.precedence := by
  cases l <;> simp [Level.tighter] at h <;> subst h <;> rfl

end ScriptFront
