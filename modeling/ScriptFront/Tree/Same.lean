import ScriptFront.Tree.Basic
/-!
# Trees of the same shape

Two trees have the same shape when they agree in everything but positions: kinds of nodes,
operators, names, integer values, booleans, types, the form of each declaration and loop, the
branches of each `if` chain and the `;` of each expression statement. Positions record where a
node was read and never tell two trees apart.
-/

set_option autoImplicit false

namespace ScriptFront

def Param.same (p q : Param) : Bool := p.name == q.name && p.ty.same q.ty

def Param.sameAll : List Param → List Param → Bool
  | [], [] => true
  | p :: ps, q :: qs => p.same q && Param.sameAll ps qs
  | _, _ => false

def Binding.sameAll (bs cs : List Binding) : Bool := bs.map (·.name) == cs.map (·.name)

mutual

def Expr.same : Expr → Expr → Bool
  | .name a _, .name b _ => a == b
  | .integer a _, .integer b _ => a == b
  | .boolean a _, .boolean b _ => a == b
  | .unary o x _, .unary p y _ => o == p && x.same y
  | .binary o l r _, .binary p l' r' _ => o == p && l.same l' && r.same r'
  | .func ps rs b _, .func qs ss b' _ => Param.sameAll ps qs && Ty.sameAll rs ss && b.same b'
  | _, _ => false

def Expr.sameAll : List Expr → List Expr → Bool
  | [], [] => true
  | x :: xs, y :: ys => x.same y && Expr.sameAll xs ys
  | _, _ => false

def Expr.sameOpt : Option Expr → Option Expr → Bool
  | none, none => true
  | some x, some y => x.same y
  | _, _ => false

def Block.same : Block → Block → Bool
  | .mk ss _, .mk ts _ => Stmt.sameAll ss ts

def Block.sameOpt : Option Block → Option Block → Bool
  | none, none => true
  | some a, some b => a.same b
  | _, _ => false

def Stmt.same : Stmt → Stmt → Bool
  | .empty _, .empty _ => true
  | .single x d _, .single y d' _ => x.same y && d == d'
  | .varDecl ns s _, .varDecl ms t _ => Binding.sameAll ns ms && VarSpec.same s t
  | .block a, .block b => a.same b
  | .ifChain bs o _, .ifChain cs p _ => Branch.sameAll bs cs && Block.sameOpt o p
  | .loop s a _, .loop t b _ => LoopShape.same s t && a.same b
  | .breakLoop _, .breakLoop _ => true
  | .continueLoop _, .continueLoop _ => true
  | .ret xs _, .ret ys _ => Expr.sameAll xs ys
  | .assign ts vs _, .assign us ws _ => Expr.sameAll ts us && Expr.sameAll vs ws
  | .define ns vs _, .define ms ws _ => Binding.sameAll ns ms && Expr.sameAll vs ws
  | _, _ => false

def Stmt.sameAll : List Stmt → List Stmt → Bool
  | [], [] => true
  | s :: ss, t :: ts => s.same t && Stmt.sameAll ss ts
  | _, _ => false

def Stmt.sameOpt : Option Stmt → Option Stmt → Bool
  | none, none => true
  | some s, some t => s.same t
  | _, _ => false

def Branch.sameAll : List Branch → List Branch → Bool
  | [], [] => true
  | .mk x a _ :: bs, .mk y b _ :: cs => x.same y && a.same b && Branch.sameAll bs cs
  | _, _ => false

def VarSpec.same : VarSpec → VarSpec → Bool
  | .typed s none, .typed t none => s.same t
  | .typed s (some xs), .typed t (some ys) => s.same t && Expr.sameAll xs ys
  | .inferred xs, .inferred ys => Expr.sameAll xs ys
  | _, _ => false

def LoopShape.same : LoopShape → LoopShape → Bool
  | .forever, .forever => true
  | .guarded x, .guarded y => x.same y
  | .clauses i x p, .clauses j y q => Stmt.sameOpt i j && Expr.sameOpt x y && Stmt.sameOpt p q
  | _, _ => false

end

/-- Whether two programs have the same shape, statement by statement. -/
def Program.same (p q : Program) : Bool := Stmt.sameAll p q

end ScriptFront
