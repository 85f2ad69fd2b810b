import ScriptFront.Proofs.Scan.Places
import ScriptFront.Proofs.Print.ReadStmt
/-!
# Where the nodes of a tree stand

Every node of a tree records a position, which should be the start of one token of its source:
a name's own token, an operation's operator, a function literal's `func`, a statement's first
token. An `Anchor` says what token must start at a recorded position, and `anchors` lists
every recorded position of a tree with its anchor, in the order in which the nodes are written.

`Ordered` says that the positions inside each node come in source order: a binary operation's
left operand before its operator and its right operand after it, a prefix operator before its
operand, a statement's position at or before everything recorded in it, and the statements of a
block or a program one after the other.
-/

set_option autoImplicit false

namespace ScriptFront

/-- What must start at a recorded position. -/
inductive Anchor where
  | kind (k : TokenKind)
  | name (n : String)
  | integer (v : Int)
  | binary (op : BinaryOp)
  | unary (op : UnaryOp)
  | empty
  | exprStart

def Anchor.Fits : Anchor → Token → Prop
  | .kind k, t => t.kind = k
  | .name n, t => t.kind = .identifier ∧ t.text = n
  | .integer v, t => t.kind = .number ∧ Text.toInt64? t.text = some v
  | .binary op, t => t.kind = op.kind
  | .unary op, t => t.kind = op.kind
  | .empty, t => t.kind = .semicolon ∨ t.kind = .newline
  | .exprStart, t => t.kind.startsExpr

def Binding.anchor (b : Binding) : Position × Anchor := (b.pos, .name b.name)

def Param.anchor (p : Param) : Position × Anchor := (p.pos, .name p.name)

mutual

def Expr.anchors : Expr → List (Position × Anchor)
  | .name n p => [(p, .name n)]
  | .integer v p => [(p, .integer v)]
  | .boolean b p => [(p, .kind (if b then .kwTrue else .kwFalse))]
  | .unary op x p => (p, .unary op) :: x.anchors
  | .binary op l r p => l.anchors ++ (p, .binary op) :: r.anchors
  | .func ps _ b p => (p, .kind .kwFunc) :: ps.map Param.anchor ++ b.anchors

def Expr.anchorsAll : List Expr → List (Position × Anchor)
  | [] => []
  | x :: xs => x.anchors ++ Expr.anchorsAll xs

def Expr.anchorsOpt : Option Expr → List (Position × Anchor)
  | none => []
  | some x => x.anchors

def Block.anchors : Block → List (Position × Anchor)
  | .mk ss p => (p, .kind .openCurly) :: Stmt.anchorsAll ss

def Block.anchorsOpt : Option Block → List (Position × Anchor)
  | none => []
  | some b => b.anchors

def Stmt.anchors : Stmt → List (Position × Anchor)
  | .empty p => [(p, .empty)]
  | .single x _ p => (p, .exprStart) :: x.anchors
  | .varDecl ns spec p => (p, .kind .kwVar) :: ns.map Binding.anchor ++ spec.anchors
  | .block b => b.anchors
  | .ifChain bs o p => (p, .kind .kwIf) :: Branch.anchorsAll bs ++ Block.anchorsOpt o
  | .loop shape b p => (p, .kind .kwFor) :: shape.anchors ++ b.anchors
  | .breakLoop p => [(p, .kind .kwBreak)]
  | .continueLoop p => [(p, .kind .kwContinue)]
  | .ret vs p => (p, .kind .kwReturn) :: Expr.anchorsAll vs
  | .assign ts vs p => (p, .exprStart) :: Expr.anchorsAll ts ++ Expr.anchorsAll vs
  | .define ns vs p => (p, .exprStart) :: ns.map Binding.anchor ++ Expr.anchorsAll vs

def Stmt.anchorsAll : List Stmt → List (Position × Anchor)
  | [] => []
  | s :: ss => s.anchors ++ Stmt.anchorsAll ss

def Stmt.anchorsOpt : Option Stmt → List (Position × Anchor)
  | none => []
  | some s => s.anchors

def Branch.anchorsAll : List Branch → List (Position × Anchor)
  | [] => []
  | .mk x b p :: bs => (p, .kind .kwIf) :: x.anchors ++ b.anchors ++ Branch.anchorsAll bs

def VarSpec.anchors : VarSpec → List (Position × Anchor)
  | .typed _ none => []
  | .typed _ (some vs) => Expr.anchorsAll vs
  | .inferred vs => Expr.anchorsAll vs

def LoopShape.anchors : LoopShape → List (Position × Anchor)
  | .forever => []
  | .guarded x => x.anchors
  | .clauses i x p => Stmt.anchorsOpt i ++ Expr.anchorsOpt x ++ Stmt.anchorsOpt p

end

def Position.AtOrBefore (p q : Position) : Prop :=
  p.line < q.line ∨ (p.line = q.line ∧ p.column ≤ q.column)

def Position.Leads (p : Position) (as : List (Position × Anchor)) : Prop :=
  ∀ a ∈ as, p.AtOrBefore a.1

mutual

def Expr.Ordered : Expr → Prop
  | .name .. | .integer .. | .boolean .. => True
  | .unary _ x p => (∀ a ∈ x.anchors, p.Before a.1) ∧ x.Ordered
  | .binary _ l r p =>
    (∀ a ∈ l.anchors, a.1.Before p) ∧ (∀ a ∈ r.anchors, p.Before a.1) ∧ l.Ordered ∧ r.Ordered
  | .func _ _ b _ => b.Ordered

def Expr.OrderedAll : List Expr → Prop
  | [] => True
  | x :: xs => x.Ordered ∧ Expr.OrderedAll xs

def Expr.OrderedOpt : Option Expr → Prop
  | none => True
  | some x => x.Ordered

def Block.Ordered : Block → Prop
  | .mk ss p => p.Leads (Stmt.anchorsAll ss) ∧ Stmt.InOrder ss

def Block.OrderedOpt : Option Block → Prop
  | none => True
  | some b => b.Ordered

/-- Statements one after the other, each ordered. -/
def Stmt.InOrder : List Stmt → Prop
  | [] => True
  | s :: ss => (∀ t ∈ ss, s.pos.Before t.pos) ∧ s.Ordered ∧ Stmt.InOrder ss

def Stmt.OrderedOpt : Option Stmt → Prop
  | none => True
  | some s => s.Ordered

/-- A statement's position comes at or before everything recorded in it, and what it holds is
ordered. -/
def Stmt.Ordered : Stmt → Prop
  | .empty _ | .breakLoop _ | .continueLoop _ => True
  | .single x _ p => p.Leads x.anchors ∧ x.Ordered
  | .varDecl ns spec p => p.Leads (ns.map Binding.anchor ++ spec.anchors) ∧ spec.Ordered
  | .block b => b.Ordered
  | .ifChain bs o p =>
    p.Leads (Branch.anchorsAll bs ++ Block.anchorsOpt o) ∧ Branch.OrderedAll bs ∧
      Block.OrderedOpt o
  | .loop shape b p => p.Leads (shape.anchors ++ b.anchors) ∧ shape.Ordered ∧ b.Ordered
  | .ret vs p => p.Leads (Expr.anchorsAll vs) ∧ Expr.OrderedAll vs
  | .assign ts vs p =>
    p.Leads (Expr.anchorsAll ts ++ Expr.anchorsAll vs) ∧ Expr.OrderedAll ts ∧ Expr.OrderedAll vs
  | .define ns vs p => p.Leads (ns.map Binding.anchor ++ Expr.anchorsAll vs) ∧ Expr.OrderedAll vs

def Branch.OrderedAll : List Branch → Prop
  | [] => True
  | .mk x b _ :: bs => x.Ordered ∧ b.Ordered ∧ Branch.OrderedAll bs

def VarSpec.Ordered : VarSpec → Prop
  | .typed _ none => True
  | .typed _ (some vs) => Expr.OrderedAll vs
  | .inferred vs => Expr.OrderedAll vs

def LoopShape.Ordered : LoopShape → Prop
  | .forever => True
  | .guarded x => x.Ordered
  | .clauses i x p => Stmt.OrderedOpt i ∧ Expr.OrderedOpt x ∧ Stmt.OrderedOpt p

end

@[simp] theorem Stmt.anchors_closedBy (s : Stmt) (semi : Bool) :
    (s.closedBy semi).anchors = s.anchors := by
  cases s <;> rfl

@[simp] theorem Stmt.pos_closedBy (s : Stmt) (semi : Bool) : (s.closedBy semi).pos = s.pos := by
  cases s <;> rfl

theorem Stmt.ordered_closedBy {s : Stmt} (semi : Bool) (h : s.Ordered) :
    (s.closedBy semi).Ordered := by
  cases s <;> exact h

@[simp] theorem Expr.anchorsAll_append (xs ys : List Expr) :
    Expr.anchorsAll (xs ++ ys) = Expr.anchorsAll xs ++ Expr.anchorsAll ys := by
  induction xs with
  | nil => rfl
  | cons x xs ih => simp [Expr.anchorsAll, ih]

theorem Position.atOrBefore_of_before {p q : Position} (h : p.Before q) : p.AtOrBefore q := by
  unfold Before at h
  unfold AtOrBefore
  simp only [UInt32.lt_iff_toNat_lt, UInt32.le_iff_toNat_le, ← UInt32.toNat_inj] at *
  omega

theorem Position.atOrBefore_refl (p : Position) : p.AtOrBefore p :=
  .inr ⟨rfl, UInt32.le_iff_toNat_le.mpr (Nat.le_refl _)⟩

end ScriptFront
