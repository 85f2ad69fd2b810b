import ScriptFront.Tree.Basic
/-!
# Trees the grammar builds

The tree types allow more than the grammar ever builds. In a tree read from source every name is
a word that is not reserved, every integer lies between 0 and `2 ^ 63 - 1`, a function literal is never the
operand of a prefix or binary operation, assignments, definitions and declarations have their
names or targets and their values, every `if` chain has a branch, and the clauses of a loop are
plain statements: an expression statement not ended by `;`, an assignment or, first only, a
definition. So the empty statement and an expression statement ended by `;` stand only in lists
of statements. `Stmt.shaped` and its companions check all of this.
-/

set_option autoImplicit false

namespace ScriptFront

def reservedWords : List String :=
  ["var", "func", "if", "else", "for", "break", "continue", "return", "true", "false", "int",
    "bool"]

/-- Whether a string is a name: an ASCII letter or `_`, then ASCII letters, digits and `_`,
and not a reserved word. -/
def isName (s : String) : Bool :=
  (match s.toList with
    | [] => false
    | c :: cs => (c.isAlpha || c == '_') && cs.all fun c => c.isAlphanum || c == '_') &&
  !reservedWords.contains s

def Expr.isFunc : Expr → Bool
  | .func .. => true
  | _ => false

def Stmt.opensClauses : Stmt → Bool
  | .single _ discard _ => !discard
  | .assign .. | .define .. => true
  | _ => false

def Stmt.closesClauses : Stmt → Bool
  | .single _ discard _ => !discard
  | .assign .. => true
  | _ => false

mutual

def Expr.shaped : Expr → Bool
  | .name x _ => isName x
  | .integer n _ => 0 ≤ n && n ≤ 9223372036854775807
  | .boolean _ _ => true
  | .unary _ x _ => !x.isFunc && x.shaped
  | .binary _ l r _ => !l.isFunc && !r.isFunc && l.shaped && r.shaped
  | .func ps _ b _ => ps.all (fun p => isName p.name) && b.shaped

def Expr.shapedAll : List Expr → Bool
  | [] => true
  | x :: xs => x.shaped && Expr.shapedAll xs

def Expr.shapedOpt : Option Expr → Bool
  | none => true
  | some x => x.shaped

def Block.shaped : Block → Bool
  | .mk ss _ => Stmt.shapedAll ss

def Block.shapedOpt : Option Block → Bool
  | none => true
  | some b => b.shaped

/-- Whether a statement has a shape the grammar builds. -/
def Stmt.shaped : Stmt → Bool
  | .empty _ => true
  | .single x _ _ => x.shaped
  | .varDecl ns spec _ => !ns.isEmpty && ns.all (fun b => isName b.name) && spec.shaped
  | .block b => b.shaped
  | .ifChain bs o _ => !bs.isEmpty && Branch.shapedAll bs && Block.shapedOpt o
  | .loop shape b _ => shape.shaped && b.shaped
  | .breakLoop _ => true
  | .continueLoop _ => true
  | .ret vs _ => Expr.shapedAll vs
  | .assign ts vs _ => !ts.isEmpty && !vs.isEmpty && Expr.shapedAll ts && Expr.shapedAll vs
  | .define ns vs _ =>
    !ns.isEmpty && !vs.isEmpty && ns.all (fun b => isName b.name) && Expr.shapedAll vs

def Stmt.shapedAll : List Stmt → Bool
  | [] => true
  | s :: ss => s.shaped && Stmt.shapedAll ss

def Stmt.shapedOpt : Option Stmt → Bool
  | none => true
  | some s => s.shaped

def Branch.shapedAll : List Branch → Bool
  | [] => true
  | .mk x b _ :: bs => x.shaped && b.shaped && Branch.shapedAll bs

def VarSpec.shaped : VarSpec → Bool
  | .typed _ none => true
  | .typed _ (some vs) => !vs.isEmpty && Expr.shapedAll vs
  | .inferred vs => !vs.isEmpty && Expr.shapedAll vs

def LoopShape.shaped : LoopShape → Bool
  | .forever => true
  | .guarded x => x.shaped
  | .clauses init x post =>
    Stmt.shapedOpt init && init.all Stmt.opensClauses && Expr.shapedOpt x &&
      Stmt.shapedOpt post && post.all Stmt.closesClauses

end

def Program.shaped (p : Program) : Bool := Stmt.shapedAll p

theorem Expr.shapedAll_iff (xs : List Expr) : Expr.shapedAll xs ↔ ∀ x ∈ xs, x.shaped := by
  induction xs with
  | nil => simp [Expr.shapedAll]
  | cons x xs ih => simp [Expr.shapedAll, ih]

theorem Stmt.shapedAll_iff (ss : List Stmt) : Stmt.shapedAll ss ↔ ∀ s ∈ ss, s.shaped := by
  induction ss with
  | nil => simp [Stmt.shapedAll]
  | cons s ss ih => simp [Stmt.shapedAll, ih]

theorem Stmt.opensClauses_of_closes {s : Stmt} (h : s.closesClauses) : s.opensClauses := by
  cases s <;> simp_all [closesClauses, opensClauses]

end ScriptFront
