import ScriptFront.Tree.Print
import ScriptFront.Token.Basic
/-!
# The tokens of a printed tree

Printing a tree gives text, and scanning that text gives tokens. `Expr.lexes` and its
companions say which tokens, each by its kind and its text and without its span: the printed
text with its blanks and indentation left out. They follow the printer case by case, so the
text of every printer and the tokens here can be compared piece by piece, and the reader can
be followed through the tokens without looking at characters.
-/

set_option autoImplicit false

namespace ScriptFront

@[simp] theorem repr_natCast (m : Nat) : Int.repr m = toString m := rfl

abbrev Lex := TokenKind × String

def Token.lex (t : Token) : Lex := (t.kind, t.text)

def TokenKind.lex (k : TokenKind) : Lex := (k, k.spelling?.getD "")

def newlineLex : Lex := (.newline, "\n")

def UnaryOp.kind : UnaryOp → TokenKind
  | .negate => .minus
  | .not => .bang

def BinaryOp.kind : BinaryOp → TokenKind
  | .logicalOr => .orOr | .logicalAnd => .andAnd
  | .equal => .equal | .notEqual => .notEqual | .greater => .greater | .less => .less
  | .greaterEqual => .greaterEqual | .lessEqual => .lessEqual
  | .add => .plus | .subtract => .minus
  | .multiply => .star | .divide => .slash | .modulo => .percent

def parenLexes (paren : Bool) (ls : List Lex) : List Lex :=
  if paren then TokenKind.openParen.lex :: (ls ++ [TokenKind.closeParen.lex]) else ls

def commaLexes (ls : List (List Lex)) : List Lex := [TokenKind.comma.lex].intercalate ls

def resultsLexes : List (List Lex) → List Lex
  | [] => []
  | [r] => r
  | rs => TokenKind.openParen.lex :: (commaLexes rs ++ [TokenKind.closeParen.lex])

mutual

def Ty.lexes : Ty → List Lex
  | .basic .int => [TokenKind.kwInt.lex]
  | .basic .bool => [TokenKind.kwBool.lex]
  | .func ps rs => TokenKind.kwFunc.lex :: TokenKind.openParen.lex ::
      (commaLexes (Ty.lexesAll ps) ++ TokenKind.closeParen.lex :: resultsLexes (Ty.lexesAll rs))

def Ty.lexesAll : List Ty → List (List Lex)
  | [] => []
  | t :: ts => t.lexes :: Ty.lexesAll ts

end

def Param.lexes (p : Param) : List Lex := (.identifier, p.name) :: p.ty.lexes

def Binding.lexesAll (bs : List Binding) : List Lex :=
  commaLexes (bs.map fun b => [(.identifier, b.name)])

mutual

/-- The tokens of a printed expression. -/
def Expr.lexes : Expr → List Lex
  | .name n _ => [(.identifier, n)]
  | .integer v _ => [(.number, toString v)]
  | .boolean b _ => [if b then TokenKind.kwTrue.lex else TokenKind.kwFalse.lex]
  | .unary op e _ =>
    op.kind.lex :: parenLexes (decide (e.precedence < UnaryOp.precedence)) e.lexes
  | .binary op l r _ =>
    parenLexes (decide (l.precedence < op.precedence)) l.lexes ++
      op.kind.lex :: parenLexes (decide (r.precedence < op.precedence + 1)) r.lexes
  | .func ps rs b _ =>
    TokenKind.kwFunc.lex :: TokenKind.openParen.lex :: (commaLexes (ps.map Param.lexes) ++
      TokenKind.closeParen.lex :: (resultsLexes (rs.map Ty.lexes) ++ b.lexes))

def Expr.lexesAll : List Expr → List (List Lex)
  | [] => []
  | e :: es => e.lexes :: Expr.lexesAll es

def Expr.lexesOpt : Option Expr → List Lex
  | none => []
  | some e => e.lexes

def Block.lexes : Block → List Lex
  | .mk ss _ => TokenKind.openCurly.lex ::
      (Stmt.blockLexes ss ++ [newlineLex, TokenKind.closeCurly.lex])

def Block.elseLexes : Option Block → List Lex
  | none => []
  | some b => TokenKind.kwElse.lex :: b.lexes

def Stmt.lexes : Stmt → List Lex
  | .empty _ => []
  | .single e semi _ => e.lexes ++ (if semi then [TokenKind.semicolon.lex] else [])
  | .varDecl ns (.typed t none) _ => TokenKind.kwVar.lex :: (Binding.lexesAll ns ++ t.lexes)
  | .varDecl ns (.typed t (some vs)) _ =>
    TokenKind.kwVar.lex :: (Binding.lexesAll ns ++ t.lexes ++
      TokenKind.assign.lex :: commaLexes (Expr.lexesAll vs))
  | .varDecl ns (.inferred vs) _ =>
    TokenKind.kwVar.lex :: (Binding.lexesAll ns ++ TokenKind.assign.lex ::
      commaLexes (Expr.lexesAll vs))
  | .block b => b.lexes
  | .ifChain bs o _ => [TokenKind.kwElse.lex].intercalate (Branch.lexesAll bs) ++ Block.elseLexes o
  | .loop .forever b _ => TokenKind.kwFor.lex :: b.lexes
  | .loop (.guarded c) b _ => TokenKind.kwFor.lex :: (c.lexes ++ b.lexes)
  | .loop (.clauses i c p) b _ =>
    TokenKind.kwFor.lex :: (Stmt.lexesOpt i ++ TokenKind.semicolon.lex :: (Expr.lexesOpt c ++
      TokenKind.semicolon.lex :: (Stmt.lexesOpt p ++ b.lexes)))
  | .breakLoop _ => [TokenKind.kwBreak.lex]
  | .continueLoop _ => [TokenKind.kwContinue.lex]
  | .ret [] _ => [TokenKind.kwReturn.lex]
  | .ret (v :: vs) _ => TokenKind.kwReturn.lex :: commaLexes (Expr.lexesAll (v :: vs))
  | .assign ts vs _ =>
    commaLexes (Expr.lexesAll ts) ++ TokenKind.assign.lex :: commaLexes (Expr.lexesAll vs)
  | .define ns vs _ =>
    Binding.lexesAll ns ++ TokenKind.define.lex :: commaLexes (Expr.lexesAll vs)

def Stmt.blockLexes : List Stmt → List Lex
  | [] => []
  | s :: ss => newlineLex :: (s.lexes ++ Stmt.blockLexes ss)

def Stmt.lexesOpt : Option Stmt → List Lex
  | none => []
  | some s => s.lexes

def Branch.lexesAll : List Branch → List (List Lex)
  | [] => []
  | .mk c b _ :: bs => (TokenKind.kwIf.lex :: (c.lexes ++ b.lexes)) :: Branch.lexesAll bs

end

def Program.lexes (p : Program) : List Lex := p.flatMap fun s => s.lexes ++ [newlineLex]

theorem Ty.lexesAll_eq_map (ts : List Ty) : Ty.lexesAll ts = ts.map Ty.lexes := by
  induction ts with
  | nil => rfl
  | cons t ts ih => simp [Ty.lexesAll, ih]

theorem Expr.lexesAll_eq_map (xs : List Expr) : Expr.lexesAll xs = xs.map Expr.lexes := by
  induction xs with
  | nil => rfl
  | cons x xs ih => simp [Expr.lexesAll, ih]

end ScriptFront
