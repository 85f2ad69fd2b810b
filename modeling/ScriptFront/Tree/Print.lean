import ScriptFront.Tree.Operator
/-!
# Printing trees as source

Trees print back to source that reads as the same tree. An operand is put between parentheses
only where it must be: a left operand or a prefix operand whose precedence is below its
parent's, and a right operand whose precedence is not above its parent's, since operators of
one level group to the left. A program prints each statement followed by a line feed.

A block prints as `{` on the line of what opens it, then the text of each statement cut at its
line feeds, each piece on a line of its own after four spaces, or alone when it is empty, and
`}` on a line of its own. A block inside a block is indented again when the outer block cuts the
text of the statement that holds it, so a line inside `d` blocks ends up `4 * d` spaces in.
-/

set_option autoImplicit false

namespace ScriptFront

def parenthesize (paren : Bool) (text : String) : String :=
  if paren then "(" ++ text ++ ")" else text

def Param.render (p : Param) : String := p.name ++ " " ++ p.ty.render

def Binding.renderAll (bs : List Binding) : String := ", ".intercalate (bs.map (·.name))

/-- The text of a statement as a block writes it: cut at each line feed, every piece on a line of
its own, after four spaces unless the piece is empty. -/
def blockText (text : String) : String :=
  String.join ((text.toList.splitOn '\n').map fun line =>
    if line.isEmpty then "\n" else "    " ++ String.ofList line ++ "\n")

mutual

def Expr.render : Expr → String
  | .name n _ => n
  | .integer v _ => toString v
  | .boolean b _ => if b then "true" else "false"
  | .unary op e _ =>
    op.symbol ++ parenthesize (decide (e.precedence < UnaryOp.precedence)) e.render
  | .binary op l r _ =>
    parenthesize (decide (l.precedence < op.precedence)) l.render ++ " " ++ op.symbol ++
      " " ++ parenthesize (decide (r.precedence < op.precedence + 1)) r.render
  | .func ps rs b _ =>
    "func(" ++ ", ".intercalate (ps.map Param.render) ++ ")" ++ resultsText (rs.map Ty.render) ++
      " " ++ b.render

def Expr.renderAll : List Expr → List String
  | [] => []
  | e :: es => e.render :: Expr.renderAll es

def Expr.renderOpt : Option Expr → String
  | none => ""
  | some e => e.render

def Block.render : Block → String
  | .mk ss _ => "\x7b\n" ++ Stmt.blockTexts ss ++ "\x7d"

def Block.renderElse : Option Block → String
  | none => ""
  | some b => " else " ++ b.render

def Stmt.render : Stmt → String
  | .empty _ => ""
  | .single e semi _ => e.render ++ (if semi then ";" else "")
  | .varDecl ns (.typed t none) _ => "var " ++ Binding.renderAll ns ++ " " ++ t.render
  | .varDecl ns (.typed t (some vs)) _ =>
    "var " ++ Binding.renderAll ns ++ " " ++ t.render ++ " = " ++
      ", ".intercalate (Expr.renderAll vs)
  | .varDecl ns (.inferred vs) _ =>
    "var " ++ Binding.renderAll ns ++ " = " ++ ", ".intercalate (Expr.renderAll vs)
  | .block b => b.render
  | .ifChain bs o _ => " else ".intercalate (Branch.renderAll bs) ++ Block.renderElse o
  | .loop .forever b _ => "for " ++ b.render
  | .loop (.guarded c) b _ => "for " ++ c.render ++ " " ++ b.render
  | .loop (.clauses i c p) b _ =>
    "for " ++ Stmt.renderOpt i ++ "; " ++ Expr.renderOpt c ++ "; " ++ Stmt.renderPost p ++
      b.render
  | .breakLoop _ => "break"
  | .continueLoop _ => "continue"
  | .ret [] _ => "return"
  | .ret (v :: vs) _ => "return " ++ ", ".intercalate (Expr.renderAll (v :: vs))
  | .assign ts vs _ =>
    ", ".intercalate (Expr.renderAll ts) ++ " = " ++ ", ".intercalate (Expr.renderAll vs)
  | .define ns vs _ => Binding.renderAll ns ++ " := " ++ ", ".intercalate (Expr.renderAll vs)

def Stmt.blockTexts : List Stmt → String
  | [] => ""
  | s :: ss => blockText s.render ++ Stmt.blockTexts ss

def Stmt.renderOpt : Option Stmt → String
  | none => ""
  | some s => s.render

def Stmt.renderPost : Option Stmt → String
  | none => ""
  | some s => s.render ++ " "

def Branch.renderAll : List Branch → List String
  | [] => []
  | .mk c b _ :: bs => ("if " ++ c.render ++ " " ++ b.render) :: Branch.renderAll bs

end

/-- A program as source: each statement followed by a line feed. -/
def Program.render (p : Program) : String := String.join (p.map fun s => s.render ++ "\n")

end ScriptFront
