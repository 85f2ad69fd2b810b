import ScriptFront.Grammar.Phrase
/-!
# Entry points of the grammar

Every grammar function can be run alone on a cursor: an expression of each level, a list of
expressions, each kind of statement, and types. A run gives the value read and the cursor
after it, or the error.
-/

set_option autoImplicit false

namespace ScriptFront

/-- A grammar function that can be run alone. -/
inductive Rule where
  | expr | orLevel | andLevel | comparison | additive | multiplicative | unary | primary
  | grouping | funcLit | exprList
  | stmt | simpleStmt | block | varDecl | ifChain | loop | breakStmt | continueStmt | returnStmt
  | type | typeList | results
deriving Repr, DecidableEq, Inhabited

inductive RuleValue where
  | expr (x : Expr)
  | exprs (xs : List Expr)
  | stmt (s : Stmt)
  | type (t : Option Ty)
  | types (ts : List Ty)

namespace Rule

def all : List Rule :=
  [expr, orLevel, andLevel, comparison, additive, multiplicative, unary, primary, grouping,
   funcLit, exprList, stmt, simpleStmt, block, varDecl, ifChain, loop, breakStmt, continueStmt,
   returnStmt, type, typeList, results]

def name : Rule → String
  | expr => "expr" | orLevel => "logical_or" | andLevel => "logical_and"
  | comparison => "comparison" | additive => "additive" | multiplicative => "multiplicative"
  | unary => "unary" | primary => "primary" | grouping => "grouping" | funcLit => "function"
  | exprList => "expr_list" | stmt => "stmt" | simpleStmt => "simple_stmt" | block => "block"
  | varDecl => "var_decl" | ifChain => "if" | loop => "for" | breakStmt => "break"
  | continueStmt => "continue" | returnStmt => "return" | type => "type"
  | typeList => "type_list" | results => "return_types"

def ofName? (s : String) : Option Rule := all.find? (·.name == s)

def wrap {α : Type} {c : Cursor} (f : α → RuleValue) :
    Except Error (α × {d : Cursor // d.ahead.length ≤ c.ahead.length}) →
    Except Error (RuleValue × Cursor)
  | .ok (a, d) => .ok (f a, d.1)
  | .error e => .error e

def wrapRead {α : Type} {c : Cursor} (f : α → RuleValue) : Read α c →
    Except Error (RuleValue × Cursor)
  | .ok (a, d) => .ok (f a, d.1)
  | .error e => .error e

def run (r : Rule) (c : Cursor) : Except Error (RuleValue × Cursor) :=
  match r with
  | expr => wrapRead .expr (readExpr c)
  | orLevel => wrapRead .expr (readOr c)
  | andLevel => wrapRead .expr (readAnd c)
  | comparison => wrapRead .expr (readComparison c)
  | additive => wrapRead .expr (readAdditive c)
  | multiplicative => wrapRead .expr (readMultiplicative c)
  | unary => wrapRead .expr (readUnary c)
  | primary => wrapRead .expr (readPrimary c)
  | grouping => wrapRead .expr (readGroup c)
  | funcLit => wrapRead .expr (readFuncLit c)
  | exprList => wrapRead .exprs (readExprList c)
  | stmt => wrapRead .stmt (readStmt c)
  | simpleStmt => wrapRead .stmt (readSimple c)
  | block => wrapRead (fun b => .stmt (.block b)) (readBlock c)
  | varDecl => wrapRead .stmt (readVarDecl c)
  | ifChain => wrapRead .stmt (readIf c)
  | loop => wrapRead .stmt (readFor c)
  | breakStmt => wrapRead .stmt (readBreak c)
  | continueStmt => wrapRead .stmt (readContinue c)
  | returnStmt => wrapRead .stmt (readReturn c)
  | type => wrap .type (readType? c)
  | typeList => wrap .types (readTypeList c)
  | results => wrap .types (readResults c)

end Rule

end ScriptFront
