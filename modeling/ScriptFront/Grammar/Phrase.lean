import ScriptFront.Grammar.Names
import ScriptFront.Grammar.Operand
/-!
# Reading expressions, statements and blocks

Expressions, statements and blocks nest in each other, since a function literal holds a block,
so one family of mutually recursive functions reads them. Expressions are read by levels, from
`||`, the loosest, to the prefix operators; each binary level reads operands of the next
tighter level and groups them to the left. Parentheses group without leaving a node, and
only hold expressions without a function literal at their top. A statement is read with its
end: an optional `;` and then a line feed, a closing brace or the end of file.

Each function has a rank; a call at the same cursor goes to a lower rank and every other call
to a cursor further on, which is the measure `c.ahead.length * 64 + rank`.
-/

set_option autoImplicit false

namespace ScriptFront

mutual

/-- An expression: a function literal, or an expression of the loosest level. -/
def readExpr (c : Cursor) : Read Expr c :=
  if c.sees .kwFunc then readFuncLit c else readOr c
termination_by c.ahead.length * 64 + 34
decreasing_by all_goals omega

def readFuncLit (c : Cursor) : Read Expr c :=
  match c.need .kwFunc with
  | .error e => .error e
  | .ok (t, ⟨d1, h1⟩) =>
    match Read.lift h1 (d1.need .openParen) with
    | .error e => .error e
    | .ok (_, ⟨d2, h2⟩) =>
      match Attempt.lift h2 (readParams d2) with
      | .error e => .error e
      | .ok (ps, ⟨d3, h3⟩) =>
        match Read.lift h3 (d3.need .closeParen) with
        | .error e => .error e
        | .ok (_, ⟨d4, h4⟩) =>
          match Attempt.lift h4 (readResults d4) with
          | .error e => .error e
          | .ok (rs, ⟨d5, h5⟩) =>
            match Read.lift h5 (readBlock d5) with
            | .error e => .error e
            | .ok (b, d6) => .ok (.func ps rs b t.start, d6)
termination_by c.ahead.length * 64 + 33
decreasing_by all_goals omega

def readOr (c : Cursor) : Read Expr c :=
  match readAnd c with
  | .error e => .error e
  | .ok (left, ⟨d, hd⟩) => Attempt.lift hd (readLevelRest .disjunction left d)
termination_by c.ahead.length * 64 + 32
decreasing_by all_goals omega

def readAnd (c : Cursor) : Read Expr c :=
  match readComparison c with
  | .error e => .error e
  | .ok (left, ⟨d, hd⟩) => Attempt.lift hd (readLevelRest .conjunction left d)
termination_by c.ahead.length * 64 + 31
decreasing_by all_goals omega

def readComparison (c : Cursor) : Read Expr c :=
  match readAdditive c with
  | .error e => .error e
  | .ok (left, ⟨d, hd⟩) => Attempt.lift hd (readLevelRest .comparison left d)
termination_by c.ahead.length * 64 + 30
decreasing_by all_goals omega

def readAdditive (c : Cursor) : Read Expr c :=
  match readMultiplicative c with
  | .error e => .error e
  | .ok (left, ⟨d, hd⟩) => Attempt.lift hd (readLevelRest .additive left d)
termination_by c.ahead.length * 64 + 29
decreasing_by all_goals omega

def readMultiplicative (c : Cursor) : Read Expr c :=
  match readUnary c with
  | .error e => .error e
  | .ok (left, ⟨d, hd⟩) => Attempt.lift hd (readLevelRest .multiplicative left d)
termination_by c.ahead.length * 64 + 28
decreasing_by all_goals omega

/-- After the operand `left`: while the current token is registered at level `l`, it and the
next operand, of the next tighter level, join `left` into one operation, which the level's
combiner builds. -/
def readLevelRest (l : Level) (left : Expr) (c : Cursor) : Attempt Expr c :=
  match c.takeInfix? l with
  | none => .ok (left, c.here)
  | some (t, ⟨d, hd⟩) =>
    let right : Read Expr d := match l with
      | .disjunction => readAnd d
      | .conjunction => readComparison d
      | .comparison => readAdditive d
      | .additive => readMultiplicative d
      | .multiplicative => readUnary d
    match Read.lift hd right with
    | .error e => .error e
    | .ok (r, ⟨d', hd'⟩) =>
      match l.combine t left r with
      | .error e => .error e
      | .ok x => Read.attempt (Attempt.lift hd' (readLevelRest l x d'))
termination_by c.ahead.length * 64 + 24
decreasing_by all_goals omega

def readUnary (c : Cursor) : Read Expr c :=
  match c.takeAny? prefixKinds with
  | some (t, ⟨d, hd⟩) =>
    match UnaryOp.ofKind? t.kind with
    | some op =>
      match Read.lift hd (readUnary d) with
      | .error e => .error e
      | .ok (x, d') => .ok (.unary op x t.start, d')
    | none => .error (unexpectedOperator "prefix" t)
  | none => readPrimary c
termination_by c.ahead.length * 64 + 27
decreasing_by all_goals omega

def readPrimary (c : Cursor) : Read Expr c :=
  match c.take? .identifier with
  | some (t, d) => .ok (.name t.text t.start, d)
  | none =>
    match c.take? .number with
    | some (t, d) =>
      match t.integer with
      | .ok x => .ok (x, d)
      | .error e => .error e
    | none =>
      match c.take? .kwTrue with
      | some (t, d) => .ok (.boolean true t.start, d)
      | none =>
        match c.take? .kwFalse with
        | some (t, d) => .ok (.boolean false t.start, d)
        | none =>
          if c.sees .openParen then readGroup c
          else if c.sees .string then
            .error ⟨.notImplemented "string literal expression", c.current.start⟩
          else .error (c.unexpected "expression")
termination_by c.ahead.length * 64 + 26
decreasing_by all_goals omega

def readGroup (c : Cursor) : Read Expr c :=
  match c.need .openParen with
  | .error e => .error e
  | .ok (_, ⟨d, hd⟩) =>
    match Read.lift hd (readOr d) with
    | .error e => .error e
    | .ok (x, ⟨d', hd'⟩) =>
      match Read.lift hd' (d'.need .closeParen) with
      | .error e => .error e
      | .ok (_, d'') => .ok (x, d'')
termination_by c.ahead.length * 64 + 25
decreasing_by all_goals omega

def readExprList (c : Cursor) : Read (List Expr) c :=
  match readExpr c with
  | .error e => .error e
  | .ok (x, ⟨d, hd⟩) =>
    match Attempt.lift hd (readMoreExprs d) with
    | .error e => .error e
    | .ok (xs, d') => .ok (x :: xs, d')
termination_by c.ahead.length * 64 + 36
decreasing_by all_goals omega

def readMoreExprs (c : Cursor) : Attempt (List Expr) c :=
  match c.take? .comma with
  | none => .ok ([], c.here)
  | some (_, ⟨d, hd⟩) =>
    match Read.lift hd (readExpr d) with
    | .error e => .error e
    | .ok (x, ⟨d', hd'⟩) =>
      match Attempt.lift hd' (readMoreExprs d') with
      | .error e => .error e
      | .ok (xs, d'') => .ok (x :: xs, Ahead.within d'')
termination_by c.ahead.length * 64 + 24
decreasing_by all_goals omega

def readBlock (c : Cursor) : Read Block c :=
  match c.need .openCurly with
  | .error e => .error e
  | .ok (t, ⟨d, hd⟩) =>
    match d.skip .newline with
    | ⟨d1, h1⟩ =>
      match Read.lift hd (Read.liftWithin h1 (readBlockBody d1)) with
      | .error e => .error e
      | .ok (ss, d2) => .ok (.mk ss t.start, d2)
termination_by c.ahead.length * 64 + 35
decreasing_by all_goals omega

def readBlockBody (c : Cursor) : Read (List Stmt) c :=
  match c.take? .closeCurly with
  | some (_, d) => .ok ([], d)
  | none =>
    if c.atEnd then .error (c.unexpected "`\x7d`")
    else
      match readStmt c with
      | .error e => .error e
      | .ok (s, ⟨d, hd⟩) =>
        match Read.lift hd (readBlockBody d) with
        | .error e => .error e
        | .ok (ss, d') => .ok (s :: ss, d')
termination_by c.ahead.length * 64 + 40
decreasing_by all_goals omega

/-- A statement with its end: a lone `;` or an empty line is an empty statement; any other
statement may be followed by `;` and must end its line. -/
def readStmt (c : Cursor) : Read Stmt c :=
  match c.take? .semicolon with
  | some (t, ⟨d, hd⟩) =>
    match d.finishLine with
    | .error e => .error e
    | .ok w => .ok (.empty t.start, Ahead.within' hd w)
  | none =>
    match c.take? .newline with
    | some (t, d) => .ok (.empty t.start, d)
    | none =>
      match readHead c with
      | .error e => .error e
      | .ok (s, ⟨d, hd⟩) =>
        match d.skip .semicolon with
        | ⟨d1, h1⟩ =>
          match d1.finishLine with
          | .error e => .error e
          | .ok w => .ok (s.closedBy (d.sees .semicolon), Ahead.within' hd (Within.trans h1 w))
termination_by c.ahead.length * 64 + 39
decreasing_by all_goals omega

def readHead (c : Cursor) : Read Stmt c :=
  match c.current.kind with
  | .kwVar => readVarDecl c
  | .kwIf => readIf c
  | .kwFor => readFor c
  | .kwBreak => readBreak c
  | .kwContinue => readContinue c
  | .kwReturn => readReturn c
  | .openCurly =>
    match readBlock c with
    | .error e => .error e
    | .ok (b, d) => .ok (.block b, d)
  | _ => readSimple c
termination_by c.ahead.length * 64 + 38
decreasing_by all_goals omega

/-- An expression statement, an assignment or a defining assignment. The first expression is
read once; the token after it tells which of the three follows. -/
def readSimple (c : Cursor) : Read Stmt c :=
  match readExpr c with
  | .error e => .error e
  | .ok (first, ⟨d, hd⟩) =>
    if d.sees .comma || d.sees .assign || d.sees .define then
      match Attempt.lift hd (readMoreExprs d) with
      | .error e => .error e
      | .ok (more, ⟨d1, h1⟩) =>
        match d1.take? .assign with
        | some (_, ⟨d2, h2⟩) =>
          match Read.lift h1 (Read.lift h2 (readExprList d2)) with
          | .error e => .error e
          | .ok (vs, d3) => .ok (.assign (first :: more) vs c.current.start, d3)
        | none =>
          match Read.lift h1 (d1.needOr .define (d1.unexpected "`=` or `:=`")) with
          | .error e => .error e
          | .ok (_, ⟨d2, h2⟩) =>
            match bindingsOf (first :: more) with
            | .error e => .error e
            | .ok names =>
              match Read.lift h2 (readExprList d2) with
              | .error e => .error e
              | .ok (vs, d3) => .ok (.define names vs c.current.start, d3)
    else .ok (.single first false c.current.start, ⟨d, hd⟩)
termination_by c.ahead.length * 64 + 37
decreasing_by all_goals omega

def readVarDecl (c : Cursor) : Read Stmt c :=
  match c.need .kwVar with
  | .error e => .error e
  | .ok (t, ⟨d, hd⟩) =>
    match Read.lift hd (readNames d) with
    | .error e => .error e
    | .ok (names, ⟨d1, h1⟩) =>
      match Attempt.lift h1 (readType? d1) with
      | .error e => .error e
      | .ok (some ty, ⟨d2, h2⟩) =>
        match d2.take? .assign with
        | some (_, ⟨d3, h3⟩) =>
          match Read.lift h2 (Read.lift h3 (readExprList d3)) with
          | .error e => .error e
          | .ok (vs, d4) => .ok (.varDecl names (.typed ty (some vs)) t.start, d4)
        | none => .ok (.varDecl names (.typed ty none) t.start, ⟨d2, h2⟩)
      | .ok (none, ⟨d2, h2⟩) =>
        match Read.lift h2 (d2.need .assign) with
        | .error e => .error e
        | .ok (_, ⟨d3, h3⟩) =>
          match Read.lift h3 (readExprList d3) with
          | .error e => .error e
          | .ok (vs, d4) => .ok (.varDecl names (.inferred vs) t.start, d4)
termination_by c.ahead.length * 64 + 36
decreasing_by all_goals omega

def readIf (c : Cursor) : Read Stmt c :=
  match c.need .kwIf with
  | .error e => .error e
  | .ok (t, ⟨d, hd⟩) =>
    match Read.lift hd (readBranches t.start d) with
    | .error e => .error e
    | .ok ((bs, o), d') => .ok (.ifChain bs o t.start, d')
termination_by c.ahead.length * 64 + 36
decreasing_by all_goals omega

/-- The branches of an `if` chain from a condition on, the first at `pos`: each `else if`
adds a branch, and an `else` before a block ends the chain with that block. -/
def readBranches (pos : Position) (c : Cursor) : Read (List Branch × Option Block) c :=
  match readExpr c with
  | .error e => .error e
  | .ok (cond, ⟨d, hd⟩) =>
    match Read.lift hd (readBlock d) with
    | .error e => .error e
    | .ok (body, ⟨d1, h1⟩) =>
      match d1.take? .kwElse with
      | none => .ok (([.mk cond body pos], none), ⟨d1, h1⟩)
      | some (_, ⟨d2, h2⟩) =>
        match d2.take? .kwIf with
        | some (t, ⟨d3, h3⟩) =>
          match Read.lift h1 (Read.lift h2 (Read.lift h3 (readBranches t.start d3))) with
          | .error e => .error e
          | .ok ((bs, o), d4) => .ok ((.mk cond body pos :: bs, o), d4)
        | none =>
          match Read.lift h1 (Read.lift h2 (readBlock d2)) with
          | .error e => .error e
          | .ok (b, d3) => .ok (([.mk cond body pos], some b), d3)
termination_by c.ahead.length * 64 + 36
decreasing_by all_goals omega

def readFor (c : Cursor) : Read Stmt c :=
  match c.need .kwFor with
  | .error e => .error e
  | .ok (t, ⟨d, hd⟩) =>
    if d.sees .openCurly then
      match Read.lift hd (readBlock d) with
      | .error e => .error e
      | .ok (b, d1) => .ok (.loop .forever b t.start, d1)
    else if d.sees .semicolon then
      match Read.lift hd (readClauses none d) with
      | .error e => .error e
      | .ok ((shape, b), d1) => .ok (.loop shape b t.start, d1)
    else
      match Read.lift hd (readSimple d) with
      | .error e => .error e
      | .ok (s, ⟨d1, h1⟩) =>
        if d1.sees .openCurly then
          match s with
          | .single x _ _ =>
            match Read.lift h1 (readBlock d1) with
            | .error e => .error e
            | .ok (b, d2) => .ok (.loop (.guarded x) b t.start, d2)
          | s => .error ⟨.statementAsValue s.render, s.pos⟩
        else
          match Read.lift h1 (readClauses (some s) d1) with
          | .error e => .error e
          | .ok ((shape, b), d2) => .ok (.loop shape b t.start, d2)
termination_by c.ahead.length * 64 + 36
decreasing_by all_goals omega

/-- The clauses of a `for` loop after its init statement `init`: `;`, an optional condition,
`;`, an optional post statement, which may not be a defining assignment, and the block. -/
def readClauses (init : Option Stmt) (c : Cursor) : Read (LoopShape × Block) c :=
  match c.needOr .semicolon (c.unexpected "`\x7b` or `;`") with
  | .error e => .error e
  | .ok (_, ⟨d, hd⟩) =>
    match Attempt.lift hd (readCond d) with
    | .error e => .error e
    | .ok (cond, ⟨d1, h1⟩) =>
      match Read.lift h1 (d1.need .semicolon) with
      | .error e => .error e
      | .ok (_, ⟨d2, h2⟩) =>
        match Attempt.lift h2 (readPost d2) with
        | .error e => .error e
        | .ok (post, ⟨d3, h3⟩) =>
          match Read.lift h3 (readBlock d3) with
          | .error e => .error e
          | .ok (b, d4) => .ok ((.clauses init cond post, b), d4)
termination_by c.ahead.length * 64 + 36
decreasing_by all_goals omega

def readCond (c : Cursor) : Attempt (Option Expr) c :=
  if c.sees .semicolon then .ok (none, c.here)
  else
    match readExpr c with
    | .error e => .error e
    | .ok (x, d) => .ok (some x, Ahead.within d)
termination_by c.ahead.length * 64 + 35
decreasing_by all_goals omega

def readPost (c : Cursor) : Attempt (Option Stmt) c :=
  if c.sees .openCurly then .ok (none, c.here)
  else
    match readSimple c with
    | .error e => .error e
    | .ok (.define .., _) => .error ⟨.defineInLoopPost, c.current.start⟩
    | .ok (s, d) => .ok (some s, Ahead.within d)
termination_by c.ahead.length * 64 + 38
decreasing_by all_goals omega

def readReturn (c : Cursor) : Read Stmt c :=
  match c.need .kwReturn with
  | .error e => .error e
  | .ok (t, ⟨d, hd⟩) =>
    if d.current.kind.endsReturn then .ok (.ret [] t.start, ⟨d, hd⟩)
    else
      match Read.lift hd (readExprList d) with
      | .error e => .error e
      | .ok (vs, d') => .ok (.ret vs t.start, d')
termination_by c.ahead.length * 64 + 36
decreasing_by all_goals omega

end

end ScriptFront
