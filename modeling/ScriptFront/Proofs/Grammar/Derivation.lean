import ScriptFront.Proofs.Grammar.Readers
/-!
# Derivations of the readers

`Reader.Reads r c v d` says that reader `r`, started at `c`, reads `v` and stops at `d`, by one
of the ways the grammar allows. There is one constructor for each way a reader can succeed, with
the tokens it looks at as premises, so a fact about every successful reading is proved by
induction on the derivation, one case per way of reading. The derivations are exactly the
successful runs: `Reads.run` and `Reader.reads_of_run`.
-/

set_option autoImplicit false

namespace ScriptFront

namespace Reader

def paramStep (pending : List Binding) (done : List Param) (b : Binding) :
    Option Ty → List Binding × List Param
  | some ty => ([], done ++ (pending ++ [b]).map (Binding.typed ty))
  | none => (pending ++ [b], done)

/-- The ways each reader succeeds: reader, start, what it reads, and where it stops. -/
inductive Reads : Reader → Cursor → Outcome → Cursor → Prop where
  | typeInt {c : Cursor} : c.current.kind = .kwInt →
      Reads type c (.type (some (.basic .int))) c.next
  | typeBool {c : Cursor} : c.current.kind = .kwBool →
      Reads type c (.type (some (.basic .bool))) c.next
  | typeFunc {c : Cursor} {t : Ty} {d : Cursor} : c.current.kind = .kwFunc →
      Reads funcType c (.funcType t) d → Reads type c (.type (some t)) d
  | typeNone {c : Cursor} : c.current.kind ≠ .kwInt → c.current.kind ≠ .kwBool →
      c.current.kind ≠ .kwFunc → Reads type c (.type none) c
  | funcType {c : Cursor} {ps : List Ty} {d : Cursor} {rs : List Ty} {e : Cursor} :
      c.current.kind = .kwFunc → c.next.current.kind = .openParen →
      Reads typeList c.next.next (.types ps) d → d.current.kind = .closeParen →
      Reads results d.next (.types rs) e → Reads funcType c (.funcType (.func ps rs)) e
  | typeListNil {c d : Cursor} : Reads type c (.type none) d → Reads typeList c (.types []) d
  | typeListCons {c : Cursor} {t : Ty} {d : Cursor} {ts : List Ty} {e : Cursor} :
      Reads type c (.type (some t)) d → Reads moreTypes d (.types ts) e →
      Reads typeList c (.types (t :: ts)) e
  | moreTypesCons {c : Cursor} {t : Ty} {d : Cursor} {ts : List Ty} {e : Cursor} :
      c.current.kind = .comma → Reads type c.next (.type (some t)) d →
      Reads moreTypes d (.types ts) e → Reads moreTypes c (.types (t :: ts)) e
  | moreTypesNil {c : Cursor} : c.current.kind ≠ .comma → Reads moreTypes c (.types []) c
  | resultsList {c : Cursor} {ts : List Ty} {d : Cursor} : c.current.kind = .openParen →
      Reads typeList c.next (.types ts) d → d.current.kind = .closeParen →
      Reads results c (.types ts) d.next
  | resultsBare {c : Cursor} {t : Option Ty} {d : Cursor} : c.current.kind ≠ .openParen →
      Reads type c (.type t) d → Reads results c (.types t.toList) d
  | namesMore {c : Cursor} {bs : List Binding} {d : Cursor} : c.current.kind = .identifier →
      c.next.current.kind = .comma → Reads names c.next.next (.names bs) d →
      Reads names c (.names (c.current.binding :: bs)) d
  | namesLast {c : Cursor} : c.current.kind = .identifier → c.next.current.kind ≠ .comma →
      Reads names c (.names [c.current.binding]) c.next
  | paramRunMore {pending : List Binding} {done : List Param} {c : Cursor} {ty : Option Ty}
      {d : Cursor} {ps : List Param} {e : Cursor} : c.current.kind = .identifier →
      Reads type c.next (.type ty) d → d.current.kind = .comma →
      Reads (paramRun (paramStep pending done c.current.binding ty).1
        (paramStep pending done c.current.binding ty).2) d.next (.params ps) e →
      Reads (paramRun pending done) c (.params ps) e
  | paramRunLast {pending : List Binding} {done : List Param} {c : Cursor} {ty : Option Ty}
      {d : Cursor} {ps : List Param} : c.current.kind = .identifier →
      Reads type c.next (.type ty) d → d.current.kind ≠ .comma →
      paramStep pending done c.current.binding ty = ([], ps) →
      Reads (paramRun pending done) c (.params ps) d
  | paramsNone {c : Cursor} : c.current.kind = .closeParen → Reads params c (.params []) c
  | paramsSome {c : Cursor} {v : Outcome} {d : Cursor} : c.current.kind ≠ .closeParen →
      Reads (paramRun [] []) c v d → Reads params c v d
  | levelRestStop {l : Level} {left : Expr} {c : Cursor} : c.opAt? l = none →
      Reads (levelRest l left) c (.expr left) c
  | levelRestStep {l : Level} {left : Expr} {c : Cursor} {op : BinaryOp} {r : Expr}
      {d : Cursor} {v : Outcome} {e : Cursor} : c.opAt? l = some op →
      Reads (operand l) c.next (.expr r) d →
      Reads (levelRest l (.binary op left r c.current.start)) d v e →
      Reads (levelRest l left) c v e
  | moreExprsCons {c : Cursor} {x : Expr} {d : Cursor} {xs : List Expr} {e : Cursor} :
      c.current.kind = .comma → Reads expr c.next (.expr x) d →
      Reads moreExprs d (.exprs xs) e → Reads moreExprs c (.exprs (x :: xs)) e
  | moreExprsNil {c : Cursor} : c.current.kind ≠ .comma → Reads moreExprs c (.exprs []) c
  | group {c : Cursor} {x : Expr} {d : Cursor} : c.current.kind = .openParen →
      Reads (level .disjunction) c.next (.expr x) d → d.current.kind = .closeParen →
      Reads group c (.expr x) d.next
  | primaryName {c : Cursor} : c.current.kind = .identifier →
      Reads primary c (.expr (.name c.current.text c.current.start)) c.next
  | primaryInteger {c : Cursor} {x : Expr} : c.current.kind = .number →
      c.current.integer = .ok x → Reads primary c (.expr x) c.next
  | primaryTrue {c : Cursor} : c.current.kind = .kwTrue →
      Reads primary c (.expr (.boolean true c.current.start)) c.next
  | primaryFalse {c : Cursor} : c.current.kind = .kwFalse →
      Reads primary c (.expr (.boolean false c.current.start)) c.next
  | primaryGroup {c : Cursor} {v : Outcome} {d : Cursor} : c.current.kind = .openParen →
      Reads group c v d → Reads primary c v d
  | unaryOp {c : Cursor} {op : UnaryOp} {x : Expr} {d : Cursor} :
      UnaryOp.ofKind? c.current.kind = some op → Reads unary c.next (.expr x) d →
      Reads unary c (.expr (.unary op x c.current.start)) d
  | unaryPrimary {c : Cursor} {v : Outcome} {d : Cursor} :
      UnaryOp.ofKind? c.current.kind = none → Reads primary c v d → Reads unary c v d
  | level {l : Level} {c : Cursor} {x : Expr} {d : Cursor} {v : Outcome} {e : Cursor} :
      Reads (operand l) c (.expr x) d → Reads (levelRest l x) d v e → Reads (level l) c v e
  | funcLit {c : Cursor} {ps : List Param} {d : Cursor} {rs : List Ty} {e : Cursor} {b : Block}
      {f : Cursor} : c.current.kind = .kwFunc → c.next.current.kind = .openParen →
      Reads params c.next.next (.params ps) d → d.current.kind = .closeParen →
      Reads results d.next (.types rs) e → Reads block e (.block b) f →
      Reads funcLit c (.expr (.func ps rs b c.current.start)) f
  | exprFunc {c : Cursor} {v : Outcome} {d : Cursor} : c.current.kind = .kwFunc →
      Reads funcLit c v d → Reads expr c v d
  | exprOr {c : Cursor} {v : Outcome} {d : Cursor} : c.current.kind ≠ .kwFunc →
      Reads (level .disjunction) c v d → Reads expr c v d
  | exprList {c : Cursor} {x : Expr} {d : Cursor} {xs : List Expr} {e : Cursor} :
      Reads expr c (.expr x) d → Reads moreExprs d (.exprs xs) e →
      Reads exprList c (.exprs (x :: xs)) e
  | condNone {c : Cursor} : c.current.kind = .semicolon → Reads cond c (.cond none) c
  | condSome {c : Cursor} {x : Expr} {d : Cursor} : c.current.kind ≠ .semicolon →
      Reads expr c (.expr x) d → Reads cond c (.cond (some x)) d
  | branchesElseIf {pos : Position} {c : Cursor} {x : Expr} {d : Cursor} {b : Block} {e : Cursor}
      {bs : List Branch} {o : Option Block} {f : Cursor} :
      Reads expr c (.expr x) d → Reads block d (.block b) e → e.current.kind = .kwElse →
      e.next.current.kind = .kwIf →
      Reads (branches e.next.current.start) e.next.next (.chain (bs, o)) f →
      Reads (branches pos) c (.chain (.mk x b pos :: bs, o)) f
  | branchesElse {pos : Position} {c : Cursor} {x : Expr} {d : Cursor} {b : Block} {e : Cursor}
      {b' : Block} {f : Cursor} :
      Reads expr c (.expr x) d → Reads block d (.block b) e → e.current.kind = .kwElse →
      e.next.current.kind ≠ .kwIf → Reads block e.next (.block b') f →
      Reads (branches pos) c (.chain ([.mk x b pos], some b')) f
  | branchesEnd {pos : Position} {c : Cursor} {x : Expr} {d : Cursor} {b : Block} {e : Cursor} :
      Reads expr c (.expr x) d → Reads block d (.block b) e → e.current.kind ≠ .kwElse →
      Reads (branches pos) c (.chain ([.mk x b pos], none)) e
  | simpleSingle {c : Cursor} {x : Expr} {d : Cursor} : Reads expr c (.expr x) d →
      d.current.kind ≠ .comma → d.current.kind ≠ .assign → d.current.kind ≠ .define →
      Reads simple c (.stmt (.single x false c.current.start)) d
  | simpleAssign {c : Cursor} {x : Expr} {d : Cursor} {xs : List Expr} {e : Cursor}
      {vs : List Expr} {f : Cursor} : Reads expr c (.expr x) d →
      (d.current.kind = .comma ∨ d.current.kind = .assign ∨ d.current.kind = .define) →
      Reads moreExprs d (.exprs xs) e → e.current.kind = .assign →
      Reads exprList e.next (.exprs vs) f →
      Reads simple c (.stmt (.assign (x :: xs) vs c.current.start)) f
  | simpleDefine {c : Cursor} {x : Expr} {d : Cursor} {xs : List Expr} {e : Cursor}
      {ns : List Binding} {vs : List Expr} {f : Cursor} : Reads expr c (.expr x) d →
      (d.current.kind = .comma ∨ d.current.kind = .assign ∨ d.current.kind = .define) →
      Reads moreExprs d (.exprs xs) e → e.current.kind = .define →
      bindingsOf (x :: xs) = .ok ns → Reads exprList e.next (.exprs vs) f →
      Reads simple c (.stmt (.define ns vs c.current.start)) f
  | block {c : Cursor} {ss : List Stmt} {d : Cursor} : c.current.kind = .openCurly →
      Reads blockBody (if c.next.current.kind = .newline then c.next.next else c.next)
        (.stmts ss) d →
      Reads block c (.block (.mk ss c.current.start)) d
  | blockBodyEnd {c : Cursor} : c.current.kind = .closeCurly →
      Reads blockBody c (.stmts []) c.next
  | blockBodyStmt {c : Cursor} {s : Stmt} {d : Cursor} {ss : List Stmt} {e : Cursor} :
      c.current.kind ≠ .closeCurly → c.atEnd = false → Reads stmt c (.stmt s) d →
      Reads blockBody d (.stmts ss) e → Reads blockBody c (.stmts (s :: ss)) e
  | varDeclTyped {c : Cursor} {bs : List Binding} {d : Cursor} {ty : Ty} {e : Cursor}
      {vs : List Expr} {f : Cursor} : c.current.kind = .kwVar →
      Reads names c.next (.names bs) d → Reads type d (.type (some ty)) e →
      e.current.kind = .assign → Reads exprList e.next (.exprs vs) f →
      Reads varDecl c (.stmt (.varDecl bs (.typed ty (some vs)) c.current.start)) f
  | varDeclBare {c : Cursor} {bs : List Binding} {d : Cursor} {ty : Ty} {e : Cursor} :
      c.current.kind = .kwVar → Reads names c.next (.names bs) d →
      Reads type d (.type (some ty)) e → e.current.kind ≠ .assign →
      Reads varDecl c (.stmt (.varDecl bs (.typed ty none) c.current.start)) e
  | varDeclInferred {c : Cursor} {bs : List Binding} {d e : Cursor} {vs : List Expr}
      {f : Cursor} : c.current.kind = .kwVar → Reads names c.next (.names bs) d →
      Reads type d (.type none) e → e.current.kind = .assign →
      Reads exprList e.next (.exprs vs) f →
      Reads varDecl c (.stmt (.varDecl bs (.inferred vs) c.current.start)) f
  | ifChain {c : Cursor} {bs : List Branch} {o : Option Block} {d : Cursor} :
      c.current.kind = .kwIf → Reads (branches c.current.start) c.next (.chain (bs, o)) d →
      Reads ifChain c (.stmt (.ifChain bs o c.current.start)) d
  | loopForever {c : Cursor} {b : Block} {d : Cursor} : c.current.kind = .kwFor →
      c.next.current.kind = .openCurly → Reads block c.next (.block b) d →
      Reads loop c (.stmt (.loop .forever b c.current.start)) d
  | loopClauses {c : Cursor} {shape : LoopShape} {b : Block} {d : Cursor} :
      c.current.kind = .kwFor → c.next.current.kind = .semicolon →
      Reads (clauses none) c.next (.clauses (shape, b)) d →
      Reads loop c (.stmt (.loop shape b c.current.start)) d
  | loopGuarded {c : Cursor} {x : Expr} {q : Bool} {p : Position} {d : Cursor} {b : Block}
      {e : Cursor} : c.current.kind = .kwFor → c.next.current.kind ≠ .openCurly →
      c.next.current.kind ≠ .semicolon → Reads simple c.next (.stmt (.single x q p)) d →
      d.current.kind = .openCurly → Reads block d (.block b) e →
      Reads loop c (.stmt (.loop (.guarded x) b c.current.start)) e
  | loopInit {c : Cursor} {s : Stmt} {d : Cursor} {shape : LoopShape} {b : Block} {e : Cursor} :
      c.current.kind = .kwFor → c.next.current.kind ≠ .openCurly →
      c.next.current.kind ≠ .semicolon → Reads simple c.next (.stmt s) d →
      d.current.kind ≠ .openCurly → Reads (clauses (some s)) d (.clauses (shape, b)) e →
      Reads loop c (.stmt (.loop shape b c.current.start)) e
  | clauses {init : Option Stmt} {c : Cursor} {x : Option Expr} {d : Cursor} {p : Option Stmt}
      {e : Cursor} {b : Block} {f : Cursor} : c.current.kind = .semicolon →
      Reads cond c.next (.cond x) d → d.current.kind = .semicolon →
      Reads post d.next (.post p) e → Reads block e (.block b) f →
      Reads (clauses init) c (.clauses (.clauses init x p, b)) f
  | postNone {c : Cursor} : c.current.kind = .openCurly → Reads post c (.post none) c
  | postSome {c : Cursor} {s : Stmt} {d : Cursor} : c.current.kind ≠ .openCurly →
      Reads simple c (.stmt s) d → (∀ ns vs p, s ≠ .define ns vs p) →
      Reads post c (.post (some s)) d
  | retEmpty {c : Cursor} : c.current.kind = .kwReturn → c.next.current.kind.endsReturn = true →
      Reads ret c (.stmt (.ret [] c.current.start)) c.next
  | retValues {c : Cursor} {vs : List Expr} {d : Cursor} : c.current.kind = .kwReturn →
      c.next.current.kind.endsReturn = false → Reads exprList c.next (.exprs vs) d →
      Reads ret c (.stmt (.ret vs c.current.start)) d
  | headVar {c : Cursor} {v : Outcome} {d : Cursor} : c.current.kind = .kwVar →
      Reads varDecl c v d → Reads head c v d
  | headIf {c : Cursor} {v : Outcome} {d : Cursor} : c.current.kind = .kwIf →
      Reads ifChain c v d → Reads head c v d
  | headFor {c : Cursor} {v : Outcome} {d : Cursor} : c.current.kind = .kwFor →
      Reads loop c v d → Reads head c v d
  | headBreak {c : Cursor} : c.current.kind = .kwBreak →
      Reads head c (.stmt (.breakLoop c.current.start)) c.next
  | headContinue {c : Cursor} : c.current.kind = .kwContinue →
      Reads head c (.stmt (.continueLoop c.current.start)) c.next
  | headReturn {c : Cursor} {v : Outcome} {d : Cursor} : c.current.kind = .kwReturn →
      Reads ret c v d → Reads head c v d
  | headBlock {c : Cursor} {b : Block} {d : Cursor} : c.current.kind = .openCurly →
      Reads block c (.block b) d → Reads head c (.stmt (.block b)) d
  | headSimple {c : Cursor} {v : Outcome} {d : Cursor} :
      c.current.kind ∉ [.kwVar, .kwIf, .kwFor, .kwBreak, .kwContinue, .kwReturn, .openCurly] →
      Reads simple c v d → Reads head c v d
  | stmtSemicolon {c d : Cursor} : c.current.kind = .semicolon → c.next.endLine = .ok d →
      Reads stmt c (.stmt (.empty c.current.start)) d
  | stmtNewline {c : Cursor} : c.current.kind = .newline →
      Reads stmt c (.stmt (.empty c.current.start)) c.next
  | stmtHead {c : Cursor} {s : Stmt} {d e : Cursor} : c.current.kind ≠ .semicolon →
      c.current.kind ≠ .newline → Reads head c (.stmt s) d →
      (if d.current.kind = .semicolon then d.next else d).endLine = .ok e →
      Reads stmt c (.stmt (s.closedBy (d.sees .semicolon))) e

/-- A derivation is what the reader gives. -/
theorem Reads.run {r : Reader} {c : Cursor} {v : Outcome} {d : Cursor} (h : Reads r c v d) :
    r.run c = .ok (v, d) := by
  induction h with
  | typeInt hk => simp [Reader.run, readType?_eq, hk]
  | typeBool hk => simp [Reader.run, readType?_eq, hk]
  | typeFunc hk _ ih =>
    simp [Reader.run, Except.map_eq_ok] at ih
    simp [Reader.run, readType?_eq, hk, ih]
  | typeNone h1 h2 h3 => simp [Reader.run, readType?_eq, h1, h2, h3]
  | funcType h1 h2 _ h4 _ ih1 ih2 =>
    simp [Reader.run, Except.map_eq_ok] at ih1 ih2
    simp [Reader.run, readFuncType_eq, h1, h2, h4, ih1, ih2, Cursor.expect, Cursor.expectOr]
  | typeListNil _ ih =>
    simp [Reader.run, Except.map_eq_ok] at ih
    simp [Reader.run, readTypeList_eq, ih]
  | typeListCons _ _ ih1 ih2 =>
    simp [Reader.run, Except.map_eq_ok] at ih1 ih2
    simp [Reader.run, readTypeList_eq, ih1, ih2]
  | moreTypesCons hk _ _ ih1 ih2 =>
    simp [Reader.run, Except.map_eq_ok] at ih1 ih2
    rw [Reader.run, readMoreTypes_eq]
    simp [hk, ih1, ih2]
  | moreTypesNil hk =>
    rw [Reader.run, readMoreTypes_eq]
    simp [hk]
  | resultsList hk _ h2 ih =>
    simp [Reader.run, Except.map_eq_ok] at ih
    simp [Reader.run, readResults_eq, hk, h2, ih, Cursor.expect, Cursor.expectOr]
  | resultsBare hk _ ih =>
    simp [Reader.run, Except.map_eq_ok] at ih
    simp [Reader.run, readResults_eq, hk, ih]
  | namesMore h1 h2 _ ih =>
    simp [Reader.run, Except.map_eq_ok] at ih
    rw [Reader.run, readNames_eq]
    simp [h1, h2, ih, Cursor.expectOr]
  | namesLast h1 h2 =>
    rw [Reader.run, readNames_eq]
    simp [h1, h2, Cursor.expectOr]
  | @paramRunMore pending done c ty d ps e h1 _ h2 _ ih1 ih2 =>
    simp [Reader.run, Except.map_eq_ok] at ih1
    rw [Reader.run, readParamRun_eq]
    simp only [Reader.run] at ih2
    cases ty <;> simp [paramStep] at ih2 <;> simp [h1, h2, ih1, ih2, Cursor.expect, Cursor.expectOr]
  | @paramRunLast pending done c ty d ps h1 _ h2 h3 ih =>
    simp [Reader.run, Except.map_eq_ok] at ih
    rw [Reader.run, readParamRun_eq]
    cases ty <;> simp [paramStep] at h3
    simp [h1, h2, h3, ih, Cursor.expect, Cursor.expectOr]
  | paramsNone hk =>
    rw [Reader.run, readParams_eq]
    simp [hk]
  | paramsSome hk _ ih =>
    rw [Reader.run, readParams_eq]
    simpa [hk, Reader.run] using ih
  | levelRestStop hop =>
    rw [Reader.run, readLevelRest_eq]
    simp [hop]
  | @levelRestStep l left c op r d v e hop _ _ ih1 ih2 =>
    rw [run_operand] at ih1
    simp [Except.map_eq_ok] at ih1
    rw [Reader.run, readLevelRest_eq]
    simpa [hop, ih1, Reader.run] using ih2
  | moreExprsCons hk _ _ ih1 ih2 =>
    simp [Reader.run, Except.map_eq_ok] at ih1 ih2
    rw [Reader.run, readMoreExprs_eq]
    simp [hk, ih1, ih2]
  | moreExprsNil hk =>
    rw [Reader.run, readMoreExprs_eq]
    simp [hk]
  | group h1 _ h2 ih =>
    simp [Reader.run, Level.read, Except.map_eq_ok] at ih
    simp [Reader.run, readGroup_eq, h1, h2, ih, Cursor.expect, Cursor.expectOr]
  | primaryName hk => simp [Reader.run, readPrimary_eq, hk]
  | primaryInteger hk hx => simp [Reader.run, readPrimary_eq, hk, hx]
  | primaryTrue hk => simp [Reader.run, readPrimary_eq, hk]
  | primaryFalse hk => simp [Reader.run, readPrimary_eq, hk]
  | primaryGroup hk _ ih =>
    rw [Reader.run, readPrimary_eq]
    simpa [hk, Reader.run] using ih
  | unaryOp hop _ ih =>
    simp [Reader.run, Except.map_eq_ok] at ih
    rw [Reader.run, readUnary_eq]
    simp [hop, ih]
  | unaryPrimary hop _ ih =>
    rw [Reader.run, readUnary_eq]
    simpa [hop, Reader.run] using ih
  | @level l c x d v e _ _ ih1 ih2 =>
    rw [run_operand] at ih1
    simp [Except.map_eq_ok] at ih1
    rw [Reader.run, Level.read_eq]
    simpa [ih1, Reader.run] using ih2
  | funcLit h1 h2 _ h4 _ _ ih1 ih2 ih3 =>
    simp [Reader.run, Except.map_eq_ok] at ih1 ih2 ih3
    simp [Reader.run, readFuncLit_eq, h1, h2, h4, ih1, ih2, ih3, Cursor.expect, Cursor.expectOr]
  | exprFunc hk _ ih =>
    rw [Reader.run, readExpr_eq]
    simpa [hk, Reader.run] using ih
  | exprOr hk _ ih =>
    rw [Reader.run, readExpr_eq]
    simpa [hk, Reader.run, Level.read, Reader.run] using ih
  | exprList _ _ ih1 ih2 =>
    simp [Reader.run, Except.map_eq_ok] at ih1 ih2
    simp [Reader.run, readExprList_eq, ih1, ih2]
  | condNone hk =>
    rw [Reader.run, readCond_eq]
    simp [hk]
  | condSome hk _ ih =>
    simp [Reader.run, Except.map_eq_ok] at ih
    rw [Reader.run, readCond_eq]
    simp [hk, ih]
  | branchesElseIf _ _ h1 h2 _ ih1 ih2 ih3 =>
    simp [Reader.run, Except.map_eq_ok] at ih1 ih2 ih3
    rw [Reader.run, readBranches_eq]
    simp [h1, h2, ih1, ih2, ih3]
  | branchesElse _ _ h1 h2 _ ih1 ih2 ih3 =>
    simp [Reader.run, Except.map_eq_ok] at ih1 ih2 ih3
    rw [Reader.run, readBranches_eq]
    simp [h1, h2, ih1, ih2, ih3]
  | branchesEnd _ _ h1 ih1 ih2 =>
    simp [Reader.run, Except.map_eq_ok] at ih1 ih2
    rw [Reader.run, readBranches_eq]
    simp [h1, ih1, ih2]
  | simpleSingle _ h1 h2 h3 ih =>
    simp [Reader.run, Except.map_eq_ok] at ih
    simp [Reader.run, readSimple_eq, h1, h2, h3, ih]
  | simpleAssign _ hd _ he _ ih1 ih2 ih3 =>
    simp [Reader.run, Except.map_eq_ok] at ih1 ih2 ih3
    rw [Reader.run, readSimple_eq]
    simp [or_assoc, hd, he, ih1, ih2, ih3]
  | simpleDefine _ hd _ he hn _ ih1 ih2 ih3 =>
    simp [Reader.run, Except.map_eq_ok] at ih1 ih2 ih3
    rw [Reader.run, readSimple_eq]
    simp [or_assoc, hd, he, hn, ih1, ih2, ih3, Cursor.expectOr]
  | block hk _ ih =>
    simp [Reader.run, Except.map_eq_ok] at ih
    simp [Reader.run, readBlock_eq, hk, ih, Cursor.expect, Cursor.expectOr]
  | blockBodyEnd hk =>
    rw [Reader.run, readBlockBody_eq]
    simp [hk]
  | blockBodyStmt h1 h2 _ _ ih1 ih2 =>
    simp [Reader.run, Except.map_eq_ok] at ih1 ih2
    rw [Reader.run, readBlockBody_eq]
    simp [h1, h2, ih1, ih2]
  | varDeclTyped hk _ _ he _ ih1 ih2 ih3 =>
    simp [Reader.run, Except.map_eq_ok] at ih1 ih2 ih3
    simp [Reader.run, readVarDecl_eq, hk, he, ih1, ih2, ih3, Cursor.expect, Cursor.expectOr]
  | varDeclBare hk _ _ he ih1 ih2 =>
    simp [Reader.run, Except.map_eq_ok] at ih1 ih2
    simp [Reader.run, readVarDecl_eq, hk, he, ih1, ih2, Cursor.expect, Cursor.expectOr]
  | varDeclInferred hk _ _ he _ ih1 ih2 ih3 =>
    simp [Reader.run, Except.map_eq_ok] at ih1 ih2 ih3
    simp [Reader.run, readVarDecl_eq, hk, he, ih1, ih2, ih3, Cursor.expect, Cursor.expectOr]
  | ifChain hk _ ih =>
    simp [Reader.run, Except.map_eq_ok] at ih
    simp [Reader.run, readIf_eq, hk, ih, Cursor.expect, Cursor.expectOr]
  | loopForever hk h1 _ ih =>
    simp [Reader.run, Except.map_eq_ok] at ih
    simp [Reader.run, readFor_eq, hk, h1, ih, Cursor.expect, Cursor.expectOr]
  | loopClauses hk h1 _ ih =>
    simp [Reader.run, Except.map_eq_ok] at ih
    simp [Reader.run, readFor_eq, hk, h1, ih, Cursor.expect, Cursor.expectOr]
  | loopGuarded hk h1 h2 _ h3 _ ih1 ih2 =>
    simp [Reader.run, Except.map_eq_ok] at ih1 ih2
    simp [Reader.run, readFor_eq, hk, h1, h2, h3, ih1, ih2, Cursor.expect, Cursor.expectOr]
  | loopInit hk h1 h2 _ h3 _ ih1 ih2 =>
    simp [Reader.run, Except.map_eq_ok] at ih1 ih2
    simp [Reader.run, readFor_eq, hk, h1, h2, h3, ih1, ih2, Cursor.expect, Cursor.expectOr]
  | clauses hk _ h1 _ _ ih1 ih2 ih3 =>
    simp [Reader.run, Except.map_eq_ok] at ih1 ih2 ih3
    simp [Reader.run, readClauses_eq, hk, h1, ih1, ih2, ih3, Cursor.expect, Cursor.expectOr]
  | postNone hk =>
    rw [Reader.run, readPost_eq]
    simp [hk]
  | postSome hk _ hs ih =>
    simp [Reader.run, Except.map_eq_ok] at ih
    rw [Reader.run, readPost_eq]
    -- the catch-all arm of the match needs `hs`, which the discharger finds
    simp [hk, ih]
  | retEmpty hk h1 => simp [Reader.run, readReturn_eq, hk, h1, Cursor.expect, Cursor.expectOr]
  | retValues hk h1 _ ih =>
    simp [Reader.run, Except.map_eq_ok] at ih
    simp [Reader.run, readReturn_eq, hk, h1, ih, Cursor.expect, Cursor.expectOr]
  | headVar hk _ ih =>
    rw [Reader.run, readHead_eq, hk]
    exact ih
  | headIf hk _ ih =>
    rw [Reader.run, readHead_eq, hk]
    exact ih
  | headFor hk _ ih =>
    rw [Reader.run, readHead_eq, hk]
    exact ih
  | headBreak hk =>
    rw [Reader.run, readHead_eq, hk]
    simp [readBreak_eq, hk, Cursor.expect, Cursor.expectOr]
  | headContinue hk =>
    rw [Reader.run, readHead_eq, hk]
    simp [readContinue_eq, hk, Cursor.expect, Cursor.expectOr]
  | headReturn hk _ ih =>
    rw [Reader.run, readHead_eq, hk]
    exact ih
  | headBlock hk _ ih =>
    simp [Reader.run, Except.map_eq_ok] at ih
    rw [Reader.run, readHead_eq, hk]
    simp [ih]
  | headSimple hk _ ih =>
    rw [Reader.run, readHead_eq]
    split <;> simp_all [Reader.run]
  | stmtSemicolon hk hd => simp [Reader.run, readStmt_eq, hk, hd]
  | stmtNewline hk => simp [Reader.run, readStmt_eq, hk]
  | stmtHead h1 h2 _ he ih =>
    simp [Reader.run, Except.map_eq_ok] at ih
    simp [Reader.run, readStmt_eq, h1, h2, ih, he]


open Cursor in
theorem Reads.follows {r : Reader} {c : Cursor} {v : Outcome} {d : Cursor} (h : Reads r c v d) :
    d.Follows c := by
  induction h with
  | typeInt | typeBool | namesLast | primaryName | primaryInteger | primaryTrue | primaryFalse
  | blockBodyEnd | retEmpty | headBreak | headContinue | stmtNewline => exact next_follows _
  | typeNone | moreTypesNil | paramsNone | levelRestStop | moreExprsNil | condNone | postNone =>
    exact Follows.refl _
  | typeListNil _ ih | typeFunc _ _ ih | paramsSome _ _ ih | primaryGroup _ _ ih
  | unaryPrimary _ _ ih | exprFunc _ _ ih | exprOr _ _ ih | condSome _ _ ih | resultsBare _ _ ih
  | headVar _ _ ih | headIf _ _ ih | headFor _ _ ih | headReturn _ _ ih | headBlock _ _ ih
  | headSimple _ _ ih | postSome _ _ _ ih | simpleSingle _ _ _ _ ih => exact ih
  | typeListCons _ _ ih1 ih2 | exprList _ _ ih1 ih2 | level _ _ ih1 ih2
  | branchesEnd _ _ _ ih1 ih2 | blockBodyStmt _ _ _ _ ih1 ih2 => exact ih2.trans ih1
  | @moreTypesCons c _ _ _ _ _ _ _ ih1 ih2 | @moreExprsCons c _ _ _ _ _ _ _ ih1 ih2
  | @levelRestStep _ _ c _ _ _ _ _ _ _ _ ih1 ih2 =>
    exact ih2.trans (ih1.trans c.next_follows)
  | @loopGuarded c _ _ _ _ _ _ _ _ _ _ _ _ ih1 ih2 | @loopInit c _ _ _ _ _ _ _ _ _ _ _ ih1 ih2
  | @varDeclBare c _ _ _ _ _ _ _ _ ih1 ih2 =>
    exact ih2.trans (ih1.trans c.next_follows)
  | @namesMore c _ _ _ _ _ ih => exact ih.trans (c.next.next_follows.trans c.next_follows)
  | @paramRunLast _ _ c _ _ _ _ _ _ _ ih | @unaryOp c _ _ _ _ _ ih | @ifChain c _ _ _ _ _ ih
  | @loopForever c _ _ _ _ _ ih | @loopClauses c _ _ _ _ _ _ ih | @retValues c _ _ _ _ _ ih =>
    exact ih.trans c.next_follows
  | @resultsList c _ d _ _ _ ih | @group c _ d _ _ _ ih =>
    exact d.next_follows.trans (ih.trans c.next_follows)
  | @funcType c _ d _ _ _ _ _ _ _ ih1 ih2 =>
    exact ih2.trans (d.next_follows.trans (ih1.trans (c.next.next_follows.trans c.next_follows)))
  | @paramRunMore _ _ c _ d _ _ _ _ _ _ ih1 ih2 =>
    exact ih2.trans (d.next_follows.trans (ih1.trans c.next_follows))
  | @funcLit c _ d _ _ _ _ _ _ _ _ _ _ ih1 ih2 ih3 =>
    exact ih3.trans (ih2.trans (d.next_follows.trans
      (ih1.trans (c.next.next_follows.trans c.next_follows))))
  | @branchesElseIf _ _ _ _ _ e _ _ _ _ _ _ _ _ ih1 ih2 ih3 =>
    exact ih3.trans (e.next.next_follows.trans (e.next_follows.trans (ih2.trans ih1)))
  | @branchesElse _ _ _ _ _ e _ _ _ _ _ _ _ ih1 ih2 ih3
  | @simpleAssign _ _ _ _ e _ _ _ _ _ _ _ ih1 ih2 ih3
  | @simpleDefine _ _ _ _ e _ _ _ _ _ _ _ _ _ ih1 ih2 ih3 =>
    exact ih3.trans (e.next_follows.trans (ih2.trans ih1))
  | @varDeclTyped c _ _ _ e _ _ _ _ _ _ _ ih1 ih2 ih3
  | @varDeclInferred c _ _ e _ _ _ _ _ _ _ ih1 ih2 ih3 =>
    exact ih3.trans (e.next_follows.trans (ih2.trans (ih1.trans c.next_follows)))
  | @clauses _ c _ d _ _ _ _ _ _ _ _ _ ih1 ih2 ih3 =>
    exact ih3.trans (ih2.trans (d.next_follows.trans (ih1.trans c.next_follows)))
  | @block c _ _ _ _ ih => exact ih.trans ((Follows.ite_next _ _).trans c.next_follows)
  | @stmtSemicolon c _ _ hd => exact (endLine_follows hd).trans c.next_follows
  | stmtHead _ _ _ he ih => exact (endLine_follows he).trans ((Follows.ite_next _ _).trans ih)

end Reader

end ScriptFront
