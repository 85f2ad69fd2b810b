import ScriptFront.Proofs.Grammar.Unfold
/-!
# The readers as one family

The readers call each other in one mutual recursion, so a fact about one of them is proved
together with the same fact about all the others. Here they form one family, `Reader`, run by
`Reader.run`. A fact about every run follows from one step per reader, by induction on the
tokens left and, at the same cursor, on the reader's rank: a reader calls another at its own
cursor only if that one has a lower rank.

A reading moves forward: what is left after it is what was left before less some tokens at the
front, before the same end of file. `Cursor.Follows` says so, and the cursor's own steps keep it.
-/

set_option autoImplicit false

namespace ScriptFront

/-- A reader of the grammar with the arguments it takes besides the cursor. -/
inductive Reader where
  | moreTypes | funcType | type | typeList | results
  | names | paramRun (pending : List Binding) (done : List Param) | params
  | levelRest (l : Level) (left : Expr) | moreExprs | group | primary | unary
  | level (l : Level) | funcLit | expr | exprList | cond | branches (pos : Position)
  | simple | block | varDecl | ifChain | loop | clauses (init : Option Stmt) | ret
  | post | head | stmt | blockBody

inductive Outcome where
  | expr (x : Expr)
  | exprs (xs : List Expr)
  | cond (x : Option Expr)
  | stmt (s : Stmt)
  | post (s : Option Stmt)
  | stmts (ss : List Stmt)
  | block (b : Block)
  | chain (bo : List Branch × Option Block)
  | clauses (sb : LoopShape × Block)
  | type (t : Option Ty)
  | funcType (t : Ty)
  | types (ts : List Ty)
  | names (bs : List Binding)
  | params (ps : List Param)

namespace Reader

def run : Reader → Cursor → Except Error (Outcome × Cursor)
  | moreTypes, c => (plain (readMoreTypes c)).map fun (ts, d) => (.types ts, d)
  | funcType, c => (plain (readFuncType c)).map fun (t, d) => (.funcType t, d)
  | type, c => (plain (readType? c)).map fun (t, d) => (.type t, d)
  | typeList, c => (plain (readTypeList c)).map fun (ts, d) => (.types ts, d)
  | results, c => (plain (readResults c)).map fun (ts, d) => (.types ts, d)
  | names, c => (plain (readNames c)).map fun (bs, d) => (.names bs, d)
  | paramRun pending done, c =>
    (plain (readParamRun c pending done)).map fun (ps, d) => (.params ps, d)
  | params, c => (plain (readParams c)).map fun (ps, d) => (.params ps, d)
  | levelRest l left, c => (plain (readLevelRest l left c)).map fun (x, d) => (.expr x, d)
  | moreExprs, c => (plain (readMoreExprs c)).map fun (xs, d) => (.exprs xs, d)
  | group, c => (plain (readGroup c)).map fun (x, d) => (.expr x, d)
  | primary, c => (plain (readPrimary c)).map fun (x, d) => (.expr x, d)
  | unary, c => (plain (readUnary c)).map fun (x, d) => (.expr x, d)
  | level l, c => (l.read c).map fun (x, d) => (.expr x, d)
  | funcLit, c => (plain (readFuncLit c)).map fun (x, d) => (.expr x, d)
  | expr, c => (plain (readExpr c)).map fun (x, d) => (.expr x, d)
  | exprList, c => (plain (readExprList c)).map fun (xs, d) => (.exprs xs, d)
  | cond, c => (plain (readCond c)).map fun (x, d) => (.cond x, d)
  | branches pos, c => (plain (readBranches pos c)).map fun (bo, d) => (.chain bo, d)
  | simple, c => (plain (readSimple c)).map fun (s, d) => (.stmt s, d)
  | block, c => (plain (readBlock c)).map fun (b, d) => (.block b, d)
  | varDecl, c => (plain (readVarDecl c)).map fun (s, d) => (.stmt s, d)
  | ifChain, c => (plain (readIf c)).map fun (s, d) => (.stmt s, d)
  | loop, c => (plain (readFor c)).map fun (s, d) => (.stmt s, d)
  | clauses init, c =>
    (plain (readClauses init c)).map fun (sb, d) => (.clauses sb, d)
  | ret, c => (plain (readReturn c)).map fun (s, d) => (.stmt s, d)
  | post, c => (plain (readPost c)).map fun (s, d) => (.post s, d)
  | head, c => (plain (readHead c)).map fun (s, d) => (.stmt s, d)
  | stmt, c => (plain (readStmt c)).map fun (s, d) => (.stmt s, d)
  | blockBody, c => (plain (readBlockBody c)).map fun (ss, d) => (.stmts ss, d)

def operand (l : Level) : Reader :=
  match l.tighter with
  | some m => level m
  | none => unary

theorem run_operand (l : Level) (c : Cursor) :
    (operand l).run c = (l.operand c).map fun p => (.expr p.1, p.2) := by
  cases l <;> rfl

/-- The order in which readers call each other at one cursor: only lower ranks. -/
def rank : Reader → Nat
  | moreTypes => 1 | funcType => 2 | type => 3 | typeList => 4 | results => 5
  | names => 6 | paramRun .. => 7 | params => 8
  | levelRest .. => 10 | moreExprs => 10 | group => 11 | primary => 12 | unary => 13
  | level l => 19 - l.precedence | funcLit => 19 | expr => 20 | exprList => 21 | cond => 21
  | branches _ => 21 | simple => 22 | block => 22 | varDecl => 22 | ifChain => 22 | loop => 22
  | clauses _ => 22 | ret => 22 | post => 23 | head => 24 | stmt => 25 | blockBody => 26

theorem rank_lt (r : Reader) : r.rank < 32 := by
  cases r <;> simp only [rank] <;> omega

theorem rank_operand (l : Level) : (operand l).rank < (level l).rank := by
  cases l <;> decide

def Below (P : Reader → Cursor → Prop) (r : Reader) (c : Cursor) : Prop :=
  ∀ r' c', c'.ahead.length * 32 + r'.rank < c.ahead.length * 32 + r.rank → P r' c'

theorem induction (P : Reader → Cursor → Prop) (step : ∀ r c, Below P r c → P r c) :
    ∀ r c, P r c := by
  suffices h : ∀ n r c, c.ahead.length * 32 + r.rank = n → P r c from
    fun r c => h _ r c rfl
  intro n
  induction n using Nat.strongRecOn with
  | ind n ih =>
    intro r c hn
    exact step r c fun r' c' hlt => ih _ (hn ▸ hlt) r' c' rfl

section Below

variable {P : Reader → Cursor → Prop} {r : Reader} {c : Cursor}

theorem Below.further (ih : Below P r c) {d : Cursor} (h : d.ahead.length < c.ahead.length)
    (r' : Reader) : P r' d :=
  ih r' d (by have := r'.rank_lt; omega)

theorem Below.lower (ih : Below P r c) {d : Cursor} (h : d.ahead.length ≤ c.ahead.length)
    {r' : Reader} (hr : r'.rank < r.rank) : P r' d :=
  ih r' d (by omega)

end Below

end Reader

end ScriptFront

namespace ScriptFront

def Cursor.Follows (d c : Cursor) : Prop := d.ahead <:+ c.ahead ∧ d.last = c.last

namespace Cursor

variable {c d e : Cursor}

theorem Follows.refl (c : Cursor) : c.Follows c := ⟨List.suffix_refl _, rfl⟩

theorem Follows.trans (h : d.Follows e) (h' : e.Follows c) : d.Follows c :=
  ⟨h.1.trans h'.1, h.2.trans h'.2⟩

theorem Follows.length_le (h : d.Follows c) : d.ahead.length ≤ c.ahead.length := h.1.length_le

theorem next_follows (c : Cursor) : c.next.Follows c := ⟨by simp [List.tail_suffix], by simp⟩

theorem next_lt {k : TokenKind} (hk : k ≠ .eof) (h : c.current.kind = k) :
    c.next.ahead.length < c.ahead.length := by
  have hne := ahead_ne_nil_of_kind hk h
  simp only [ahead_next, List.length_tail]
  have : c.ahead.length ≠ 0 := by simpa using hne
  omega

theorem endLine_follows (h : c.endLine = .ok d) : d.Follows c := by
  unfold endLine at h
  split at h <;> cases h
  · exact c.next_follows
  · exact Follows.refl c
  · exact Follows.refl c

theorem Follows.ite_next (c : Cursor) (p : Prop) [Decidable p] :
    (if p then c.next else c).Follows c := by
  split
  · exact c.next_follows
  · exact Follows.refl c

end Cursor

namespace Reader

theorem expectOr_lt {c d : Cursor} {k : TokenKind} {err : Error} {t : Token} (hk : k ≠ .eof)
    (h : c.expectOr k err = .ok (t, d)) : d.ahead.length < c.ahead.length := by
  unfold Cursor.expectOr at h
  split at h
  · next hkc =>
    cases h
    have hne := Cursor.ahead_ne_nil_of_kind hk hkc
    simp only [Cursor.ahead_next, List.length_tail]
    have : c.ahead.length ≠ 0 := by simpa using hne
    omega
  · cases h

theorem opAt?_lt {c : Cursor} {l : Level} {op : BinaryOp} (h : c.opAt? l = some op) :
    c.next.ahead.length < c.ahead.length := by
  by_cases hn : c.ahead = []
  · rw [opAt?_of_nil c hn] at h
    cases h
  · simp only [Cursor.ahead_next, List.length_tail]
    have : c.ahead.length ≠ 0 := by simpa using hn
    omega

theorem unary_lt {c : Cursor} {op : UnaryOp} (h : UnaryOp.ofKind? c.current.kind = some op) :
    c.next.ahead.length < c.ahead.length := by
  by_cases hn : c.ahead = []
  · rw [ofKind?_current_of_nil c hn] at h
    cases h
  · simp only [Cursor.ahead_next, List.length_tail]
    have : c.ahead.length ≠ 0 := by simpa using hn
    omega

end Reader

end ScriptFront
