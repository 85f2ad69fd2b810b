import Mathlib.Algebra.GroupWithZero.Nat
import ScriptFront.Proofs.Print.RoundTrip
/-!
# Groups in printed tokens

The printer puts an operand between parentheses only where its test asks for it: a left or
prefix operand whose precedence is below its parent's, and a right operand whose precedence is
not above it. `Expr.parens` counts those operands through a whole tree, the bodies of function
literals included.

Among tokens, a `(` opens a group unless it follows `func`, where it opens a list of
parameters, or `)`, where it opens a list of results. `groupOpens` counts the `(` that open
groups in a run of token kinds after a token of a given kind. The tokens of a printed tree
open exactly `parens` groups (`Expr.groupOpens_lexes`), a count that only the shape of the tree
fixes (`Expr.parens_of_same`); and taking out a `(` that opens a group together with a `)` that
no `(` follows opens one group fewer (`groupOpens_drop_pair`).
-/

set_option autoImplicit false

namespace ScriptFront

def TokenKind.groupsAfter : TokenKind → Bool
  | .kwFunc | .closeParen => false
  | _ => true

/-- The `(` that open groups in a run of token kinds after a token of kind `prev`. -/
def groupOpens : TokenKind → List TokenKind → Nat
  | _, [] => 0
  | prev, k :: ks => (if k = .openParen ∧ prev.groupsAfter then 1 else 0) + groupOpens k ks

section GroupOpens

variable {p q k : TokenKind} {a b c ks : List TokenKind}

@[simp] theorem groupOpens_nil : groupOpens p [] = 0 := rfl

theorem groupOpens_cons :
    groupOpens p (k :: ks) = (if k = .openParen ∧ p.groupsAfter then 1 else 0) + groupOpens k ks :=
  rfl

theorem groupOpens_cons_of_ne (hk : k ≠ .openParen) : groupOpens p (k :: ks) = groupOpens k ks := by
  simp [groupOpens_cons, hk]

theorem groupOpens_paren (hp : p.groupsAfter) :
    groupOpens p (.openParen :: ks) = groupOpens .openParen ks + 1 := by
  simp [groupOpens_cons, hp, Nat.add_comm]

theorem groupOpens_append (p : TokenKind) (a b : List TokenKind) :
    groupOpens p (a ++ b) = groupOpens p a + groupOpens (a.getLast?.getD p) b := by
  induction a generalizing p with
  | nil => simp
  | cons k a ih =>
    rw [List.cons_append, groupOpens_cons, groupOpens_cons, ih, Nat.add_assoc]
    cases a with
    | nil => simp
    | cons x a => simp [List.getLast?_cons]

theorem groupOpens_congr (h : p.groupsAfter = q.groupsAfter) :
    groupOpens p ks = groupOpens q ks := by
  cases ks with
  | nil => rfl
  | cons k ks => simp only [groupOpens_cons, h]

theorem groupOpens_of_head (h : ks.head? ≠ some .openParen) :
    groupOpens p ks = groupOpens q ks := by
  cases ks with
  | nil => rfl
  | cons k ks =>
    have hk : k ≠ .openParen := fun hk => h (by rw [hk]; rfl)
    rw [groupOpens_cons_of_ne hk, groupOpens_cons_of_ne hk]

theorem groupOpens_le_append : groupOpens p a ≤ groupOpens p (a ++ b) := by
  rw [groupOpens_append]
  exact Nat.le_add_right _ _

theorem groupOpens_append_cons (hk : k ≠ .openParen) :
    groupOpens p (a ++ k :: b) = groupOpens p a + groupOpens k b := by
  rw [groupOpens_append, groupOpens_cons_of_ne hk]

theorem groupOpens_append_of {n : Nat} (hb : ∀ q, groupOpens q b = n) :
    groupOpens p (a ++ b) = groupOpens p a + n := by
  rw [groupOpens_append, hb]

theorem groupOpens_drop_pair (ha : (a.getLast?.getD p).groupsAfter)
    (hc : c.head? ≠ some .openParen) :
    groupOpens p (a ++ .openParen :: (b ++ .closeParen :: c)) = groupOpens p (a ++ b ++ c) + 1 := by
  have hb : groupOpens (a.getLast?.getD p) b = groupOpens .openParen b :=
    groupOpens_congr (by rw [ha]; rfl)
  have hc' : groupOpens (b.getLast?.getD (a.getLast?.getD p)) c = groupOpens .closeParen c :=
    groupOpens_of_head hc
  rw [groupOpens_append, groupOpens_paren ha, groupOpens_append_cons (by decide),
    List.append_assoc, groupOpens_append p a, groupOpens_append _ b c, hb, hc']
  omega

end GroupOpens

mutual

/-- The operands that the printer puts between parentheses, through a whole tree. -/
def Expr.parens : Expr → Nat
  | .name .. | .integer .. | .boolean .. => 0
  | .unary _ e _ => (if e.precedence < UnaryOp.precedence then 1 else 0) + e.parens
  | .binary op l r _ =>
    (if l.precedence < op.precedence then 1 else 0) + l.parens +
      ((if r.precedence < op.precedence + 1 then 1 else 0) + r.parens)
  | .func _ _ b _ => b.parens

def Expr.parensAll : List Expr → Nat
  | [] => 0
  | e :: es => e.parens + Expr.parensAll es

def Expr.parensOpt : Option Expr → Nat
  | none => 0
  | some e => e.parens

def Block.parens : Block → Nat
  | .mk ss _ => Stmt.parensAll ss

def Block.parensOpt : Option Block → Nat
  | none => 0
  | some b => b.parens

def Stmt.parens : Stmt → Nat
  | .empty _ | .breakLoop _ | .continueLoop _ => 0
  | .single e _ _ => e.parens
  | .varDecl _ spec _ => spec.parens
  | .block b => b.parens
  | .ifChain bs o _ => Branch.parensAll bs + Block.parensOpt o
  | .loop shape b _ => shape.parens + b.parens
  | .ret vs _ => Expr.parensAll vs
  | .assign ts vs _ => Expr.parensAll ts + Expr.parensAll vs
  | .define _ vs _ => Expr.parensAll vs

def Stmt.parensAll : List Stmt → Nat
  | [] => 0
  | s :: ss => s.parens + Stmt.parensAll ss

def Stmt.parensOpt : Option Stmt → Nat
  | none => 0
  | some s => s.parens

def Branch.parensAll : List Branch → Nat
  | [] => 0
  | .mk c b _ :: bs => c.parens + b.parens + Branch.parensAll bs

def VarSpec.parens : VarSpec → Nat
  | .typed _ none => 0
  | .typed _ (some vs) => Expr.parensAll vs
  | .inferred vs => Expr.parensAll vs

def LoopShape.parens : LoopShape → Nat
  | .forever => 0
  | .guarded c => c.parens
  | .clauses i c p => Stmt.parensOpt i + Expr.parensOpt c + Stmt.parensOpt p

end

theorem Expr.parensAll_eq_sum (xs : List Expr) : Expr.parensAll xs = (xs.map Expr.parens).sum := by
  induction xs with
  | nil => rfl
  | cons x xs ih => rw [Expr.parensAll, ih, List.map_cons, List.sum_cons]

theorem Stmt.parens_closedBy (semi : Bool) (s : Stmt) : (s.closedBy semi).parens = s.parens := by
  cases s <;> rfl

/-! The tokens of a printed tree open exactly the groups of its parenthesised operands. -/

section Printed

variable {p : TokenKind}

theorem UnaryOp.kind_groupsAfter (op : UnaryOp) :
    op.kind ≠ .openParen ∧ op.kind ≠ .eof ∧ op.kind.groupsAfter := by
  cases op <;> decide

theorem BinaryOp.kind_groupsAfter (op : BinaryOp) :
    op.kind ≠ .openParen ∧ op.kind ≠ .eof ∧ op.kind.groupsAfter := by
  cases op <;> decide

theorem groupOpens_parenLexes (hp : p.groupsAfter) (paren : Bool) (ls : List Lex) {n : Nat}
    (h : ∀ q : TokenKind, q.groupsAfter → groupOpens q (ls.map Prod.fst) = n) :
    groupOpens p ((parenLexes paren ls).map Prod.fst) = (if paren then 1 else 0) + n := by
  cases paren with
  | false => simpa [parenLexes] using h p hp
  | true =>
    simp only [parenLexes, if_true, List.map_cons, List.map_append, TokenKind.lex_fst]
    rw [groupOpens_paren hp, groupOpens_append_of (n := 0) (fun q => by simp [groupOpens_cons]),
      h _ rfl]
    omega

theorem groupOpens_commaLexes {α : Type} (f : α → List Lex) (n : α → Nat) :
    ∀ xs : List α,
      (∀ x ∈ xs, ∀ q : TokenKind, q.groupsAfter → groupOpens q ((f x).map Prod.fst) = n x) →
      ∀ p : TokenKind, p.groupsAfter →
        groupOpens p ((commaLexes (xs.map f)).map Prod.fst) = (xs.map n).sum
  | [], _, _, _ => rfl
  | [x], h, p, hp => by
    rw [List.map_singleton, commaLexes, List.intercalate_singleton,
      h x (List.mem_singleton_self x) p hp, List.map_singleton, List.sum_singleton]
  | x :: y :: xs, h, p, hp => by
    have hy := groupOpens_commaLexes f n (y :: xs) (fun z hz => h z (List.mem_cons_of_mem _ hz))
    rw [commaLexes_map_cons_cons, List.map_append, List.map_cons, TokenKind.lex_fst,
      groupOpens_append_cons (by decide), h x List.mem_cons_self p hp, hy _ rfl]
    simp only [List.map_cons, List.sum_cons]

theorem groupOpens_commaLexes_zero (ls : List (List Lex))
    (h : ∀ l ∈ ls, ∀ q : TokenKind, groupOpens q (l.map Prod.fst) = 0) (hp : p.groupsAfter) :
    groupOpens p ((commaLexes ls).map Prod.fst) = 0 := by
  simpa using groupOpens_commaLexes id (fun _ => 0) ls (fun x hx q _ => h x hx q) p hp

theorem groupOpens_bindings (ns : List Binding) (hp : p.groupsAfter) :
    groupOpens p ((Binding.lexesAll ns).map Prod.fst) = 0 :=
  groupOpens_commaLexes_zero _ (fun l hl q => by
    obtain ⟨b, -, rfl⟩ := List.mem_map.mp hl
    rfl) hp

theorem groupOpens_resultsLexes :
    ∀ ls : List (List Lex), (∀ l ∈ ls, ∀ q : TokenKind, groupOpens q (l.map Prod.fst) = 0) →
      groupOpens .closeParen ((resultsLexes ls).map Prod.fst) = 0
  | [], _ => rfl
  | [l], h => h l (by simp) _
  | l :: l' :: ls, h => by
    have hl := groupOpens_commaLexes_zero (l :: l' :: ls) h (p := .openParen) rfl
    simp only [resultsLexes, List.map_cons, List.map_append, TokenKind.lex_fst]
    rw [groupOpens_cons, groupOpens_append_of (n := 0) (fun q => by simp [groupOpens_cons]), hl]
    rfl

mutual

theorem Ty.groupOpens_lexes :
    ∀ (t : Ty) (p : TokenKind), groupOpens p (t.lexes.map Prod.fst) = 0
  | .basic .int, _ | .basic .bool, _ => rfl
  | .func ps rs, p => by
    have hps := groupOpens_commaLexes_zero (ps.map Ty.lexes)
      (fun l hl q => by
        obtain ⟨t, ht, rfl⟩ := List.mem_map.mp hl
        exact Ty.groupOpens_lexesAll ps t ht q) (p := .openParen) rfl
    have hrs := groupOpens_resultsLexes (rs.map Ty.lexes) (fun l hl q => by
      obtain ⟨t, ht, rfl⟩ := List.mem_map.mp hl
      exact Ty.groupOpens_lexesAll rs t ht q)
    simp only [Ty.lexes, Ty.lexesAll_eq_map, List.map_cons, List.map_append, TokenKind.lex_fst]
    rw [groupOpens_cons_of_ne (by decide), groupOpens_cons, groupOpens_append_cons (by decide),
      hps, hrs]
    rfl
termination_by structural x => x

theorem Ty.groupOpens_lexesAll : ∀ ts : List Ty, ∀ t ∈ ts, ∀ p : TokenKind,
    groupOpens p (t.lexes.map Prod.fst) = 0
  | [] => by simp
  | t :: ts => by
    have ht := Ty.groupOpens_lexes t
    have hts := Ty.groupOpens_lexesAll ts
    intro u hu
    rcases List.mem_cons.mp hu with rfl | hu
    · exact ht
    · exact hts u hu
termination_by structural x => x

end

theorem Param.groupOpens_lexes (x : Param) (p : TokenKind) :
    groupOpens p (x.lexes.map Prod.fst) = 0 := by
  rw [Param.lexes, List.map_cons, groupOpens_cons_of_ne (by simp)]
  exact Ty.groupOpens_lexes x.ty _

theorem groupOpens_exprs (vs : List Expr)
    (h : ∀ x ∈ vs, ∀ q : TokenKind, q.groupsAfter → groupOpens q (x.lexes.map Prod.fst) = x.parens)
    (hp : p.groupsAfter) :
    groupOpens p ((commaLexes (Expr.lexesAll vs)).map Prod.fst) = Expr.parensAll vs := by
  rw [Expr.lexesAll_eq_map, groupOpens_commaLexes Expr.lexes Expr.parens vs h p hp,
    Expr.parensAll_eq_sum]

attribute [local simp] Stmt.parens Stmt.parensAll Stmt.parensOpt VarSpec.parens LoopShape.parens
  Branch.parensAll Block.parensOpt Expr.parensOpt

/- Printing recurses through expressions, blocks and statements together, and so does the
count: each printed piece opens the groups of its own operands, and every piece that may start
with a `(` comes after a token after which a `(` opens a group. Here and below each lemma
recurses on its first tree, named by `termination_by structural` to spare Lean the search. -/
mutual

theorem Expr.groupOpens_lexes : ∀ (x : Expr) (p : TokenKind), p.groupsAfter →
    groupOpens p (x.lexes.map Prod.fst) = x.parens
  | .name .., _, _ | .integer .., _, _ => rfl
  | .boolean b _, _, _ => by cases b <;> rfl
  | .unary op e _, _, _ => by
    have he := Expr.groupOpens_lexes e
    have hop := op.kind_groupsAfter
    rw [Expr.lexes, List.map_cons, TokenKind.lex_fst, groupOpens_cons_of_ne hop.1,
      groupOpens_parenLexes hop.2.2 _ _ he, Expr.parens]
    simp
  | .binary op l r _, p, hp => by
    have hl := Expr.groupOpens_lexes l
    have hr := Expr.groupOpens_lexes r
    have hop := op.kind_groupsAfter
    rw [Expr.lexes, List.map_append, List.map_cons, TokenKind.lex_fst,
      groupOpens_append_cons hop.1, groupOpens_parenLexes hp _ _ hl,
      groupOpens_parenLexes hop.2.2 _ _ hr, Expr.parens]
    simp [Nat.add_assoc]
  | .func ps rs b _, _, _ => by
    have hb := Block.groupOpens_lexes b
    have hps := groupOpens_commaLexes_zero (ps.map Param.lexes) (fun l hl q => by
      obtain ⟨x, -, rfl⟩ := List.mem_map.mp hl
      exact Param.groupOpens_lexes x q) (p := .openParen) rfl
    have hrs := groupOpens_resultsLexes (rs.map Ty.lexes) (fun l hl q => by
      obtain ⟨t, -, rfl⟩ := List.mem_map.mp hl
      exact Ty.groupOpens_lexes t q)
    simp only [Expr.lexes, List.map_cons, List.map_append, TokenKind.lex_fst]
    rw [groupOpens_cons_of_ne (by decide), groupOpens_cons, groupOpens_append_cons (by decide),
      groupOpens_append_of hb, hps, hrs, Expr.parens]
    simp [TokenKind.groupsAfter]
termination_by structural x => x

theorem Expr.groupOpens_lexesAll : ∀ xs : List Expr, ∀ x ∈ xs, ∀ p : TokenKind, p.groupsAfter →
    groupOpens p (x.lexes.map Prod.fst) = x.parens
  | [] => by simp
  | x :: xs => by
    have hx := Expr.groupOpens_lexes x
    have hxs := Expr.groupOpens_lexesAll xs
    intro y hy
    rcases List.mem_cons.mp hy with rfl | hy
    · exact hx
    · exact hxs y hy
termination_by structural x => x

theorem Expr.groupOpens_lexesOpt : ∀ (o : Option Expr) (p : TokenKind), p.groupsAfter →
    groupOpens p ((Expr.lexesOpt o).map Prod.fst) = Expr.parensOpt o
  | none, _, _ => rfl
  | some x, p, hp => Expr.groupOpens_lexes x p hp
termination_by structural x => x

theorem Block.groupOpens_lexes : ∀ (b : Block) (p : TokenKind),
    groupOpens p (b.lexes.map Prod.fst) = b.parens
  | .mk ss _, _ => by
    have hss := Stmt.groupOpens_blockLexes ss
    simp only [Block.lexes, List.map_cons, List.map_append, TokenKind.lex_fst]
    rw [groupOpens_cons_of_ne (by decide),
      groupOpens_append_of (n := 0) (fun q => by simp [groupOpens_cons, newlineLex]), hss,
      Block.parens]
    rfl
termination_by structural x => x

theorem Block.groupOpens_elseLexes : ∀ (o : Option Block) (p : TokenKind),
    groupOpens p ((Block.elseLexes o).map Prod.fst) = Block.parensOpt o
  | none, _ => rfl
  | some b, _ => by
    have hb := Block.groupOpens_lexes b
    rw [Block.elseLexes, List.map_cons, TokenKind.lex_fst, groupOpens_cons_of_ne (by decide), hb]
    rfl
termination_by structural x => x

theorem Stmt.groupOpens_blockLexes : ∀ (ss : List Stmt) (p : TokenKind),
    groupOpens p ((Stmt.blockLexes ss).map Prod.fst) = Stmt.parensAll ss
  | [], _ => rfl
  | s :: ss, _ => by
    have hs := Stmt.groupOpens_lexes s
    have hss := Stmt.groupOpens_blockLexes ss
    rw [Stmt.blockLexes, List.map_cons, List.map_append, groupOpens_cons_of_ne (by decide),
      groupOpens_append_of hss, hs _ rfl, Stmt.parensAll]
termination_by structural x => x

theorem Stmt.groupOpens_lexesOpt : ∀ (o : Option Stmt) (p : TokenKind), p.groupsAfter →
    groupOpens p ((Stmt.lexesOpt o).map Prod.fst) = Stmt.parensOpt o
  | none, _, _ => rfl
  | some s, p, hp => Stmt.groupOpens_lexes s p hp
termination_by structural x => x

theorem Branch.groupOpens_lexesAll : ∀ (bs : List Branch) (p : TokenKind),
    groupOpens p (([TokenKind.kwElse.lex].intercalate (Branch.lexesAll bs)).map Prod.fst) =
      Branch.parensAll bs
  | [], _ => rfl
  | .mk x b q :: rest, _ => by
    have hx := Expr.groupOpens_lexes x
    have hb := Block.groupOpens_lexes b
    have hrest := Branch.groupOpens_lexesAll rest
    have hbranch : ∀ p, groupOpens p ((TokenKind.kwIf.lex :: (x.lexes ++ b.lexes)).map Prod.fst) =
        x.parens + b.parens := fun p => by
      rw [List.map_cons, List.map_append, TokenKind.lex_fst, groupOpens_cons_of_ne (by decide),
        groupOpens_append_of hb, hx _ rfl]
    cases rest with
    | nil =>
      simp only [Branch.lexesAll, List.intercalate_singleton]
      rw [hbranch]
      rfl
    | cons br bs =>
      cases br
      rw [Branch.lexesAll_cons_cons, List.map_append, List.map_cons (a := TokenKind.kwElse.lex),
        TokenKind.lex_fst, groupOpens_append_cons (by decide), hbranch, hrest]
      rfl
termination_by structural x => x

theorem Stmt.groupOpens_lexes : ∀ (s : Stmt) (p : TokenKind), p.groupsAfter →
    groupOpens p (s.lexes.map Prod.fst) = s.parens
  | .empty _, _, _ => rfl
  | .single e semi _, p, hp => by
    have he := Expr.groupOpens_lexes e
    cases semi with
    | false => simpa [Stmt.lexes] using he p hp
    | true =>
      rw [Stmt.lexes, if_pos rfl, List.map_append, List.map_singleton, TokenKind.lex_fst,
        groupOpens_append_cons (by decide), he p hp]
      rfl
  | .varDecl ns (.typed t none) _, _, _ => by
    rw [Stmt.lexes, List.map_cons, List.map_append, TokenKind.lex_fst,
      groupOpens_cons_of_ne (by decide), groupOpens_append_of (Ty.groupOpens_lexes t),
      groupOpens_bindings ns rfl]
    rfl
  | .varDecl ns (.typed t (some vs)) _, _, _ => by
    have hvs := Expr.groupOpens_lexesAll vs
    rw [Stmt.lexes, List.map_cons, List.map_append, List.map_cons, List.map_append,
      TokenKind.lex_fst, TokenKind.lex_fst, groupOpens_cons_of_ne (by decide),
      groupOpens_append_cons (by decide), groupOpens_append_of (Ty.groupOpens_lexes t),
      groupOpens_bindings ns rfl, groupOpens_exprs vs hvs rfl]
    simp
  | .varDecl ns (.inferred vs) _, _, _ => by
    have hvs := Expr.groupOpens_lexesAll vs
    rw [Stmt.lexes, List.map_cons, List.map_append, List.map_cons, TokenKind.lex_fst,
      TokenKind.lex_fst, groupOpens_cons_of_ne (by decide), groupOpens_append_cons (by decide),
      groupOpens_bindings ns rfl, groupOpens_exprs vs hvs rfl]
    simp
  | .block b, p, _ => by
    rw [Stmt.lexes, Block.groupOpens_lexes b p]
    rfl
  | .ifChain bs o _, p, _ => by
    rw [Stmt.lexes, List.map_append, groupOpens_append_of (Block.groupOpens_elseLexes o),
      Branch.groupOpens_lexesAll bs p]
    rfl
  | .loop .forever b _, _, _ => by
    rw [Stmt.lexes, List.map_cons, TokenKind.lex_fst, groupOpens_cons_of_ne (by decide),
      Block.groupOpens_lexes b]
    simp
  | .loop (.guarded c) b _, _, _ => by
    have hc := Expr.groupOpens_lexes c
    rw [Stmt.lexes, List.map_cons, List.map_append, TokenKind.lex_fst,
      groupOpens_cons_of_ne (by decide), groupOpens_append_of (Block.groupOpens_lexes b),
      hc _ rfl]
    simp
  | .loop (.clauses i c q) b _, _, _ => by
    have hi := Stmt.groupOpens_lexesOpt i
    have hc := Expr.groupOpens_lexesOpt c
    have hq := Stmt.groupOpens_lexesOpt q
    simp only [Stmt.lexes, List.map_cons, List.map_append, TokenKind.lex_fst]
    rw [groupOpens_cons_of_ne (by decide), groupOpens_append_cons (by decide),
      groupOpens_append_cons (by decide), groupOpens_append_of (Block.groupOpens_lexes b),
      hi _ rfl, hc _ rfl, hq _ rfl]
    simp [Nat.add_assoc]
  | .breakLoop _, _, _ | .continueLoop _, _, _ => rfl
  | .ret [] _, _, _ => rfl
  | .ret (v :: vs) _, _, _ => by
    have hvs := Expr.groupOpens_lexesAll (v :: vs)
    rw [Stmt.lexes, List.map_cons, TokenKind.lex_fst, groupOpens_cons_of_ne (by decide),
      groupOpens_exprs _ hvs rfl]
    rfl
  | .assign ts vs _, p, hp => by
    have hts := Expr.groupOpens_lexesAll ts
    have hvs := Expr.groupOpens_lexesAll vs
    rw [Stmt.lexes, List.map_append, List.map_cons, TokenKind.lex_fst,
      groupOpens_append_cons (by decide), groupOpens_exprs ts hts hp, groupOpens_exprs vs hvs rfl]
    rfl
  | .define ns vs _, p, hp => by
    have hvs := Expr.groupOpens_lexesAll vs
    rw [Stmt.lexes, List.map_append, List.map_cons, TokenKind.lex_fst,
      groupOpens_append_cons (by decide), groupOpens_bindings ns hp, groupOpens_exprs vs hvs rfl]
    simp
termination_by structural x => x

end

end Printed

/-! Trees of the same shape parenthesise the same operands: the count reads no position. -/

section Same

attribute [local simp] Stmt.parens Stmt.parensAll Stmt.parensOpt VarSpec.parens LoopShape.parens
  Branch.parensAll Block.parens Block.parensOpt Expr.parens Expr.parensAll Expr.parensOpt

mutual

theorem Expr.parens_of_same : ∀ x y : Expr, x.same y → x.parens = y.parens
  | .name .., y, h | .integer .., y, h | .boolean .., y, h => by
    cases y <;> simp_all [Expr.same]
  | .unary o x _, y, h => by
    cases y with
    | unary o' y _ =>
      simp only [Expr.same, Bool.and_eq_true, beq_iff_eq] at h
      have hx := Expr.parens_of_same x y h.2
      simp [hx, Expr.precedence_of_same h.2]
    | _ => simp [Expr.same] at h
  | .binary o l r _, y, h => by
    cases y with
    | binary o' l' r' _ =>
      simp only [Expr.same, Bool.and_eq_true, beq_iff_eq] at h
      have hl := Expr.parens_of_same l l' h.1.2
      have hr := Expr.parens_of_same r r' h.2
      simp [h.1.1, hl, hr, Expr.precedence_of_same h.1.2, Expr.precedence_of_same h.2]
    | _ => simp [Expr.same] at h
  | .func _ _ a _, y, h => by
    cases y with
    | func _ _ b _ =>
      simp only [Expr.same, Bool.and_eq_true] at h
      simp [Block.parens_of_same a b h.2]
    | _ => simp [Expr.same] at h
termination_by structural x => x

theorem Expr.parensAll_of_sameAll : ∀ xs ys : List Expr, Expr.sameAll xs ys →
    Expr.parensAll xs = Expr.parensAll ys
  | [], [], _ => rfl
  | [], _ :: _, h | _ :: _, [], h => by simp [Expr.sameAll] at h
  | x :: xs, y :: ys, h => by
    simp only [Expr.sameAll, Bool.and_eq_true] at h
    have hx := Expr.parens_of_same x y h.1
    have hxs := Expr.parensAll_of_sameAll xs ys h.2
    simp [hx, hxs]
termination_by structural x => x

theorem Expr.parensOpt_of_sameOpt : ∀ o o' : Option Expr, Expr.sameOpt o o' →
    Expr.parensOpt o = Expr.parensOpt o'
  | none, none, _ => rfl
  | none, some _, h | some _, none, h => by simp [Expr.sameOpt] at h
  | some x, some y, h => Expr.parens_of_same x y (by simpa only [Expr.sameOpt] using h)
termination_by structural x => x

theorem Block.parens_of_same : ∀ a b : Block, a.same b → a.parens = b.parens
  | .mk ss _, .mk ts _, h => by
    simp only [Block.same] at h
    simp [Stmt.parensAll_of_sameAll ss ts h]
termination_by structural x => x

theorem Block.parensOpt_of_sameOpt : ∀ o o' : Option Block, Block.sameOpt o o' →
    Block.parensOpt o = Block.parensOpt o'
  | none, none, _ => rfl
  | none, some _, h | some _, none, h => by simp [Block.sameOpt] at h
  | some a, some b, h => Block.parens_of_same a b (by simpa only [Block.sameOpt] using h)
termination_by structural x => x

theorem Stmt.parensAll_of_sameAll : ∀ ss ts : List Stmt, Stmt.sameAll ss ts →
    Stmt.parensAll ss = Stmt.parensAll ts
  | [], [], _ => rfl
  | [], _ :: _, h | _ :: _, [], h => by simp [Stmt.sameAll] at h
  | s :: ss, t :: ts, h => by
    simp only [Stmt.sameAll, Bool.and_eq_true] at h
    have hs := Stmt.parens_of_same s t h.1
    have hss := Stmt.parensAll_of_sameAll ss ts h.2
    simp [hs, hss]
termination_by structural x => x

theorem Stmt.parensOpt_of_sameOpt : ∀ o o' : Option Stmt, Stmt.sameOpt o o' →
    Stmt.parensOpt o = Stmt.parensOpt o'
  | none, none, _ => rfl
  | none, some _, h | some _, none, h => by simp [Stmt.sameOpt] at h
  | some s, some t, h => Stmt.parens_of_same s t (by simpa only [Stmt.sameOpt] using h)
termination_by structural x => x

theorem Branch.parensAll_of_sameAll : ∀ bs cs : List Branch, Branch.sameAll bs cs →
    Branch.parensAll bs = Branch.parensAll cs
  | [], [], _ => rfl
  | [], _ :: _, h | _ :: _, [], h => by simp [Branch.sameAll] at h
  | .mk x a _ :: bs, .mk y b _ :: cs, h => by
    simp only [Branch.sameAll, Bool.and_eq_true] at h
    have hx := Expr.parens_of_same x y h.1.1
    have ha := Block.parens_of_same a b h.1.2
    have hbs := Branch.parensAll_of_sameAll bs cs h.2
    simp [hx, ha, hbs]
termination_by structural x => x

theorem VarSpec.parens_of_same : ∀ s t : VarSpec, VarSpec.same s t → s.parens = t.parens
  | .typed _ none, .typed _ none, _ => rfl
  | .typed _ (some xs), .typed _ (some ys), h => by
    simp only [VarSpec.same, Bool.and_eq_true] at h
    simp [Expr.parensAll_of_sameAll xs ys h.2]
  | .inferred xs, .inferred ys, h => by
    simp only [VarSpec.same] at h
    simp [Expr.parensAll_of_sameAll xs ys h]
  | .typed _ none, .typed _ (some _), h | .typed _ (some _), .typed _ none, h
  | .typed .., .inferred _, h | .inferred _, .typed .., h => by simp [VarSpec.same] at h
termination_by structural x => x

theorem LoopShape.parens_of_same : ∀ s t : LoopShape, LoopShape.same s t → s.parens = t.parens
  | .forever, .forever, _ => rfl
  | .guarded x, .guarded y, h => by
    simp only [LoopShape.same] at h
    simp [Expr.parens_of_same x y h]
  | .clauses i x p, .clauses j y q, h => by
    simp only [LoopShape.same, Bool.and_eq_true] at h
    have hi := Stmt.parensOpt_of_sameOpt i j h.1.1
    have hx := Expr.parensOpt_of_sameOpt x y h.1.2
    have hp := Stmt.parensOpt_of_sameOpt p q h.2
    simp only [LoopShape.parens, hi, hx, hp]
  | .forever, .guarded _, h | .forever, .clauses .., h | .guarded _, .forever, h
  | .guarded _, .clauses .., h | .clauses .., .forever, h | .clauses .., .guarded _, h => by
    simp [LoopShape.same] at h
termination_by structural x => x

theorem Stmt.parens_of_same : ∀ s t : Stmt, s.same t → s.parens = t.parens
  | .empty _, t, h | .breakLoop _, t, h | .continueLoop _, t, h => by
    cases t <;> simp_all [Stmt.same]
  | .single x _ _, t, h => by
    cases t with
    | single y _ _ =>
      simp only [Stmt.same, Bool.and_eq_true] at h
      simp [Expr.parens_of_same x y h.1]
    | _ => simp [Stmt.same] at h
  | .varDecl _ s _, t, h => by
    cases t with
    | varDecl _ s' _ =>
      simp only [Stmt.same, Bool.and_eq_true] at h
      simp [VarSpec.parens_of_same s s' h.2]
    | _ => simp [Stmt.same] at h
  | .block a, t, h => by
    cases t with
    | block b =>
      simp only [Stmt.same] at h
      simp [Block.parens_of_same a b h]
    | _ => simp [Stmt.same] at h
  | .ifChain bs o _, t, h => by
    cases t with
    | ifChain cs o' _ =>
      simp only [Stmt.same, Bool.and_eq_true] at h
      simp [Branch.parensAll_of_sameAll bs cs h.1, Block.parensOpt_of_sameOpt o o' h.2]
    | _ => simp [Stmt.same] at h
  | .loop s a _, t, h => by
    cases t with
    | loop s' b _ =>
      simp only [Stmt.same, Bool.and_eq_true] at h
      simp [LoopShape.parens_of_same s s' h.1, Block.parens_of_same a b h.2]
    | _ => simp [Stmt.same] at h
  | .ret xs _, t, h => by
    cases t with
    | ret ys _ =>
      simp only [Stmt.same] at h
      simp [Expr.parensAll_of_sameAll xs ys h]
    | _ => simp [Stmt.same] at h
  | .assign ts vs _, t, h => by
    cases t with
    | assign us ws _ =>
      simp only [Stmt.same, Bool.and_eq_true] at h
      simp [Expr.parensAll_of_sameAll ts us h.1, Expr.parensAll_of_sameAll vs ws h.2]
    | _ => simp [Stmt.same] at h
  | .define _ vs _, t, h => by
    cases t with
    | define _ ws _ =>
      simp only [Stmt.same, Bool.and_eq_true] at h
      simp [Expr.parensAll_of_sameAll vs ws h.2]
    | _ => simp [Stmt.same] at h
termination_by structural x => x

end

end Same

end ScriptFront
