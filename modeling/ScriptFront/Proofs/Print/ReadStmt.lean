import ScriptFront.Proofs.Print.ReadExpr
import ScriptFront.Proofs.Program.Compose
/-!
# Reading printed statements and programs back

Each statement of a printed block or program stands on a line of its own, a block's first
line feed comes right after its `{`, and every list is separated by commas; so the statement
readers, started on the printed tokens of a shaped tree, read a tree of the same shape. The
read-back property of every kind of node is stated once (`Expr.ReadsWhole`,
`Block.ReadsBack`, `Stmt.ReadsBack`), each kind of statement gets it from those of its
children by a lemma of its own, and one mutual recursion over the tree puts them together.
-/

set_option autoImplicit false

namespace ScriptFront

def TokenKind.startsExpr : TokenKind → Bool
  | .identifier | .number | .kwTrue | .kwFalse | .minus | .bang | .openParen | .kwFunc => true
  | _ => false

def TokenKind.closesSimple (k : TokenKind) : Prop :=
  k = .newline ∨ k = .semicolon ∨ k = .openCurly

namespace TokenKind

variable {k : TokenKind}

theorem ne_of_startsExpr {k' : TokenKind} (h : k.startsExpr) (h' : k'.startsExpr = false) :
    k ≠ k' := by
  rintro rfl
  simp_all

theorem not_mem_heads_of_startsExpr (h : k.startsExpr) :
    k ∉ [.kwVar, .kwIf, .kwFor, .kwBreak, .kwContinue, .kwReturn, .openCurly] := by
  cases k <;> simp_all [startsExpr]

theorem endsReturn_of_startsExpr (h : k.startsExpr) : k.endsReturn = false := by
  cases k <;> simp_all [startsExpr, endsReturn]

theorem closesSimple.ofKind? (h : k.closesSimple) : BinaryOp.ofKind? k = none := by
  rcases h with rfl | rfl | rfl <;> rfl

theorem closesSimple.bindsBelow (h : k.closesSimple) (n : Nat) : k.bindsBelow n :=
  bindsBelow_of_ofKind? h.ofKind? n

theorem closesSimple.ne {k' : TokenKind} (h : k.closesSimple) (h' : k' ∉ [.newline, .semicolon, .openCurly]) :
    k ≠ k' := by
  rintro rfl
  rcases h with rfl | rfl | rfl <;> simp at h'

theorem closesSimple.endsType (h : k.closesSimple) : k.endsType :=
  ⟨h.ne (by decide), h.ne (by decide), h.ne (by decide), h.ne (by decide)⟩

end TokenKind

theorem BinaryOp.one_le_precedence (op : BinaryOp) : 1 ≤ op.precedence :=
  op.level.one_le_precedence

theorem Expr.isFunc_eq_false {x : Expr} (h : 0 < x.precedence) : x.isFunc = false := by
  cases x <;> simp_all [Expr.isFunc, Expr.precedence]

theorem Expr.lexes_cons : ∀ x : Expr,
    ∃ l ls, x.lexes = l :: ls ∧ l.1.startsExpr ∧ (l.1 = .kwFunc → x.isFunc)
  | .name .. => ⟨_, _, rfl, rfl, by simp⟩
  | .integer .. => ⟨_, _, rfl, rfl, by simp⟩
  | .boolean b _ => by cases b <;> exact ⟨_, _, rfl, rfl, by simp [TokenKind.lex]⟩
  | .unary op .. => by cases op <;> exact ⟨_, _, rfl, rfl, by simp [UnaryOp.kind, TokenKind.lex]⟩
  | .func .. => ⟨_, _, rfl, rfl, fun _ => rfl⟩
  | .binary op l r p => by
    by_cases hp : l.precedence < op.precedence
    · refine ⟨TokenKind.openParen.lex, (l.lexes ++ [TokenKind.closeParen.lex]) ++ op.kind.lex ::
        parenLexes (decide (r.precedence < op.precedence + 1)) r.lexes, ?_, rfl,
        by simp [TokenKind.lex]⟩
      simp [Expr.lexes, parenLexes, hp]
    obtain ⟨l0, ls, hl, hs, hf⟩ := Expr.lexes_cons l
    refine ⟨l0, ls ++ op.kind.lex :: parenLexes (decide (r.precedence < op.precedence + 1)) r.lexes,
      by simp [Expr.lexes, parenLexes, hp, hl], hs, fun h => ?_⟩
    have hl0 : l.isFunc = false :=
      Expr.isFunc_eq_false (by have := op.one_le_precedence; omega)
    simp [hl0] at hf
    exact absurd h hf

theorem commaLexes_map_cons_cons {α : Type} (f : α → List Lex) (a b : α) (l : List α) :
    commaLexes ((a :: b :: l).map f) = f a ++ TokenKind.comma.lex :: commaLexes ((b :: l).map f) := by
  simp [commaLexes, List.intercalate_cons_cons]

theorem Block.lexes_cons (b : Block) : ∃ ls, b.lexes = TokenKind.openCurly.lex :: ls := by
  cases b
  exact ⟨_, rfl⟩

namespace Cursor

variable {c d : Cursor} {l : Lex} {ls : List Lex}

theorem Spans.atEnd (h : c.Spans (l :: ls) d) : c.atEnd = false := by
  obtain ⟨ts, hts, ha, -⟩ := h
  obtain ⟨t, ts', rfl, -⟩ := List.map_eq_cons_iff.mp hts
  simp [Cursor.atEnd, ha]

theorem Spans.head (h : c.Spans (l :: ls) d) : c.current.kind = l.1 := h.kind

end Cursor

def Expr.ReadsWhole (x : Expr) : Prop :=
  ∀ {c d : Cursor}, c.Spans x.lexes d → d.current.kind.bindsBelow 1 →
    ∃ x', Reader.Reads .expr c (.expr x') d ∧ x.same x'

def Block.ReadsBack (b : Block) : Prop :=
  ∀ {c d : Cursor}, c.Spans b.lexes d → ∃ b', Reader.Reads .block c (.block b') d ∧ b.same b'

section ReadLists

open Reader Cursor

variable {c d : Cursor}

theorem Expr.ReadsWhole.of_readsBack {x : Expr} (h : x.ReadsBack) (hf : x.isFunc = false) :
    x.ReadsWhole := by
  intro c d hs hd
  obtain ⟨l, ls, hl, -, hk⟩ := Expr.lexes_cons x
  obtain ⟨x', r, sx⟩ := h.read .disjunction (Expr.one_le_precedence hf) hs hd
  have hc : c.current.kind ≠ .kwFunc := by
    rw [hl] at hs
    rw [hs.head]
    intro h
    simp [hk h] at hf
  exact ⟨x', .exprOr hc r, sx⟩

theorem Expr.readsMore : ∀ (xs : List Expr), (∀ x ∈ xs, x.ReadsWhole) →
    ∀ {c d : Cursor}, c.Spans ((xs.map Expr.lexes).flatMap (TokenKind.comma.lex :: ·)) d →
    d.current.kind.bindsBelow 1 → d.current.kind ≠ .comma →
    ∃ xs', Reads moreExprs c (.exprs xs') d ∧ Expr.sameAll xs xs'
  | [], _, c, d, hs, _, hd => by
    obtain rfl := hs.eq_of_nil
    exact ⟨[], .moreExprsNil hd, by simp [Expr.sameAll]⟩
  | x :: xs, hx, c, d, hs, hb, hd => by
    simp only [List.map_cons, List.flatMap_cons] at hs
    obtain ⟨m, hsx, hrest⟩ := Spans.cons_append hs
    have hm : m.current.kind.bindsBelow 1 := by
      rcases kind_of_spans_commas hrest with hk | rfl
      · exact TokenKind.bindsBelow_of_ofKind? (by rw [hk]; rfl) 1
      · exact hb
    obtain ⟨x', rx, sx⟩ := hx x (by simp) hsx hm
    obtain ⟨xs', rxs, sxs⟩ := Expr.readsMore xs (fun y hy => hx y (by simp [hy])) hrest hb hd
    exact ⟨x' :: xs', .moreExprsCons hs.head rx rxs, by simp [Expr.sameAll, sx, sxs]⟩

theorem Expr.readsList {xs : List Expr} (hne : xs ≠ []) (hx : ∀ x ∈ xs, x.ReadsWhole)
    (hs : c.Spans (commaLexes (Expr.lexesAll xs)) d) (hb : d.current.kind.bindsBelow 1)
    (hd : d.current.kind ≠ .comma) :
    ∃ xs', Reads exprList c (.exprs xs') d ∧ Expr.sameAll xs xs' := by
  obtain ⟨x, xs, rfl⟩ := List.exists_cons_of_ne_nil hne
  rw [Expr.lexesAll_eq_map, List.map_cons, commaLexes_cons] at hs
  obtain ⟨m, hsx, hrest⟩ := Spans.append hs
  have hm : m.current.kind.bindsBelow 1 := by
    rcases kind_of_spans_commas hrest with hk | rfl
    · exact TokenKind.bindsBelow_of_ofKind? (by rw [hk]; rfl) 1
    · exact hb
  obtain ⟨x', rx, sx⟩ := hx x (by simp) hsx hm
  obtain ⟨xs', rxs, sxs⟩ := Expr.readsMore xs (fun y hy => hx y (by simp [hy])) hrest hb hd
  exact ⟨x' :: xs', .exprList rx rxs, by simp [Expr.sameAll, sx, sxs]⟩

theorem Binding.readsNames (ns : List Binding) (hne : ns ≠ []) {c d : Cursor}
    (hs : c.Spans (Binding.lexesAll ns) d) (hd : d.current.kind ≠ .comma) :
    ∃ bs, Reads names c (.names bs) d ∧ Binding.sameAll ns bs := by
  induction ns generalizing c with
  | nil => exact absurd rfl hne
  | cons n ns ih =>
    cases ns with
    | nil =>
      obtain ⟨k, rfl⟩ := Spans.single hs
      exact ⟨_, .namesLast (Token.kind_of_lex k) hd,
        by simp [Binding.sameAll, Token.binding, Token.text_of_lex k]⟩
    | cons n' ns =>
      rw [Binding.lexesAll, commaLexes_map_cons_cons, ← Binding.lexesAll] at hs
      obtain ⟨k, hs⟩ := Spans.cons hs
      obtain ⟨kc, hs⟩ := Spans.cons hs
      obtain ⟨bs, rbs, sbs⟩ := ih (by simp) hs
      refine ⟨_, .namesMore (Token.kind_of_lex k) (Token.kind_of_lex kc) rbs, ?_⟩
      simp_all [Binding.sameAll, Token.binding, Token.text_of_lex k]

theorem Param.readsRun (ps : List Param) (hne : ps ≠ []) (done : List Param) {c d : Cursor}
    (hs : c.Spans (commaLexes (ps.map Param.lexes)) d) (hd : d.current.kind = .closeParen) :
    ∃ ps', Reads (paramRun [] done) c (.params (done ++ ps')) d ∧ Param.sameAll ps ps' := by
  induction ps generalizing done c with
  | nil => exact absurd rfl hne
  | cons p ps ih =>
    cases ps with
    | nil =>
      simp only [List.map_cons, List.map_nil, commaLexes, List.intercalate_singleton,
        Param.lexes] at hs
      obtain ⟨k, hs⟩ := Spans.cons hs
      obtain ⟨t', rt, st⟩ := Ty.readsBack p.ty hs (by simp [hd, TokenKind.endsType])
      exact ⟨[c.current.binding.typed t'], .paramRunLast (Token.kind_of_lex k) rt
        (by rw [hd]; decide) (by simp [paramStep]), by simp [Param.sameAll, Param.same,
          Binding.typed, Token.binding, Token.text_of_lex k, st]⟩
    | cons p' ps =>
      rw [commaLexes_map_cons_cons, Param.lexes] at hs
      obtain ⟨k, hs⟩ := Spans.cons hs
      obtain ⟨m, hty, hs⟩ := Spans.append hs
      obtain ⟨kc, hs⟩ := Spans.cons hs
      obtain ⟨t', rt, st⟩ :=
        Ty.readsBack p.ty hty (by simp [Token.kind_of_lex kc, TokenKind.endsType])
      obtain ⟨ps', rps, sps⟩ := ih (by simp) (done ++ [c.current.binding.typed t']) hs
      refine ⟨c.current.binding.typed t' :: ps', .paramRunMore (Token.kind_of_lex k) rt
        (Token.kind_of_lex kc) (by simpa [paramStep] using rps), ?_⟩
      simp [Param.sameAll, Param.same, Binding.typed, Token.binding, Token.text_of_lex k, st, sps]

theorem Param.readsAll {ps : List Param} (hs : c.Spans (commaLexes (ps.map Param.lexes)) d)
    (hd : d.current.kind = .closeParen) :
    ∃ ps', Reads params c (.params ps') d ∧ Param.sameAll ps ps' := by
  cases ps with
  | nil =>
    obtain rfl := hs.eq_of_nil
    exact ⟨[], .paramsNone hd, rfl⟩
  | cons p ps =>
    obtain ⟨ps', r, s⟩ := Param.readsRun (p :: ps) (by simp) [] hs hd
    have hk : c.current.kind = .identifier := by
      rw [List.map_cons, commaLexes_cons, Param.lexes, List.cons_append] at hs
      exact hs.head
    exact ⟨ps', .paramsSome (by rw [hk]; decide) r, s⟩

theorem Expr.ReadsWhole.func {ps : List Param} {rs : List Ty} {b : Block} {p : Position}
    (hb : b.ReadsBack) : (Expr.func ps rs b p).ReadsWhole := by
  intro c d hs _
  obtain ⟨k1, hs⟩ := Spans.cons hs
  obtain ⟨k2, hs⟩ := Spans.cons hs
  obtain ⟨m, hps, hs⟩ := Spans.append hs
  obtain ⟨k3, hs⟩ := Spans.cons hs
  obtain ⟨e, hrs, hbs⟩ := Spans.append hs
  obtain ⟨bl, hbl⟩ := Block.lexes_cons b
  have he : e.current.kind = .openCurly := by
    rw [hbl] at hbs
    exact hbs.head
  obtain ⟨ps', rps, sps⟩ := Param.readsAll hps (Token.kind_of_lex k3)
  obtain ⟨rs', rrs, srs⟩ := Ty.readsResults rs (by rwa [Ty.lexesAll_eq_map]) (by simp [he, TokenKind.endsType])
  obtain ⟨b', rb, sb⟩ := hb hbs
  have hk1 : c.current.kind = .kwFunc := Token.kind_of_lex k1
  exact ⟨_, .exprFunc hk1 (.funcLit hk1 (Token.kind_of_lex k2) rps (Token.kind_of_lex k3) rrs rb),
    by simp [Expr.same, sps, srs, sb]⟩

end ReadLists

theorem Expr.startsExpr_of_spans {x : Expr} {c d : Cursor} (h : c.Spans x.lexes d) :
    c.current.kind.startsExpr := by
  obtain ⟨l, ls, hl, hs, -⟩ := Expr.lexes_cons x
  rw [hl] at h
  rw [h.head]
  exact hs

theorem Stmt.same_closedBy {s s' : Stmt} (h : s.same s') (hs : s.closedBy false = s) :
    s.same (s'.closedBy false) := by
  cases s' with
  | single e' semi' p' => cases s <;> simp_all [Stmt.same, Stmt.closedBy]
  | _ => simpa [Stmt.closedBy] using h

theorem Stmt.ne_define_of_same {s s' : Stmt} (h : s.same s') (hs : s.closesClauses) :
    ∀ ns vs p, s' ≠ .define ns vs p := by
  rintro ns vs p rfl
  cases s <;> simp_all [Stmt.same, Stmt.closesClauses]

theorem Stmt.startsExpr_of_opens {s : Stmt} (hs : s.shaped) (ho : s.opensClauses)
    {c d : Cursor} (h : c.Spans s.lexes d) : c.current.kind.startsExpr := by
  cases s with
  | single e semi p =>
    simp only [Stmt.lexes] at h
    exact Expr.startsExpr_of_spans (Cursor.Spans.append h).choose_spec.1
  | assign ts vs p =>
    obtain ⟨t, ts, rfl⟩ := List.exists_cons_of_ne_nil (by simp_all [Stmt.shaped] : ts ≠ [])
    simp only [Stmt.lexes, Expr.lexesAll_eq_map, List.map_cons, commaLexes_cons,
      List.append_assoc] at h
    exact Expr.startsExpr_of_spans (Cursor.Spans.append h).choose_spec.1
  | define ns vs p =>
    obtain ⟨n, ns, rfl⟩ := List.exists_cons_of_ne_nil (by simp_all [Stmt.shaped] : ns ≠ [])
    simp only [Stmt.lexes, Binding.lexesAll, List.map_cons, commaLexes_cons, List.cons_append,
      List.append_assoc] at h
    rw [h.head]
    rfl
  | _ => simp [Stmt.opensClauses] at ho

theorem Stmt.current_ne_closeCurly {s : Stmt} (hs : s.shaped) {c d : Cursor}
    (h : c.Spans (s.lexes ++ [newlineLex]) d) : c.current.kind ≠ .closeCurly := by
  have key : ∀ l ls, s.lexes ++ [newlineLex] = l :: ls → l.1 ≠ .closeCurly := by
    intro l ls hl
    cases s with
    | empty => simp [Stmt.lexes, newlineLex] at hl; simp [← hl.1]
    | single e semi p =>
      obtain ⟨l0, ls0, he, hs0, -⟩ := Expr.lexes_cons e
      simp only [Stmt.lexes, he, List.cons_append, List.cons.injEq] at hl
      rw [← hl.1]
      exact TokenKind.ne_of_startsExpr hs0 rfl
    | varDecl ns spec p =>
      rcases spec with ⟨t, _ | vs⟩ | vs <;> simp [Stmt.lexes] at hl <;> simp [← hl.1, TokenKind.lex]
    | block b =>
      obtain ⟨ls0, hb⟩ := Block.lexes_cons b
      simp only [Stmt.lexes, hb, List.cons_append, List.cons.injEq] at hl
      simp [← hl.1, TokenKind.lex]
    | ifChain bs o p =>
      obtain ⟨⟨x, b, q⟩, bs, rfl⟩ := List.exists_cons_of_ne_nil (by simp_all [Stmt.shaped] : bs ≠ [])
      cases bs <;> simp [Stmt.lexes, Branch.lexesAll] at hl <;>
        simp [← hl.1, TokenKind.lex]
    | loop shape b p =>
      rcases shape with _ | _ | ⟨_, _, _⟩ <;> simp [Stmt.lexes] at hl <;> simp [← hl.1, TokenKind.lex]
    | breakLoop p | continueLoop p => simp [Stmt.lexes] at hl; simp [← hl.1, TokenKind.lex]
    | ret vs p => cases vs <;> simp [Stmt.lexes] at hl <;> simp [← hl.1, TokenKind.lex]
    | assign ts vs p =>
      obtain ⟨t, ts, rfl⟩ := List.exists_cons_of_ne_nil (by simp_all [Stmt.shaped] : ts ≠ [])
      obtain ⟨l0, ls0, he, hs0, -⟩ := Expr.lexes_cons t
      simp only [Stmt.lexes, Expr.lexesAll_eq_map, List.map_cons, commaLexes_cons, he,
        List.cons_append, List.cons.injEq] at hl
      rw [← hl.1]
      exact TokenKind.ne_of_startsExpr hs0 rfl
    | define ns vs p =>
      obtain ⟨n, ns, rfl⟩ := List.exists_cons_of_ne_nil (by simp_all [Stmt.shaped] : ns ≠ [])
      simp [Stmt.lexes, Binding.lexesAll, commaLexes_cons] at hl
      simp [← hl.1]
  obtain ⟨l, ls, hl⟩ := List.exists_cons_of_ne_nil (by simp : s.lexes ++ [newlineLex] ≠ [])
  rw [hl] at h
  rw [h.head]
  exact key l ls hl

theorem Ty.current_ne_comma {t : Ty} {c d : Cursor} (h : c.Spans t.lexes d) :
    c.current.kind ≠ .comma := by
  obtain ⟨l, ls, hl, hk⟩ := Ty.lexes_head t
  rw [hl] at h
  rw [h.head]
  rcases hk with hk | hk | hk <;> simp [hk]

theorem bindingsOf_of_sameAll (ns : List Binding) : ∀ xs : List Expr,
    Expr.sameAll (ns.map fun b => Expr.name b.name b.pos) xs →
    ∃ bs, bindingsOf xs = .ok bs ∧ Binding.sameAll ns bs := by
  induction ns with
  | nil =>
    intro xs h
    cases xs with
    | nil => exact ⟨[], rfl, rfl⟩
    | cons => simp [Expr.sameAll] at h
  | cons n ns ih =>
    intro xs h
    cases xs with
    | nil => simp [Expr.sameAll] at h
    | cons x xs =>
      cases x with
      | name a q =>
        simp only [List.map_cons, Expr.sameAll, Expr.same, Bool.and_eq_true, beq_iff_eq] at h
        obtain ⟨bs, hbs, sbs⟩ := ih xs h.2
        refine ⟨⟨a, q⟩ :: bs, by rw [Reader.bindingsOf_cons_name, hbs]; rfl, ?_⟩
        simp_all [Binding.sameAll]
      | _ => simp [Expr.sameAll, Expr.same] at h

theorem Block.current_of_spans {b : Block} {c d : Cursor} (h : c.Spans b.lexes d) :
    c.current.kind = .openCurly := by
  obtain ⟨ls, hl⟩ := Block.lexes_cons b
  rw [hl] at h
  exact h.head

theorem Cursor.Spans.atEnd_of_ne_nil {c d : Cursor} {ls : List Lex} (hne : ls ≠ [])
    (h : c.Spans ls d) : c.atEnd = false := by
  obtain ⟨l, ls, rfl⟩ := List.exists_cons_of_ne_nil hne
  exact h.atEnd

theorem Program.lexes_cons (s : Stmt) (p : Program) :
    Program.lexes (s :: p) = s.lexes ++ newlineLex :: Program.lexes p := by
  simp [Program.lexes]

theorem Stmt.blockLexes_append (ss : List Stmt) :
    Stmt.blockLexes ss ++ [newlineLex] = newlineLex :: Program.lexes ss := by
  induction ss with
  | nil => rfl
  | cons s ss ih => simp [Stmt.blockLexes, Program.lexes_cons, ← ih]

theorem Branch.lexesAll_cons_cons (x : Expr) (b : Block) (q : Position) (br : Branch)
    (bs : List Branch) :
    [TokenKind.kwElse.lex].intercalate (Branch.lexesAll (.mk x b q :: br :: bs)) =
      TokenKind.kwIf.lex :: (x.lexes ++ b.lexes) ++
        TokenKind.kwElse.lex :: [TokenKind.kwElse.lex].intercalate (Branch.lexesAll (br :: bs)) := by
  cases br
  simp [Branch.lexesAll, List.intercalate_cons_cons]

structure Stmt.ReadsBack (s : Stmt) : Prop where
  line : ∀ {c d : Cursor}, c.Spans (s.lexes ++ [newlineLex]) d →
    ∃ s', Reader.Reads .stmt c (.stmt s') d ∧ s.same s'
  simple : s.opensClauses → ∀ {c d : Cursor}, c.Spans s.lexes d → d.current.kind.closesSimple →
    ∃ s', Reader.Reads .simple c (.stmt s') d ∧ s.same s'

section ReadStatements

open Reader Cursor

variable {c d : Cursor}

theorem Reader.Reads.line {s : Stmt} (h : Reads head c (.stmt s) d)
    (hc : c.current.kind ≠ .semicolon) (hn : c.current.kind ≠ .newline)
    (hd : d.current.kind = .newline) : Reads stmt c (.stmt (s.closedBy false)) d.next := by
  have hr := Reads.stmtHead hc hn h (e := d.next) (by simp [hd, Cursor.endLine])
  have hs : d.sees .semicolon = false := by rw [Cursor.sees, hd]; rfl
  rwa [hs] at hr

theorem Reader.Reads.head_of_simple {v : Outcome} (h : Reads simple c v d)
    (hc : c.current.kind.startsExpr) : Reads head c v d :=
  .headSimple (TokenKind.not_mem_heads_of_startsExpr hc) h

theorem Branch.readsHead {x : Expr} {b : Block} (hx : x.ReadsWhole) (hb : b.ReadsBack)
    {rest : List Lex} (h : c.Spans (TokenKind.kwIf.lex :: (x.lexes ++ b.lexes) ++ rest) d) :
    c.current.kind = .kwIf ∧ ∃ x' m b' e, Reads expr c.next (.expr x') m ∧
      Reads block m (.block b') e ∧ x.same x' ∧ b.same b' ∧ e.Spans rest d := by
  simp only [List.cons_append, List.append_assoc] at h
  obtain ⟨ki, h⟩ := Spans.cons h
  obtain ⟨m, hxs, h⟩ := Spans.append h
  obtain ⟨e, hbl, hrest⟩ := Spans.append h
  have hm := Block.current_of_spans hbl
  obtain ⟨x', rx, sx⟩ := hx hxs (TokenKind.bindsBelow_of_ofKind? (by rw [hm]; rfl) 1)
  obtain ⟨b', rb, sb⟩ := hb hbl
  exact ⟨Token.kind_of_lex ki, x', m, b', e, rx, rb, sx, sb, hrest⟩

theorem Branch.readsChain (bs : List Branch) (hne : bs ≠ [])
    (hb : ∀ x b q, Branch.mk x b q ∈ bs → x.ReadsWhole ∧ b.ReadsBack)
    {o : Option Block} (ho : ∀ b ∈ o, b.ReadsBack) (pos : Position) {c d : Cursor}
    (h : c.Spans ([TokenKind.kwElse.lex].intercalate (Branch.lexesAll bs) ++ Block.elseLexes o) d)
    (hd : d.current.kind ≠ .kwElse) :
    c.current.kind = .kwIf ∧ ∃ bs' o', Reads (branches pos) c.next (.chain (bs', o')) d ∧
      Branch.sameAll bs bs' ∧ Block.sameOpt o o' := by
  induction bs generalizing pos c with
  | nil => exact absurd rfl hne
  | cons br bs ih =>
    obtain ⟨x, b, q⟩ := br
    obtain ⟨hxr, hbr⟩ := hb x b q List.mem_cons_self
    cases bs with
    | nil =>
      rw [Branch.lexesAll, Branch.lexesAll, List.intercalate_singleton] at h
      obtain ⟨hki, x', m, b', e, rx, rb, sx, sb, hel⟩ := Branch.readsHead hxr hbr h
      refine ⟨hki, ?_⟩
      cases o with
      | none =>
        obtain rfl := hel.eq_of_nil
        exact ⟨[.mk x' b' pos], none, .branchesEnd rx rb hd, by simp [Branch.sameAll, sx, sb],
          by simp [Block.sameOpt]⟩
      | some b2 =>
        simp only [Block.elseLexes] at hel
        obtain ⟨ke, hel⟩ := Spans.cons hel
        obtain ⟨b2', rb2, sb2⟩ := ho b2 rfl hel
        have hk2 := Block.current_of_spans hel
        exact ⟨[.mk x' b' pos], some b2', .branchesElse rx rb (Token.kind_of_lex ke)
          (by rw [hk2]; decide) rb2, by simp [Branch.sameAll, sx, sb], by simp [Block.sameOpt, sb2]⟩
    | cons br bs =>
      rw [Branch.lexesAll_cons_cons, List.append_assoc] at h
      obtain ⟨hki, x', m, b', e, rx, rb, sx, sb, h⟩ := Branch.readsHead hxr hbr h
      obtain ⟨ke, h⟩ := Spans.cons h
      obtain ⟨hif, bs', o', r, sbs, so⟩ := ih (by simp)
        (fun x b q hm => hb x b q (List.mem_cons_of_mem _ hm)) e.next.current.start h
      exact ⟨hki, .mk x' b' pos :: bs', o',
        .branchesElseIf rx rb (Token.kind_of_lex ke) hif r, by simp [Branch.sameAll, sx, sb, sbs], so⟩

namespace Stmt.ReadsBack

theorem of_head {s : Stmt} (ho : s.opensClauses = false) (hcl : s.closedBy false = s)
    (hh : ∀ {c d : Cursor}, c.Spans s.lexes d → d.current.kind = .newline →
      c.current.kind ≠ .semicolon ∧ c.current.kind ≠ .newline ∧
        ∃ s', Reads head c (.stmt s') d ∧ s.same s') : s.ReadsBack where
  line {c d} h := by
    obtain ⟨m, hm, hnl⟩ := Spans.append h
    obtain ⟨k, rfl⟩ := Spans.single hnl
    obtain ⟨hc, hn, s', r, hs'⟩ := hh hm (Token.kind_of_lex k)
    exact ⟨_, r.line hc hn (Token.kind_of_lex k), Stmt.same_closedBy hs' hcl⟩
  simple h := by simp [ho] at h

theorem of_simple {s : Stmt} (hcl : s.closedBy false = s)
    (hs : ∀ {c d : Cursor}, c.Spans s.lexes d → d.current.kind.closesSimple →
      c.current.kind.startsExpr ∧ ∃ s', Reads Reader.simple c (.stmt s') d ∧ s.same s') :
    s.ReadsBack where
  line {c d} h := by
    obtain ⟨m, hm, hnl⟩ := Spans.append h
    obtain ⟨k, rfl⟩ := Spans.single hnl
    have hk : m.current.kind = .newline := Token.kind_of_lex k
    obtain ⟨hc, s', r, hs'⟩ := hs hm (.inl hk)
    exact ⟨_, (r.head_of_simple hc).line (TokenKind.ne_of_startsExpr hc rfl) (TokenKind.ne_of_startsExpr hc rfl) hk, Stmt.same_closedBy hs' hcl⟩
  simple _ {c d} h hd := (hs h hd).2

theorem single {e : Expr} {semi : Bool} {p : Position} (he : e.ReadsWhole) :
    (Stmt.single e semi p).ReadsBack where
  line {c d} h := by
    simp only [Stmt.lexes, List.append_assoc] at h
    obtain ⟨m, hm, hrest⟩ := Spans.append h
    have hc := Expr.startsExpr_of_spans hm
    cases semi with
    | false =>
      obtain ⟨k, rfl⟩ := Spans.single hrest
      have hk : m.current.kind = .newline := Token.kind_of_lex k
      obtain ⟨e', r, se⟩ := he hm (TokenKind.bindsBelow_of_ofKind? (by rw [hk]; rfl) 1)
      have rs : Reads Reader.simple c (.stmt (.single e' false c.current.start)) m :=
        .simpleSingle r (by rw [hk]; decide) (by rw [hk]; decide) (by rw [hk]; decide)
      exact ⟨_, (rs.head_of_simple hc).line (TokenKind.ne_of_startsExpr hc rfl) (TokenKind.ne_of_startsExpr hc rfl) hk,
        by simp [Stmt.same, Stmt.closedBy, se]⟩
    | true =>
      obtain ⟨ks, hrest⟩ := Spans.cons hrest
      obtain ⟨kn, rfl⟩ := Spans.single hrest
      have hk : m.current.kind = .semicolon := Token.kind_of_lex ks
      obtain ⟨e', r, se⟩ := he hm (TokenKind.bindsBelow_of_ofKind? (by rw [hk]; rfl) 1)
      have rs : Reads Reader.simple c (.stmt (.single e' false c.current.start)) m :=
        .simpleSingle r (by rw [hk]; decide) (by rw [hk]; decide) (by rw [hk]; decide)
      have hl := Reads.stmtHead (TokenKind.ne_of_startsExpr hc rfl) (TokenKind.ne_of_startsExpr hc rfl) (rs.head_of_simple hc)
        (e := m.next.next) (by simp [hk, Cursor.endLine, Token.kind_of_lex kn, newlineLex])
      exact ⟨_, hl, by simp [Stmt.same, Stmt.closedBy, Cursor.sees, hk, se]⟩
  simple ho {c d} h hd := by
    have hsemi : semi = false := by simpa [Stmt.opensClauses] using ho
    subst hsemi
    simp only [Stmt.lexes, Bool.false_eq_true, ↓reduceIte, List.append_nil] at h
    obtain ⟨e', r, se⟩ := he h (hd.bindsBelow 1)
    exact ⟨_, .simpleSingle r (hd.ne (by decide)) (hd.ne (by decide)) (hd.ne (by decide)),
      by simp [Stmt.same, se]⟩

theorem targets {ts : List Expr} (hne : ts ≠ []) (ht : ∀ x ∈ ts, x.ReadsWhole) {k : TokenKind}
    (hk : k = .assign ∨ k = .define) {ls : List Lex}
    (h : c.Spans (commaLexes (Expr.lexesAll ts) ++ k.lex :: ls) d) :
    c.current.kind.startsExpr ∧ ∃ t' ts' m e, Reads expr c (.expr t') m ∧
      (m.current.kind = .comma ∨ m.current.kind = .assign ∨ m.current.kind = .define) ∧
      Reads moreExprs m (.exprs ts') e ∧ e.current.kind = k ∧ e.next.Spans ls d ∧
      Expr.sameAll ts (t' :: ts') := by
  obtain ⟨t, ts, rfl⟩ := List.exists_cons_of_ne_nil hne
  rw [Expr.lexesAll_eq_map, List.map_cons, commaLexes_cons, List.append_assoc] at h
  obtain ⟨m, hm, h⟩ := Spans.append h
  obtain ⟨e, hmore, h⟩ := Spans.append h
  obtain ⟨kk, h⟩ := Spans.cons h
  have hek : e.current.kind = k := Token.kind_of_lex kk
  have hkb : k.bindsBelow 1 :=
    TokenKind.bindsBelow_of_ofKind? (by rcases hk with rfl | rfl <;> rfl) 1
  have hkc : k ≠ .comma := by rcases hk with rfl | rfl <;> decide
  have hmk : m.current.kind = .comma ∨ m.current.kind = k := by
    rcases kind_of_spans_commas hmore with hc | rfl
    · exact .inl hc
    · exact .inr hek
  obtain ⟨t', rt, st⟩ := ht t (by simp) hm (by
    rcases hmk with hc | hc
    · exact TokenKind.bindsBelow_of_ofKind? (by rw [hc]; rfl) 1
    · rw [hc]; exact hkb)
  obtain ⟨ts', rts, sts⟩ := Expr.readsMore ts (fun y hy => ht y (by simp [hy])) hmore
    (by rw [hek]; exact hkb) (by rw [hek]; exact hkc)
  refine ⟨Expr.startsExpr_of_spans hm, t', ts', m, e, rt, ?_, rts, hek, h,
    by simp [Expr.sameAll, st, sts]⟩
  rcases hmk with hc | hc
  · exact .inl hc
  · rcases hk with rfl | rfl
    · exact .inr (.inl hc)
    · exact .inr (.inr hc)

theorem assign {ts vs : List Expr} {p : Position} (hts : ts ≠ []) (hvs : vs ≠ [])
    (ht : ∀ x ∈ ts, x.ReadsWhole) (hv : ∀ x ∈ vs, x.ReadsWhole) :
    (Stmt.assign ts vs p).ReadsBack := by
  refine of_simple rfl fun {c d} h hd => ?_
  obtain ⟨hc, t', ts', m, e, rt, hm, rts, hek, h, st⟩ := targets hts ht (.inl rfl) h
  obtain ⟨vs', rvs, svs⟩ := Expr.readsList hvs hv h (hd.bindsBelow 1) (hd.ne (by decide))
  exact ⟨hc, _, .simpleAssign rt hm rts hek rvs, by simp [Stmt.same, st, svs]⟩

theorem define {ns : List Binding} {vs : List Expr} {p : Position} (hns : ns ≠ [])
    (hnames : ∀ b ∈ ns, isName b.name) (hvs : vs ≠ []) (hv : ∀ x ∈ vs, x.ReadsWhole) :
    (Stmt.define ns vs p).ReadsBack := by
  refine of_simple rfl fun {c d} h hd => ?_
  let xs := ns.map fun b => Expr.name b.name b.pos
  have hlex : Binding.lexesAll ns = commaLexes (Expr.lexesAll xs) := by
    simp [xs, Binding.lexesAll, Expr.lexesAll_eq_map, Function.comp_def, Expr.lexes]
  have hx : ∀ x ∈ xs, x.ReadsWhole := by
    intro x hx
    obtain ⟨b, hb, rfl⟩ := List.mem_map.mp hx
    exact Expr.ReadsWhole.of_readsBack (Expr.readsBack _ (by simpa [Expr.shaped] using hnames b hb) rfl) rfl
  rw [Stmt.lexes, hlex] at h
  obtain ⟨hc, t', ts', m, e, rt, hm, rts, hek, h, st⟩ :=
    targets (by simpa [xs] using hns) hx (.inr rfl) h
  obtain ⟨bs, hbs, sbs⟩ := bindingsOf_of_sameAll ns (t' :: ts') st
  obtain ⟨vs', rvs, svs⟩ := Expr.readsList hvs hv h (hd.bindsBelow 1) (hd.ne (by decide))
  exact ⟨hc, _, .simpleDefine rt hm rts hek hbs rvs, by simp [Stmt.same, sbs, svs]⟩

theorem varTyped {ns : List Binding} {t : Ty} {p : Position} (hns : ns ≠ []) :
    (Stmt.varDecl ns (.typed t none) p).ReadsBack := by
  refine of_head rfl rfl fun {c d} h hd => ?_
  simp only [Stmt.lexes] at h
  obtain ⟨kv, h⟩ := Spans.cons h
  obtain ⟨m, hn, ht⟩ := Spans.append h
  have hkv : c.current.kind = .kwVar := Token.kind_of_lex kv
  obtain ⟨bs, rn, sn⟩ := Binding.readsNames ns hns hn (Ty.current_ne_comma ht)
  obtain ⟨t', rt, st⟩ := Ty.readsBack t ht (by simp [hd, TokenKind.endsType])
  exact ⟨by rw [hkv]; decide, by rw [hkv]; decide, _,
    .headVar hkv (.varDeclBare hkv rn rt (by rw [hd]; decide)),
    by simp [Stmt.same, VarSpec.same, sn, st]⟩

theorem varTypedValues {ns : List Binding} {t : Ty} {vs : List Expr} {p : Position}
    (hns : ns ≠ []) (hvs : vs ≠ []) (hv : ∀ x ∈ vs, x.ReadsWhole) :
    (Stmt.varDecl ns (.typed t (some vs)) p).ReadsBack := by
  refine of_head rfl rfl fun {c d} h hd => ?_
  simp only [Stmt.lexes] at h
  obtain ⟨kv, h⟩ := Spans.cons h
  obtain ⟨e, h, hvals⟩ := Spans.append h
  obtain ⟨m, hn, ht⟩ := Spans.append h
  obtain ⟨ka, hvals⟩ := Spans.cons hvals
  have hkv : c.current.kind = .kwVar := Token.kind_of_lex kv
  have hka : e.current.kind = .assign := Token.kind_of_lex ka
  obtain ⟨bs, rn, sn⟩ := Binding.readsNames ns hns hn (Ty.current_ne_comma ht)
  obtain ⟨t', rt, st⟩ := Ty.readsBack t ht (by simp [hka, TokenKind.endsType])
  obtain ⟨vs', rvs, svs⟩ := Expr.readsList hvs hv hvals
    (TokenKind.bindsBelow_of_ofKind? (by rw [hd]; rfl) 1) (by rw [hd]; decide)
  exact ⟨by rw [hkv]; decide, by rw [hkv]; decide, _, .headVar hkv (.varDeclTyped hkv rn rt hka rvs),
    by simp [Stmt.same, VarSpec.same, sn, st, svs]⟩

theorem varInferred {ns : List Binding} {vs : List Expr} {p : Position}
    (hns : ns ≠ []) (hvs : vs ≠ []) (hv : ∀ x ∈ vs, x.ReadsWhole) :
    (Stmt.varDecl ns (.inferred vs) p).ReadsBack := by
  refine of_head rfl rfl fun {c d} h hd => ?_
  simp only [Stmt.lexes] at h
  obtain ⟨kv, h⟩ := Spans.cons h
  obtain ⟨m, hn, hvals⟩ := Spans.append h
  obtain ⟨ka, hvals⟩ := Spans.cons hvals
  have hkv : c.current.kind = .kwVar := Token.kind_of_lex kv
  have hka : m.current.kind = .assign := Token.kind_of_lex ka
  obtain ⟨bs, rn, sn⟩ := Binding.readsNames ns hns hn (by rw [hka]; decide)
  obtain ⟨vs', rvs, svs⟩ := Expr.readsList hvs hv hvals
    (TokenKind.bindsBelow_of_ofKind? (by rw [hd]; rfl) 1) (by rw [hd]; decide)
  have rt : Reads type m (.type none) m :=
    .typeNone (by rw [hka]; decide) (by rw [hka]; decide) (by rw [hka]; decide)
  exact ⟨by rw [hkv]; decide, by rw [hkv]; decide, _,
    .headVar hkv (.varDeclInferred hkv rn rt hka rvs), by simp [Stmt.same, VarSpec.same, sn, svs]⟩

theorem block {b : Block} (hb : b.ReadsBack) : (Stmt.block b).ReadsBack := by
  refine of_head rfl rfl fun {c d} h _ => ?_
  simp only [Stmt.lexes] at h
  obtain ⟨ls, hl⟩ := Block.lexes_cons b
  have hk : c.current.kind = .openCurly := by
    rw [hl] at h
    exact h.head
  obtain ⟨b', rb, sb⟩ := hb h
  exact ⟨by rw [hk]; decide, by rw [hk]; decide, _, .headBlock hk rb, by simp [Stmt.same, sb]⟩

theorem breakLoop {p : Position} : (Stmt.breakLoop p).ReadsBack := by
  refine of_head rfl rfl fun {c d} h _ => ?_
  obtain ⟨k, rfl⟩ := Spans.single h
  have hk : c.current.kind = .kwBreak := Token.kind_of_lex k
  exact ⟨by rw [hk]; decide, by rw [hk]; decide, _, .headBreak hk, by simp [Stmt.same]⟩

theorem continueLoop {p : Position} : (Stmt.continueLoop p).ReadsBack := by
  refine of_head rfl rfl fun {c d} h _ => ?_
  obtain ⟨k, rfl⟩ := Spans.single h
  have hk : c.current.kind = .kwContinue := Token.kind_of_lex k
  exact ⟨by rw [hk]; decide, by rw [hk]; decide, _, .headContinue hk, by simp [Stmt.same]⟩

theorem retEmpty {p : Position} : (Stmt.ret [] p).ReadsBack := by
  refine of_head rfl rfl fun {c d} h hd => ?_
  obtain ⟨k, rfl⟩ := Spans.single h
  have hk : c.current.kind = .kwReturn := Token.kind_of_lex k
  exact ⟨by rw [hk]; decide, by rw [hk]; decide, _,
    .headReturn hk (.retEmpty hk (by rw [hd]; rfl)), by simp [Stmt.same, Expr.sameAll]⟩

theorem retValues {v : Expr} {vs : List Expr} {p : Position} (hv : ∀ x ∈ v :: vs, x.ReadsWhole) :
    (Stmt.ret (v :: vs) p).ReadsBack := by
  refine of_head rfl rfl fun {c d} h hd => ?_
  simp only [Stmt.lexes] at h
  obtain ⟨k, h⟩ := Spans.cons h
  have hk : c.current.kind = .kwReturn := Token.kind_of_lex k
  have hv0 : c.next.current.kind.startsExpr := by
    rw [Expr.lexesAll_eq_map, List.map_cons, commaLexes_cons] at h
    exact Expr.startsExpr_of_spans (Spans.append h).choose_spec.1
  obtain ⟨vs', rvs, svs⟩ := Expr.readsList (by simp) hv h
    (TokenKind.bindsBelow_of_ofKind? (by rw [hd]; rfl) 1) (by rw [hd]; decide)
  exact ⟨by rw [hk]; decide, by rw [hk]; decide, _,
    .headReturn hk (.retValues hk (TokenKind.endsReturn_of_startsExpr hv0) rvs),
    by simp [Stmt.same, svs]⟩

theorem empty {p : Position} : (Stmt.empty p).ReadsBack where
  line {c d} h := by
    obtain ⟨k, rfl⟩ := Spans.single (by simpa [Stmt.lexes] using h)
    exact ⟨_, .stmtNewline (Token.kind_of_lex k), by simp [Stmt.same]⟩
  simple h := by simp [Stmt.opensClauses] at h

theorem ifChain {bs : List Branch} {o : Option Block} {p : Position} (hne : bs ≠ [])
    (hb : ∀ x b q, Branch.mk x b q ∈ bs → x.ReadsWhole ∧ b.ReadsBack)
    (ho : ∀ b ∈ o, b.ReadsBack) : (Stmt.ifChain bs o p).ReadsBack := by
  refine of_head rfl rfl fun {c d} h hd => ?_
  simp only [Stmt.lexes] at h
  obtain ⟨hk, bs', o', r, sbs, so⟩ :=
    Branch.readsChain bs hne hb ho c.current.start h (by rw [hd]; decide)
  exact ⟨by rw [hk]; decide, by rw [hk]; decide, _, .headIf hk (.ifChain hk r),
    by simp [Stmt.same, sbs, so]⟩

theorem loopForever {b : Block} {p : Position} (hb : b.ReadsBack) :
    (Stmt.loop .forever b p).ReadsBack := by
  refine of_head rfl rfl fun {c d} h _ => ?_
  simp only [Stmt.lexes] at h
  obtain ⟨kf, h⟩ := Spans.cons h
  have hk : c.current.kind = .kwFor := Token.kind_of_lex kf
  obtain ⟨b', rb, sb⟩ := hb h
  exact ⟨by rw [hk]; decide, by rw [hk]; decide, _,
    .headFor hk (.loopForever hk (Block.current_of_spans h) rb), by simp [Stmt.same, LoopShape.same, sb]⟩

theorem loopGuarded {x : Expr} {b : Block} {p : Position} (hx : x.ReadsWhole) (hb : b.ReadsBack) :
    (Stmt.loop (.guarded x) b p).ReadsBack := by
  refine of_head rfl rfl fun {c d} h _ => ?_
  simp only [Stmt.lexes] at h
  obtain ⟨kf, h⟩ := Spans.cons h
  obtain ⟨m, hxs, hbs⟩ := Spans.append h
  have hk : c.current.kind = .kwFor := Token.kind_of_lex kf
  have hc := Expr.startsExpr_of_spans hxs
  have hm := Block.current_of_spans hbs
  obtain ⟨x', rx, sx⟩ := hx hxs (TokenKind.bindsBelow_of_ofKind? (by rw [hm]; rfl) 1)
  obtain ⟨b', rb, sb⟩ := hb hbs
  have rs : Reads Reader.simple c.next (.stmt (.single x' false c.next.current.start)) m :=
    .simpleSingle rx (by rw [hm]; decide) (by rw [hm]; decide) (by rw [hm]; decide)
  exact ⟨by rw [hk]; decide, by rw [hk]; decide, _,
    .headFor hk (.loopGuarded hk (TokenKind.ne_of_startsExpr hc rfl)
      (TokenKind.ne_of_startsExpr hc rfl) rs hm rb), by simp [Stmt.same, LoopShape.same, sx, sb]⟩

theorem clausesRest (init : Option Stmt) {x : Option Expr} {q : Option Stmt} {b : Block}
    (hx : ∀ e ∈ x, e.ReadsWhole) (hq : ∀ s ∈ q, s.ReadsBack) (hqs : Stmt.shapedOpt q)
    (hqc : q.all Stmt.closesClauses) (hb : b.ReadsBack)
    (h : c.Spans (TokenKind.semicolon.lex :: (Expr.lexesOpt x ++ TokenKind.semicolon.lex ::
      (Stmt.lexesOpt q ++ b.lexes))) d) :
    ∃ x' q' b', Reads (clauses init) c (.clauses (.clauses init x' q', b')) d ∧
      Expr.sameOpt x x' ∧ Stmt.sameOpt q q' ∧ b.same b' := by
  obtain ⟨k1, h⟩ := Spans.cons h
  obtain ⟨m, hxs, h⟩ := Spans.append h
  obtain ⟨k2, h⟩ := Spans.cons h
  obtain ⟨e, hps, hbs⟩ := Spans.append h
  have hm : m.current.kind = .semicolon := Token.kind_of_lex k2
  have he := Block.current_of_spans hbs
  obtain ⟨x', rx, sx⟩ : ∃ x', Reads cond c.next (.cond x') m ∧ Expr.sameOpt x x' := by
    cases x with
    | none =>
      obtain rfl := hxs.eq_of_nil
      exact ⟨none, .condNone hm, by simp [Expr.sameOpt]⟩
    | some y =>
      obtain ⟨y', ry, sy⟩ := hx y rfl hxs (TokenKind.bindsBelow_of_ofKind? (by rw [hm]; rfl) 1)
      exact ⟨some y', .condSome (TokenKind.ne_of_startsExpr (Expr.startsExpr_of_spans hxs) rfl) ry,
        by simp [Expr.sameOpt, sy]⟩
  obtain ⟨q', rq, sq⟩ : ∃ q', Reads post m.next (.post q') e ∧ Stmt.sameOpt q q' := by
    cases q with
    | none =>
      obtain rfl := hps.eq_of_nil
      exact ⟨none, .postNone he, by simp [Stmt.sameOpt]⟩
    | some s =>
      have hcl : s.closesClauses := by simpa using hqc
      have ho := Stmt.opensClauses_of_closes hcl
      obtain ⟨s', rs, ss⟩ := (hq s rfl).simple ho hps (.inr (.inr he))
      have hc := Stmt.startsExpr_of_opens (by simpa [Stmt.shapedOpt] using hqs) ho hps
      exact ⟨some s', .postSome (TokenKind.ne_of_startsExpr hc rfl) rs
        (Stmt.ne_define_of_same ss hcl), by simp [Stmt.sameOpt, ss]⟩
  obtain ⟨b', rb, sb⟩ := hb hbs
  exact ⟨x', q', b', .clauses (Token.kind_of_lex k1) rx hm rq rb, sx, sq, sb⟩

theorem loopClauses {i : Option Stmt} {x : Option Expr} {q : Option Stmt} {b : Block}
    {p : Position} (hi : ∀ s ∈ i, s.ReadsBack) (his : Stmt.shapedOpt i)
    (hio : i.all Stmt.opensClauses) (hx : ∀ e ∈ x, e.ReadsWhole) (hq : ∀ s ∈ q, s.ReadsBack)
    (hqs : Stmt.shapedOpt q) (hqc : q.all Stmt.closesClauses) (hb : b.ReadsBack) :
    (Stmt.loop (.clauses i x q) b p).ReadsBack := by
  refine of_head rfl rfl fun {c d} h _ => ?_
  simp only [Stmt.lexes] at h
  obtain ⟨kf, h⟩ := Spans.cons h
  have hk : c.current.kind = .kwFor := Token.kind_of_lex kf
  obtain ⟨m, hin, hrest⟩ := Spans.append h
  have hm : m.current.kind = .semicolon := hrest.head
  refine ⟨by rw [hk]; decide, by rw [hk]; decide, ?_⟩
  cases i with
  | none =>
    obtain rfl := hin.eq_of_nil
    obtain ⟨x', q', b', r, sx, sq, sb⟩ := clausesRest none hx hq hqs hqc hb hrest
    exact ⟨_, .headFor hk (.loopClauses hk hm r),
      by simp [Stmt.same, LoopShape.same, Stmt.sameOpt, sx, sq, sb]⟩
  | some s =>
    have ho : s.opensClauses := by simpa using hio
    obtain ⟨s', rs, ss⟩ := (hi s rfl).simple ho hin (.inr (.inl hm))
    have hc := Stmt.startsExpr_of_opens (by simpa [Stmt.shapedOpt] using his) ho hin
    obtain ⟨x', q', b', r, sx, sq, sb⟩ := clausesRest (some s') hx hq hqs hqc hb hrest
    exact ⟨_, .headFor hk (.loopInit hk (TokenKind.ne_of_startsExpr hc rfl)
      (TokenKind.ne_of_startsExpr hc rfl) rs (by rw [hm]; decide) r),
      by simp [Stmt.same, LoopShape.same, Stmt.sameOpt, ss, sx, sq, sb]⟩

end Stmt.ReadsBack

theorem Stmt.readsBody : ∀ (ss : List Stmt), (∀ s ∈ ss, s.ReadsBack ∧ s.shaped) →
    ∀ {c d : Cursor}, c.Spans (Program.lexes ss ++ [TokenKind.closeCurly.lex]) d →
    ∃ ss', Reads blockBody c (.stmts ss') d ∧ Stmt.sameAll ss ss'
  | [], _, c, d, h => by
    obtain ⟨k, rfl⟩ := Spans.single (by simpa [Program.lexes] using h)
    exact ⟨[], .blockBodyEnd (Token.kind_of_lex k), by simp [Stmt.sameAll]⟩
  | s :: ss, hs, c, d, h => by
    rw [Program.lexes_cons, List.append_assoc, List.cons_append, ← List.singleton_append,
      ← List.append_assoc] at h
    obtain ⟨m, hl, hrest⟩ := Spans.append h
    obtain ⟨hsb, hsh⟩ := hs s (by simp)
    obtain ⟨s', rs, ss1⟩ := hsb.line hl
    obtain ⟨ss', r, sss⟩ := Stmt.readsBody ss (fun t ht => hs t (by simp [ht])) hrest
    exact ⟨s' :: ss', .blockBodyStmt (Stmt.current_ne_closeCurly hsh hl)
      (hl.atEnd_of_ne_nil (by simp)) rs r, by simp [Stmt.sameAll, ss1, sss]⟩

theorem Block.ReadsBack.of_lines {ss : List Stmt} {p : Position}
    (h : ∀ s ∈ ss, s.ReadsBack ∧ s.shaped) : (Block.mk ss p).ReadsBack := by
  intro c d hs
  have hl : Stmt.blockLexes ss ++ [newlineLex, TokenKind.closeCurly.lex] =
      newlineLex :: (Program.lexes ss ++ [TokenKind.closeCurly.lex]) := by
    rw [← List.singleton_append, ← List.append_assoc, Stmt.blockLexes_append, List.cons_append]
  simp only [Block.lexes, hl] at hs
  obtain ⟨k1, hs⟩ := Spans.cons hs
  obtain ⟨k2, hs⟩ := Spans.cons hs
  have hk2 : c.next.current.kind = .newline := Token.kind_of_lex k2
  obtain ⟨ss', r, s⟩ := Stmt.readsBody ss h hs
  exact ⟨_, .block (Token.kind_of_lex k1) (by rw [if_pos hk2]; exact r), by simp [Block.same, s]⟩

/-- A printed program reads back, to its end, as a program of the same shape. -/
theorem Program.readsBack : ∀ (p : Program), (∀ s ∈ p, s.ReadsBack ∧ s.shaped) →
    ∀ {c d : Cursor}, c.Spans (Program.lexes p) d → d.ahead = [] →
    ∃ p', Program.readAll c = .ok p' ∧ Program.same p p'
  | [], _, c, d, h, hd => by
    obtain rfl := h.eq_of_nil
    exact ⟨[], Program.readAll_of_nil hd, by simp [Program.same, Stmt.sameAll]⟩
  | s :: p, hs, c, d, h, hd => by
    rw [Program.lexes_cons, ← List.singleton_append, ← List.append_assoc] at h
    obtain ⟨m, hl, hrest⟩ := Spans.append h
    obtain ⟨s', rs, ss⟩ := (hs s (by simp)).1.line hl
    obtain ⟨p', rp, sp⟩ := Program.readsBack p (fun t ht => hs t (by simp [ht])) hrest hd
    refine ⟨s' :: p', by rw [Program.readAll_of_reads rs, rp]; rfl, ?_⟩
    simp only [Program.same, Stmt.sameAll] at sp ⊢
    simp [ss, sp]

mutual

theorem Expr.readsWhole : ∀ x : Expr, x.shaped → x.ReadsWhole
  | .name .., h => Expr.ReadsWhole.of_readsBack (Expr.readsBack _ h rfl) rfl
  | .integer .., h => Expr.ReadsWhole.of_readsBack (Expr.readsBack _ h rfl) rfl
  | .boolean .., h => Expr.ReadsWhole.of_readsBack (Expr.readsBack _ h rfl) rfl
  | .unary .., h => Expr.ReadsWhole.of_readsBack (Expr.readsBack _ h rfl) rfl
  | .binary .., h => Expr.ReadsWhole.of_readsBack (Expr.readsBack _ h rfl) rfl
  | .func _ _ b _, h => Expr.ReadsWhole.func (Block.readsBack b (by simp_all [Expr.shaped]))

theorem Expr.readsWholeAll : ∀ xs : List Expr, Expr.shapedAll xs → ∀ x ∈ xs, x.ReadsWhole
  | [], _ => by simp
  | x :: xs, h => by
    simp only [Expr.shapedAll, Bool.and_eq_true] at h
    have hx : x.ReadsWhole := Expr.readsWhole x h.1
    have hxs := Expr.readsWholeAll xs h.2
    intro y hy
    rcases List.mem_cons.mp hy with rfl | hy
    · exact hx
    · exact hxs y hy

theorem Expr.readsWholeOpt : ∀ o : Option Expr, Expr.shapedOpt o → ∀ x ∈ o, x.ReadsWhole
  | none, _ => by simp
  | some x, h => by
    have hx : x.ReadsWhole := Expr.readsWhole x h
    intro y hy
    obtain rfl := Option.mem_some_iff.mp hy
    exact hx

theorem Block.readsBack : ∀ b : Block, b.shaped → b.ReadsBack
  | .mk ss _, h => Block.ReadsBack.of_lines (Stmt.readsBackAll ss h)

theorem Block.readsBackOpt : ∀ o : Option Block, Block.shapedOpt o → ∀ b ∈ o, b.ReadsBack
  | none, _ => by simp
  | some b, h => by
    have hb : b.ReadsBack := Block.readsBack b h
    intro b' hb'
    obtain rfl := Option.mem_some_iff.mp hb'
    exact hb

theorem Stmt.readsBackAll : ∀ ss : List Stmt, Stmt.shapedAll ss → ∀ s ∈ ss, s.ReadsBack ∧ s.shaped
  | [], _ => by simp
  | s :: ss, h => by
    simp only [Stmt.shapedAll, Bool.and_eq_true] at h
    have hs := Stmt.readsBack s h.1
    have hss := Stmt.readsBackAll ss h.2
    intro t ht
    rcases List.mem_cons.mp ht with rfl | ht
    · exact ⟨hs, h.1⟩
    · exact hss t ht

theorem Stmt.readsBackOpt : ∀ o : Option Stmt, Stmt.shapedOpt o → ∀ s ∈ o, s.ReadsBack
  | none, _ => by simp
  | some s, h => by
    have hs := Stmt.readsBack s h
    intro t ht
    obtain rfl := Option.mem_some_iff.mp ht
    exact hs

theorem Branch.readsBackAll : ∀ bs : List Branch, Branch.shapedAll bs →
    ∀ x b q, Branch.mk x b q ∈ bs → x.ReadsWhole ∧ b.ReadsBack
  | [], _ => by simp
  | .mk x b q :: bs, h => by
    simp only [Branch.shapedAll, Bool.and_eq_true] at h
    have hx : x.ReadsWhole := Expr.readsWhole x h.1.1
    have hb : b.ReadsBack := Block.readsBack b h.1.2
    have hbs := Branch.readsBackAll bs h.2
    intro y c r hy
    rcases List.mem_cons.mp hy with hy | hy
    · cases hy
      exact ⟨hx, hb⟩
    · exact hbs y c r hy

theorem Stmt.readsBack : ∀ s : Stmt, s.shaped → s.ReadsBack
  | .empty _, _ => .empty
  | .single e _ _, h => .single (Expr.readsWhole e h)
  | .varDecl ns (.typed t none) _, h => .varTyped (by simp_all [Stmt.shaped])
  | .varDecl ns (.typed t (some vs)) _, h => by
    simp only [Stmt.shaped, VarSpec.shaped, Bool.and_eq_true, Bool.not_eq_true',
      List.isEmpty_eq_false_iff] at h
    exact .varTypedValues h.1.1 h.2.1 (Expr.readsWholeAll vs h.2.2)
  | .varDecl ns (.inferred vs) _, h => by
    simp only [Stmt.shaped, VarSpec.shaped, Bool.and_eq_true, Bool.not_eq_true',
      List.isEmpty_eq_false_iff] at h
    exact .varInferred h.1.1 h.2.1 (Expr.readsWholeAll vs h.2.2)
  | .block b, h => .block (Block.readsBack b h)
  | .ifChain bs o _, h => by
    simp only [Stmt.shaped, Bool.and_eq_true, Bool.not_eq_true', List.isEmpty_eq_false_iff] at h
    exact .ifChain h.1.1 (Branch.readsBackAll bs h.1.2) (Block.readsBackOpt o h.2)
  | .loop .forever b _, h =>
    .loopForever (Block.readsBack b (by simpa [Stmt.shaped, LoopShape.shaped] using h))
  | .loop (.guarded x) b _, h => by
    simp only [Stmt.shaped, LoopShape.shaped, Bool.and_eq_true] at h
    exact .loopGuarded (Expr.readsWhole x h.1) (Block.readsBack b h.2)
  | .loop (.clauses i x q) b _, h => by
    simp only [Stmt.shaped, LoopShape.shaped, Bool.and_eq_true] at h
    obtain ⟨⟨⟨⟨⟨hi, hio⟩, hx⟩, hq⟩, hqc⟩, hb⟩ := h
    exact .loopClauses (Stmt.readsBackOpt i hi) hi hio (Expr.readsWholeOpt x hx)
      (Stmt.readsBackOpt q hq) hq hqc (Block.readsBack b hb)
  | .breakLoop _, _ => .breakLoop
  | .continueLoop _, _ => .continueLoop
  | .ret [] _, _ => .retEmpty
  | .ret (v :: vs) _, h => .retValues (Expr.readsWholeAll (v :: vs) h)
  | .assign ts vs _, h => by
    simp only [Stmt.shaped, Bool.and_eq_true, Bool.not_eq_true', List.isEmpty_eq_false_iff] at h
    exact .assign h.1.1.1 h.1.1.2 (Expr.readsWholeAll ts h.1.2) (Expr.readsWholeAll vs h.2)
  | .define ns vs _, h => by
    simp only [Stmt.shaped, Bool.and_eq_true, Bool.not_eq_true', List.isEmpty_eq_false_iff,
      List.all_eq_true] at h
    exact .define h.1.1.1 h.1.2 h.1.1.2 (Expr.readsWholeAll vs h.2)

end

end ReadStatements

end ScriptFront
