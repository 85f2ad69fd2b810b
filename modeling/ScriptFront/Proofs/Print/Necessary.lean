import ScriptFront.Proofs.Print.Groups
/-!
# Necessary parentheses

A group is the only way to put an operand of loose precedence where a tighter one is read. So
every reading, by every reader, takes at least as many `(` that open groups as the printer
writes for what is read: an expression reader at a level reads an expression below that level
only through a group of its own, besides the groups of the expression (`Reader.Reads.groups`, by
induction on the derivation). The printer writes no more than that (`Expr.groupOpens_lexes`),
so its parentheses are the fewest that any tokens of the same shape have, and tokens with one of
its groups taken out read as no expression of that shape.

The count runs over the tokens read from one cursor to another, after the token before them:
`Cursor.groupsTo p c d`.
-/

set_option autoImplicit false

namespace ScriptFront

namespace Cursor

variable {c d e x : Cursor} {p k : TokenKind}

def readTo (c d : Cursor) : List Token := c.ahead.take (c.ahead.length - d.ahead.length)

def groupsTo (p : TokenKind) (c d : Cursor) : Nat := groupOpens p ((c.readTo d).map Token.kind)

def lastKind (p : TokenKind) (c d : Cursor) : TokenKind :=
  ((c.readTo d).map Token.kind).getLast?.getD p

theorem readTo_append (h : d.Follows c) : c.readTo d ++ d.ahead = c.ahead := by
  obtain ⟨s, hs⟩ := h.1
  unfold readTo
  rw [← hs]
  simp

theorem readTo_trans (hd : d.Follows c) (he : e.Follows d) :
    c.readTo e = c.readTo d ++ d.readTo e := by
  have h := (readTo_append (he.trans hd)).trans (readTo_append hd).symm
  rw [← readTo_append he, ← List.append_assoc] at h
  exact List.append_cancel_right h

theorem readTo_next (hk : c.current.kind = k) (hne : k ≠ .eof) :
    c.readTo c.next = [c.current] := by
  obtain ⟨t, ts, hc⟩ := List.exists_cons_of_ne_nil (ahead_ne_nil_of_kind hne hk)
  simp [readTo, hc, current_of_ahead hc]

theorem groupsTo_trans (hd : d.Follows c) (he : e.Follows d) :
    c.groupsTo p e = c.groupsTo p d + d.groupsTo (c.lastKind p d) e := by
  rw [groupsTo, readTo_trans hd he, List.map_append, groupOpens_append]
  rfl

theorem groupsTo_le_left (hd : d.Follows c) (he : e.Follows d) :
    c.groupsTo p d ≤ c.groupsTo p e := by
  rw [groupsTo_trans hd he]
  exact Nat.le_add_right _ _

theorem groupsTo_le_right (hd : d.Follows c) (he : e.Follows d) :
    d.groupsTo (c.lastKind p d) e ≤ c.groupsTo p e := by
  rw [groupsTo_trans hd he]
  exact Nat.le_add_left _ _

theorem lastKind_next (hx : x.Follows c) (hk : x.current.kind = k) (hne : k ≠ .eof) :
    c.lastKind p x.next = k := by
  rw [lastKind, readTo_trans hx (next_follows x), readTo_next hk hne]
  simp [hk]

theorem groupsTo_step (hk : c.current.kind = k) (hne : k ≠ .eof) (he : e.Follows c.next) :
    c.groupsTo p e = (if k = .openParen ∧ p.groupsAfter then 1 else 0) + c.next.groupsTo k e := by
  rw [groupsTo_trans (next_follows c) he, lastKind_next (Follows.refl c) hk hne, groupsTo,
    readTo_next hk hne, List.map_singleton, hk]
  rfl

theorem groupsTo_next (hk : c.current.kind = k) (hk' : k ≠ .openParen) (hne : k ≠ .eof)
    (he : e.Follows c.next) : c.groupsTo p e = c.next.groupsTo k e := by
  rw [groupsTo_step hk hne he, if_neg (fun h => hk' h.1), Nat.zero_add]

theorem endLine_open (h : x.endLine = .ok d) (hd : d.current.kind = .openParen) :
    x.current.kind = .newline ∧ d = x.next := by
  unfold endLine at h
  split at h
  · next hk =>
    cases h
    exact ⟨hk, rfl⟩
  · next hk =>
    cases h
    rw [hk] at hd
    cases hd
  · next hk =>
    cases h
    rw [hk] at hd
    cases hd
  · cases h

theorem groupsTo_ofTokens_le (ts : List Token) (d : Cursor) :
    (ofTokens ts).groupsTo p d ≤ groupOpens p (ts.map Token.kind) := by
  have hpre : (ofTokens ts).readTo d <+: ts :=
    (List.take_prefix _ _).trans (List.takeWhile_prefix _)
  obtain ⟨rest, hrest⟩ := hpre
  have h := groupOpens_le_append (p := p) (a := ((ofTokens ts).readTo d).map Token.kind)
    (b := rest.map Token.kind)
  rwa [← List.map_append, hrest] at h

end Cursor

theorem UnaryOp.kind_of_ofKind? {k : TokenKind} {op : UnaryOp}
    (h : UnaryOp.ofKind? k = some op) : k = op.kind := by
  cases k <;> simp [UnaryOp.ofKind?] at h <;> subst h <;> rfl

theorem Cursor.kind_of_opAt? {c : Cursor} {l : Level} {op : BinaryOp}
    (h : c.opAt? l = some op) : c.current.kind = op.kind ∧ op.level = l := by
  unfold Cursor.opAt? at h
  split at h
  · next op' hk =>
    split at h
    · next hl =>
      cases h
      refine ⟨?_, hl⟩
      cases hc : c.current.kind <;> rw [hc] at hk <;> simp [BinaryOp.ofKind?] at hk <;>
        subst hk <;> rfl
    · cases h
  · cases h

theorem Token.integer_eq_ok {t : Token} {x : Expr} (h : t.integer = .ok x) :
    ∃ v, Text.toInt64? t.text = some v ∧ x = .integer v t.start := by
  simp only [Token.integer] at h
  split at h
  · next v hv =>
    cases h
    exact ⟨v, hv, rfl⟩
  · cases h

def Outcome.parens : Outcome → Nat
  | .expr x => x.parens
  | .exprs xs => Expr.parensAll xs
  | .cond o => Expr.parensOpt o
  | .stmt s => s.parens
  | .post o => Stmt.parensOpt o
  | .stmts ss => Stmt.parensAll ss
  | .block b => b.parens
  | .chain bo => Branch.parensAll bo.1 + Block.parensOpt bo.2
  | .clauses sb => sb.1.parens + sb.2.parens
  | .type _ | .funcType _ | .types _ | .names _ | .params _ => 0

def Outcome.below (k : Nat) : Outcome → Nat
  | .expr x => if x.precedence < k then 1 else 0
  | _ => 0

theorem Outcome.below_le_one (k : Nat) (v : Outcome) : v.below k ≤ 1 := by
  cases v with
  | expr x => simp only [Outcome.below]; split_ifs <;> simp
  | _ => simp [Outcome.below]

theorem Expr.precedence_unary (op : UnaryOp) (x : Expr) (q : Position) :
    (Expr.unary op x q).precedence = UnaryOp.precedence := rfl

theorem Expr.precedence_binary (op : BinaryOp) (l r : Expr) (q : Position) :
    (Expr.binary op l r q).precedence = op.precedence := rfl

namespace Reader

def context : Reader → Nat
  | level l | levelRest l _ => l.precedence
  | unary => UnaryOp.precedence
  | group | primary => 7
  | _ => 0

def needs (r : Reader) (v : Outcome) : Nat := v.parens + v.below r.context

def given : Reader → Nat
  | levelRest l left => (levelRest l left).needs (.expr left)
  | clauses init => Stmt.parensOpt init
  | _ => 0

def leadsOperand : Reader → Bool
  | group | primary | unary | level _ | expr | exprList | cond | branches _ | simple | post
  | head | stmt | blockBody => true
  | _ => false

theorem not_leads {r : Reader} {c : Cursor} {p : TokenKind} (h : r.leadsOperand = false) :
    r.leadsOperand → c.current.kind = .openParen → p.groupsAfter :=
  fun hl => absurd (h.symm.trans hl) Bool.false_ne_true

theorem needs_le_of_context {r r' : Reader} (h : r.context ≤ r'.context) (v : Outcome) :
    r.needs v ≤ r'.needs v := by
  unfold needs Outcome.below
  cases v <;> simp only [Nat.add_le_add_iff_left, le_refl]
  split_ifs <;> omega

theorem context_operand (l : Level) : (operand l).context = l.precedence + 1 := by
  cases l <;> rfl

theorem given_levelRest_le (l : Level) (x : Expr) :
    (levelRest l x).given ≤ (operand l).needs (.expr x) :=
  needs_le_of_context (by rw [context_operand]; exact Nat.le_succ _) _

theorem given_levelRest_binary {l : Level} {op : BinaryOp} (hl : op.level = l) (left r : Expr)
    (q : Position) :
    (levelRest l (.binary op left r q)).given =
      (levelRest l left).given + (operand l).needs (.expr r) := by
  unfold given needs
  rw [context_operand]
  simp only [context, Outcome.parens, Outcome.below, Expr.parens, Expr.precedence_binary,
    BinaryOp.precedence, hl, lt_irrefl, if_false]
  -- the two sides decide the same comparisons, elaborated apart
  by_cases h1 : left.precedence < l.precedence <;>
    by_cases h2 : r.precedence < l.precedence + 1 <;> simp only [h1, h2, ↓reduceIte] <;> omega

theorem Reads.lastKind_stmt {c d : Cursor} {v : Outcome} (h : Reads stmt c v d)
    (hd : d.current.kind = .openParen) (p : TokenKind) : c.lastKind p d = .newline := by
  cases h with
  | stmtSemicolon _ he =>
    obtain ⟨hn, rfl⟩ := Cursor.endLine_open he hd
    exact Cursor.lastKind_next (c.next_follows) hn (by decide)
  | stmtNewline hk => exact Cursor.lastKind_next (Cursor.Follows.refl c) hk (by decide)
  | stmtHead _ _ hh he =>
    obtain ⟨hn, rfl⟩ := Cursor.endLine_open he hd
    exact Cursor.lastKind_next ((Cursor.Follows.ite_next _ _).trans hh.follows) hn (by decide)

/-- Every reading opens at least the groups that what it reads needs, beyond those it is given. -/
theorem Reads.groups {r : Reader} {c : Cursor} {v : Outcome} {d : Cursor} (h : Reads r c v d) :
    ∀ p : TokenKind, (r.leadsOperand → c.current.kind = .openParen → p.groupsAfter) →
      r.needs v ≤ r.given + c.groupsTo p d := by
  induction h with
  | typeInt | typeBool | typeFunc | typeNone | funcType | typeListNil | typeListCons
  | moreTypesCons | moreTypesNil | resultsList | resultsBare | namesMore | namesLast
  | paramRunMore | paramRunLast | paramsNone | moreExprsNil | condNone | primaryName
  | primaryTrue | primaryFalse | blockBodyEnd | varDeclBare | headBreak | headContinue
  | stmtSemicolon | stmtNewline | retEmpty | postNone =>
    intros
    simp [needs, context, Outcome.parens, Outcome.below, Expr.parens, Expr.precedence, Stmt.parens,
      VarSpec.parens, Expr.parensAll, Expr.parensOpt, Stmt.parensAll, Stmt.parensOpt]
  | primaryInteger _ hx =>
    intros
    obtain ⟨v, -, rfl⟩ := Token.integer_eq_ok hx
    simp [needs, context, Outcome.parens, Outcome.below, Expr.parens, Expr.precedence]
  | levelRestStop =>
    intros
    exact Nat.le_add_right _ _
  | paramsSome _ _ ih | exprFunc _ _ ih | headVar _ _ ih | headIf _ _ ih | headFor _ _ ih
  | headReturn _ _ ih =>
    intro p _
    exact ih p (not_leads rfl)
  | primaryGroup _ _ ih | headSimple _ _ ih =>
    intro p hp
    exact ih p (fun _ => hp rfl)
  | unaryPrimary _ _ ih | exprOr _ _ ih =>
    intro p hp
    exact (needs_le_of_context (by decide) _).trans (ih p (fun _ => hp rfl))
  | condSome _ _ ih | postSome _ _ _ ih | simpleSingle _ _ _ _ ih =>
    intro p hp
    have g := ih p (fun _ => hp rfl)
    simpa [needs, given, context, Outcome.parens, Outcome.below, Expr.parensOpt, Stmt.parensOpt,
      Stmt.parens] using g
  | headBlock _ _ ih =>
    intro p _
    have g := ih p (not_leads rfl)
    simpa [needs, given, context, Outcome.parens, Outcome.below, Stmt.parens] using g
  | @group c x d h1 hx _ ih =>
    intro p hp
    rw [Cursor.groupsTo_step h1 (by decide) ((Cursor.next_follows d).trans hx.follows),
      if_pos ⟨rfl, hp rfl h1⟩]
    have hle := Cursor.groupsTo_le_left (p := .openParen) hx.follows (Cursor.next_follows d)
    have hin := ih .openParen (fun _ _ => rfl)
    have hb := Outcome.below_le_one Reader.group.context (.expr x)
    simp only [needs, given] at hin ⊢
    omega
  | @unaryOp c op x d hop hx ih =>
    intro p _
    have hop' := op.kind_groupsAfter
    rw [Cursor.groupsTo_next (UnaryOp.kind_of_ofKind? hop) hop'.1 hop'.2.1 hx.follows]
    have g := ih op.kind (fun _ _ => hop'.2.2)
    simp only [needs, given, context, Outcome.parens, Outcome.below, Expr.parens,
      Expr.precedence_unary, lt_irrefl, if_false] at g ⊢
    by_cases hx : x.precedence < UnaryOp.precedence <;>
      simp only [hx, ↓reduceIte] at g ⊢ <;> omega
  | @level l c x d v e hx hrest ih1 ih2 =>
    intro p hp
    rw [Cursor.groupsTo_trans hx.follows hrest.follows]
    have g1 := ih1 p (fun _ => hp rfl)
    have g2 := ih2 (c.lastKind p d) (not_leads rfl)
    have hg := given_levelRest_le l x
    have hv : (Reader.level l).needs v = (levelRest l x).needs v := rfl
    have h0 : (Reader.level l).given = 0 := rfl
    have h0' : (operand l).given = 0 := by cases l <;> rfl
    omega
  | @levelRestStep l left c op r d v e hop hr hrest ih1 ih2 =>
    intro p _
    obtain ⟨hk, hl⟩ := Cursor.kind_of_opAt? hop
    have hop' := op.kind_groupsAfter
    rw [Cursor.groupsTo_next hk hop'.1 hop'.2.1 (hrest.follows.trans hr.follows),
      Cursor.groupsTo_trans hr.follows hrest.follows]
    have g1 := ih1 op.kind (fun _ _ => hop'.2.2)
    have g2 := ih2 (c.next.lastKind op.kind d) (not_leads rfl)
    have hB := given_levelRest_binary hl left r c.current.start
    have hv : (levelRest l left).needs v =
        (levelRest l (.binary op left r c.current.start)).needs v := rfl
    have h0 : (operand l).given = 0 := by cases l <;> rfl
    omega
  | @moreExprsCons c x d xs e hk hx hm ih1 ih2 =>
    intro p _
    rw [Cursor.groupsTo_next hk (by decide) (by decide) (hm.follows.trans hx.follows),
      Cursor.groupsTo_trans hx.follows hm.follows]
    have g1 := ih1 .comma (fun _ _ => rfl)
    have g2 := ih2 (c.next.lastKind .comma d) (not_leads rfl)
    simp only [needs, given, context, Outcome.parens, Outcome.below, Expr.parensAll] at g1 g2 ⊢
    omega
  | @exprList c x d xs e hx hm ih1 ih2 =>
    intro p hp
    rw [Cursor.groupsTo_trans hx.follows hm.follows]
    have g1 := ih1 p (fun _ => hp rfl)
    have g2 := ih2 (c.lastKind p d) (not_leads rfl)
    simp only [needs, given, context, Outcome.parens, Outcome.below, Expr.parensAll] at g1 g2 ⊢
    omega
  | @funcLit c ps d rs e b f h1 h2 hps h4 hrs hb ih1 ih2 ih3 =>
    intro p _
    have hce : e.Follows c := hrs.follows.trans ((Cursor.next_follows d).trans
      (hps.follows.trans ((Cursor.next_follows _).trans (Cursor.next_follows c))))
    have hle := Cursor.groupsTo_le_right (p := p) hce hb.follows
    have g := ih3 (c.lastKind p e) (not_leads rfl)
    simp only [needs, given, context, Outcome.parens, Outcome.below, Expr.parens,
      Expr.precedence, Nat.not_lt_zero, if_false] at g ⊢
    omega
  | @branchesElseIf pos c x d b e bs o f hx hb h1 h2 hbs ih1 ih2 ih3 =>
    intro p hp
    have hf : f.Follows e.next.next := hbs.follows
    rw [Cursor.groupsTo_trans hx.follows
        (hf.trans ((Cursor.next_follows _).trans ((Cursor.next_follows e).trans hb.follows))),
      Cursor.groupsTo_trans hb.follows (hf.trans ((Cursor.next_follows _).trans
        (Cursor.next_follows e))),
      Cursor.groupsTo_next h1 (by decide) (by decide) (hf.trans (Cursor.next_follows _)),
      Cursor.groupsTo_next h2 (by decide) (by decide) hf]
    have g1 := ih1 p (fun _ => hp rfl)
    have g2 := ih2 (c.lastKind p d) (not_leads rfl)
    have g3 := ih3 .kwIf (fun _ _ => rfl)
    simp only [needs, given, context, Outcome.parens, Outcome.below,
      Branch.parensAll] at g1 g2 g3 ⊢
    omega
  | @branchesElse pos c x d b e b' f hx hb h1 _ hb' ih1 ih2 ih3 =>
    intro p hp
    have hf : f.Follows e.next := hb'.follows
    rw [Cursor.groupsTo_trans hx.follows (hf.trans ((Cursor.next_follows e).trans hb.follows)),
      Cursor.groupsTo_trans hb.follows (hf.trans (Cursor.next_follows e)),
      Cursor.groupsTo_next h1 (by decide) (by decide) hf]
    have g1 := ih1 p (fun _ => hp rfl)
    have g2 := ih2 (c.lastKind p d) (not_leads rfl)
    have g3 := ih3 .kwElse (not_leads rfl)
    simp only [needs, given, context, Outcome.parens, Outcome.below, Branch.parensAll,
      Block.parensOpt] at g1 g2 g3 ⊢
    omega
  | @branchesEnd pos c x d b e hx hb _ ih1 ih2 =>
    intro p hp
    rw [Cursor.groupsTo_trans hx.follows hb.follows]
    have g1 := ih1 p (fun _ => hp rfl)
    have g2 := ih2 (c.lastKind p d) (not_leads rfl)
    simp only [needs, given, context, Outcome.parens, Outcome.below, Branch.parensAll,
      Block.parensOpt] at g1 g2 ⊢
    omega
  | @simpleAssign c x d xs e vs f hx _ hm he hvs ih1 ih2 ih3 =>
    intro p hp
    have hf : f.Follows e.next := hvs.follows
    rw [Cursor.groupsTo_trans hx.follows (hf.trans ((Cursor.next_follows e).trans hm.follows)),
      Cursor.groupsTo_trans hm.follows (hf.trans (Cursor.next_follows e)),
      Cursor.groupsTo_next he (by decide) (by decide) hf]
    have g1 := ih1 p (fun _ => hp rfl)
    have g2 := ih2 (c.lastKind p d) (not_leads rfl)
    have g3 := ih3 .assign (fun _ _ => rfl)
    simp only [needs, given, context, Outcome.parens, Outcome.below, Stmt.parens,
      Expr.parensAll] at g1 g2 g3 ⊢
    omega
  | @simpleDefine c x d xs e ns vs f hx _ hm he _ hvs ih1 ih2 ih3 =>
    intro p _
    have hf : f.Follows e.next := hvs.follows
    have hce : e.Follows c := hm.follows.trans hx.follows
    have hle := Cursor.groupsTo_le_right (p := p) hce (hf.trans (Cursor.next_follows e))
    rw [Cursor.groupsTo_next he (by decide) (by decide) hf] at hle
    have g3 := ih3 .define (fun _ _ => rfl)
    simp only [needs, given, Outcome.parens, Outcome.below, Stmt.parens] at g3 ⊢
    omega
  | @block c ss d hk hb ih =>
    intro p _
    by_cases hn : c.next.current.kind = .newline
    · rw [if_pos hn] at hb ih
      rw [Cursor.groupsTo_next hk (by decide) (by decide)
          (hb.follows.trans (Cursor.next_follows _)),
        Cursor.groupsTo_next hn (by decide) (by decide) hb.follows]
      have g := ih .newline (fun _ _ => rfl)
      simpa [needs, given, context, Outcome.parens, Outcome.below, Block.parens] using g
    · rw [if_neg hn] at hb ih
      rw [Cursor.groupsTo_next hk (by decide) (by decide) hb.follows]
      have g := ih .openCurly (fun _ _ => rfl)
      simpa [needs, given, context, Outcome.parens, Outcome.below, Block.parens] using g
  | @blockBodyStmt c s d ss e _ _ hs hss ih1 ih2 =>
    intro p hp
    rw [Cursor.groupsTo_trans hs.follows hss.follows]
    have g1 := ih1 p (fun _ => hp rfl)
    have g2 := ih2 (c.lastKind p d) (fun _ hd => by rw [Reads.lastKind_stmt hs hd]; rfl)
    simp only [needs, given, Outcome.parens, Outcome.below, Stmt.parensAll] at g1 g2 ⊢
    omega
  | @varDeclTyped c bs d ty e vs f _ hn ht he hvs _ _ ih3
  | @varDeclInferred c bs d e vs f _ hn ht he hvs _ _ ih3 =>
    intro p _
    have hf : f.Follows e.next := hvs.follows
    have hce : e.Follows c := ht.follows.trans (hn.follows.trans (Cursor.next_follows c))
    have hle := Cursor.groupsTo_le_right (p := p) hce (hf.trans (Cursor.next_follows e))
    rw [Cursor.groupsTo_next he (by decide) (by decide) hf] at hle
    have g3 := ih3 .assign (fun _ _ => rfl)
    simp only [needs, given, Outcome.parens, Outcome.below, Stmt.parens,
      VarSpec.parens] at g3 ⊢
    omega
  | @ifChain c bs o d hk hbs ih =>
    intro p _
    rw [Cursor.groupsTo_next hk (by decide) (by decide) hbs.follows]
    have g := ih .kwIf (fun _ _ => rfl)
    simpa [needs, given, context, Outcome.parens, Outcome.below, Stmt.parens] using g
  | @loopForever c b d h1 _ hb ih =>
    intro p _
    rw [Cursor.groupsTo_next h1 (by decide) (by decide) hb.follows]
    have g := ih .kwFor (not_leads rfl)
    simpa [needs, given, context, Outcome.parens, Outcome.below, Stmt.parens,
      LoopShape.parens] using g
  | @loopClauses c shape b d h1 _ hcl ih =>
    intro p _
    rw [Cursor.groupsTo_next h1 (by decide) (by decide) hcl.follows]
    have g := ih .kwFor (not_leads rfl)
    simpa [needs, given, context, Outcome.parens, Outcome.below, Stmt.parens,
      Stmt.parensOpt] using g
  | @loopGuarded c x q pos d b e h1 _ _ hs _ hb ih1 ih2 =>
    intro p _
    rw [Cursor.groupsTo_next h1 (by decide) (by decide) (hb.follows.trans hs.follows),
      Cursor.groupsTo_trans hs.follows hb.follows]
    have g1 := ih1 .kwFor (fun _ _ => rfl)
    have g2 := ih2 (c.next.lastKind .kwFor d) (not_leads rfl)
    simp only [needs, given, Outcome.parens, Outcome.below, Stmt.parens,
      LoopShape.parens] at g1 g2 ⊢
    omega
  | @loopInit c s d shape b e h1 _ _ hs _ hcl ih1 ih2 =>
    intro p _
    rw [Cursor.groupsTo_next h1 (by decide) (by decide) (hcl.follows.trans hs.follows),
      Cursor.groupsTo_trans hs.follows hcl.follows]
    have g1 := ih1 .kwFor (fun _ _ => rfl)
    have g2 := ih2 (c.next.lastKind .kwFor d) (not_leads rfl)
    simp only [needs, given, Outcome.parens, Outcome.below, Stmt.parens,
      Stmt.parensOpt] at g1 g2 ⊢
    omega
  | @clauses init c x d q e b f hk hc h2 hq hb ih1 ih2 ih3 =>
    intro p _
    have hf : f.Follows d.next := hb.follows.trans hq.follows
    rw [Cursor.groupsTo_next hk (by decide) (by decide)
        (hf.trans ((Cursor.next_follows d).trans hc.follows)),
      Cursor.groupsTo_trans hc.follows (hf.trans (Cursor.next_follows d)),
      Cursor.groupsTo_next h2 (by decide) (by decide) hf,
      Cursor.groupsTo_trans hq.follows hb.follows]
    have g1 := ih1 .semicolon (fun _ _ => rfl)
    have g2 := ih2 .semicolon (fun _ _ => rfl)
    have g3 := ih3 (d.next.lastKind .semicolon e) (not_leads rfl)
    simp only [needs, given, Outcome.parens, Outcome.below, LoopShape.parens] at g1 g2 g3 ⊢
    omega
  | @retValues c vs d h1 _ hvs ih =>
    intro p _
    rw [Cursor.groupsTo_next h1 (by decide) (by decide) hvs.follows]
    have g := ih .kwReturn (fun _ _ => rfl)
    simpa [needs, given, context, Outcome.parens, Outcome.below, Stmt.parens] using g
  | @stmtHead c s d e _ _ hh he ih =>
    intro p hp
    have hde : e.Follows d := (Cursor.endLine_follows he).trans (Cursor.Follows.ite_next _ _)
    have hle := Cursor.groupsTo_le_left (p := p) hh.follows hde
    have g := ih p (fun _ => hp rfl)
    simp only [needs, given, Outcome.parens, Outcome.below, Stmt.parens_closedBy] at g ⊢
    omega

end Reader

section Expressions

variable {ts : List Token} {e x : Expr} {d : Cursor}

theorem Reader.reads_expr (h : plain (readExpr (Cursor.ofTokens ts)) = .ok (x, d)) :
    Reader.Reads .expr (Cursor.ofTokens ts) (.expr x) d :=
  Reader.run_eq_ok_iff.mp (by rw [Reader.run, h]; rfl)

theorem Expr.parens_le_groupOpens (h : plain (readExpr (Cursor.ofTokens ts)) = .ok (x, d)) :
    x.parens ≤ groupOpens .newline (ts.map Token.kind) := by
  have hg := (Reader.reads_expr h).groups .newline (fun _ _ => rfl)
  have hle := Cursor.groupsTo_ofTokens_le (p := .newline) ts d
  simp only [Reader.needs, Reader.given, Outcome.parens] at hg
  omega

theorem Expr.groupOpens_lexes_drop_pair {A B C : List Lex}
    (he : e.lexes = A ++ TokenKind.openParen.lex :: (B ++ TokenKind.closeParen.lex :: C))
    (ha : ((A.getLast?.map Prod.fst).getD .newline).groupsAfter)
    (hc : C.head?.map Prod.fst ≠ some .openParen) :
    groupOpens .newline ((A ++ B ++ C).map Prod.fst) + 1 = e.parens := by
  have hd := groupOpens_drop_pair (p := .newline) (a := A.map Prod.fst) (b := B.map Prod.fst)
    (c := C.map Prod.fst) (by rwa [List.getLast?_map]) (by rwa [List.head?_map])
  rw [← Expr.groupOpens_lexes e .newline rfl, he]
  simpa using hd.symm

end Expressions

/-- The printer writes only the parentheses an expression needs: without any one of them the
tokens read as another tree or as none. -/
theorem render_parens_necessary {src file : String} {ts : List Token} {e : Expr} {d : Cursor}
    (hts : tokenize src file = .ok ts) (he : plain (readExpr (Cursor.ofTokens ts)) = .ok (e, d)) :
    (∃ us q, tokenize e.render file = .ok (us ++ [Token.endAt q]) ∧ us.map Token.lex = e.lexes) ∧
    groupOpens .newline (e.lexes.map Prod.fst) = e.parens ∧
    (∀ (ts' : List Token) x d', plain (readExpr (Cursor.ofTokens ts')) = .ok (x, d') →
      x.same e → e.parens ≤ groupOpens .newline (ts'.map Token.kind)) ∧
    ∀ A B C, e.lexes = A ++ TokenKind.openParen.lex :: (B ++ TokenKind.closeParen.lex :: C) →
      ((A.getLast?.map Prod.fst).getD .newline).groupsAfter →
      C.head?.map Prod.fst ≠ some .openParen →
      ∀ (us : List Token) q x d', us.map Token.lex = A ++ B ++ C →
        plain (readExpr (Cursor.ofTokens (us ++ [Token.endAt q]))) = .ok (x, d') →
        x.same e = false := by
  have hs : e.shaped := ((Reader.reads_expr he).shaped
    (Cursor.scannedAhead_ofTokens (scanFrom_scanned _ _ ts hts)) trivial).1
  have hbound : ∀ (ts' : List Token) x d',
      plain (readExpr (Cursor.ofTokens ts')) = .ok (x, d') →
      x.same e → e.parens ≤ groupOpens .newline (ts'.map Token.kind) := by
    intro ts' x d' hx hsame
    rw [← Expr.parens_of_same x e hsame]
    exact Expr.parens_le_groupOpens hx
  refine ⟨?_, Expr.groupOpens_lexes e .newline rfl, hbound, ?_⟩
  · obtain ⟨q, us, hus, _, hscan⟩ :=
      (Expr.scansPrinted e hs 0).1 [] (by simp [Stops]) (Position.first file)
    rw [List.append_nil, scanFrom_nil] at hscan
    refine ⟨us, q, ?_, hus⟩
    rw [Expr.render_eq_renderAt hs, tokenize, Option.getD_some, hscan]
    rfl
  · intro A B C hl ha hc us q x d' hus hx
    rw [Bool.eq_false_iff]
    intro hsame
    have hb := hbound _ x d' hx hsame
    have hdrop := Expr.groupOpens_lexes_drop_pair hl ha hc
    have hk : (us ++ [Token.endAt q]).map Token.kind =
        (A ++ B ++ C).map Prod.fst ++ [.eof] := by
      rw [List.map_append, ← hus]
      simp [Token.endAt, Token.lex]
    rw [hk, groupOpens_append_cons (by decide), groupOpens_nil] at hb
    omega

theorem render_parens_necessary_or_and :
    ∃ ts e d, tokenize "(a || b) && c" "t" = .ok ts ∧
      plain (readExpr (Cursor.ofTokens ts)) = .ok (e, d) ∧
      ∀ (us : List Token) q x d', us.map Token.lex = [(.identifier, "a"), TokenKind.orOr.lex,
          (.identifier, "b"), TokenKind.andAnd.lex, (.identifier, "c")] →
        plain (readExpr (Cursor.ofTokens (us ++ [Token.endAt q]))) = .ok (x, d') →
        x.same e = false := by
  have hrun : (tokenize "(a || b) && c" "t" >>= fun ts =>
      (plain (readExpr (Cursor.ofTokens ts))).map fun r => r.1.lexes) =
      .ok [TokenKind.openParen.lex, (.identifier, "a"), TokenKind.orOr.lex, (.identifier, "b"),
        TokenKind.closeParen.lex, TokenKind.andAnd.lex, (.identifier, "c")] := by
    decide +kernel
  obtain ⟨ts, ⟨e, d⟩, hts, he, hl⟩ := Except.bind_map_eq_ok.mp hrun
  refine ⟨ts, e, d, hts, he, fun us q x d' hus hx => ?_⟩
  exact (render_parens_necessary hts he).2.2.2 [] [(.identifier, "a"), TokenKind.orOr.lex,
    (.identifier, "b")] [TokenKind.andAnd.lex, (.identifier, "c")]
    (by rw [show e.lexes = _ from hl]; rfl) rfl (by decide)
    us q x d' hus hx

end ScriptFront
