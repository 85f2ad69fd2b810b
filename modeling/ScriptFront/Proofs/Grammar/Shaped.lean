import ScriptFront.Program
import ScriptFront.Proofs.Grammar.Soundness
import ScriptFront.Proofs.Tree.Shape
import ScriptFront.Proofs.Scan.Munch
/-!
# The grammar builds shaped trees

Every program read from scanned tokens is shaped (`Program.shaped`). The scanner makes every
identifier a name and every number a run of decimal digits, and each reader builds from what the
readers it calls give: by induction on the derivation, every reading has the shape its reader
promises, provided the tokens ahead are as the scanner makes them and the reader's arguments are
shaped.
-/

set_option autoImplicit false

namespace ScriptFront

/-! ## The scanner's identifiers are names and its numbers digits -/

theorem reservedWords_ofWord {s : String} (h : s ∈ reservedWords) :
    TokenKind.ofWord s ≠ .identifier := by
  simp only [reservedWords, List.mem_cons, List.not_mem_nil, or_false] at h
  rcases h with rfl | rfl | rfl | rfl | rfl | rfl | rfl | rfl | rfl | rfl | rfl | rfl <;> decide

theorem isName_of_word {cs w rest : List Char} (h : Lexeme.split? cs = some (.word, w, rest))
    (hk : TokenKind.ofWord (String.ofList w) = .identifier) : isName (String.ofList w) := by
  have hnot : reservedWords.contains (String.ofList w) = false := by
    simpa using fun hm => reservedWords_ofWord hm hk
  match cs with
  | [] => simp [Lexeme.split?] at h
  | c :: r =>
    simp only [Lexeme.split?] at h
    split at h
    · next hc =>
      simp only [Option.some.injEq, Prod.mk.injEq] at h
      obtain ⟨-, rfl, -⟩ := h
      have hall : (r.takeWhile Lexeme.isWordChar).all Lexeme.isWordChar := List.all_takeWhile
      simp only [isName, String.toList_ofList, hnot, Bool.not_false, Bool.and_true,
        Bool.and_eq_true, List.all_eq_true]
      exact ⟨hc, fun x hx => List.all_eq_true.mp hall x hx⟩
    repeat' (split at h; · simp at h)
    simp at h

theorem Lexeme.punctuator?_ne_identifier {cs w : List Char} {k : TokenKind}
    (h : punctuator? cs = some (w, k)) : k ≠ .identifier := by
  have hall : ∀ p ∈ TokenKind.punctuators, p.2 ≠ .identifier := by decide
  exact hall _ (List.mem_of_find?_eq_some h)

theorem Lexeme.token?_names {cs w rest : List Char} {l : Lexeme} {span : Span} {t : Token}
    (h : split? cs = some (l, w, rest)) (ht : l.token? w span = .ok (some t))
    (hk : t.kind = .identifier) : isName t.text := by
  cases l with
  | word =>
    cases ht
    exact isName_of_word h hk
  | punctuator k =>
    cases ht
    match cs with
    | [] => simp [split?] at h
    | c :: r =>
      simp only [split?] at h
      repeat' (split at h; · simp at h)
      simp only [Option.map_eq_some_iff, Prod.mk.injEq] at h
      obtain ⟨⟨w', k'⟩, hp, hk', -, -⟩ := h
      cases hk'
      exact absurd hk (punctuator?_ne_identifier hp)
  | string =>
    simp only [token?] at ht
    split at ht <;> cases ht
    cases hk
  | number | newline => cases ht; cases hk
  | blank | comment => cases ht

theorem Lexeme.token?_digits {cs w rest : List Char} {l : Lexeme} {span : Span} {t : Token}
    (h : split? cs = some (l, w, rest)) (ht : l.token? w span = .ok (some t))
    (hk : t.kind = .number) : t.text.toList ≠ [] ∧ ∀ c ∈ t.text.toList, c.isDigit := by
  have hs := split?_spells h
  cases l with
  | number =>
    cases ht
    simpa [Spells] using hs
  | word =>
    cases ht
    exact absurd hk (TokenKind.ofWord_ne (by decide) (by decide) _)
  | punctuator k =>
    cases ht
    have hall : ∀ p ∈ TokenKind.punctuators, p.2 ≠ .number := by decide
    exact absurd hk (hall _ hs)
  | string =>
    simp only [token?] at ht
    split at ht <;> cases ht
    cases hk
  | newline => cases ht; cases hk
  | blank | comment => cases ht

/-- A token as the scanner makes it: an identifier's text is a name and a number's text is
decimal digits. -/
def Token.Scanned (t : Token) : Prop :=
  (t.kind = .identifier → isName t.text) ∧
    (t.kind = .number → t.text.toList ≠ [] ∧ ∀ c ∈ t.text.toList, c.isDigit)

theorem scanFrom_scanned (cs : List Char) (p : Position) (ts : List Token)
    (h : scanFrom cs p = .ok ts) : ∀ t ∈ ts, t.Scanned := by
  fun_induction scanFrom cs p generalizing ts with
  | case1 =>
    cases h
    simp [Token.Scanned, Token.endAt]
  | case2 => cases h
  | case3 => cases h
  | case4 cs p l w rest hs q _ ih => exact ih ts h
  | case5 cs p l w rest hs q t ht ih =>
    cases hr : scanFrom rest q with
    | error e => rw [hr] at h; cases h
    | ok us =>
      rw [hr] at h
      cases h
      intro u hu
      rcases List.mem_cons.mp hu with rfl | hu
      · exact ⟨Lexeme.token?_names hs ht, Lexeme.token?_digits hs ht⟩
      · exact ih us hr u hu

/-! ## What each reader builds -/

def Cursor.ScannedAhead (c : Cursor) : Prop := ∀ t ∈ c.ahead, t.Scanned

namespace Cursor

variable {c d : Cursor}

theorem ScannedAhead.current (hc : c.ScannedAhead) (hk : c.current.kind ≠ .eof) :
    c.current.Scanned := by
  cases h : c.ahead with
  | nil =>
    rw [current_of_nil h, c.last_eof] at hk
    exact absurd rfl hk
  | cons t ts =>
    rw [current_of_ahead h]
    exact hc t (by simp [h])

theorem ScannedAhead.name (hc : c.ScannedAhead) (hk : c.current.kind = .identifier) :
    isName c.current.text :=
  (hc.current (by rw [hk]; decide)).1 hk

theorem ScannedAhead.number (hc : c.ScannedAhead) (hk : c.current.kind = .number) :
    c.current.text.toList ≠ [] ∧ ∀ ch ∈ c.current.text.toList, ch.isDigit :=
  (hc.current (by rw [hk]; decide)).2 hk

theorem ScannedAhead.of_follows (hc : c.ScannedAhead) (h : d.Follows c) : d.ScannedAhead :=
  fun t ht => hc t (h.1.subset ht)

theorem ScannedAhead.next (hc : c.ScannedAhead) : c.next.ScannedAhead :=
  hc.of_follows c.next_follows

theorem ScannedAhead.after {r : Reader} {v : Outcome} (hc : c.ScannedAhead)
    (h : Reader.Reads r c v d) : d.ScannedAhead :=
  hc.of_follows h.follows

theorem scannedAhead_ofTokens {ts : List Token} (h : ∀ t ∈ ts, t.Scanned) :
    (ofTokens ts).ScannedAhead :=
  fun t ht => h t ((List.takeWhile_prefix _).subset ht)

end Cursor

namespace Reader

def Pre : Reader → Prop
  | paramRun pending done => (∀ b ∈ pending, isName b.name) ∧ ∀ p ∈ done, isName p.name
  | levelRest _ left => left.shaped ∧ left.isFunc = false
  | clauses init => Stmt.shapedOpt init ∧ init.all Stmt.opensClauses
  | _ => True

def readsOperand : Reader → Bool
  | levelRest .. | group | primary | unary | level _ => true
  | _ => false

def Post (r : Reader) : Outcome → Prop
  | .expr x => x.shaped ∧ (r.readsOperand → x.isFunc = false)
  | .exprs xs => Expr.shapedAll xs ∧ (r = exprList → xs ≠ [])
  | .cond x => Expr.shapedOpt x
  | .stmt s => s.shaped ∧ (r = simple → s.opensClauses)
  | .post s => Stmt.shapedOpt s ∧ s.all Stmt.closesClauses
  | .stmts ss => Stmt.shapedAll ss
  | .block b => b.shaped
  | .chain (bs, o) => bs ≠ [] ∧ Branch.shapedAll bs ∧ Block.shapedOpt o
  | .clauses (shape, b) => shape.shaped ∧ b.shaped
  | .names bs => bs ≠ [] ∧ ∀ b ∈ bs, isName b.name
  | .params ps => ∀ p ∈ ps, isName p.name
  | .type _ | .funcType _ | .types _ => True

theorem readsOperand_operand (l : Level) : (operand l).readsOperand := by
  cases l <;> rfl

theorem paramStep_names {pending : List Binding} {done : List Param} {b : Binding}
    (ty : Option Ty) (hp : (∀ b ∈ pending, isName b.name) ∧ ∀ p ∈ done, isName p.name)
    (hb : isName b.name) :
    (∀ b' ∈ (paramStep pending done b ty).1, isName b'.name) ∧
      ∀ p ∈ (paramStep pending done b ty).2, isName p.name := by
  cases ty with
  | some ty =>
    refine ⟨by simp [paramStep], ?_⟩
    intro p hp'
    simp only [paramStep, List.mem_append, List.mem_map, List.mem_cons] at hp'
    rcases hp' with hd | ⟨b', hb', rfl⟩
    · exact hp.2 p hd
    · rcases hb' with hb' | hb'
      · exact hp.1 b' hb'
      · simp_all [Binding.typed]
  | none =>
    refine ⟨?_, hp.2⟩
    intro b' hb'
    simp only [paramStep, List.mem_append, List.mem_cons] at hb'
    rcases hb' with hb' | hb' | hb'
    · exact hp.1 b' hb'
    · exact hb' ▸ hb
    · simp at hb'

theorem bindingsOf_cons_name (n : String) (p : Position) (xs : List Expr) :
    bindingsOf (.name n p :: xs) = (bindingsOf xs).map (⟨n, p⟩ :: ·) := by
  unfold bindingsOf
  rw [List.mapM_cons]
  cases xs.mapM (m := Except Error) _ <;> rfl

theorem bindingsOf_names {xs : List Expr} {ns : List Binding} (h : bindingsOf xs = .ok ns)
    (hx : Expr.shapedAll xs) : ns.length = xs.length ∧ ∀ b ∈ ns, isName b.name := by
  induction xs generalizing ns with
  | nil =>
    simp only [bindingsOf, List.mapM_nil] at h
    cases h
    simp
  | cons x xs ih =>
    simp only [Expr.shapedAll, Bool.and_eq_true] at hx
    cases x with
    | name n p =>
      rw [bindingsOf_cons_name] at h
      obtain ⟨bs, hbs, rfl⟩ := Except.map_eq_ok.mp h
      obtain ⟨hl, hns⟩ := ih hbs hx.2
      refine ⟨by simp [hl], ?_⟩
      intro b hb
      rcases List.mem_cons.mp hb with rfl | hb
      · simpa [Expr.shaped] using hx.1
      · exact hns b hb
    | _ => simp [bindingsOf, List.mapM_cons] at h

theorem integer_shaped {t : Token} {x : Expr}
    (hd : t.text.toList ≠ [] ∧ ∀ c ∈ t.text.toList, c.isDigit) (h : t.integer = .ok x) :
    x.shaped ∧ x.isFunc = false := by
  unfold Token.integer at h
  rw [Text.toInt64?_of_digits hd.1 hd.2] at h
  by_cases hlt : decimalValue t.text ≤ 9223372036854775807
  · rw [if_pos hlt] at h
    cases h
    refine ⟨?_, rfl⟩
    simp only [Expr.shaped, Bool.and_eq_true, decide_eq_true_eq]
    omega
  · rw [if_neg hlt] at h
    cases h

theorem shaped_closedBy (s : Stmt) (semi : Bool) : (s.closedBy semi).shaped = s.shaped := by
  cases s <;> simp [Stmt.closedBy, Stmt.shaped]

theorem Post.weaken {r r' : Reader} {v : Outcome} (h : Post r v)
    (ho : r'.readsOperand → r.readsOperand) (hl : r' = exprList → r = exprList)
    (hs : r' = simple → r = simple) : Post r' v := by
  cases v with
  | expr x => exact ⟨h.1, fun h' => h.2 (ho h')⟩
  | exprs xs => exact ⟨h.1, fun h' => h.2 (hl h')⟩
  | stmt s => exact ⟨h.1, fun h' => h.2 (hs h')⟩
  | _ => exact h

theorem pre_operand (l : Level) : (operand l).Pre := by
  cases l <;> trivial

theorem closesClauses_of_opens {s : Stmt} (h : s.opensClauses)
    (hs : ∀ ns vs p, s ≠ .define ns vs p) : s.closesClauses := by
  cases s <;> simp_all [Stmt.opensClauses, Stmt.closesClauses]

/-- Every reading has the shape its reader promises, when the tokens ahead are as the scanner
makes them and the reader's arguments are shaped. -/
theorem Reads.shaped {r : Reader} {c : Cursor} {v : Outcome} {d : Cursor} (h : Reads r c v d) :
    c.ScannedAhead → r.Pre → r.Post v := by
  induction h with
  | typeInt | typeBool | typeFunc | typeNone | funcType | typeListNil | typeListCons
  | moreTypesCons | moreTypesNil | resultsList | resultsBare | headBreak | headContinue
  | stmtSemicolon | stmtNewline | retEmpty =>
    intros
    simp [Post, Stmt.shaped, Expr.shapedAll]
  | paramsNone | moreExprsNil | condNone | postNone | blockBodyEnd =>
    intros
    simp [Post, Expr.shapedAll, Expr.shapedOpt, Stmt.shapedOpt, Stmt.shapedAll]
  | paramsSome _ _ ih | primaryGroup _ _ ih | unaryPrimary _ _ ih | exprFunc _ _ ih
  | exprOr _ _ ih | headVar _ _ ih | headIf _ _ ih | headFor _ _ ih | headReturn _ _ ih
  | headSimple _ _ ih =>
    intro hc _
    exact (ih hc (by simp [Pre])).weaken (by simp [readsOperand]) (by simp) (by simp)
  | namesMore k1 _ _ ih =>
    intro hc _
    obtain ⟨-, hbs⟩ := ih hc.next.next trivial
    refine ⟨List.cons_ne_nil _ _, ?_⟩
    intro b hb
    rcases List.mem_cons.mp hb with rfl | hb
    · exact hc.name k1
    · exact hbs b hb
  | namesLast k1 =>
    intro hc _
    simp only [Post, ne_eq, List.cons_ne_nil, not_false_eq_true, List.mem_cons,
      List.not_mem_nil, or_false, forall_eq, true_and]
    exact hc.name k1
  | @paramRunMore pending done c ty d ps e k1 s1 _ _ _ ih =>
    intro hc hp
    exact ih (hc.next.after s1).next (paramStep_names ty hp (hc.name k1))
  | @paramRunLast pending done c ty d ps k1 _ _ hs _ =>
    intro hc hp
    have := (paramStep_names (b := c.current.binding) ty hp (hc.name k1)).2
    rw [hs] at this
    exact this
  | levelRestStop =>
    intro _ hp
    exact ⟨hp.1, fun _ => hp.2⟩
  | levelRestStep _ s1 _ ih1 ih2 =>
    intro hc hp
    obtain ⟨hr, hrf⟩ := ih1 hc.next (pre_operand _)
    have hrf := hrf (readsOperand_operand _)
    have hbin := ih2 (hc.next.after s1)
      ⟨by simp [Expr.shaped, hp.1, hp.2, hr, hrf], rfl⟩
    exact hbin.weaken id (by simp) (by simp)
  | moreExprsCons _ _ _ ih1 ih2 =>
    intro hc _
    have g1 := (ih1 hc.next trivial).1
    have g2 := (ih2 (hc.next.after ‹_›) trivial).1
    simp [Post, Expr.shapedAll, g1, g2]
  | group _ _ _ ih =>
    intro hc _
    exact (ih hc.next trivial).weaken (by simp [readsOperand]) (by simp) (by simp)
  | primaryName k =>
    intro hc _
    simp [Post, Expr.shaped, Expr.isFunc, hc.name k]
  | primaryInteger hk hx =>
    intro hc _
    have hs := integer_shaped (hc.number hk) hx
    exact ⟨hs.1, fun _ => hs.2⟩
  | primaryTrue | primaryFalse =>
    intros
    simp [Post, Expr.shaped, Expr.isFunc]
  | unaryOp _ _ ih =>
    intro hc _
    obtain ⟨hx, hxf⟩ := ih hc.next trivial
    exact ⟨by simp [Expr.shaped, hx, hxf rfl], fun _ => rfl⟩
  | level s1 _ ih1 ih2 =>
    intro hc _
    obtain ⟨hx, hxf⟩ := ih1 hc (pre_operand _)
    exact (ih2 (hc.after s1) ⟨hx, hxf (readsOperand_operand _)⟩).weaken (by simp [readsOperand])
      (by simp) (by simp)
  | funcLit _ _ s1 _ s2 _ ih1 _ ih3 =>
    intro hc _
    have g1 := ih1 hc.next.next trivial
    have g3 := (ih3 ((hc.next.next.after s1).next.after s2) trivial)
    simp only [Post] at g1 g3
    refine ⟨?_, fun h => by cases h⟩
    simp only [Expr.shaped, Bool.and_eq_true, List.all_eq_true]
    exact ⟨g1, g3⟩
  | exprList _ s1 ih1 ih2 =>
    intro hc _
    have g1 := (ih1 hc trivial).1
    have g2 := (ih2 (hc.after ‹_›) trivial).1
    simp [Post, Expr.shapedAll, g1, g2]
  | condSome _ _ ih =>
    intro hc _
    simp [Post, Expr.shapedOpt, (ih hc trivial).1]
  | branchesElseIf s1 s2 _ _ _ ih1 ih2 ih3 =>
    intro hc _
    have g1 := (ih1 hc trivial).1
    have g2 : _ = true := ih2 (hc.after s1) trivial
    obtain ⟨-, g3, g4⟩ := ih3 ((hc.after s1).after s2).next.next trivial
    simp [Post, Branch.shapedAll, g1, g2, g3, g4]
  | branchesElse s1 s2 _ _ _ ih1 ih2 ih3 =>
    intro hc _
    have g1 := (ih1 hc trivial).1
    have g2 : _ = true := ih2 (hc.after s1) trivial
    have g3 : _ = true := ih3 ((hc.after s1).after s2).next trivial
    simp [Post, Branch.shapedAll, Block.shapedOpt, g1, g2, g3]
  | branchesEnd s1 _ _ ih1 ih2 =>
    intro hc _
    have g1 := (ih1 hc trivial).1
    have g2 : _ = true := ih2 (hc.after s1) trivial
    simp [Post, Branch.shapedAll, Block.shapedOpt, g1, g2]
  | simpleSingle _ _ _ _ ih =>
    intro hc _
    simp [Post, Stmt.shaped, Stmt.opensClauses, (ih hc trivial).1]
  | simpleAssign s1 _ s2 _ _ ih1 ih2 ih3 =>
    intro hc _
    have g1 := (ih1 hc trivial).1
    have g2 := (ih2 (hc.after s1) trivial).1
    obtain ⟨g3, g4⟩ := ih3 ((hc.after s1).after s2).next trivial
    simp [Post, Stmt.shaped, Stmt.opensClauses, Expr.shapedAll, g1, g2, g3, g4 rfl]
  | @simpleDefine c x d xs e ns vs f s1 _ s2 _ hn _ ih1 ih2 ih3 =>
    intro hc _
    have g1 := (ih1 hc trivial).1
    have g2 := (ih2 (hc.after s1) trivial).1
    obtain ⟨g3, g4⟩ := ih3 ((hc.after s1).after s2).next trivial
    obtain ⟨hl, hns⟩ := bindingsOf_names hn (by simp [Expr.shapedAll, g1, g2])
    have hne : ns ≠ [] := fun h0 => by simp [h0] at hl
    simp [Post, Stmt.shaped, Stmt.opensClauses, List.all_eq_true.mpr hns, hne, g3, g4 rfl]
  | block _ _ ih =>
    intro hc _
    simpa [Post, Block.shaped] using ih (hc.next.of_follows (Cursor.Follows.ite_next _ _)) trivial
  | blockBodyStmt _ _ s1 _ ih1 ih2 =>
    intro hc _
    have g1 := (ih1 hc trivial).1
    have g2 : Stmt.shapedAll _ = true := ih2 (hc.after s1) trivial
    simp [Post, Stmt.shapedAll, g1, g2]
  | varDeclTyped _ s1 s2 _ _ ih1 _ ih3 =>
    intro hc _
    obtain ⟨g1, g2⟩ := ih1 hc.next trivial
    obtain ⟨g3, g4⟩ := ih3 ((hc.next.after s1).after s2).next trivial
    simp [Post, Stmt.shaped, VarSpec.shaped, List.all_eq_true.mpr g2, g1, g3, g4 rfl]
  | varDeclBare _ _ _ _ ih1 _ =>
    intro hc _
    obtain ⟨g1, g2⟩ := ih1 hc.next trivial
    simp [Post, Stmt.shaped, VarSpec.shaped, List.all_eq_true.mpr g2, g1]
  | varDeclInferred _ s1 s2 _ _ ih1 _ ih3 =>
    intro hc _
    obtain ⟨g1, g2⟩ := ih1 hc.next trivial
    obtain ⟨g3, g4⟩ := ih3 ((hc.next.after s1).after s2).next trivial
    simp [Post, Stmt.shaped, VarSpec.shaped, List.all_eq_true.mpr g2, g1, g3, g4 rfl]
  | ifChain _ _ ih =>
    intro hc _
    obtain ⟨g1, g2, g3⟩ := ih hc.next trivial
    simp [Post, Stmt.shaped, g1, g2, g3]
  | loopForever _ _ _ ih =>
    intro hc _
    have g1 : _ = true := ih hc.next trivial
    simp [Post, Stmt.shaped, LoopShape.shaped, g1]
  | loopClauses _ _ _ ih =>
    intro hc _
    obtain ⟨g1, g2⟩ := ih hc.next ⟨rfl, rfl⟩
    simp [Post, Stmt.shaped, g1, g2]
  | loopGuarded _ _ _ s1 _ _ ih1 ih2 =>
    intro hc _
    have g1 := (ih1 hc.next trivial).1
    have g2 : _ = true := ih2 (hc.next.after s1) trivial
    simp only [Stmt.shaped] at g1
    simp [Post, Stmt.shaped, LoopShape.shaped, g1, g2]
  | loopInit _ _ _ s1 _ _ ih1 ih2 =>
    intro hc _
    obtain ⟨g1, g2⟩ := ih1 hc.next trivial
    obtain ⟨g3, g4⟩ := ih2 (hc.next.after s1) ⟨by simp [Stmt.shapedOpt, g1], by simp [g2 rfl]⟩
    simp [Post, Stmt.shaped, g3, g4]
  | clauses _ s1 _ s2 _ ih1 ih2 ih3 =>
    intro hc hp
    have g1 : _ = true := ih1 hc.next trivial
    obtain ⟨g2, g3⟩ := ih2 (hc.next.after s1).next trivial
    have g4 : _ = true := ih3 ((hc.next.after s1).next.after s2) trivial
    obtain ⟨h1, h2⟩ := hp
    simp [Post, LoopShape.shaped, h1, h2, g1, g2, g3, g4]
  | postSome _ _ hs ih =>
    intro hc _
    obtain ⟨g1, g2⟩ := ih hc trivial
    simp [Post, Stmt.shapedOpt, g1, closesClauses_of_opens (g2 rfl) hs]
  | retValues _ _ _ ih =>
    intro hc _
    simp [Post, Stmt.shaped, (ih hc.next trivial).1]
  | headBlock _ _ ih =>
    intro hc _
    have g1 : _ = true := ih hc trivial
    simp [Post, Stmt.shaped, g1]
  | stmtHead _ _ _ _ ih =>
    intro hc _
    simp [Post, shaped_closedBy, (ih hc trivial).1]

end Reader

theorem Program.readAll_shaped {c : Cursor} {p : Program} (h : Program.readAll c = .ok p)
    (hc : c.ScannedAhead) : p.shaped := by
  fun_induction Program.readAll c generalizing p with
  | case1 =>
    cases h
    rfl
  | case2 => cases h
  | case3 c _ s d hd hs ih =>
    obtain ⟨q, hq, rfl⟩ := Except.map_eq_ok.mp h
    have hr := Reader.reads_stmt hs
    have g1 := (hr.shaped hc trivial).1
    have g2 := ih hq (hc.after hr)
    simp only [Program.shaped, Stmt.shapedAll, Bool.and_eq_true] at g2 ⊢
    exact ⟨g1, g2⟩

/-- Every program read from the tokens of a source has a shape the grammar builds. -/
theorem parsed_program_shaped {source file : String} {ts : List Token} {p : Program}
    (hts : tokenize source file = .ok ts) (hp : Program.ofTokens ts = .ok p) : p.shaped :=
  Program.readAll_shaped hp (Cursor.scannedAhead_ofTokens (scanFrom_scanned _ _ ts hts))

theorem parsed_program_shaped_loop :
    ∃ ts p, tokenize "x := func(a int) int { return a }\nfor i := 0; i < 3; i = i + 1 {}\n" "f" =
      .ok ts ∧ Program.ofTokens ts = .ok p ∧ p.shaped := by
  obtain ⟨p, hp⟩ := Except.exists_of_toBool (x := Program.ofSource
    "x := func(a int) int { return a }\nfor i := 0; i < 3; i = i + 1 {}\n" "f")
    (by decide +kernel)
  obtain ⟨ts, hts, hp⟩ := Except.bind_eq_ok.mp hp
  exact ⟨ts, p, hts, hp, parsed_program_shaped hts hp⟩

end ScriptFront
