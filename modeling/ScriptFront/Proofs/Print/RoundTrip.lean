import ScriptFront.Proofs.Print.ReadStmt
import ScriptFront.Proofs.Print.ScanPrinted
import ScriptFront.Program
/-!
# Printing a program and reading it again

A program read from a source prints as text that scans without error and reads back, under
the same file name, as a program of the same shape; and since printing reads no position, the
program read back prints as the same text.

The two halves meet at the tokens of `Program.lexes`: the printed text scans to them
(`Program.scansPrinted`) and the reader reads them back (`Program.readsBack`). Both hold of
shaped programs, and every program read from a source is shaped.
-/

set_option autoImplicit false

namespace ScriptFront

/-! ## Trees of the same shape print alike -/

mutual

theorem Ty.eq_of_same : ∀ t u : Ty, t.same u → t = u
  | .basic a, .basic b, h => by simpa [Ty.same] using h
  | .basic _, .func .., h | .func .., .basic _, h => by simp [Ty.same] at h
  | .func ps rs, .func qs ss, h => by
    simp only [Ty.same, Bool.and_eq_true] at h
    rw [Ty.eq_of_sameAll ps qs h.1, Ty.eq_of_sameAll rs ss h.2]
termination_by structural x => x

theorem Ty.eq_of_sameAll : ∀ ts us : List Ty, Ty.sameAll ts us → ts = us
  | [], [], _ => rfl
  | [], _ :: _, h | _ :: _, [], h => by simp [Ty.sameAll] at h
  | t :: ts, u :: us, h => by
    simp only [Ty.sameAll, Bool.and_eq_true] at h
    rw [Ty.eq_of_same t u h.1, Ty.eq_of_sameAll ts us h.2]
termination_by structural x => x

end

theorem Param.render_of_sameAll : ∀ ps qs : List Param, Param.sameAll ps qs →
    ps.map Param.render = qs.map Param.render
  | [], [], _ => rfl
  | [], _ :: _, h | _ :: _, [], h => by simp [Param.sameAll] at h
  | p :: ps, q :: qs, h => by
    simp only [Param.sameAll, Param.same, Bool.and_eq_true, beq_iff_eq] at h
    simp [Param.render, h.1.1, Ty.eq_of_same _ _ h.1.2, Param.render_of_sameAll ps qs h.2]

theorem Binding.renderAll_of_sameAll {ns ms : List Binding} (h : Binding.sameAll ns ms) :
    Binding.renderAll ns = Binding.renderAll ms := by
  simp only [Binding.sameAll, beq_iff_eq] at h
  rw [Binding.renderAll, Binding.renderAll, h]

theorem Expr.precedence_of_same {x y : Expr} (h : x.same y) : x.precedence = y.precedence := by
  cases x <;> cases y <;> simp_all [Expr.same, Expr.precedence]

/- Printing recurses through expressions, blocks and statements together, and so does the
proof; the second tree is split by cases at each node, the cases of other kinds having no
shape in common. Each lemma recurses on its first tree, named by `termination_by structural` so
that Lean does not search the other arguments for one that decreases. -/
mutual

theorem Expr.renderAt_of_same : ∀ x y : Expr, x.same y → ∀ d, x.renderAt d = y.renderAt d
  | .name .., y, h, _ | .integer .., y, h, _ | .boolean .., y, h, _ => by
    cases y <;> simp_all [Expr.same, Expr.renderAt]
  | .unary o x _, y, h, d => by
    cases y with
    | unary o' y _ =>
      simp only [Expr.same, Bool.and_eq_true, beq_iff_eq] at h
      have hx := Expr.renderAt_of_same x y h.2 d
      simp [Expr.renderAt, h.1, hx, Expr.precedence_of_same h.2]
    | _ => simp [Expr.same] at h
  | .binary o l r _, y, h, d => by
    cases y with
    | binary o' l' r' _ =>
      simp only [Expr.same, Bool.and_eq_true, beq_iff_eq] at h
      have hl := Expr.renderAt_of_same l l' h.1.2 d
      have hr := Expr.renderAt_of_same r r' h.2 d
      simp [Expr.renderAt, h.1.1, hl, hr, Expr.precedence_of_same h.1.2,
        Expr.precedence_of_same h.2]
    | _ => simp [Expr.same] at h
  | .func ps rs b _, y, h, d => by
    cases y with
    | func qs ss c _ =>
      simp only [Expr.same, Bool.and_eq_true] at h
      have hb := Block.renderAt_of_same b c h.2 d
      simp [Expr.renderAt, Param.render_of_sameAll ps qs h.1.1, Ty.eq_of_sameAll rs ss h.1.2, hb]
    | _ => simp [Expr.same] at h
termination_by structural x => x

theorem Expr.renderAllAt_of_sameAll : ∀ xs ys : List Expr, Expr.sameAll xs ys →
    ∀ d, Expr.renderAllAt d xs = Expr.renderAllAt d ys
  | [], [], _, _ => rfl
  | [], _ :: _, h, _ | _ :: _, [], h, _ => by simp [Expr.sameAll] at h
  | x :: xs, y :: ys, h, d => by
    simp only [Expr.sameAll, Bool.and_eq_true] at h
    have hx := Expr.renderAt_of_same x y h.1 d
    have hxs := Expr.renderAllAt_of_sameAll xs ys h.2 d
    simp [Expr.renderAllAt, hx, hxs]
termination_by structural x => x

theorem Expr.renderOptAt_of_sameOpt : ∀ o o' : Option Expr, Expr.sameOpt o o' →
    ∀ d, Expr.renderOptAt d o = Expr.renderOptAt d o'
  | none, none, _, _ => rfl
  | none, some _, h, _ | some _, none, h, _ => by simp [Expr.sameOpt] at h
  | some x, some y, h, d => by
    simp only [Expr.sameOpt] at h
    have hx := Expr.renderAt_of_same x y h d
    simp [Expr.renderOptAt, hx]
termination_by structural x => x

theorem Block.renderAt_of_same : ∀ a b : Block, a.same b → ∀ d, a.renderAt d = b.renderAt d
  | .mk ss _, .mk ts _, h, d => by
    simp only [Block.same] at h
    have hl := Stmt.blockLines_of_sameAll ss ts h (d + 1)
    simp [Block.renderAt, hl]
termination_by structural x => x

theorem Block.renderElseAt_of_sameOpt : ∀ o o' : Option Block, Block.sameOpt o o' →
    ∀ d, Block.renderElseAt d o = Block.renderElseAt d o'
  | none, none, _, _ => rfl
  | none, some _, h, _ | some _, none, h, _ => by simp [Block.sameOpt] at h
  | some a, some b, h, d => by
    simp only [Block.sameOpt] at h
    have hb := Block.renderAt_of_same a b h d
    simp [Block.renderElseAt, hb]
termination_by structural x => x

theorem Stmt.blockLines_of_sameAll : ∀ ss ts : List Stmt, Stmt.sameAll ss ts →
    ∀ d, Stmt.blockLines d ss = Stmt.blockLines d ts
  | [], [], _, _ => rfl
  | [], _ :: _, h, _ | _ :: _, [], h, _ => by simp [Stmt.sameAll] at h
  | s :: ss, t :: ts, h, d => by
    simp only [Stmt.sameAll, Bool.and_eq_true] at h
    have hs := Stmt.renderAt_of_same s t h.1 d
    have hss := Stmt.blockLines_of_sameAll ss ts h.2 d
    simp [Stmt.blockLines, hs, hss]
termination_by structural x => x

theorem Stmt.renderOptAt_of_sameOpt : ∀ o o' : Option Stmt, Stmt.sameOpt o o' →
    ∀ d, Stmt.renderOptAt d o = Stmt.renderOptAt d o' ∧
      Stmt.renderPostAt d o = Stmt.renderPostAt d o'
  | none, none, _, _ => ⟨rfl, rfl⟩
  | none, some _, h, _ | some _, none, h, _ => by simp [Stmt.sameOpt] at h
  | some s, some t, h, d => by
    simp only [Stmt.sameOpt] at h
    have hs := Stmt.renderAt_of_same s t h d
    simp [Stmt.renderOptAt, Stmt.renderPostAt, hs]
termination_by structural x => x

theorem Branch.renderAllAt_of_sameAll : ∀ bs cs : List Branch, Branch.sameAll bs cs →
    ∀ d, Branch.renderAllAt d bs = Branch.renderAllAt d cs
  | [], [], _, _ => rfl
  | [], _ :: _, h, _ | _ :: _, [], h, _ => by simp [Branch.sameAll] at h
  | .mk x a _ :: bs, .mk y b _ :: cs, h, d => by
    simp only [Branch.sameAll, Bool.and_eq_true] at h
    have hx := Expr.renderAt_of_same x y h.1.1 d
    have ha := Block.renderAt_of_same a b h.1.2 d
    have hbs := Branch.renderAllAt_of_sameAll bs cs h.2 d
    simp [Branch.renderAllAt, hx, ha, hbs]
termination_by structural x => x

theorem VarSpec.renderAt_of_same : ∀ s t : VarSpec, VarSpec.same s t →
    ∀ {ns ms : List Binding}, Binding.sameAll ns ms → ∀ d p q,
      (Stmt.varDecl ns s p).renderAt d = (Stmt.varDecl ms t q).renderAt d
  | .typed u none, .typed u' none, h, _, _, hn, _, _, _ => by
    simp [Stmt.renderAt, Binding.renderAll_of_sameAll hn, Ty.eq_of_same u u' (by simpa [VarSpec.same] using h)]
  | .typed u (some xs), .typed u' (some ys), h, _, _, hn, d, _, _ => by
    simp only [VarSpec.same, Bool.and_eq_true] at h
    have hxs := Expr.renderAllAt_of_sameAll xs ys h.2 d
    simp [Stmt.renderAt, Binding.renderAll_of_sameAll hn, Ty.eq_of_same u u' h.1, hxs]
  | .inferred xs, .inferred ys, h, _, _, hn, d, _, _ => by
    simp only [VarSpec.same] at h
    have hxs := Expr.renderAllAt_of_sameAll xs ys h d
    simp [Stmt.renderAt, Binding.renderAll_of_sameAll hn, hxs]
  | .typed _ none, .typed _ (some _), h, _, _, _, _, _, _
  | .typed _ (some _), .typed _ none, h, _, _, _, _, _, _
  | .typed .., .inferred _, h, _, _, _, _, _, _
  | .inferred _, .typed .., h, _, _, _, _, _, _ => by simp [VarSpec.same] at h
termination_by structural x => x

theorem LoopShape.renderAt_of_same : ∀ s t : LoopShape, LoopShape.same s t →
    ∀ {a b : Block} {d : Nat}, a.renderAt d = b.renderAt d → ∀ p q,
      (Stmt.loop s a p).renderAt d = (Stmt.loop t b q).renderAt d
  | .forever, .forever, _, _, _, _, hb, _, _ => by simp [Stmt.renderAt, hb]
  | .guarded x, .guarded y, h, _, _, d, hb, _, _ => by
    simp only [LoopShape.same] at h
    have hx := Expr.renderAt_of_same x y h d
    simp [Stmt.renderAt, hx, hb]
  | .clauses i x p, .clauses j y q, h, _, _, d, hb, _, _ => by
    simp only [LoopShape.same, Bool.and_eq_true] at h
    have hi := Stmt.renderOptAt_of_sameOpt i j h.1.1 d
    have hx := Expr.renderOptAt_of_sameOpt x y h.1.2 d
    have hp := Stmt.renderOptAt_of_sameOpt p q h.2 d
    simp [Stmt.renderAt, hi.1, hx, hp.2, hb]
  | .forever, .guarded _, h, _, _, _, _, _, _ | .forever, .clauses .., h, _, _, _, _, _, _
  | .guarded _, .forever, h, _, _, _, _, _, _ | .guarded _, .clauses .., h, _, _, _, _, _, _
  | .clauses .., .forever, h, _, _, _, _, _, _ | .clauses .., .guarded _, h, _, _, _, _, _, _ => by
    simp [LoopShape.same] at h
termination_by structural x => x

theorem Stmt.renderAt_of_same : ∀ s t : Stmt, s.same t → ∀ d, s.renderAt d = t.renderAt d
  | .empty _, t, h, _ | .breakLoop _, t, h, _ | .continueLoop _, t, h, _ => by
    cases t <;> simp_all [Stmt.same, Stmt.renderAt]
  | .single x _ _, t, h, d => by
    cases t with
    | single y _ _ =>
      simp only [Stmt.same, Bool.and_eq_true, beq_iff_eq] at h
      have hx := Expr.renderAt_of_same x y h.1 d
      simp [Stmt.renderAt, hx, h.2]
    | _ => simp [Stmt.same] at h
  | .varDecl ns s _, t, h, d => by
    cases t with
    | varDecl ms s' _ =>
      simp only [Stmt.same, Bool.and_eq_true] at h
      exact VarSpec.renderAt_of_same s s' h.2 h.1 d _ _
    | _ => simp [Stmt.same] at h
  | .block a, t, h, d => by
    cases t with
    | block b =>
      simp only [Stmt.same] at h
      have hb := Block.renderAt_of_same a b h d
      simp [Stmt.renderAt, hb]
    | _ => simp [Stmt.same] at h
  | .ifChain bs o _, t, h, d => by
    cases t with
    | ifChain cs o' _ =>
      simp only [Stmt.same, Bool.and_eq_true] at h
      have hbs := Branch.renderAllAt_of_sameAll bs cs h.1 d
      have ho := Block.renderElseAt_of_sameOpt o o' h.2 d
      simp [Stmt.renderAt, hbs, ho]
    | _ => simp [Stmt.same] at h
  | .loop s a _, t, h, d => by
    cases t with
    | loop s' b _ =>
      simp only [Stmt.same, Bool.and_eq_true] at h
      have hb := Block.renderAt_of_same a b h.2 d
      exact LoopShape.renderAt_of_same s s' h.1 hb _ _
    | _ => simp [Stmt.same] at h
  | .ret xs _, t, h, d => by
    cases t with
    | ret ys _ =>
      simp only [Stmt.same] at h
      have hxs := Expr.renderAllAt_of_sameAll xs ys h d
      cases xs <;> cases ys <;> simp_all [Expr.sameAll, Stmt.renderAt]
    | _ => simp [Stmt.same] at h
  | .assign ts vs _, t, h, d => by
    cases t with
    | assign us ws _ =>
      simp only [Stmt.same, Bool.and_eq_true] at h
      have hts := Expr.renderAllAt_of_sameAll ts us h.1 d
      have hvs := Expr.renderAllAt_of_sameAll vs ws h.2 d
      simp [Stmt.renderAt, hts, hvs]
    | _ => simp [Stmt.same] at h
  | .define ns vs _, t, h, d => by
    cases t with
    | define ms ws _ =>
      simp only [Stmt.same, Bool.and_eq_true] at h
      have hvs := Expr.renderAllAt_of_sameAll vs ws h.2 d
      simp [Stmt.renderAt, Binding.renderAll_of_sameAll h.1, hvs]
    | _ => simp [Stmt.same] at h
termination_by structural x => x

end

theorem Program.linesAt_of_same : ∀ p q : Program, p.same q →
    (p.map fun s => s.renderAt 0 ++ "\n") = q.map fun s => s.renderAt 0 ++ "\n"
  | [], [], _ => rfl
  | [], _ :: _, h | _ :: _, [], h => by simp [Program.same, Stmt.sameAll] at h
  | s :: p, t :: q, h => by
    simp only [Program.same, Stmt.sameAll, Bool.and_eq_true] at h
    simp [Stmt.renderAt_of_same s t h.1 0, Program.linesAt_of_same p q h.2]

theorem Program.render_of_same {p q : Program} (hp : p.shaped) (hq : q.shaped) (h : p.same q) :
    p.render = q.render := by
  rw [Program.render_eq hp, Program.render_eq hq, Program.linesAt_of_same p q h]

/-! ## The round trip -/

theorem Cursor.spans_ofTokens {ts : List Token} (q : Position) (hne : ∀ t ∈ ts, t.kind ≠ .eof) :
    ∃ d : Cursor, (Cursor.ofTokens (ts ++ [Token.endAt q])).Spans (ts.map Token.lex) d ∧
      d.ahead = [] := by
  have hahead : (Cursor.ofTokens (ts ++ [Token.endAt q])).ahead = ts := by
    show (ts ++ [Token.endAt q]).takeWhile (·.kind != .eof) = ts
    rw [List.takeWhile_append_of_pos (by simpa using hne)]
    simp [Token.endAt]
  exact ⟨⟨[], _, by simp, Cursor.last_eof (Cursor.ofTokens (ts ++ [Token.endAt q]))⟩,
    ⟨ts, rfl, by simp [hahead], rfl⟩, rfl⟩

/-- A program read from a source prints as text that scans without error and reads back, under
the same file name, as a program of the same shape, which prints as the same text. -/
theorem Program.ofSource_render {source file : String} {p : Program}
    (h : Program.ofSource source file = .ok p) :
    (∃ ts, tokenize p.render file = .ok ts) ∧
      ∃ p', Program.ofSource p.render file = .ok p' ∧ p.same p' ∧ p'.render = p.render := by
  obtain ⟨ts, hts, hp⟩ := Except.bind_eq_ok.mp h
  have hs : p.shaped :=
    Program.readAll_shaped hp (Cursor.scannedAhead_ofTokens (scanFrom_scanned _ _ ts hts))
  obtain ⟨q, us, hus, hne, hscan⟩ :=
    Program.scansPrinted p hs [] (by simp [Stops]) (Position.first file)
  rw [List.append_nil, scanFrom_nil] at hscan
  have htok : tokenize p.render file = .ok (us ++ [Token.endAt q]) := by
    rw [tokenize, Option.getD_some, hscan]
    rfl
  obtain ⟨d, hspan, hd⟩ := Cursor.spans_ofTokens q hne
  rw [hus] at hspan
  have hback : ∀ s ∈ p, s.ReadsBack ∧ s.shaped := Stmt.readsBackAll p hs
  obtain ⟨p', hread, hsame⟩ := Program.readsBack p hback hspan hd
  have hsrc : Program.ofSource p.render file = .ok p' := by
    rw [Program.ofSource, htok]
    exact hread
  have hs' : p'.shaped := by
    obtain ⟨ts', hts', hp'⟩ := Except.bind_eq_ok.mp hsrc
    exact Program.readAll_shaped hp' (Cursor.scannedAhead_ofTokens (scanFrom_scanned _ _ ts' hts'))
  exact ⟨⟨_, htok⟩, p', hsrc, hsame, (Program.render_of_same hs hs' hsame).symm⟩

theorem ofSource_render_func_loop :
    ∃ p, Program.ofSource
      "f := func(a int, b bool) (int, bool) \x7b return -a, !b \x7d\nfor i := 0; i < 3; i = i + 1 \x7b\n    if i > 1 \x7b break \x7d else if i == 0 \x7b\x7d else \x7b continue \x7d\n\x7d\n" "f" = .ok p ∧
    ((∃ ts, tokenize p.render "f" = .ok ts) ∧
      ∃ p', Program.ofSource p.render "f" = .ok p' ∧ p.same p' ∧ p'.render = p.render) := by
  obtain ⟨p, hp⟩ := Except.exists_of_toBool (x := Program.ofSource
    "f := func(a int, b bool) (int, bool) \x7b return -a, !b \x7d\nfor i := 0; i < 3; i = i + 1 \x7b\n    if i > 1 \x7b break \x7d else if i == 0 \x7b\x7d else \x7b continue \x7d\n\x7d\n" "f")
    (by decide +kernel)
  exact ⟨p, hp, Program.ofSource_render hp⟩

end ScriptFront
