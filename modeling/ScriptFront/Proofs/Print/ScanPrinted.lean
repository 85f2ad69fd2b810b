import ScriptFront.Proofs.Print.Indent
/-!
# The printed text of a tree scans as its tokens

Each printer is followed case by case: the text of a node is put together from the texts of
its children with `Scans.append` where a stop follows a piece, and with the punctuators,
blanks and line feeds that end where they start in front of a piece. Names must be names for
this, so the trees are the shaped ones. Expressions and types also start with no `=` or `/`,
which is what a prefix operator or a `(` in front of them needs.
-/

set_option autoImplicit false

namespace ScriptFront

theorem freeHead_of_isWordStart {c : Char} {cs : List Char} (h : Lexeme.isWordStart c) :
    FreeHead (c :: cs) := by
  intro x hx
  cases hx
  constructor <;> rintro rfl <;> simp [Lexeme.isWordStart] at h

theorem freeHead_intercalate {sep : List Char} {c : Char} {cs rest : List Char}
    {xs : List (List Char)} (hc : Lexeme.isWordStart c) :
    FreeHead (sep.intercalate ((c :: cs) :: xs) ++ rest) := by
  cases xs with
  | nil => simpa using freeHead_of_isWordStart hc
  | cons y ys =>
    rw [List.intercalate_cons_cons]
    simpa using freeHead_of_isWordStart hc

theorem stops_cons {c : Char} {cs : List Char} (h : c ∈ stopChars) : Stops (c :: cs) := by
  intro x hx
  cases hx
  exact h

namespace Scans

variable {cs : List Char} {ls : List Lex}

theorem paren (b : Bool) (h : Scans cs ls) (hf : FreeHead cs) :
    Scans (if b then '(' :: (cs ++ [')']) else cs) (parenLexes b ls) ∧
      FreeHead (if b then '(' :: (cs ++ [')']) else cs) := by
  cases b with
  | false => exact ⟨h, hf⟩
  | true =>
    refine ⟨?_, by simp [FreeHead]⟩
    have hc := h.append (punct_end (w := [')']) (k := .closeParen) (by decide)) (stops_cons (by decide))
    exact punct (w := ['(']) (k := .openParen) (by decide) hc (hf.append (by simp [FreeHead]))

theorem parenthesize (b : Bool) {text : String} (h : Scans text.toList ls)
    (hf : FreeHead text.toList) :
    Scans (ScriptFront.parenthesize b text).toList (parenLexes b ls) ∧
      FreeHead (ScriptFront.parenthesize b text).toList := by
  have := paren b h hf
  cases b <;> simpa [ScriptFront.parenthesize] using this

end Scans

theorem Ty.render_head (t : Ty) : ∃ c cs, t.render.toList = c :: cs ∧ Lexeme.isWordStart c := by
  match t with
  | .basic .int => exact ⟨_, _, rfl, by decide⟩
  | .basic .bool => exact ⟨_, _, rfl, by decide⟩
  | .func _ _ =>
    exact ⟨'f', _, by simp only [Ty.render, String.toList_append, String.reduceToList,
      List.cons_append]; rfl, by decide⟩

def Ty.ScansPrinted (t : Ty) : Prop := Scans t.render.toList t.lexes

theorem Ty.scans_results (rs : List Ty) (h : ∀ t ∈ rs, t.ScansPrinted) :
    Scans (resultsText (rs.map Ty.render)).toList (resultsLexes (rs.map Ty.lexes)) ∧
      FreeHead (resultsText (rs.map Ty.render)).toList := by
  match rs with
  | [] => exact ⟨Scans.nil, by simp [FreeHead, resultsText]⟩
  | [r] =>
    refine ⟨?_, by simp [FreeHead, resultsText]⟩
    simpa [resultsText, resultsLexes] using (h r (by simp)).space
  | r₁ :: r₂ :: rs =>
    refine ⟨?_, by simp [FreeHead, resultsText]⟩
    have hl := Scans.commas (fun t : Ty => t.render.toList) Ty.lexes (r₁ :: r₂ :: rs) h
    have hc := hl.append (Scans.punct_end (w := [')']) (k := .closeParen) (by decide)) (stops_cons (by decide))
    obtain ⟨c, cs, hcs, hc1⟩ := Ty.render_head r₁
    have hf : FreeHead (", ".toList.intercalate ((r₁ :: r₂ :: rs).map fun t => t.render.toList) ++
        [')']) := by
      rw [List.map_cons, hcs]
      exact freeHead_intercalate hc1
    have hp := Scans.punct (w := ['(']) (k := .openParen) (by decide) hc hf
    simpa [resultsText, resultsLexes, commaLexes, Function.comp_def] using hp.space

theorem Ty.scansPrinted_func {ps rs : List Ty} (hps : ∀ t ∈ ps, t.ScansPrinted)
    (hrs : ∀ t ∈ rs, t.ScansPrinted) : (Ty.func ps rs).ScansPrinted := by
  obtain ⟨hr, hrf⟩ := Ty.scans_results rs hrs
  have hl := Scans.commas (fun t : Ty => t.render.toList) Ty.lexes ps hps
  have hc := Scans.punct (w := [')']) (k := .closeParen) (by decide) hr hrf
  have hlc := hl.append hc (stops_cons (by decide))
  have hf : FreeHead (", ".toList.intercalate (ps.map fun t => t.render.toList) ++
      ')' :: (resultsText (rs.map Ty.render)).toList) := by
    cases ps with
    | nil => simp [FreeHead]
    | cons t ts =>
      obtain ⟨c, cs, hcs, hc⟩ := Ty.render_head t
      rw [List.map_cons, hcs]
      exact freeHead_intercalate hc
  have hp := Scans.punct (w := ['(']) (k := .openParen) (by decide) hlc hf
  have hfn := Scans.reserved (w := "func") (k := .kwFunc) (by decide) hp (stops_cons (by decide))
  simpa [Ty.ScansPrinted, Ty.render, Ty.lexes, Ty.lexesAll_eq_map, commaLexes, Function.comp_def]
    using hfn

mutual

theorem Ty.scansPrinted : ∀ t : Ty, t.ScansPrinted
  | .basic .int => by
    simpa [Ty.ScansPrinted, Ty.render, BasicType.name, Ty.lexes] using
      Scans.reserved (w := "int") (k := .kwInt) (by decide) Scans.nil (by simp [Stops])
  | .basic .bool => by
    simpa [Ty.ScansPrinted, Ty.render, BasicType.name, Ty.lexes] using
      Scans.reserved (w := "bool") (k := .kwBool) (by decide) Scans.nil (by simp [Stops])
  | .func ps rs => Ty.scansPrinted_func (Ty.scansPrintedAll ps) (Ty.scansPrintedAll rs)

theorem Ty.scansPrintedAll : ∀ ts : List Ty, ∀ t ∈ ts, t.ScansPrinted
  | [] => by simp
  | t :: ts => by
    have ht := Ty.scansPrinted t
    have hts := Ty.scansPrintedAll ts
    intro u hu
    rcases List.mem_cons.mp hu with rfl | hu
    · exact ht
    · exact hts u hu

end

def Expr.ScansPrinted (x : Expr) : Prop :=
  ∀ d, Scans (x.renderAt d).toList x.lexes ∧ FreeHead (x.renderAt d).toList

def Block.ScansPrinted (b : Block) : Prop := ∀ d, Scans (b.renderAt d).toList b.lexes

def Stmt.ScansPrinted (s : Stmt) : Prop := ∀ d, Scans (s.renderAt d).toList s.lexes

theorem UnaryOp.symbol_mem (op : UnaryOp) : (op.symbol.toList, op.kind) ∈ TokenKind.punctuators := by
  cases op <;> decide

theorem BinaryOp.symbol_mem (op : BinaryOp) :
    (op.symbol.toList, op.kind) ∈ TokenKind.punctuators := by
  cases op <;> decide

namespace Expr.ScansPrinted

attribute [local simp] Expr.renderAt Expr.lexes

theorem name {n : String} {p : Position} (hn : isName n) : (Expr.name n p).ScansPrinted := by
  intro d
  obtain ⟨-, c, ws, hw, hc, -⟩ := isName_word hn
  refine ⟨by simpa using Scans.name hn Scans.nil (by simp [Stops]), ?_⟩
  simp only [Expr.renderAt, hw]
  exact freeHead_of_isWordStart hc

theorem integer {v : Int} {p : Position} (hv : 0 ≤ v) : (Expr.integer v p).ScansPrinted := by
  obtain ⟨m, rfl⟩ := Int.eq_ofNat_of_zero_le hv
  intro d
  refine ⟨by simpa using Scans.number m Scans.nil (by simp [Stops]), ?_⟩
  intro c hc
  have hd : c.isDigit := Nat.isDigit_of_mem_toDigits (b := 10) (by decide) (by decide)
    (by simpa using List.mem_of_mem_head? hc)
  constructor <;> rintro rfl <;> simp at hd

theorem boolean {b : Bool} {p : Position} : (Expr.boolean b p).ScansPrinted := by
  intro d
  cases b
  · exact ⟨by simpa using
      Scans.reserved (w := "false") (k := .kwFalse) (by decide) Scans.nil (by simp [Stops]),
      by simp [FreeHead]⟩
  · exact ⟨by simpa using
      Scans.reserved (w := "true") (k := .kwTrue) (by decide) Scans.nil (by simp [Stops]),
      by simp [FreeHead]⟩

theorem unary {op : UnaryOp} {e : Expr} {p : Position} (he : e.ScansPrinted) :
    (Expr.unary op e p).ScansPrinted := by
  intro d
  obtain ⟨hs, hf⟩ := Scans.parenthesize (decide (e.precedence < UnaryOp.precedence)) (he d).1
    (he d).2
  refine ⟨by simpa using Scans.punct op.symbol_mem hs hf, ?_⟩
  cases op <;> simp [UnaryOp.symbol, FreeHead]

theorem binary {op : BinaryOp} {l r : Expr} {p : Position} (hl : l.ScansPrinted)
    (hr : r.ScansPrinted) : (Expr.binary op l r p).ScansPrinted := by
  intro d
  obtain ⟨hls, hlf⟩ := Scans.parenthesize (decide (l.precedence < op.precedence)) (hl d).1 (hl d).2
  obtain ⟨hrs, -⟩ := Scans.parenthesize (decide (r.precedence < op.precedence + 1)) (hr d).1
    (hr d).2
  have hop := Scans.punct op.symbol_mem hrs.space (by simp [FreeHead])
  have h := hls.append hop.space (stops_cons (by decide))
  refine ⟨by simpa using h, ?_⟩
  simpa using hlf.append (by simp [FreeHead] : FreeHead (' ' :: _))

end Expr.ScansPrinted

theorem Param.scansAll {ps : List Param} (hn : ∀ q ∈ ps, isName q.name) :
    Scans (", ".toList.intercalate (ps.map fun q => q.render.toList)) (commaLexes (ps.map Param.lexes)) :=
  Scans.commas _ _ ps fun q hq => by
    simpa [Param.render, Param.lexes] using
      Scans.name (hn q hq) (Ty.scansPrinted q.ty).space (stops_cons (by decide))

theorem Param.freeHead {ps : List Param} (hn : ∀ q ∈ ps, isName q.name) {rest : List Char}
    (hr : FreeHead rest) : FreeHead (", ".toList.intercalate (ps.map fun q => q.render.toList) ++ rest) := by
  cases ps with
  | nil => simpa using hr
  | cons q qs =>
    obtain ⟨-, c, ws, hw, hc, -⟩ := isName_word (hn q (by simp))
    rw [List.map_cons, show q.render.toList = c :: (ws ++ ' ' :: q.ty.render.toList) by
      simp [Param.render, hw]]
    exact freeHead_intercalate hc

theorem Expr.ScansPrinted.func {ps : List Param} {rs : List Ty} {b : Block} {p : Position}
    (hn : ∀ q ∈ ps, isName q.name) (hb : b.ScansPrinted) : (Expr.func ps rs b p).ScansPrinted := by
  intro d
  obtain ⟨hr, hrf⟩ := Ty.scans_results rs fun t _ => Ty.scansPrinted t
  have h1 := hr.append (hb d).space (stops_cons (by decide))
  have h2 := Scans.punct (w := [')']) (k := .closeParen) (by decide) h1
    (hrf.append (by simp [FreeHead]))
  have h3 := (Param.scansAll hn).append h2 (stops_cons (by decide))
  have h4 := Scans.punct (w := ['(']) (k := .openParen) (by decide) h3
    (Param.freeHead hn (by simp [FreeHead]))
  have h5 := Scans.reserved (w := "func") (k := .kwFunc) (by decide) h4 (stops_cons (by decide))
  exact ⟨by simpa [Expr.renderAt, Expr.lexes, Function.comp_def] using h5,
    by simp [Expr.renderAt, FreeHead]⟩

theorem Stmt.scans_blockLines (d : Nat) : ∀ ss : List Stmt, (∀ s ∈ ss, s.ScansPrinted) →
    Scans (String.join (Stmt.blockLines d ss)).toList (Stmt.blockLexes ss) ∧
      Stops (String.join (Stmt.blockLines d ss)).toList
  | [], _ => ⟨by simpa [Stmt.blockLines, Stmt.blockLexes] using Scans.nil,
      by simp [Stmt.blockLines, Stops]⟩
  | s :: ss, h => by
    obtain ⟨hJ, hJs⟩ := Stmt.scans_blockLines d ss fun t ht => h t (List.mem_cons_of_mem _ ht)
    have hs := h s (by simp) d
    refine ⟨?_, by simp [Stmt.blockLines, blockLine, Stops, stopChars]⟩
    by_cases he : (s.renderAt d).isEmpty
    · have hnil : (s.renderAt d).toList = [] := by simpa using he
      have hl : s.lexes = [] := Scans.eq_nil (hnil ▸ hs)
      simpa [Stmt.blockLines, Stmt.blockLexes, blockLine, he, hl] using hJ.newline
    · have := (Scans.spaces (4 * d) (hs.append hJ hJs)).newline
      simpa [Stmt.blockLines, Stmt.blockLexes, blockLine, he, indent] using this

theorem Block.ScansPrinted.of_lines {ss : List Stmt} {p : Position}
    (h : ∀ s ∈ ss, s.ScansPrinted) : (Block.mk ss p).ScansPrinted := by
  intro d
  obtain ⟨hJ, hJs⟩ := Stmt.scans_blockLines (d + 1) ss h
  have htail := (Scans.spaces (4 * d)
    (Scans.punct_end (w := ['\x7d']) (k := .closeCurly) (by decide))).newline
  have h1 := hJ.append htail (stops_cons (by decide))
  have h2 := Scans.punct (w := ['\x7b']) (k := .openCurly) (by decide) h1
    (hJs.freeHead.append (by simp [FreeHead]))
  simpa [Block.renderAt, Block.lexes, indent] using h2

theorem Binding.scansAll {ns : List Binding} (hn : ∀ b ∈ ns, isName b.name) :
    Scans (Binding.renderAll ns).toList (Binding.lexesAll ns) := by
  have := Scans.commas (fun b : Binding => b.name.toList) (fun b => [(TokenKind.identifier, b.name)])
    ns fun b hb => by simpa using Scans.name (hn b hb) Scans.nil (by simp [Stops])
  simpa [Binding.renderAll, Binding.lexesAll, Function.comp_def] using this

theorem Expr.scansAll (d : Nat) {vs : List Expr} (h : ∀ x ∈ vs, x.ScansPrinted) :
    Scans (", ".intercalate (Expr.renderAllAt d vs)).toList (commaLexes (Expr.lexesAll vs)) := by
  have := Scans.commas (fun x : Expr => (x.renderAt d).toList) Expr.lexes vs fun x hx => (h x hx d).1
  simpa [Expr.renderAllAt_eq_map, Expr.lexesAll_eq_map, Function.comp_def] using this

theorem Scans.values {w : List Char} {k : TokenKind} (hk : (w, k) ∈ TokenKind.punctuators)
    (d : Nat) {vs : List Expr} (h : ∀ x ∈ vs, x.ScansPrinted) :
    Scans (' ' :: (w ++ ' ' :: (", ".intercalate (Expr.renderAllAt d vs)).toList))
      (k.lex :: commaLexes (Expr.lexesAll vs)) :=
  (Scans.punct hk (Expr.scansAll d h).space (by simp [FreeHead])).space

theorem Branch.scans_chain (d : Nat) : ∀ bs : List Branch,
    (∀ c b q, Branch.mk c b q ∈ bs → c.ScansPrinted ∧ b.ScansPrinted) →
    Scans (" else ".intercalate (Branch.renderAllAt d bs)).toList
      ([TokenKind.kwElse.lex].intercalate (Branch.lexesAll bs))
  | [], _ => by simpa [Branch.renderAllAt, Branch.lexesAll] using Scans.nil
  | .mk c b q :: bs, h => by
    obtain ⟨hc, hb⟩ := h c b q (by simp)
    have hbr := Scans.reserved (w := "if") (k := .kwIf) (by decide)
      ((hc d).1.append (hb d).space (stops_cons (by decide))).space (stops_cons (by decide))
    cases bs with
    | nil => simpa [Branch.renderAllAt, Branch.lexesAll] using hbr
    | cons br bs =>
      have hrest := Branch.scans_chain d (br :: bs) fun c b q hm => h c b q (List.mem_cons_of_mem _ hm)
      have hne : Branch.renderAllAt d (br :: bs) ≠ [] := by cases br; simp [Branch.renderAllAt]
      have hne' : Branch.lexesAll (br :: bs) ≠ [] := by cases br; simp [Branch.lexesAll]
      have helse := (Scans.reserved (w := "else") (k := .kwElse) (by decide) hrest.space
        (stops_cons (by decide))).space
      have := hbr.append helse (stops_cons (by decide))
      rw [Branch.renderAllAt, Branch.lexesAll, String.intercalate_cons_of_ne_nil hne,
        List.intercalate_cons_of_ne_nil hne']
      simpa using this

namespace Stmt.ScansPrinted

variable {p : Position}

attribute [local simp] Stmt.renderAt Stmt.lexes

theorem empty : (Stmt.empty p).ScansPrinted := fun _ => by
  simpa using Scans.nil

theorem single {e : Expr} {semi : Bool} (he : e.ScansPrinted) :
    (Stmt.single e semi p).ScansPrinted := by
  intro d
  cases semi
  · simpa using (he d).1
  · simpa using (he d).1.append
      (Scans.punct_end (w := [';']) (k := .semicolon) (by decide)) (stops_cons (by decide))

theorem varTyped {ns : List Binding} {t : Ty} (hn : ∀ b ∈ ns, isName b.name) :
    (Stmt.varDecl ns (.typed t none) p).ScansPrinted := by
  intro d
  have h := Scans.reserved (w := "var") (k := .kwVar) (by decide)
    ((Binding.scansAll hn).append (Ty.scansPrinted t).space (stops_cons (by decide))).space
    (stops_cons (by decide))
  simpa using h

theorem varTypedValues {ns : List Binding} {t : Ty} {vs : List Expr}
    (hn : ∀ b ∈ ns, isName b.name) (hv : ∀ x ∈ vs, x.ScansPrinted) :
    (Stmt.varDecl ns (.typed t (some vs)) p).ScansPrinted := by
  intro d
  have hval := Scans.values (w := ['=']) (k := .assign) (by decide) d hv
  have h := Scans.reserved (w := "var") (k := .kwVar) (by decide)
    ((Binding.scansAll hn).append ((Ty.scansPrinted t).append hval (stops_cons (by decide))).space
      (stops_cons (by decide))).space (stops_cons (by decide))
  simpa using h

theorem varInferred {ns : List Binding} {vs : List Expr} (hn : ∀ b ∈ ns, isName b.name)
    (hv : ∀ x ∈ vs, x.ScansPrinted) : (Stmt.varDecl ns (.inferred vs) p).ScansPrinted := by
  intro d
  have hval := Scans.values (w := ['=']) (k := .assign) (by decide) d hv
  have h := Scans.reserved (w := "var") (k := .kwVar) (by decide)
    ((Binding.scansAll hn).append hval (stops_cons (by decide))).space (stops_cons (by decide))
  simpa using h

theorem block {b : Block} (hb : b.ScansPrinted) : (Stmt.block b).ScansPrinted := fun d => by
  simpa using hb d

theorem ifChain {bs : List Branch} {o : Option Block}
    (hbs : ∀ c b q, Branch.mk c b q ∈ bs → c.ScansPrinted ∧ b.ScansPrinted)
    (ho : ∀ b ∈ o, b.ScansPrinted) : (Stmt.ifChain bs o p).ScansPrinted := by
  intro d
  have helse : Scans (Block.renderElseAt d o).toList (Block.elseLexes o) ∧
      Stops (Block.renderElseAt d o).toList := by
    cases o with
    | none => exact ⟨by simpa [Block.renderElseAt, Block.elseLexes] using Scans.nil,
        by simp [Block.renderElseAt, Stops]⟩
    | some b =>
      refine ⟨?_, by simp [Block.renderElseAt, Stops, stopChars]⟩
      simpa [Block.renderElseAt, Block.elseLexes] using (Scans.reserved (w := "else")
        (k := .kwElse) (by decide) (ho b rfl d).space (stops_cons (by decide))).space
  simpa using
    (Branch.scans_chain d bs hbs).append helse.1 helse.2

theorem loopForever {b : Block} (hb : b.ScansPrinted) : (Stmt.loop .forever b p).ScansPrinted := by
  intro d
  simpa using Scans.reserved (w := "for") (k := .kwFor) (by decide)
    (hb d).space (stops_cons (by decide))

theorem loopGuarded {c : Expr} {b : Block} (hc : c.ScansPrinted) (hb : b.ScansPrinted) :
    (Stmt.loop (.guarded c) b p).ScansPrinted := by
  intro d
  simpa using Scans.reserved (w := "for") (k := .kwFor) (by decide)
    ((hc d).1.append (hb d).space (stops_cons (by decide))).space (stops_cons (by decide))

theorem loopClauses {i : Option Stmt} {c : Option Expr} {q : Option Stmt} {b : Block}
    (hi : ∀ s ∈ i, s.ScansPrinted) (hc : ∀ x ∈ c, x.ScansPrinted) (hq : ∀ s ∈ q, s.ScansPrinted)
    (hb : b.ScansPrinted) : (Stmt.loop (.clauses i c q) b p).ScansPrinted := by
  intro d
  have hsemi : ∀ {cs ls}, Scans cs ls → Scans (';' :: ' ' :: cs) (TokenKind.semicolon.lex :: ls) :=
    fun h => Scans.punct (w := [';']) (k := .semicolon) (by decide) h.space (by simp [FreeHead])
  have hP : Scans ((Stmt.renderPostAt d q).toList ++ (b.renderAt d).toList)
      (Stmt.lexesOpt q ++ b.lexes) := by
    cases q with
    | none => simpa [Stmt.renderPostAt, Stmt.lexesOpt] using hb d
    | some s =>
      simpa [Stmt.renderPostAt, Stmt.lexesOpt] using
        (hq s rfl d).append (hb d).space (stops_cons (by decide))
  have hC : Scans ((Expr.renderOptAt d c).toList ++ ';' :: ' ' ::
      ((Stmt.renderPostAt d q).toList ++ (b.renderAt d).toList))
      (Expr.lexesOpt c ++ TokenKind.semicolon.lex :: (Stmt.lexesOpt q ++ b.lexes)) := by
    cases c with
    | none => simpa [Expr.renderOptAt, Expr.lexesOpt] using hsemi hP
    | some x =>
      simpa [Expr.renderOptAt, Expr.lexesOpt] using
        (hc x rfl d).1.append (hsemi hP) (stops_cons (by decide))
  have hI : Scans ((Stmt.renderOptAt d i).toList ++ ';' :: ' ' :: ((Expr.renderOptAt d c).toList ++
      ';' :: ' ' :: ((Stmt.renderPostAt d q).toList ++ (b.renderAt d).toList)))
      (Stmt.lexesOpt i ++ TokenKind.semicolon.lex :: (Expr.lexesOpt c ++
        TokenKind.semicolon.lex :: (Stmt.lexesOpt q ++ b.lexes))) := by
    cases i with
    | none => simpa [Stmt.renderOptAt, Stmt.lexesOpt] using hsemi hC
    | some s =>
      simpa [Stmt.renderOptAt, Stmt.lexesOpt] using
        (hi s rfl d).append (hsemi hC) (stops_cons (by decide))
  simpa using Scans.reserved (w := "for") (k := .kwFor) (by decide)
    hI.space (stops_cons (by decide))

theorem breakLoop : (Stmt.breakLoop p).ScansPrinted := fun _ => by
  simpa using Scans.reserved (w := "break") (k := .kwBreak)
    (by decide) Scans.nil (by simp [Stops])

theorem continueLoop : (Stmt.continueLoop p).ScansPrinted := fun _ => by
  simpa using Scans.reserved (w := "continue") (k := .kwContinue)
    (by decide) Scans.nil (by simp [Stops])

theorem ret {vs : List Expr} (hv : ∀ x ∈ vs, x.ScansPrinted) : (Stmt.ret vs p).ScansPrinted := by
  intro d
  cases vs with
  | nil =>
    simpa using Scans.reserved (w := "return") (k := .kwReturn)
      (by decide) Scans.nil (by simp [Stops])
  | cons v vs =>
    have h := Scans.reserved (w := "return") (k := .kwReturn) (by decide)
      (Expr.scansAll d hv).space (stops_cons (by decide))
    rw [Stmt.renderAt, Stmt.lexes]
    simpa using h

theorem assign {ts vs : List Expr} (ht : ∀ x ∈ ts, x.ScansPrinted)
    (hv : ∀ x ∈ vs, x.ScansPrinted) : (Stmt.assign ts vs p).ScansPrinted := by
  intro d
  simpa using (Expr.scansAll d ht).append
    (Scans.values (w := ['=']) (k := .assign) (by decide) d hv) (stops_cons (by decide))

theorem define {ns : List Binding} {vs : List Expr} (hn : ∀ b ∈ ns, isName b.name)
    (hv : ∀ x ∈ vs, x.ScansPrinted) : (Stmt.define ns vs p).ScansPrinted := by
  intro d
  simpa using (Binding.scansAll hn).append
    (Scans.values (w := [':', '=']) (k := .define) (by decide) d hv) (stops_cons (by decide))

end Stmt.ScansPrinted

/-! Every shaped tree prints as text that scans to its tokens, by recursion on the tree. -/

mutual

theorem Expr.scansPrinted : ∀ x : Expr, x.shaped → x.ScansPrinted
  | .name .., h => Expr.ScansPrinted.name (by simpa [Expr.shaped] using h)
  | .integer .., h => Expr.ScansPrinted.integer (by simp_all [Expr.shaped])
  | .boolean .., _ => Expr.ScansPrinted.boolean
  | .unary _ e _, h => by
    have he : e.ScansPrinted := Expr.scansPrinted e (by simp_all [Expr.shaped])
    exact Expr.ScansPrinted.unary he
  | .binary _ l r _, h => by
    simp only [Expr.shaped, Bool.and_eq_true] at h
    have hl : l.ScansPrinted := Expr.scansPrinted l h.1.2
    have hr : r.ScansPrinted := Expr.scansPrinted r h.2
    exact Expr.ScansPrinted.binary hl hr
  | .func _ _ b _, h => by
    simp only [Expr.shaped, Bool.and_eq_true, List.all_eq_true] at h
    have hb : b.ScansPrinted := Block.scansPrinted b h.2
    exact Expr.ScansPrinted.func h.1 hb

theorem Expr.scansPrintedAll : ∀ xs : List Expr, Expr.shapedAll xs → ∀ x ∈ xs, x.ScansPrinted
  | [], _ => by simp
  | x :: xs, h => by
    simp only [Expr.shapedAll, Bool.and_eq_true] at h
    have hx : x.ScansPrinted := Expr.scansPrinted x h.1
    have hxs := Expr.scansPrintedAll xs h.2
    intro y hy
    rcases List.mem_cons.mp hy with rfl | hy
    · exact hx
    · exact hxs y hy

theorem Expr.scansPrintedOpt : ∀ o : Option Expr, Expr.shapedOpt o → ∀ x ∈ o, x.ScansPrinted
  | none, _ => by simp
  | some x, h => by
    have hx : x.ScansPrinted := Expr.scansPrinted x h
    intro y hy
    obtain rfl := Option.mem_some_iff.mp hy
    exact hx

theorem Block.scansPrinted : ∀ b : Block, b.shaped → b.ScansPrinted
  | .mk ss _, h => Block.ScansPrinted.of_lines (Stmt.scansPrintedAll ss h)

theorem Block.scansPrintedOpt : ∀ o : Option Block, Block.shapedOpt o → ∀ b ∈ o, b.ScansPrinted
  | none, _ => by simp
  | some b, h => by
    have hb : b.ScansPrinted := Block.scansPrinted b h
    intro b' hb'
    obtain rfl := Option.mem_some_iff.mp hb'
    exact hb

theorem Stmt.scansPrintedAll : ∀ ss : List Stmt, Stmt.shapedAll ss → ∀ s ∈ ss, s.ScansPrinted
  | [], _ => by simp
  | s :: ss, h => by
    simp only [Stmt.shapedAll, Bool.and_eq_true] at h
    have hs : s.ScansPrinted := Stmt.scansPrinted s h.1
    have hss := Stmt.scansPrintedAll ss h.2
    intro t ht
    rcases List.mem_cons.mp ht with rfl | ht
    · exact hs
    · exact hss t ht

theorem Stmt.scansPrintedOpt : ∀ o : Option Stmt, Stmt.shapedOpt o → ∀ s ∈ o, s.ScansPrinted
  | none, _ => by simp
  | some s, h => by
    have hs : s.ScansPrinted := Stmt.scansPrinted s h
    intro t ht
    obtain rfl := Option.mem_some_iff.mp ht
    exact hs

theorem Branch.scansPrintedAll : ∀ bs : List Branch, Branch.shapedAll bs →
    ∀ x b q, Branch.mk x b q ∈ bs → x.ScansPrinted ∧ b.ScansPrinted
  | [], _ => by simp
  | .mk x b q :: bs, h => by
    simp only [Branch.shapedAll, Bool.and_eq_true] at h
    have hx : x.ScansPrinted := Expr.scansPrinted x h.1.1
    have hb : b.ScansPrinted := Block.scansPrinted b h.1.2
    have hbs := Branch.scansPrintedAll bs h.2
    intro y c r hy
    rcases List.mem_cons.mp hy with hy | hy
    · cases hy
      exact ⟨hx, hb⟩
    · exact hbs y c r hy

theorem Stmt.scansPrinted : ∀ s : Stmt, s.shaped → s.ScansPrinted
  | .empty _, _ => Stmt.ScansPrinted.empty
  | .single e _ _, h => Stmt.ScansPrinted.single (Expr.scansPrinted e h)
  | .varDecl ns (.typed t none) _, h => by
    simp only [Stmt.shaped, Bool.and_eq_true, List.all_eq_true] at h
    exact Stmt.ScansPrinted.varTyped h.1.2
  | .varDecl ns (.typed t (some vs)) _, h => by
    simp only [Stmt.shaped, VarSpec.shaped, Bool.and_eq_true, List.all_eq_true] at h
    exact Stmt.ScansPrinted.varTypedValues h.1.2 (Expr.scansPrintedAll vs h.2.2)
  | .varDecl ns (.inferred vs) _, h => by
    simp only [Stmt.shaped, VarSpec.shaped, Bool.and_eq_true, List.all_eq_true] at h
    exact Stmt.ScansPrinted.varInferred h.1.2 (Expr.scansPrintedAll vs h.2.2)
  | .block b, h => Stmt.ScansPrinted.block (Block.scansPrinted b h)
  | .ifChain bs o _, h => by
    simp only [Stmt.shaped, Bool.and_eq_true] at h
    exact Stmt.ScansPrinted.ifChain (Branch.scansPrintedAll bs h.1.2) (Block.scansPrintedOpt o h.2)
  | .loop .forever b _, h =>
    Stmt.ScansPrinted.loopForever (Block.scansPrinted b (by simpa [Stmt.shaped, LoopShape.shaped] using h))
  | .loop (.guarded x) b _, h => by
    simp only [Stmt.shaped, LoopShape.shaped, Bool.and_eq_true] at h
    exact Stmt.ScansPrinted.loopGuarded (Expr.scansPrinted x h.1) (Block.scansPrinted b h.2)
  | .loop (.clauses i x q) b _, h => by
    simp only [Stmt.shaped, LoopShape.shaped, Bool.and_eq_true] at h
    obtain ⟨⟨⟨⟨⟨hi, -⟩, hx⟩, hq⟩, -⟩, hb⟩ := h
    exact Stmt.ScansPrinted.loopClauses (Stmt.scansPrintedOpt i hi) (Expr.scansPrintedOpt x hx)
      (Stmt.scansPrintedOpt q hq) (Block.scansPrinted b hb)
  | .breakLoop _, _ => Stmt.ScansPrinted.breakLoop
  | .continueLoop _, _ => Stmt.ScansPrinted.continueLoop
  | .ret vs _, h => Stmt.ScansPrinted.ret (Expr.scansPrintedAll vs h)
  | .assign ts vs _, h => by
    simp only [Stmt.shaped, Bool.and_eq_true] at h
    exact Stmt.ScansPrinted.assign (Expr.scansPrintedAll ts h.1.2) (Expr.scansPrintedAll vs h.2)
  | .define ns vs _, h => by
    simp only [Stmt.shaped, Bool.and_eq_true, List.all_eq_true] at h
    exact Stmt.ScansPrinted.define h.1.2 (Expr.scansPrintedAll vs h.2)

end

/-- The text of a shaped program scans as its tokens. -/
theorem Program.scansPrinted : ∀ p : Program, p.shaped → Scans p.render.toList p.lexes
  | [], _ => by simpa [Program.render, Program.lexes] using Scans.nil
  | s :: ss, h => by
    simp only [Program.shaped, Stmt.shapedAll, Bool.and_eq_true] at h
    have hss := Program.scansPrinted ss h.2
    have hs := (Stmt.scansPrinted s h.1 0).append hss.newline (stops_cons (by decide))
    simpa [Program.render, Program.lexes, Stmt.render_eq_renderAt h.1] using hs

end ScriptFront
