import Mathlib.Data.List.Forall2
import ScriptFront.Proofs.Grammar.Shaped
import ScriptFront.Proofs.Print.ScanPrinted
/-!
# How printed source is laid out in lines

An empty statement prints as an empty line; any other statement inside `d` blocks has lines of
`4 * d` blanks before text that does not start with a blank, a block's `{` ending the line before
its statements and its `}` starting the line after them (`Line.Fits`). `Laid d cs bs` says that
the text `cs` of a node is laid out by the bodies `bs` of its blocks, and texts side by side are
laid out by the blocks of both (`Laid.append`).
-/

set_option autoImplicit false

namespace ScriptFront

/-- A line of printed source, as the tree lays it out. -/
inductive Line where
  | blank
  | text (depth : Nat) (closes opens : Bool)
deriving Repr, DecidableEq

def Line.Fits (cs : List Char) : Line → Prop
  | .blank => cs = []
  | .text d closes opens => ∃ c rest, cs = List.replicate (4 * d) ' ' ++ c :: rest ∧ c ≠ ' ' ∧
      '\n' ∉ c :: rest ∧ (closes → c = '\x7d') ∧ (opens → (c :: rest).getLast? = some '\x7b')

def Line.closings (d : Nat) : List (List Line) → List Line
  | [] => []
  | b :: bs => b ++ Line.text d true (!bs.isEmpty) :: Line.closings d bs

def Line.frame (d : Nat) (bs : List (List Line)) : List Line :=
  Line.text d false (!bs.isEmpty) :: Line.closings d bs

def Stmt.isEmpty : Stmt → Bool
  | .empty _ => true
  | _ => false

mutual

def Expr.bodies (d : Nat) : Expr → List (List Line)
  | .name .. | .integer .. | .boolean .. => []
  | .unary _ e _ => e.bodies d
  | .binary _ l r _ => l.bodies d ++ r.bodies d
  | .func _ _ b _ => [b.lines d]

def Expr.bodiesAll (d : Nat) : List Expr → List (List Line)
  | [] => []
  | e :: es => e.bodies d ++ Expr.bodiesAll d es

def Expr.bodiesOpt (d : Nat) : Option Expr → List (List Line)
  | none => []
  | some e => e.bodies d

def Block.lines (d : Nat) : Block → List Line
  | .mk ss _ => Stmt.linesAll (d + 1) ss

def Block.bodiesOpt (d : Nat) : Option Block → List (List Line)
  | none => []
  | some b => [b.lines d]

def Stmt.bodies (d : Nat) : Stmt → List (List Line)
  | .empty _ | .breakLoop _ | .continueLoop _ => []
  | .single e _ _ => e.bodies d
  | .varDecl _ (.typed _ none) _ => []
  | .varDecl _ (.typed _ (some vs)) _ => Expr.bodiesAll d vs
  | .varDecl _ (.inferred vs) _ => Expr.bodiesAll d vs
  | .block b => [b.lines d]
  | .ifChain bs o _ => Branch.bodiesAll d bs ++ Block.bodiesOpt d o
  | .loop .forever b _ => [b.lines d]
  | .loop (.guarded c) b _ => c.bodies d ++ [b.lines d]
  | .loop (.clauses i c p) b _ =>
    Stmt.bodiesOpt d i ++ Expr.bodiesOpt d c ++ Stmt.bodiesOpt d p ++ [b.lines d]
  | .ret vs _ => Expr.bodiesAll d vs
  | .assign ts vs _ => Expr.bodiesAll d ts ++ Expr.bodiesAll d vs
  | .define _ vs _ => Expr.bodiesAll d vs

def Stmt.bodiesOpt (d : Nat) : Option Stmt → List (List Line)
  | none => []
  | some s => s.bodies d

def Stmt.linesAll (d : Nat) : List Stmt → List Line
  | [] => []
  | s :: ss => (if s.isEmpty then [.blank] else Line.frame d (s.bodies d)) ++ Stmt.linesAll d ss

def Branch.bodiesAll (d : Nat) : List Branch → List (List Line)
  | [] => []
  | .mk c b _ :: bs => c.bodies d ++ [b.lines d] ++ Branch.bodiesAll d bs

end

def Stmt.lines (d : Nat) (s : Stmt) : List Line :=
  if s.isEmpty then [.blank] else Line.frame d (s.bodies d)

def Program.lines (p : Program) : List Line := Stmt.linesAll 0 p

theorem Stmt.linesAll_cons (d : Nat) (s : Stmt) (ss : List Stmt) :
    Stmt.linesAll d (s :: ss) = s.lines d ++ Stmt.linesAll d ss := by
  simp [Stmt.linesAll, Stmt.lines]

/-! ## Texts laid out by their blocks -/

/-- The text `cs` of a node inside `d` blocks whose blocks have bodies with the lines `bs`: one
line before each block's `{`, the body's lines, and a line of `4 * d` blanks and `}`. -/
def Laid (d : Nat) : List Char → List (List Line) → Prop
  | cs, [] => '\n' ∉ cs
  | cs, b :: bs => ∃ first ls tail, '\n' ∉ first ∧ List.Forall₂ Line.Fits ls b ∧ Laid d tail bs ∧
      cs = first ++ '\x7b' :: (ls.flatMap ('\n' :: ·) ++
        '\n' :: (List.replicate (4 * d) ' ' ++ '\x7d' :: tail))

section Laid

variable {d : Nat}

@[simp] theorem laid_nil {cs : List Char} : Laid d cs [] ↔ '\n' ∉ cs := Iff.rfl

theorem Laid.append : ∀ (A : List (List Line)) {a b : List Char} {B : List (List Line)},
    Laid d a A → Laid d b B → Laid d (a ++ b) (A ++ B)
  | [], a, b, [], ha, hb => by simp_all
  | [], a, b, _ :: _, ha, hb => by
    obtain ⟨first, ls, tail, hf, hls, ht, rfl⟩ := hb
    exact ⟨a ++ first, ls, tail, by simp_all, hls, ht, by simp⟩
  | _ :: A, a, b, B, ha, hb => by
    obtain ⟨first, ls, tail, hf, hls, ht, rfl⟩ := ha
    exact ⟨first, ls, tail ++ b, hf, hls, Laid.append A ht hb, by simp⟩

theorem Laid.line_append {a b : List Char} {B : List (List Line)} (ha : '\n' ∉ a)
    (hb : Laid d b B) : Laid d (a ++ b) B := by
  simpa using Laid.append [] (laid_nil.mpr ha) hb

theorem Laid.append_line {a b : List Char} {A : List (List Line)} (ha : Laid d a A)
    (hb : '\n' ∉ b) : Laid d (a ++ b) A := by
  simpa using Laid.append A ha (laid_nil.mpr hb)

theorem Laid.lines : ∀ {bs : List (List Line)} {cs : List Char}, Laid d cs bs →
    ∃ first rest, cs = first ++ rest.flatMap ('\n' :: ·) ∧ '\n' ∉ first ∧
      (bs ≠ [] → first.getLast? = some '\x7b') ∧ List.Forall₂ Line.Fits rest (Line.closings d bs)
  | [], cs, h => ⟨cs, [], by simp, h, by simp, by simp [Line.closings]⟩
  | b :: bs, _, h => by
    obtain ⟨first, ls, tail, hf, hls, ht, rfl⟩ := h
    obtain ⟨tf, tr, rfl, htf, htl, htr⟩ := Laid.lines ht
    have hclose : Line.Fits (List.replicate (4 * d) ' ' ++ '\x7d' :: tf) (.text d true (!bs.isEmpty)) := by
      refine ⟨'\x7d', tf, rfl, by decide, by simp [htf], fun _ => rfl, fun ho => ?_⟩
      have hne : bs ≠ [] := by simpa using ho
      simp [List.getLast?_cons, htl hne]
    refine ⟨first ++ ['\x7b'], ls ++ (List.replicate (4 * d) ' ' ++ '\x7d' :: tf) :: tr, by simp, ?_,
      fun _ => by simp, ?_⟩
    · simp [hf]
    · rw [Line.closings]
      exact List.rel_append hls (List.Forall₂.cons hclose htr)

theorem Laid.intercalate {α : Type} (sep : List Char) (hsep : '\n' ∉ sep) (f : α → List Char)
    (g : α → List (List Line)) : ∀ xs : List α, (∀ x ∈ xs, Laid d (f x) (g x)) →
      Laid d (sep.intercalate (xs.map f)) (xs.flatMap g)
  | [], _ => by simp
  | [x], h => by simpa using h x (by simp)
  | x :: y :: ys, h => by
    have hx := h x (by simp)
    have hys := Laid.intercalate sep hsep f g (y :: ys) fun z hz => h z (List.mem_cons_of_mem _ hz)
    have := hx.append _ ((laid_nil.mpr hsep).append [] hys)
    simp only [List.map_cons, List.intercalate_cons_cons, List.flatMap_cons] at this ⊢
    simpa using this

theorem Laid.parenthesize (b : Bool) {text : String} {bs : List (List Line)}
    (h : Laid d text.toList bs) : Laid d (ScriptFront.parenthesize b text).toList bs := by
  cases b with
  | false => simpa [ScriptFront.parenthesize] using h
  | true =>
    have hopen : Laid d ['('] [] := laid_nil.mpr (by decide)
    have hclose : Laid d [')'] [] := laid_nil.mpr (by decide)
    have := hopen.append [] (h.append bs hclose)
    simpa [ScriptFront.parenthesize] using this

end Laid

theorem intercalate_line (sep : List Char) (hsep : '\n' ∉ sep) (xs : List (List Char))
    (h : ∀ x ∈ xs, '\n' ∉ x) : '\n' ∉ sep.intercalate xs := by
  have hl := Laid.intercalate (d := 0) sep hsep id (fun _ => []) xs fun x hx => laid_nil.mpr (h x hx)
  rwa [List.map_id, List.flatMap_eq_nil_iff.mpr fun _ _ => rfl, laid_nil] at hl

def Leads (cs : List Char) : Prop := ∃ c rest, cs = c :: rest ∧ c ≠ ' '

theorem Leads.append {a : List Char} (h : Leads a) (b : List Char) : Leads (a ++ b) := by
  obtain ⟨c, rest, rfl, hc⟩ := h
  exact ⟨c, rest ++ b, rfl, hc⟩

theorem Leads.intercalate {x : List Char} (h : Leads x) (sep : List Char) (xs : List (List Char)) :
    Leads (sep.intercalate (x :: xs)) := by
  cases xs with
  | nil => simpa using h
  | cons y ys =>
    rw [List.intercalate_cons_cons, List.append_assoc]
    exact h.append _

theorem Leads.parenthesize (b : Bool) {text : String} (h : Leads text.toList) :
    Leads (ScriptFront.parenthesize b text).toList := by
  cases b with
  | false => simpa [ScriptFront.parenthesize] using h
  | true => exact ⟨'(', text.toList ++ [')'], by simp [ScriptFront.parenthesize], by decide⟩

/-- A text laid out by its blocks that starts with no blank is its first line, which indented by
`4 * d` blanks is the first line of a statement inside `d` blocks, and then the lines of its
blocks. -/
theorem Laid.frame {d : Nat} {cs : List Char} {bs : List (List Line)} (h : Laid d cs bs)
    (hl : Leads cs) : ∃ first rest, cs = first ++ rest.flatMap ('\n' :: ·) ∧
      List.Forall₂ Line.Fits ((List.replicate (4 * d) ' ' ++ first) :: rest) (Line.frame d bs) := by
  obtain ⟨c, cs, rfl, hc⟩ := hl
  obtain ⟨first, rest, heq, hf, hop, hrest⟩ := h.lines
  have hfirst : first ≠ [] := by
    rintro rfl
    by_cases hb : bs = []
    · rw [hb, Line.closings, List.forall₂_nil_right_iff] at hrest
      simp [hrest] at heq
    · simpa using hop hb
  obtain ⟨c', r, rfl⟩ := List.exists_cons_of_ne_nil hfirst
  obtain ⟨rfl, -⟩ : c' = c ∧ _ := by simpa using heq.symm
  exact ⟨c' :: r, rest, heq,
    .cons ⟨c', r, rfl, hc, hf, by simp, fun ho => hop (by simpa using ho)⟩ hrest⟩

theorem isName_line {n : String} (h : isName n) : '\n' ∉ n.toList ∧ Leads n.toList := by
  obtain ⟨-, c, ws, hw, hc, hws⟩ := isName_word h
  have hnl : Lexeme.isWordChar '\n' = false := by decide
  refine ⟨?_, c, ws, hw, fun hs => by subst hs; simp [Lexeme.isWordStart] at hc⟩
  rw [hw]
  rintro (_ | ⟨_, hm⟩)
  · simp [Lexeme.isWordStart] at hc
  · simp [hws _ hm] at hnl

theorem Binding.renderAll_line {ns : List Binding} (h : ∀ b ∈ ns, isName b.name) :
    '\n' ∉ (Binding.renderAll ns).toList ∧ (ns ≠ [] → Leads (Binding.renderAll ns).toList) := by
  refine ⟨?_, fun hne => ?_⟩
  · have := intercalate_line ", ".toList (by decide) (ns.map fun b => b.name.toList)
      (by simpa using fun b hb => (isName_line (h b hb)).1)
    simpa [Binding.renderAll, Function.comp_def] using this
  · obtain ⟨b, bs, rfl⟩ := List.exists_cons_of_ne_nil hne
    have := Leads.intercalate (isName_line (h b (by simp))).2 ", ".toList
      (bs.map fun b => b.name.toList)
    simpa [Binding.renderAll, Function.comp_def] using this

theorem resultsText_line (rs : List String) (h : ∀ r ∈ rs, '\n' ∉ r.toList) :
    '\n' ∉ (resultsText rs).toList := by
  have hl := intercalate_line ", ".toList (by decide) (rs.map String.toList)
    (by simpa using h)
  match rs with
  | [] => simp [resultsText]
  | [r] => simpa [resultsText] using h r (by simp)
  | _ :: _ :: _ => simpa [resultsText] using hl

mutual

theorem Ty.render_line : ∀ t : Ty, '\n' ∉ t.render.toList
  | .basic .int => by decide
  | .basic .bool => by decide
  | .func ps rs => by
    have hps := intercalate_line ", ".toList (by decide) (ps.map fun t => t.render.toList)
      (by simpa using Ty.render_lineAll ps)
    have hrs := resultsText_line (rs.map Ty.render) (by simpa using Ty.render_lineAll rs)
    simp only [Ty.render, Ty.renderAll_eq_map, String.toList_append, String.toList_intercalate,
      List.mem_append, not_or]
    exact ⟨⟨⟨by decide, by simpa [Function.comp_def] using hps⟩, by decide⟩, hrs⟩

theorem Ty.render_lineAll : ∀ ts : List Ty, ∀ t ∈ ts, '\n' ∉ t.render.toList
  | [] => by simp
  | t :: ts => by
    have ht := Ty.render_line t
    have hts := Ty.render_lineAll ts
    intro u hu
    rcases List.mem_cons.mp hu with rfl | hu
    · exact ht
    · exact hts u hu

end

/-! ## Expressions and blocks -/

def Expr.LaysOut (x : Expr) : Prop :=
  ∀ d, Laid d (x.renderAt d).toList (x.bodies d) ∧ Leads (x.renderAt d).toList

def Block.LaysOut (b : Block) : Prop := ∀ d, Laid d (b.renderAt d).toList [b.lines d]

def Stmt.LaysOut (s : Stmt) : Prop :=
  ∀ d, Laid d (s.renderAt d).toList (s.bodies d) ∧ (s.isEmpty ∨ Leads (s.renderAt d).toList)

theorem Param.render_line {q : Param} (hn : isName q.name) : '\n' ∉ q.render.toList := by
  simp [Param.render, (isName_line hn).1, Ty.render_line q.ty]

namespace Expr.LaysOut

attribute [local simp] Expr.renderAt Expr.bodies

variable {p : Position}

theorem name {n : String} (hn : isName n) : (Expr.name n p).LaysOut := fun _ => by
  simpa using isName_line hn

theorem integer {v : Int} (hv : 0 ≤ v) : (Expr.integer v p).LaysOut := fun _ => by
  obtain ⟨m, rfl⟩ := Int.eq_ofNat_of_zero_le hv
  have hd : ∀ c ∈ Nat.toDigits 10 m, c.isDigit :=
    fun c hc => Nat.isDigit_of_mem_toDigits (by decide) (by decide) hc
  obtain ⟨c, cs, hcs⟩ := List.exists_cons_of_ne_nil (Nat.toDigits_ne_nil (b := 10) (n := m))
  refine ⟨?_, c, cs, by simpa using hcs, ?_⟩
  · simpa using fun hn => absurd (hd '\n' hn) (by decide)
  · rintro rfl
    exact absurd (hd ' ' (by simp [hcs])) (by decide)

theorem boolean {b : Bool} : (Expr.boolean b p).LaysOut := fun _ => by
  cases b
  · exact ⟨by simp, 'f', "alse".toList, by simp, by decide⟩
  · exact ⟨by simp, 't', "rue".toList, by simp, by decide⟩

theorem unary {op : UnaryOp} {e : Expr} (he : e.LaysOut) : (Expr.unary op e p).LaysOut := fun d => by
  obtain ⟨hl, -⟩ := he d
  have hs : '\n' ∉ op.symbol.toList ∧ Leads op.symbol.toList := by
    cases op
    · exact ⟨by decide, _, _, rfl, by decide⟩
    · exact ⟨by decide, _, _, rfl, by decide⟩
  have h := Laid.line_append hs.1 (hl.parenthesize (decide (e.precedence < UnaryOp.precedence)))
  exact ⟨by simpa using h, by simpa using hs.2.append _⟩

theorem binary {op : BinaryOp} {l r : Expr} (hl : l.LaysOut) (hr : r.LaysOut) :
    (Expr.binary op l r p).LaysOut := fun d => by
  obtain ⟨hll, hlh⟩ := hl d
  obtain ⟨hrl, -⟩ := hr d
  have hop : '\n' ∉ (" " ++ op.symbol ++ " ").toList := by cases op <;> decide
  have h := (hll.parenthesize (decide (l.precedence < op.precedence))).append _
    (Laid.line_append hop (hrl.parenthesize (decide (r.precedence < op.precedence + 1))))
  exact ⟨by simpa using h, by simpa using (hlh.parenthesize _).append _⟩

theorem func {ps : List Param} {rs : List Ty} {b : Block} (hn : ∀ q ∈ ps, isName q.name)
    (hb : b.LaysOut) : (Expr.func ps rs b p).LaysOut := fun d => by
  have hps := intercalate_line ", ".toList (by decide) (ps.map fun q => q.render.toList)
    (by simpa using fun q hq => Param.render_line (hn q hq))
  have hrs := resultsText_line (rs.map Ty.render) (by simpa using Ty.render_lineAll rs)
  have hhead : '\n' ∉ ("func(" ++ ", ".intercalate (ps.map Param.render) ++ ")" ++
      resultsText (rs.map Ty.render) ++ " ").toList := by
    simp only [String.toList_append, String.toList_intercalate, List.mem_append, not_or]
    exact ⟨⟨⟨⟨by decide, by simpa [Function.comp_def] using hps⟩, by decide⟩, hrs⟩, by decide⟩
  have h := Laid.line_append hhead (hb d)
  have hf : Leads "func(".toList := ⟨'f', _, rfl, by decide⟩
  exact ⟨by simpa using h, by simpa using hf.append _⟩

end Expr.LaysOut

theorem Expr.bodiesAll_eq_flatMap (d : Nat) (xs : List Expr) :
    Expr.bodiesAll d xs = xs.flatMap (Expr.bodies d) := by
  induction xs with
  | nil => rfl
  | cons x xs ih => simp [Expr.bodiesAll, ih]

theorem Expr.laidAll (d : Nat) {xs : List Expr} (h : ∀ x ∈ xs, x.LaysOut) :
    Laid d (", ".intercalate (Expr.renderAllAt d xs)).toList (Expr.bodiesAll d xs) := by
  have := Laid.intercalate (d := d) ", ".toList (by decide) (fun x : Expr => (x.renderAt d).toList)
    (Expr.bodies d) xs fun x hx => (h x hx d).1
  simpa [Expr.renderAllAt_eq_map, Expr.bodiesAll_eq_flatMap, Function.comp_def] using this

theorem Expr.leadsAll (d : Nat) {xs : List Expr} (h : ∀ x ∈ xs, x.LaysOut) (hne : xs ≠ []) :
    Leads (", ".intercalate (Expr.renderAllAt d xs)).toList := by
  obtain ⟨x, xs, rfl⟩ := List.exists_cons_of_ne_nil hne
  have := Leads.intercalate (h x (by simp) d).2 ", ".toList (xs.map fun y => (y.renderAt d).toList)
  simpa [Expr.renderAllAt_eq_map, Function.comp_def] using this

theorem Stmt.renderAt_of_isEmpty {s : Stmt} (h : s.isEmpty) (d : Nat) : s.renderAt d = "" := by
  cases s <;> simp_all [Stmt.isEmpty, Stmt.renderAt]

theorem Stmt.LaysOut.lines {s : Stmt} (h : s.LaysOut) (d : Nat) : ∃ first rest,
    (if (s.renderAt d).isEmpty then "" else indent d ++ s.renderAt d).toList =
      first ++ rest.flatMap ('\n' :: ·) ∧ List.Forall₂ Line.Fits (first :: rest) (s.lines d) := by
  obtain ⟨hl, hs⟩ := h d
  by_cases he : s.isEmpty
  · exact ⟨[], [], by simp [Stmt.renderAt_of_isEmpty he], by simp [Stmt.lines, he, Line.Fits]⟩
  have hlead := hs.resolve_left he
  obtain ⟨first, rest, heq, hfits⟩ := hl.frame hlead
  have hne : s.renderAt d ≠ "" := by
    obtain ⟨c, cs, hcs, -⟩ := hlead
    exact fun h0 => by simp [h0] at hcs
  refine ⟨List.replicate (4 * d) ' ' ++ first, rest, by simp [hne, indent, heq], ?_⟩
  rwa [Stmt.lines, if_neg he]

theorem Stmt.blockLines_laid (d : Nat) : ∀ ss : List Stmt, (∀ s ∈ ss, s.LaysOut) →
    ∃ ls, (String.join (Stmt.blockLines d ss)).toList = ls.flatMap ('\n' :: ·) ∧
      List.Forall₂ Line.Fits ls (Stmt.linesAll d ss)
  | [], _ => ⟨[], by simp [Stmt.blockLines], by simp [Stmt.linesAll]⟩
  | s :: ss, h => by
    obtain ⟨first, rest, hs, hsf⟩ := (h s (by simp)).lines d
    obtain ⟨ls, hls, hlsf⟩ := Stmt.blockLines_laid d ss fun t ht => h t (List.mem_cons_of_mem _ ht)
    refine ⟨first :: rest ++ ls, ?_, ?_⟩
    · have : (blockLine d (s.renderAt d)).toList = '\n' :: (first ++ rest.flatMap ('\n' :: ·)) := by
        rw [← hs]
        simp [blockLine]
      simp [Stmt.blockLines, this, hls]
    · rw [Stmt.linesAll_cons]
      exact List.rel_append hsf hlsf

theorem Block.LaysOut.of_lines {ss : List Stmt} {p : Position} (h : ∀ s ∈ ss, s.LaysOut) :
    (Block.mk ss p).LaysOut := fun d => by
  obtain ⟨ls, hls, hlsf⟩ := Stmt.blockLines_laid (d + 1) ss h
  exact ⟨[], ls, [], by simp, hlsf, by simp, by simp [Block.renderAt, hls, indent]⟩

/-! ## Statements -/

theorem Branch.laidChain (d : Nat) : ∀ bs : List Branch,
    (∀ c b q, Branch.mk c b q ∈ bs → c.LaysOut ∧ b.LaysOut) →
    Laid d (" else ".intercalate (Branch.renderAllAt d bs)).toList (Branch.bodiesAll d bs)
  | [], _ => by simp [Branch.renderAllAt, Branch.bodiesAll]
  | .mk c b q :: bs, h => by
    obtain ⟨hc, hb⟩ := h c b q (by simp)
    have hbr := Laid.line_append (a := "if ".toList) (by decide)
      ((hc d).1.append _ (Laid.line_append (a := " ".toList) (by decide) (hb d)))
    cases bs with
    | nil => simpa [Branch.renderAllAt, Branch.bodiesAll] using hbr
    | cons br bs =>
      have hrest := Branch.laidChain d (br :: bs) fun c b q hm => h c b q (List.mem_cons_of_mem _ hm)
      have hne : Branch.renderAllAt d (br :: bs) ≠ [] := by cases br; simp [Branch.renderAllAt]
      have := hbr.append _ (Laid.line_append (a := " else ".toList) (by decide) hrest)
      rw [Branch.renderAllAt, Branch.bodiesAll, String.intercalate_cons_of_ne_nil hne]
      simpa using this

theorem Branch.leadsChain (d : Nat) {bs : List Branch} (hne : bs ≠ []) :
    Leads (" else ".intercalate (Branch.renderAllAt d bs)).toList := by
  obtain ⟨br, bs, rfl⟩ := List.exists_cons_of_ne_nil hne
  have hi : Leads "if ".toList := ⟨'i', _, rfl, by decide⟩
  cases br with
  | mk c b q =>
    cases bs with
    | nil => simpa [Branch.renderAllAt] using hi.append _
    | cons br bs =>
      have hne' : Branch.renderAllAt d (br :: bs) ≠ [] := by cases br; simp [Branch.renderAllAt]
      rw [Branch.renderAllAt, String.intercalate_cons_of_ne_nil hne']
      simpa using hi.append _

theorem Block.laidElse (d : Nat) : ∀ o : Option Block, (∀ b ∈ o, b.LaysOut) →
    Laid d (Block.renderElseAt d o).toList (Block.bodiesOpt d o)
  | none, _ => by simp [Block.renderElseAt, Block.bodiesOpt]
  | some b, h => by
    have := Laid.line_append (a := " else ".toList) (by decide) (h b rfl d)
    simpa [Block.renderElseAt, Block.bodiesOpt] using this

theorem Expr.laidOpt (d : Nat) : ∀ o : Option Expr, (∀ x ∈ o, x.LaysOut) →
    Laid d (Expr.renderOptAt d o).toList (Expr.bodiesOpt d o)
  | none, _ => by simp [Expr.renderOptAt, Expr.bodiesOpt]
  | some x, h => by simpa [Expr.renderOptAt, Expr.bodiesOpt] using (h x rfl d).1

theorem Stmt.laidOpt (d : Nat) : ∀ o : Option Stmt, (∀ s ∈ o, s.LaysOut) →
    Laid d (Stmt.renderOptAt d o).toList (Stmt.bodiesOpt d o)
  | none, _ => by simp [Stmt.renderOptAt, Stmt.bodiesOpt]
  | some s, h => by simpa [Stmt.renderOptAt, Stmt.bodiesOpt] using (h s rfl d).1

theorem Stmt.laidPost (d : Nat) : ∀ o : Option Stmt, (∀ s ∈ o, s.LaysOut) →
    Laid d (Stmt.renderPostAt d o).toList (Stmt.bodiesOpt d o)
  | none, _ => by simp [Stmt.renderPostAt, Stmt.bodiesOpt]
  | some s, h => by
    simpa [Stmt.renderPostAt, Stmt.bodiesOpt] using (h s rfl d).1.append_line (b := [' ']) (by decide)

namespace Stmt.LaysOut

attribute [local simp] Stmt.renderAt Stmt.bodies

variable {p : Position}

theorem empty : (Stmt.empty p).LaysOut := fun _ => ⟨by simp, .inl rfl⟩

theorem single {e : Expr} {semi : Bool} (he : e.LaysOut) : (Stmt.single e semi p).LaysOut := fun d => by
  obtain ⟨hl, hh⟩ := he d
  cases semi
  · exact ⟨by simpa using hl, .inr (by simpa using hh)⟩
  · exact ⟨by simpa using hl.append_line (b := [';']) (by decide), .inr (by simpa using hh.append _)⟩

theorem varTyped {ns : List Binding} {t : Ty} (hn : ∀ b ∈ ns, isName b.name) :
    (Stmt.varDecl ns (.typed t none) p).LaysOut := fun _ => by
  have hv : Leads "var ".toList := ⟨'v', _, rfl, by decide⟩
  exact ⟨by simp [(Binding.renderAll_line hn).1, Ty.render_line t], .inr (by simpa using hv.append _)⟩

theorem varTypedValues {ns : List Binding} {t : Ty} {vs : List Expr} (hn : ∀ b ∈ ns, isName b.name)
    (hvs : ∀ x ∈ vs, x.LaysOut) : (Stmt.varDecl ns (.typed t (some vs)) p).LaysOut := fun d => by
  have hhead : '\n' ∉ ("var " ++ Binding.renderAll ns ++ " " ++ t.render ++ " = ").toList := by
    simp [(Binding.renderAll_line hn).1, Ty.render_line t]
  have hv : Leads "var ".toList := ⟨'v', _, rfl, by decide⟩
  exact ⟨by simpa using Laid.line_append hhead (Expr.laidAll d hvs), .inr (by simpa using hv.append _)⟩

theorem varInferred {ns : List Binding} {vs : List Expr} (hn : ∀ b ∈ ns, isName b.name)
    (hvs : ∀ x ∈ vs, x.LaysOut) : (Stmt.varDecl ns (.inferred vs) p).LaysOut := fun d => by
  have hhead : '\n' ∉ ("var " ++ Binding.renderAll ns ++ " = ").toList := by
    simp [(Binding.renderAll_line hn).1]
  have hv : Leads "var ".toList := ⟨'v', _, rfl, by decide⟩
  exact ⟨by simpa using Laid.line_append hhead (Expr.laidAll d hvs), .inr (by simpa using hv.append _)⟩

theorem block {b : Block} (hb : b.LaysOut) : (Stmt.block b).LaysOut := fun d => by
  have hc : Leads "\x7b".toList := ⟨_, _, rfl, by decide⟩
  cases b with
  | mk ss q => exact ⟨by simpa using hb d, .inr (by simpa [Block.renderAt] using hc.append _)⟩

theorem ifChain {bs : List Branch} {o : Option Block}
    (hbs : ∀ c b q, Branch.mk c b q ∈ bs → c.LaysOut ∧ b.LaysOut) (ho : ∀ b ∈ o, b.LaysOut)
    (hne : bs ≠ []) : (Stmt.ifChain bs o p).LaysOut := fun d =>
  ⟨by simpa using (Branch.laidChain d bs hbs).append _ (Block.laidElse d o ho),
    .inr (by simpa using (Branch.leadsChain d hne).append _)⟩

theorem loopForever {b : Block} (hb : b.LaysOut) : (Stmt.loop .forever b p).LaysOut := fun d => by
  have hf : Leads "for ".toList := ⟨'f', _, rfl, by decide⟩
  exact ⟨by simpa using Laid.line_append (a := "for ".toList) (by decide) (hb d),
    .inr (by simpa using hf.append _)⟩

theorem loopGuarded {c : Expr} {b : Block} (hc : c.LaysOut) (hb : b.LaysOut) :
    (Stmt.loop (.guarded c) b p).LaysOut := fun d => by
  have hf : Leads "for ".toList := ⟨'f', _, rfl, by decide⟩
  have h := Laid.line_append (a := "for ".toList) (by decide)
    ((hc d).1.append _ (Laid.line_append (a := " ".toList) (by decide) (hb d)))
  exact ⟨by simpa using h, .inr (by simpa using hf.append _)⟩

theorem loopClauses {i : Option Stmt} {c : Option Expr} {q : Option Stmt} {b : Block}
    (hi : ∀ s ∈ i, s.LaysOut) (hc : ∀ x ∈ c, x.LaysOut) (hq : ∀ s ∈ q, s.LaysOut)
    (hb : b.LaysOut) : (Stmt.loop (.clauses i c q) b p).LaysOut := fun d => by
  have hf : Leads "for ".toList := ⟨'f', _, rfl, by decide⟩
  have hpost := (Stmt.laidPost d q hq).append _ (hb d)
  have hcond := (Expr.laidOpt d c hc).append _ (Laid.line_append (a := "; ".toList) (by decide) hpost)
  have hinit := (Stmt.laidOpt d i hi).append _ (Laid.line_append (a := "; ".toList) (by decide) hcond)
  have h := Laid.line_append (a := "for ".toList) (by decide) hinit
  exact ⟨by simpa using h, .inr (by simpa using hf.append _)⟩

theorem breakLoop : (Stmt.breakLoop p).LaysOut := fun _ =>
  ⟨by simp, .inr ⟨'b', "reak".toList, by simp, by decide⟩⟩

theorem continueLoop : (Stmt.continueLoop p).LaysOut := fun _ =>
  ⟨by simp, .inr ⟨'c', "ontinue".toList, by simp, by decide⟩⟩

theorem ret {vs : List Expr} (hvs : ∀ x ∈ vs, x.LaysOut) : (Stmt.ret vs p).LaysOut := fun d => by
  cases vs with
  | nil => exact ⟨by simp [Expr.bodiesAll], .inr ⟨'r', "eturn".toList, by simp, by decide⟩⟩
  | cons v vs =>
    have hr : Leads "return ".toList := ⟨'r', _, rfl, by decide⟩
    have h := Laid.line_append (a := "return ".toList) (by decide) (Expr.laidAll d hvs)
    exact ⟨by simpa using h, .inr (by simpa using hr.append _)⟩

theorem assign {ts vs : List Expr} (hts : ∀ x ∈ ts, x.LaysOut) (hvs : ∀ x ∈ vs, x.LaysOut)
    (hne : ts ≠ []) : (Stmt.assign ts vs p).LaysOut := fun d => by
  have h := (Expr.laidAll d hts).append _
    (Laid.line_append (a := " = ".toList) (by decide) (Expr.laidAll d hvs))
  exact ⟨by simpa using h, .inr (by simpa using (Expr.leadsAll d hts hne).append _)⟩

theorem define {ns : List Binding} {vs : List Expr} (hn : ∀ b ∈ ns, isName b.name)
    (hne : ns ≠ []) (hvs : ∀ x ∈ vs, x.LaysOut) : (Stmt.define ns vs p).LaysOut := fun d => by
  have hhead : '\n' ∉ (Binding.renderAll ns ++ " := ").toList := by
    simp [(Binding.renderAll_line hn).1]
  exact ⟨by simpa using Laid.line_append hhead (Expr.laidAll d hvs),
    .inr (by simpa using ((Binding.renderAll_line hn).2 hne).append _)⟩

end Stmt.LaysOut

/-! Every shaped tree prints as text laid out by its blocks, by recursion on the tree. -/

mutual

theorem Expr.laysOut : ∀ x : Expr, x.shaped → x.LaysOut
  | .name .., h => Expr.LaysOut.name (by simpa [Expr.shaped] using h)
  | .integer .., h => Expr.LaysOut.integer (by simp_all [Expr.shaped])
  | .boolean .., _ => Expr.LaysOut.boolean
  | .unary _ e _, h => by
    have he : e.LaysOut := Expr.laysOut e (by simp_all [Expr.shaped])
    exact Expr.LaysOut.unary he
  | .binary _ l r _, h => by
    simp only [Expr.shaped, Bool.and_eq_true] at h
    have hl : l.LaysOut := Expr.laysOut l h.1.2
    have hr : r.LaysOut := Expr.laysOut r h.2
    exact Expr.LaysOut.binary hl hr
  | .func _ _ b _, h => by
    simp only [Expr.shaped, Bool.and_eq_true, List.all_eq_true] at h
    have hb : b.LaysOut := Block.laysOut b h.2
    exact Expr.LaysOut.func h.1 hb

theorem Expr.laysOutAll : ∀ xs : List Expr, Expr.shapedAll xs → ∀ x ∈ xs, x.LaysOut
  | [], _ => by simp
  | x :: xs, h => by
    simp only [Expr.shapedAll, Bool.and_eq_true] at h
    have hx : x.LaysOut := Expr.laysOut x h.1
    have hxs := Expr.laysOutAll xs h.2
    intro y hy
    rcases List.mem_cons.mp hy with rfl | hy
    · exact hx
    · exact hxs y hy

theorem Expr.laysOutOpt : ∀ o : Option Expr, Expr.shapedOpt o → ∀ x ∈ o, x.LaysOut
  | none, _ => by simp
  | some x, h => by
    have hx : x.LaysOut := Expr.laysOut x h
    intro y hy
    obtain rfl := Option.mem_some_iff.mp hy
    exact hx

theorem Block.laysOut : ∀ b : Block, b.shaped → b.LaysOut
  | .mk ss _, h => Block.LaysOut.of_lines (Stmt.laysOutAll ss h)

theorem Block.laysOutOpt : ∀ o : Option Block, Block.shapedOpt o → ∀ b ∈ o, b.LaysOut
  | none, _ => by simp
  | some b, h => by
    have hb : b.LaysOut := Block.laysOut b h
    intro b' hb'
    obtain rfl := Option.mem_some_iff.mp hb'
    exact hb

theorem Stmt.laysOutAll : ∀ ss : List Stmt, Stmt.shapedAll ss → ∀ s ∈ ss, s.LaysOut
  | [], _ => by simp
  | s :: ss, h => by
    simp only [Stmt.shapedAll, Bool.and_eq_true] at h
    have hs : s.LaysOut := Stmt.laysOut s h.1
    have hss := Stmt.laysOutAll ss h.2
    intro t ht
    rcases List.mem_cons.mp ht with rfl | ht
    · exact hs
    · exact hss t ht

theorem Stmt.laysOutOpt : ∀ o : Option Stmt, Stmt.shapedOpt o → ∀ s ∈ o, s.LaysOut
  | none, _ => by simp
  | some s, h => by
    have hs : s.LaysOut := Stmt.laysOut s h
    intro t ht
    obtain rfl := Option.mem_some_iff.mp ht
    exact hs

theorem Branch.laysOutAll : ∀ bs : List Branch, Branch.shapedAll bs →
    ∀ x b q, Branch.mk x b q ∈ bs → x.LaysOut ∧ b.LaysOut
  | [], _ => by simp
  | .mk x b q :: bs, h => by
    simp only [Branch.shapedAll, Bool.and_eq_true] at h
    have hx : x.LaysOut := Expr.laysOut x h.1.1
    have hb : b.LaysOut := Block.laysOut b h.1.2
    have hbs := Branch.laysOutAll bs h.2
    intro y c r hy
    rcases List.mem_cons.mp hy with hy | hy
    · cases hy
      exact ⟨hx, hb⟩
    · exact hbs y c r hy

theorem Stmt.laysOut : ∀ s : Stmt, s.shaped → s.LaysOut
  | .empty _, _ => Stmt.LaysOut.empty
  | .single e _ _, h => Stmt.LaysOut.single (Expr.laysOut e h)
  | .varDecl ns (.typed t none) _, h => by
    simp only [Stmt.shaped, Bool.and_eq_true, List.all_eq_true] at h
    exact Stmt.LaysOut.varTyped h.1.2
  | .varDecl ns (.typed t (some vs)) _, h => by
    simp only [Stmt.shaped, VarSpec.shaped, Bool.and_eq_true, List.all_eq_true] at h
    exact Stmt.LaysOut.varTypedValues h.1.2 (Expr.laysOutAll vs h.2.2)
  | .varDecl ns (.inferred vs) _, h => by
    simp only [Stmt.shaped, VarSpec.shaped, Bool.and_eq_true, List.all_eq_true] at h
    exact Stmt.LaysOut.varInferred h.1.2 (Expr.laysOutAll vs h.2.2)
  | .block b, h => Stmt.LaysOut.block (Block.laysOut b h)
  | .ifChain bs o _, h => by
    simp only [Stmt.shaped, Bool.and_eq_true, Bool.not_eq_true', List.isEmpty_eq_false_iff] at h
    exact Stmt.LaysOut.ifChain (Branch.laysOutAll bs h.1.2) (Block.laysOutOpt o h.2) h.1.1
  | .loop .forever b _, h =>
    Stmt.LaysOut.loopForever (Block.laysOut b (by simpa [Stmt.shaped, LoopShape.shaped] using h))
  | .loop (.guarded x) b _, h => by
    simp only [Stmt.shaped, LoopShape.shaped, Bool.and_eq_true] at h
    exact Stmt.LaysOut.loopGuarded (Expr.laysOut x h.1) (Block.laysOut b h.2)
  | .loop (.clauses i x q) b _, h => by
    simp only [Stmt.shaped, LoopShape.shaped, Bool.and_eq_true] at h
    obtain ⟨⟨⟨⟨⟨hi, -⟩, hx⟩, hq⟩, -⟩, hb⟩ := h
    exact Stmt.LaysOut.loopClauses (Stmt.laysOutOpt i hi) (Expr.laysOutOpt x hx)
      (Stmt.laysOutOpt q hq) (Block.laysOut b hb)
  | .breakLoop _, _ => Stmt.LaysOut.breakLoop
  | .continueLoop _, _ => Stmt.LaysOut.continueLoop
  | .ret vs _, h => Stmt.LaysOut.ret (Expr.laysOutAll vs h)
  | .assign ts vs _, h => by
    simp only [Stmt.shaped, Bool.and_eq_true, Bool.not_eq_true', List.isEmpty_eq_false_iff] at h
    exact Stmt.LaysOut.assign (Expr.laysOutAll ts h.1.2) (Expr.laysOutAll vs h.2) h.1.1.1
  | .define ns vs _, h => by
    simp only [Stmt.shaped, Bool.and_eq_true, Bool.not_eq_true', List.isEmpty_eq_false_iff,
      List.all_eq_true] at h
    exact Stmt.LaysOut.define h.1.2 h.1.1.1 (Expr.laysOutAll vs h.2)

end

/-! ## Programs -/

theorem lines_append_newline (first : List Char) (rest : List (List Char)) :
    first ++ rest.flatMap ('\n' :: ·) ++ ['\n'] = (first :: rest).flatMap (· ++ ['\n']) := by
  induction rest generalizing first with
  | nil => simp
  | cons l ls ih =>
    conv_rhs => rw [List.flatMap_cons, ← ih l]
    simp

/-- The text of a program is the lines of its statements, each followed by a line feed. -/
theorem Program.render_lines : ∀ p : Program, (∀ s ∈ p, s.shaped) →
    ∃ ls : List (List Char), p.render.toList = ls.flatMap (· ++ ['\n']) ∧
      List.Forall₂ Line.Fits ls p.lines
  | [], _ => ⟨[], by simp [Program.render], by simp [Program.lines, Stmt.linesAll]⟩
  | s :: ss, h => by
    obtain ⟨first, rest, hs, hsf⟩ := (Stmt.laysOut s (h s List.mem_cons_self)).lines 0
    obtain ⟨ls, hls, hlsf⟩ := Program.render_lines ss fun t ht => h t (List.mem_cons_of_mem _ ht)
    have htext : s.render.toList = first ++ rest.flatMap ('\n' :: ·) := by
      rw [← hs, Stmt.render_eq_renderAt (h s List.mem_cons_self)]
      by_cases h0 : s.renderAt 0 = "" <;> simp [h0, indent]
    refine ⟨first :: rest ++ ls, ?_, ?_⟩
    · have hrender : (Program.render (s :: ss)).toList = s.render.toList ++ ['\n'] ++
          (Program.render ss).toList := by
        simp [Program.render]
      rw [hrender, htext, lines_append_newline, hls, List.flatMap_append]
    · rw [Program.lines, Stmt.linesAll_cons]
      exact List.rel_append hsf hlsf

/-- The printed source of a program is, line by line, what its tree lays out: empty statements
are empty lines and every other line is `4 * d` blanks before a character that is not one. -/
theorem printed_lines_indented {source file : String} {ts : List Token} {p : Program}
    (hts : tokenize source file = .ok ts) (hp : Program.ofTokens ts = .ok p) :
    ∃ lines : List String, p.render = String.join (lines.map (· ++ "\n")) ∧
      List.Forall₂ (fun l x => Line.Fits l.toList x) lines p.lines := by
  have hshaped : p.shaped :=
    Program.readAll_shaped hp (Cursor.scannedAhead_ofTokens (scanFrom_scanned _ _ ts hts))
  obtain ⟨ls, hls, hfits⟩ := Program.render_lines p ((Stmt.shapedAll_iff p).mp hshaped)
  refine ⟨ls.map String.ofList, ?_, by simpa [List.forall₂_map_left_iff] using hfits⟩
  rw [← String.toList_inj, hls]
  simp [Function.comp_def, List.flatMap_map]

theorem printed_lines_indented_nested :
    ∃ ts p, tokenize "f := func(a int) int \x7b\n\nreturn a \x7d\nfor \x7b if a \x7b \x7d \x7d\n"
        "f" = .ok ts ∧
      Program.ofTokens ts = .ok p ∧ ∃ lines : List String,
        p.render = String.join (lines.map (· ++ "\n")) ∧
        List.Forall₂ (fun l x => Line.Fits l.toList x) lines p.lines := by
  obtain ⟨p, hp⟩ := Except.exists_of_toBool (x := Program.ofSource
    "f := func(a int) int \x7b\n\nreturn a \x7d\nfor \x7b if a \x7b \x7d \x7d\n" "f") (by decide +kernel)
  obtain ⟨ts, hts, hp⟩ := Except.bind_eq_ok.mp hp
  exact ⟨ts, p, hts, hp, printed_lines_indented hts hp⟩

end ScriptFront
