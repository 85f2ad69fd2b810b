import Mathlib.Data.List.Forall2
import ScriptFront.Proofs.Print.ScanText
/-!
# Printing with the depth passed down

The printer writes a block by cutting the text of each of its statements at its line feeds and
putting four spaces before every piece that is not empty (`Block.render`). A printer that passes
down how many blocks a statement stands in and writes each line once with its indentation
(`Stmt.renderAt`) gives the same text: `Stmt.render_eq_renderAt` says that the two agree on every
shaped tree, and `Program.render_eq` that a shaped program prints as its statements at depth 0.

Moving a text into one more block puts four spaces before each of its later lines that is not
empty (`shiftLines false`); `Shifts u v` says that this turns `u` into `v`. At every depth the
text of a shaped tree moves into the text one block deeper, by recursion on the tree.
-/

set_option autoImplicit false

namespace ScriptFront

def indent (d : Nat) : String := String.ofList (List.replicate (4 * d) ' ')

def blockLine (d : Nat) (text : String) : String :=
  "\n" ++ (if text.isEmpty then "" else indent d ++ text)

mutual

/-- An expression as source, where lines that it breaks stand inside `d` blocks. -/
def Expr.renderAt (d : Nat) : Expr → String
  | .name n _ => n
  | .integer v _ => toString v
  | .boolean b _ => if b then "true" else "false"
  | .unary op e _ =>
    op.symbol ++ parenthesize (decide (e.precedence < UnaryOp.precedence)) (e.renderAt d)
  | .binary op l r _ =>
    parenthesize (decide (l.precedence < op.precedence)) (l.renderAt d) ++ " " ++ op.symbol ++
      " " ++ parenthesize (decide (r.precedence < op.precedence + 1)) (r.renderAt d)
  | .func ps rs b _ =>
    "func(" ++ ", ".intercalate (ps.map Param.render) ++ ")" ++ resultsText (rs.map Ty.render) ++
      " " ++ b.renderAt d

def Expr.renderAllAt (d : Nat) : List Expr → List String
  | [] => []
  | e :: es => e.renderAt d :: Expr.renderAllAt d es

def Expr.renderOptAt (d : Nat) : Option Expr → String
  | none => ""
  | some e => e.renderAt d

def Block.renderAt (d : Nat) : Block → String
  | .mk ss _ => "\x7b" ++ String.join (Stmt.blockLines (d + 1) ss) ++ "\n" ++ indent d ++ "\x7d"

def Block.renderElseAt (d : Nat) : Option Block → String
  | none => ""
  | some b => " else " ++ b.renderAt d

def Stmt.renderAt (d : Nat) : Stmt → String
  | .empty _ => ""
  | .single e semi _ => e.renderAt d ++ (if semi then ";" else "")
  | .varDecl ns (.typed t none) _ => "var " ++ Binding.renderAll ns ++ " " ++ t.render
  | .varDecl ns (.typed t (some vs)) _ =>
    "var " ++ Binding.renderAll ns ++ " " ++ t.render ++ " = " ++
      ", ".intercalate (Expr.renderAllAt d vs)
  | .varDecl ns (.inferred vs) _ =>
    "var " ++ Binding.renderAll ns ++ " = " ++ ", ".intercalate (Expr.renderAllAt d vs)
  | .block b => b.renderAt d
  | .ifChain bs o _ => " else ".intercalate (Branch.renderAllAt d bs) ++ Block.renderElseAt d o
  | .loop .forever b _ => "for " ++ b.renderAt d
  | .loop (.guarded c) b _ => "for " ++ c.renderAt d ++ " " ++ b.renderAt d
  | .loop (.clauses i c p) b _ =>
    "for " ++ Stmt.renderOptAt d i ++ "; " ++ Expr.renderOptAt d c ++ "; " ++
      Stmt.renderPostAt d p ++ b.renderAt d
  | .breakLoop _ => "break"
  | .continueLoop _ => "continue"
  | .ret [] _ => "return"
  | .ret (v :: vs) _ => "return " ++ ", ".intercalate (Expr.renderAllAt d (v :: vs))
  | .assign ts vs _ =>
    ", ".intercalate (Expr.renderAllAt d ts) ++ " = " ++ ", ".intercalate (Expr.renderAllAt d vs)
  | .define ns vs _ =>
    Binding.renderAll ns ++ " := " ++ ", ".intercalate (Expr.renderAllAt d vs)

def Stmt.blockLines (d : Nat) : List Stmt → List String
  | [] => []
  | s :: ss => blockLine d (s.renderAt d) :: Stmt.blockLines d ss

def Stmt.renderOptAt (d : Nat) : Option Stmt → String
  | none => ""
  | some s => s.renderAt d

def Stmt.renderPostAt (d : Nat) : Option Stmt → String
  | none => ""
  | some s => s.renderAt d ++ " "

def Branch.renderAllAt (d : Nat) : List Branch → List String
  | [] => []
  | .mk c b _ :: bs => ("if " ++ c.renderAt d ++ " " ++ b.renderAt d) :: Branch.renderAllAt d bs

end

theorem Expr.renderAllAt_eq_map (d : Nat) (xs : List Expr) :
    Expr.renderAllAt d xs = xs.map (Expr.renderAt d) := by
  induction xs with
  | nil => rfl
  | cons x xs ih => simp [Expr.renderAllAt, ih]

theorem Expr.renderAll_eq_map (xs : List Expr) : Expr.renderAll xs = xs.map Expr.render := by
  induction xs with
  | nil => rfl
  | cons x xs ih => simp [Expr.renderAll, ih]

/-! ## Moving a text into one more block -/

def shiftLines (fresh : Bool) : List Char → List Char
  | [] => []
  | c :: cs =>
    if c = '\n' then '\n' :: shiftLines true cs
    else (if fresh then List.replicate 4 ' ' else []) ++ c :: shiftLines false cs

section Shift

variable {u : List Char}

@[simp] theorem shiftLines_nil (b : Bool) : shiftLines b [] = [] := rfl

theorem shiftLines_newline (b : Bool) (cs : List Char) :
    shiftLines b ('\n' :: cs) = '\n' :: shiftLines true cs := by
  simp [shiftLines]

theorem shiftLines_of_ne (b : Bool) {c : Char} (hc : c ≠ '\n') (cs : List Char) :
    shiftLines b (c :: cs) =
      (if b then List.replicate 4 ' ' else []) ++ c :: shiftLines false cs := by
  simp [shiftLines, hc]

theorem shiftLines_false_of_not_mem (h : '\n' ∉ u) : shiftLines false u = u := by
  induction u with
  | nil => rfl
  | cons c u ih =>
    simp only [List.mem_cons, not_or] at h
    rw [shiftLines_of_ne false (Ne.symm h.1), ih h.2]
    rfl

theorem shiftLines_true_of_not_mem (h : '\n' ∉ u) (hne : u ≠ []) :
    shiftLines true u = List.replicate 4 ' ' ++ u := by
  obtain ⟨c, cs, rfl⟩ := List.exists_cons_of_ne_nil hne
  simp only [List.mem_cons, not_or] at h
  rw [shiftLines_of_ne true (Ne.symm h.1), shiftLines_false_of_not_mem h.2]
  rfl

theorem shiftLines_eq_nil_iff (b : Bool) : shiftLines b u = [] ↔ u = [] := by
  cases u with
  | nil => simp
  | cons c u => by_cases hc : c = '\n' <;> simp [shiftLines, hc]

theorem shiftLines_append_newline (b : Bool) (u r : List Char) :
    shiftLines b (u ++ '\n' :: r) = shiftLines b u ++ '\n' :: shiftLines true r := by
  induction u generalizing b with
  | nil => exact shiftLines_newline b r
  | cons c u ih =>
    by_cases hc : c = '\n'
    · subst hc
      rw [List.cons_append, shiftLines_newline, shiftLines_newline, ih]
      rfl
    · rw [List.cons_append, shiftLines_of_ne b hc, shiftLines_of_ne b hc, ih]
      simp

theorem shiftLines_append_of_ne_nil (b : Bool) (hu : u ≠ []) (hl : u.getLast? ≠ some '\n')
    (v : List Char) : shiftLines b (u ++ v) = shiftLines b u ++ shiftLines false v := by
  induction u generalizing b with
  | nil => contradiction
  | cons c u ih =>
    cases u with
    | nil =>
      have hc : c ≠ '\n' := by simpa using hl
      rw [List.singleton_append, shiftLines_of_ne b hc, shiftLines_of_ne b hc]
      simp
    | cons c' u =>
      have hl' : (c' :: u).getLast? ≠ some '\n' := by
        rwa [List.getLast?_cons_cons] at hl
      by_cases hc : c = '\n'
      · subst hc
        rw [List.cons_append, shiftLines_newline, shiftLines_newline,
          ih true (List.cons_ne_nil _ _) hl']
        rfl
      · rw [List.cons_append, shiftLines_of_ne b hc, shiftLines_of_ne b hc,
          ih false (List.cons_ne_nil _ _) hl']
        simp

theorem shiftLines_append (hl : u.getLast? ≠ some '\n') (v : List Char) :
    shiftLines false (u ++ v) = shiftLines false u ++ shiftLines false v := by
  cases u with
  | nil => rfl
  | cons c u => exact shiftLines_append_of_ne_nil false (List.cons_ne_nil _ _) hl v

theorem shiftLines_lines (b : Bool) :
    ∀ xs : List (List Char), shiftLines b (xs.flatMap ('\n' :: ·)) =
      xs.flatMap fun x => '\n' :: shiftLines true x
  | [] => rfl
  | [x] => by simp [shiftLines_newline]
  | x :: y :: xs => by
    have ih := shiftLines_lines b (y :: xs)
    simp only [List.flatMap_cons, List.cons_append, shiftLines_newline] at ih ⊢
    rw [shiftLines_append_newline, ih]

end Shift

theorem blockPiece_toList {acc : List Char} (hacc : '\n' ∉ acc) :
    (if acc.isEmpty then "\n" else "    " ++ String.ofList acc ++ "\n").toList =
      shiftLines true acc ++ ['\n'] := by
  by_cases he : acc = []
  · subst he
    rfl
  · rw [shiftLines_true_of_not_mem hacc he]
    simp [List.isEmpty_iff, he]

/-- The pieces of `acc ++ cs` cut at its line feeds, where the piece cut so far, `acc`, holds no
line feed. -/
theorem splitOn_blockPieces (cs acc : List Char) (hacc : '\n' ∉ acc) :
    ((acc ++ cs).splitOn '\n').flatMap (fun line =>
      (if line.isEmpty then "\n" else "    " ++ String.ofList line ++ "\n").toList) =
      shiftLines true (acc ++ cs) ++ ['\n'] := by
  induction cs generalizing acc with
  | nil =>
    rw [List.append_nil, List.splitOn_eq_singleton hacc, List.flatMap_singleton]
    exact blockPiece_toList hacc
  | cons c cs ih =>
    by_cases hc : c = '\n'
    · subst hc
      rw [List.splitOn_append_cons_self_of_not_mem hacc, List.flatMap_cons,
        shiftLines_append_newline, ← List.nil_append cs, ih [] (by simp), blockPiece_toList hacc]
      simp
    · simpa using ih (acc ++ [c]) (by simp [hacc, Ne.symm hc])

theorem blockText_toList (text : String) :
    (blockText text).toList = shiftLines true text.toList ++ ['\n'] := by
  have h := splitOn_blockPieces text.toList [] (by simp)
  rw [List.nil_append] at h
  rw [blockText, String.toList_join, List.flatMap_map]
  exact h

/-! ## Texts one block deeper -/

/-- Moved into one more block the text `u` is `v`, and `u` neither starts nor ends with a line
feed. -/
def Shifts (u v : String) : Prop :=
  shiftLines false u.toList = v.toList ∧ u.toList.head? ≠ some '\n' ∧
    u.toList.getLast? ≠ some '\n'

namespace Shifts

variable {u v u' v' : String}

theorem plain (h : '\n' ∉ u.toList) : Shifts u u :=
  ⟨shiftLines_false_of_not_mem h, fun hh => h (List.mem_of_mem_head? hh),
    fun hl => h (List.mem_of_getLast? hl)⟩

theorem append (h : Shifts u u') (h' : Shifts v v') : Shifts (u ++ v) (u' ++ v') := by
  obtain ⟨e, hh, hl⟩ := h
  obtain ⟨e', hh', hl'⟩ := h'
  refine ⟨?_, ?_, ?_⟩
  · rw [String.toList_append, String.toList_append, shiftLines_append hl, e, e']
  · rw [String.toList_append, List.head?_append]
    cases hu : u.toList.head? <;> simp_all
  · rw [String.toList_append, List.getLast?_append]
    cases hv : v.toList.getLast? <;> simp_all

theorem eq_empty_iff (h : Shifts u v) : u = "" ↔ v = "" := by
  rw [← String.toList_inj, ← String.toList_inj, String.toList_empty, ← h.1,
    shiftLines_eq_nil_iff]

theorem fresh (h : Shifts u v) :
    shiftLines true u.toList = if u = "" then [] else List.replicate 4 ' ' ++ v.toList := by
  split
  · next he => simp [he]
  · next he =>
    obtain ⟨c, cs, hcs⟩ := List.exists_cons_of_ne_nil (by simpa using he : u.toList ≠ [])
    have hc : c ≠ '\n' := fun e => h.2.1 (by rw [hcs, e]; rfl)
    rw [← h.1, hcs, shiftLines_of_ne true hc, shiftLines_of_ne false hc]
    rfl

theorem parenthesize (p : Bool) (h : Shifts u v) :
    Shifts (ScriptFront.parenthesize p u) (ScriptFront.parenthesize p v) := by
  unfold ScriptFront.parenthesize
  split
  · exact ((plain (by decide)).append h).append (plain (by decide))
  · exact h

theorem intercalate (sep : String) (hsep : '\n' ∉ sep.toList) {xs ys : List String}
    (h : List.Forall₂ Shifts xs ys) : Shifts (sep.intercalate xs) (sep.intercalate ys) := by
  induction h with
  | nil => exact plain (by simp)
  | cons hx hs ih =>
    cases hs with
    | nil => simpa using hx
    | cons hy hs' =>
      rw [String.intercalate_cons_cons, String.intercalate_cons_cons]
      exact (hx.append (plain hsep)).append ih

theorem same_of_forall {α : Type} (f : α → String) {xs : List α}
    (h : ∀ x ∈ xs, Shifts (f x) (f x)) : List.Forall₂ Shifts (xs.map f) (xs.map f) :=
  List.forall₂_same.mpr fun y hy => by
    obtain ⟨x, hx, rfl⟩ := List.mem_map.mp hy
    exact h x hx

end Shifts

/-! ## Texts with no line feed -/

theorem isName_newline {n : String} (h : isName n) : Shifts n n := by
  obtain ⟨-, c, ws, hw, hc, hws⟩ := isName_word h
  refine Shifts.plain fun hn => ?_
  rw [hw] at hn
  rcases List.mem_cons.mp hn with hn | hn
  · rw [← hn] at hc
    exact absurd hc (by decide)
  · exact absurd (hws _ hn) (by decide)

theorem resultsText_shifts {xs ys : List String} (h : List.Forall₂ Shifts xs ys) :
    Shifts (resultsText xs) (resultsText ys) := by
  match xs, ys, h with
  | [], [], _ => exact Shifts.plain (by decide)
  | [_], [_], .cons hx .nil => exact (Shifts.plain (by decide)).append hx
  | _ :: _ :: _, _ :: _ :: _, h =>
    exact ((Shifts.plain (by decide)).append (Shifts.intercalate ", " (by decide) h)).append
      (Shifts.plain (by decide))

mutual

theorem Ty.shifts : ∀ t : Ty, Shifts t.render t.render
  | .basic b => Shifts.plain (by cases b <;> decide)
  | .func ps rs => by
    rw [Ty.render]
    exact (((Shifts.plain (by decide)).append (Shifts.intercalate ", " (by decide)
      (Ty.shiftsAll ps))).append (Shifts.plain (by decide))).append
      (resultsText_shifts (Ty.shiftsAll rs))
termination_by structural t => t

theorem Ty.shiftsAll : ∀ ts : List Ty, List.Forall₂ Shifts (Ty.renderAll ts) (Ty.renderAll ts)
  | [] => .nil
  | t :: ts => .cons (Ty.shifts t) (Ty.shiftsAll ts)
termination_by structural ts => ts

end

theorem Param.shifts {p : Param} (h : isName p.name) : Shifts p.render p.render :=
  ((isName_newline h).append (Shifts.plain (by decide))).append (Ty.shifts p.ty)

theorem Binding.shiftsAll {ns : List Binding} (h : ∀ b ∈ ns, isName b.name) :
    Shifts (Binding.renderAll ns) (Binding.renderAll ns) :=
  Shifts.intercalate ", " (by decide)
    (Shifts.same_of_forall _ fun b hb => isName_newline (h b hb))

/-! ## Both printers, at every depth -/

/-- The text `t` is what the depth printer `f` writes at depth 0, and `f` moves its text from each
depth into the next. -/
def Printed (t : String) (f : Nat → String) : Prop :=
  t = f 0 ∧ ∀ d, Shifts (f d) (f (d + 1))

def PrintedAll (ts : List String) (f : Nat → List String) : Prop :=
  ts = f 0 ∧ ∀ d, List.Forall₂ Shifts (f d) (f (d + 1))

namespace Printed

variable {t t' : String} {f f' : Nat → String}

theorem fixed {u : String} (h : Shifts u u) : Printed u fun _ => u := ⟨rfl, fun _ => h⟩

theorem plain {u : String} (h : '\n' ∉ u.toList) : Printed u fun _ => u := fixed (Shifts.plain h)

theorem append (h : Printed t f) (h' : Printed t' f') : Printed (t ++ t') fun d => f d ++ f' d :=
  ⟨by rw [h.1, h'.1], fun d => (h.2 d).append (h'.2 d)⟩

theorem parenthesize (p : Bool) (h : Printed t f) :
    Printed (ScriptFront.parenthesize p t) fun d => ScriptFront.parenthesize p (f d) :=
  ⟨by rw [h.1], fun d => (h.2 d).parenthesize p⟩

theorem intercalate (sep : String) (hsep : '\n' ∉ sep.toList) {ts : List String}
    {g : Nat → List String} (h : PrintedAll ts g) :
    Printed (sep.intercalate ts) fun d => sep.intercalate (g d) :=
  ⟨by rw [h.1], fun d => Shifts.intercalate sep hsep (h.2 d)⟩

end Printed

namespace PrintedAll

theorem nil : PrintedAll [] fun _ => [] := ⟨rfl, fun _ => .nil⟩

theorem cons {t : String} {ts : List String} {f : Nat → String} {g : Nat → List String}
    (h : Printed t f) (hs : PrintedAll ts g) : PrintedAll (t :: ts) fun d => f d :: g d :=
  ⟨by rw [h.1, hs.1], fun d => .cons (h.2 d) (hs.2 d)⟩

end PrintedAll

def Expr.Indents (x : Expr) : Prop := Printed x.render fun d => x.renderAt d

def Block.Indents (b : Block) : Prop := Printed b.render fun d => b.renderAt d

def Stmt.Indents (s : Stmt) : Prop := Printed s.render fun d => s.renderAt d

theorem indent_succ (d : Nat) :
    (indent (d + 1)).toList = List.replicate 4 ' ' ++ (indent d).toList := by
  simp only [indent, String.toList_ofList, List.replicate_append_replicate]
  congr 1
  omega

theorem Stmt.blockLines_toList (k : Nat) (ss : List Stmt) :
    (String.join (Stmt.blockLines k ss)).toList =
      (ss.map fun s => if s.renderAt k = "" then [] else (indent k ++ s.renderAt k).toList).flatMap
        ('\n' :: ·) := by
  rw [String.toList_join]
  induction ss with
  | nil => rfl
  | cons s ss ih =>
    by_cases he : s.renderAt k = "" <;> simp [Stmt.blockLines, blockLine, he, ih]

theorem Stmt.shifts_blockLines (d : Nat) (ss : List Stmt)
    (h : ∀ s ∈ ss, Shifts (s.renderAt (d + 1)) (s.renderAt (d + 2))) :
    shiftLines false (String.join (Stmt.blockLines (d + 1) ss)).toList =
      (String.join (Stmt.blockLines (d + 2) ss)).toList := by
  rw [Stmt.blockLines_toList, Stmt.blockLines_toList, shiftLines_lines, List.flatMap_map,
    List.flatMap_map]
  refine List.flatMap_congr fun s hs => ?_
  have hs := h s hs
  have hk : 4 * (d + 1) ≠ 0 := by omega
  by_cases he : s.renderAt (d + 1) = ""
  · rw [if_pos he, if_pos (hs.eq_empty_iff.mp he)]
    rfl
  · rw [if_neg he, if_neg (mt hs.eq_empty_iff.mpr he), String.toList_append, String.toList_append,
      shiftLines_append_of_ne_nil true (by simp [indent, hk])
        (by simp [indent, List.getLast?_replicate, hk]),
      shiftLines_true_of_not_mem (by simp [indent]) (by simp [indent, hk]), hs.1,
      indent_succ (d + 1), List.append_assoc]

theorem Block.renderAt_toList (ss : List Stmt) (p : Position) (k : Nat) :
    ((Block.mk ss p).renderAt k).toList = '\x7b' :: ((String.join (Stmt.blockLines (k + 1) ss)).toList ++
      '\n' :: ((indent k).toList ++ ['\x7d'])) := by
  simp [Block.renderAt]

theorem Block.shifts_mk {ss : List Stmt}
    (h : ∀ s ∈ ss, ∀ d, Shifts (s.renderAt d) (s.renderAt (d + 1))) (p : Position) (d : Nat) :
    Shifts ((Block.mk ss p).renderAt d) ((Block.mk ss p).renderAt (d + 1)) := by
  refine ⟨?_, by simp [Block.renderAt_toList], ?_⟩
  · rw [Block.renderAt_toList, Block.renderAt_toList, shiftLines_of_ne false (by decide),
      shiftLines_append_newline, Stmt.shifts_blockLines d ss fun s hs => h s hs (d + 1),
      shiftLines_true_of_not_mem (by simp [indent]) (by simp), indent_succ d]
    simp
  · rw [Block.renderAt_toList, ← List.cons_append, ← List.cons_append, ← List.append_assoc,
      List.getLast?_concat]
    decide

theorem Stmt.blockTexts_toList {ss : List Stmt} (h : ∀ s ∈ ss, s.Indents) :
    '\n' :: (Stmt.blockTexts ss).toList = (String.join (Stmt.blockLines 1 ss)).toList ++ ['\n'] := by
  induction ss with
  | nil => rfl
  | cons s ss ih =>
    obtain ⟨hr, hs⟩ := h s List.mem_cons_self
    have hline : (blockLine 1 (s.renderAt 1)).toList = '\n' :: shiftLines true (s.renderAt 0).toList := by
      rw [(hs 0).fresh]
      by_cases he : s.renderAt 0 = ""
      · simp [blockLine, he, (hs 0).eq_empty_iff.mp he]
      · simp [blockLine, he, mt (hs 0).eq_empty_iff.mpr he, indent]
    rw [Stmt.blockTexts, String.toList_append, blockText_toList, hr, Stmt.blockLines, String.join_cons,
      String.toList_append, hline, List.append_assoc, List.singleton_append,
      ih fun t ht => h t (List.mem_cons_of_mem _ ht)]
    simp

theorem Block.indents_mk {ss : List Stmt} (h : ∀ s ∈ ss, s.Indents) (p : Position) :
    (Block.mk ss p).Indents := by
  refine ⟨?_, Block.shifts_mk (fun s hs => (h s hs).2) p⟩
  rw [← String.toList_inj]
  calc (Block.mk ss p).render.toList
      = '\x7b' :: ('\n' :: (Stmt.blockTexts ss).toList) ++ ['\x7d'] := by simp [Block.render]
    _ = '\x7b' :: ((String.join (Stmt.blockLines 1 ss)).toList ++ ['\n']) ++ ['\x7d'] := by
        rw [Stmt.blockTexts_toList h]
    _ = ((Block.mk ss p).renderAt 0).toList := by simp [Block.renderAt_toList, indent]

theorem toString_int_newline (v : Int) : '\n' ∉ (toString v).toList := by
  have hd : ∀ m : Nat, '\n' ∉ (toString m).toList := fun m hm =>
    absurd (Nat.isDigit_of_mem_toDigits (b := 10) (by decide) (by decide) (by simpa using hm))
      (by decide)
  cases v with
  | ofNat m => exact hd m
  | negSucc m =>
    show '\n' ∉ ("-" ++ toString (m + 1)).toList
    simpa using hd (m + 1)

theorem Expr.printedAll {vs : List Expr} (h : ∀ x ∈ vs, x.Indents) :
    PrintedAll (Expr.renderAll vs) fun d => Expr.renderAllAt d vs := by
  induction vs with
  | nil => exact PrintedAll.nil
  | cons x xs ih => exact .cons (h x List.mem_cons_self) (ih fun y hy => h y (List.mem_cons_of_mem _ hy))

theorem Expr.printedValues {vs : List Expr} (h : ∀ x ∈ vs, x.Indents) :
    Printed (", ".intercalate (Expr.renderAll vs)) fun d => ", ".intercalate (Expr.renderAllAt d vs) :=
  Printed.intercalate ", " (by decide) (Expr.printedAll h)

theorem Expr.printedOpt {o : Option Expr} (h : ∀ x ∈ o, x.Indents) :
    Printed (Expr.renderOpt o) fun d => Expr.renderOptAt d o := by
  cases o with
  | none => exact Printed.plain (by decide)
  | some x => exact h x rfl

theorem Block.printedElse {o : Option Block} (h : ∀ b ∈ o, b.Indents) :
    Printed (Block.renderElse o) fun d => Block.renderElseAt d o := by
  cases o with
  | none => exact Printed.plain (by decide)
  | some b => exact (Printed.plain (by decide)).append (h b rfl)

theorem Stmt.printedOpt {o : Option Stmt} (h : ∀ s ∈ o, s.Indents) :
    Printed (Stmt.renderOpt o) fun d => Stmt.renderOptAt d o := by
  cases o with
  | none => exact Printed.plain (by decide)
  | some s => exact h s rfl

theorem Stmt.printedPost {o : Option Stmt} (h : ∀ s ∈ o, s.Indents) :
    Printed (Stmt.renderPost o) fun d => Stmt.renderPostAt d o := by
  cases o with
  | none => exact Printed.plain (by decide)
  | some s => exact (h s rfl).append (Printed.plain (by decide))

theorem Branch.printedAll {bs : List Branch}
    (h : ∀ x b q, Branch.mk x b q ∈ bs → x.Indents ∧ b.Indents) :
    PrintedAll (Branch.renderAll bs) fun d => Branch.renderAllAt d bs := by
  induction bs with
  | nil => exact PrintedAll.nil
  | cons br bs ih =>
    obtain ⟨x, b, q⟩ := br
    obtain ⟨hx, hb⟩ := h x b q List.mem_cons_self
    exact .cons ((((Printed.plain (by decide)).append hx).append (Printed.plain (by decide))).append hb)
      (ih fun y c r hy => h y c r (List.mem_cons_of_mem _ hy))

namespace Expr.Indents

variable {p : Position}

theorem name {n : String} (hn : isName n) : (Expr.name n p).Indents :=
  Printed.fixed (isName_newline hn)

theorem integer {v : Int} : (Expr.integer v p).Indents := Printed.plain (toString_int_newline v)

theorem boolean {b : Bool} : (Expr.boolean b p).Indents := by
  cases b with
  | false => exact Printed.plain (u := "false") (by decide)
  | true => exact Printed.plain (u := "true") (by decide)

theorem unary {op : UnaryOp} {e : Expr} (he : e.Indents) : (Expr.unary op e p).Indents :=
  (Printed.plain (by cases op <;> decide)).append (he.parenthesize _)

theorem binary {op : BinaryOp} {l r : Expr} (hl : l.Indents) (hr : r.Indents) :
    (Expr.binary op l r p).Indents :=
  ((((hl.parenthesize _).append (Printed.plain (by decide))).append
    (Printed.plain (by cases op <;> decide))).append (Printed.plain (by decide))).append
    (hr.parenthesize _)

theorem func {ps : List Param} {rs : List Ty} {b : Block} (hp : ∀ q ∈ ps, isName q.name)
    (hb : b.Indents) : (Expr.func ps rs b p).Indents :=
  (Printed.fixed (((((Shifts.plain (by decide)).append (Shifts.intercalate ", " (by decide)
    (Shifts.same_of_forall Param.render fun q hq => Param.shifts (hp q hq)))).append
    (Shifts.plain (by decide))).append
    (resultsText_shifts (Shifts.same_of_forall Ty.render fun t _ => Ty.shifts t))).append
    (Shifts.plain (by decide)))).append hb

end Expr.Indents

namespace Stmt.Indents

variable {p : Position}

theorem empty : (Stmt.empty p).Indents := Printed.plain (u := "") (by decide)

theorem single {e : Expr} {semi : Bool} (he : e.Indents) : (Stmt.single e semi p).Indents :=
  he.append (Printed.plain (by cases semi <;> decide))

theorem varTyped {ns : List Binding} {t : Ty} (hn : ∀ b ∈ ns, isName b.name) :
    (Stmt.varDecl ns (.typed t none) p).Indents :=
  Printed.fixed ((((Shifts.plain (by decide)).append (Binding.shiftsAll hn)).append
    (Shifts.plain (by decide))).append (Ty.shifts t))

theorem varTypedValues {ns : List Binding} {t : Ty} {vs : List Expr}
    (hn : ∀ b ∈ ns, isName b.name) (hv : ∀ x ∈ vs, x.Indents) :
    (Stmt.varDecl ns (.typed t (some vs)) p).Indents :=
  (Printed.fixed (((((Shifts.plain (by decide)).append (Binding.shiftsAll hn)).append
    (Shifts.plain (by decide))).append (Ty.shifts t)).append (Shifts.plain (by decide)))).append
    (Expr.printedValues hv)

theorem varInferred {ns : List Binding} {vs : List Expr} (hn : ∀ b ∈ ns, isName b.name)
    (hv : ∀ x ∈ vs, x.Indents) : (Stmt.varDecl ns (.inferred vs) p).Indents :=
  (Printed.fixed (((Shifts.plain (by decide)).append (Binding.shiftsAll hn)).append
    (Shifts.plain (by decide)))).append (Expr.printedValues hv)

theorem block {b : Block} (hb : b.Indents) : (Stmt.block b).Indents := hb

theorem ifChain {bs : List Branch} {o : Option Block}
    (hbs : ∀ x b q, Branch.mk x b q ∈ bs → x.Indents ∧ b.Indents) (ho : ∀ b ∈ o, b.Indents) :
    (Stmt.ifChain bs o p).Indents :=
  (Printed.intercalate " else " (by decide) (Branch.printedAll hbs)).append (Block.printedElse ho)

theorem loopForever {b : Block} (hb : b.Indents) : (Stmt.loop .forever b p).Indents :=
  (Printed.plain (by decide)).append hb

theorem loopGuarded {x : Expr} {b : Block} (hx : x.Indents) (hb : b.Indents) :
    (Stmt.loop (.guarded x) b p).Indents :=
  (((Printed.plain (by decide)).append hx).append (Printed.plain (by decide))).append hb

theorem loopClauses {i q : Option Stmt} {x : Option Expr} {b : Block} (hi : ∀ s ∈ i, s.Indents)
    (hx : ∀ e ∈ x, e.Indents) (hq : ∀ s ∈ q, s.Indents) (hb : b.Indents) :
    (Stmt.loop (.clauses i x q) b p).Indents :=
  ((((((Printed.plain (by decide)).append (Stmt.printedOpt hi)).append
    (Printed.plain (by decide))).append (Expr.printedOpt hx)).append
    (Printed.plain (by decide))).append (Stmt.printedPost hq)).append hb

theorem breakLoop : (Stmt.breakLoop p).Indents := Printed.plain (u := "break") (by decide)

theorem continueLoop : (Stmt.continueLoop p).Indents :=
  Printed.plain (u := "continue") (by decide)

theorem ret {vs : List Expr} (hv : ∀ x ∈ vs, x.Indents) : (Stmt.ret vs p).Indents := by
  cases vs with
  | nil => exact Printed.plain (u := "return") (by decide)
  | cons v vs => exact (Printed.plain (by decide)).append (Expr.printedValues hv)

theorem assign {ts vs : List Expr} (ht : ∀ x ∈ ts, x.Indents) (hv : ∀ x ∈ vs, x.Indents) :
    (Stmt.assign ts vs p).Indents :=
  ((Expr.printedValues ht).append (Printed.plain (by decide))).append (Expr.printedValues hv)

theorem define {ns : List Binding} {vs : List Expr} (hn : ∀ b ∈ ns, isName b.name)
    (hv : ∀ x ∈ vs, x.Indents) : (Stmt.define ns vs p).Indents :=
  ((Printed.fixed (Binding.shiftsAll hn)).append (Printed.plain (by decide))).append
    (Expr.printedValues hv)

end Stmt.Indents

mutual

theorem Expr.indents : ∀ x : Expr, x.shaped → x.Indents
  | .name .., h => Expr.Indents.name (by simpa [Expr.shaped] using h)
  | .integer .., _ => Expr.Indents.integer
  | .boolean .., _ => Expr.Indents.boolean
  | .unary _ e _, h => Expr.Indents.unary (Expr.indents e (by simp_all [Expr.shaped]))
  | .binary _ l r _, h => by
    simp only [Expr.shaped, Bool.and_eq_true] at h
    exact Expr.Indents.binary (Expr.indents l h.1.2) (Expr.indents r h.2)
  | .func _ _ b _, h => by
    simp only [Expr.shaped, Bool.and_eq_true, List.all_eq_true] at h
    exact Expr.Indents.func h.1 (Block.indents b h.2)
termination_by structural x => x

theorem Expr.indentsAll : ∀ xs : List Expr, Expr.shapedAll xs → ∀ x ∈ xs, x.Indents
  | [], _ => by simp
  | x :: xs, h => by
    simp only [Expr.shapedAll, Bool.and_eq_true] at h
    have hx := Expr.indents x h.1
    have hxs := Expr.indentsAll xs h.2
    intro y hy
    rcases List.mem_cons.mp hy with rfl | hy
    · exact hx
    · exact hxs y hy
termination_by structural xs => xs

theorem Expr.indentsOpt : ∀ o : Option Expr, Expr.shapedOpt o → ∀ x ∈ o, x.Indents
  | none, _ => by simp
  | some x, h => by
    have hx := Expr.indents x h
    intro y hy
    obtain rfl := Option.mem_some_iff.mp hy
    exact hx
termination_by structural o => o

theorem Block.indents : ∀ b : Block, b.shaped → b.Indents
  | .mk ss p, h => Block.indents_mk (Stmt.indentsAll ss h) p
termination_by structural b => b

theorem Block.indentsOpt : ∀ o : Option Block, Block.shapedOpt o → ∀ b ∈ o, b.Indents
  | none, _ => by simp
  | some b, h => by
    have hb := Block.indents b h
    intro b' hb'
    obtain rfl := Option.mem_some_iff.mp hb'
    exact hb
termination_by structural o => o

theorem Stmt.indentsAll : ∀ ss : List Stmt, Stmt.shapedAll ss → ∀ s ∈ ss, s.Indents
  | [], _ => by simp
  | s :: ss, h => by
    simp only [Stmt.shapedAll, Bool.and_eq_true] at h
    have hs := Stmt.indents s h.1
    have hss := Stmt.indentsAll ss h.2
    intro t ht
    rcases List.mem_cons.mp ht with rfl | ht
    · exact hs
    · exact hss t ht
termination_by structural ss => ss

theorem Stmt.indentsOpt : ∀ o : Option Stmt, Stmt.shapedOpt o → ∀ s ∈ o, s.Indents
  | none, _ => by simp
  | some s, h => by
    have hs := Stmt.indents s h
    intro t ht
    obtain rfl := Option.mem_some_iff.mp ht
    exact hs
termination_by structural o => o

theorem Branch.indentsAll : ∀ bs : List Branch, Branch.shapedAll bs →
    ∀ x b q, Branch.mk x b q ∈ bs → x.Indents ∧ b.Indents
  | [], _ => by simp
  | .mk x b q :: bs, h => by
    simp only [Branch.shapedAll, Bool.and_eq_true] at h
    have hx := Expr.indents x h.1.1
    have hb := Block.indents b h.1.2
    have hbs := Branch.indentsAll bs h.2
    intro y c r hy
    rcases List.mem_cons.mp hy with hy | hy
    · cases hy
      exact ⟨hx, hb⟩
    · exact hbs y c r hy
termination_by structural bs => bs

theorem Stmt.indents : ∀ s : Stmt, s.shaped → s.Indents
  | .empty _, _ => Stmt.Indents.empty
  | .single e _ _, h => Stmt.Indents.single (Expr.indents e h)
  | .varDecl ns (.typed t none) _, h => by
    simp only [Stmt.shaped, Bool.and_eq_true, List.all_eq_true] at h
    exact Stmt.Indents.varTyped h.1.2
  | .varDecl ns (.typed t (some vs)) _, h => by
    simp only [Stmt.shaped, VarSpec.shaped, Bool.and_eq_true, List.all_eq_true] at h
    exact Stmt.Indents.varTypedValues h.1.2 (Expr.indentsAll vs h.2.2)
  | .varDecl ns (.inferred vs) _, h => by
    simp only [Stmt.shaped, VarSpec.shaped, Bool.and_eq_true, List.all_eq_true] at h
    exact Stmt.Indents.varInferred h.1.2 (Expr.indentsAll vs h.2.2)
  | .block b, h => Stmt.Indents.block (Block.indents b h)
  | .ifChain bs o _, h => by
    simp only [Stmt.shaped, Bool.and_eq_true] at h
    exact Stmt.Indents.ifChain (Branch.indentsAll bs h.1.2) (Block.indentsOpt o h.2)
  | .loop .forever b _, h =>
    Stmt.Indents.loopForever (Block.indents b (by simpa [Stmt.shaped, LoopShape.shaped] using h))
  | .loop (.guarded x) b _, h => by
    simp only [Stmt.shaped, LoopShape.shaped, Bool.and_eq_true] at h
    exact Stmt.Indents.loopGuarded (Expr.indents x h.1) (Block.indents b h.2)
  | .loop (.clauses i x q) b _, h => by
    simp only [Stmt.shaped, LoopShape.shaped, Bool.and_eq_true] at h
    obtain ⟨⟨⟨⟨⟨hi, -⟩, hx⟩, hq⟩, -⟩, hb⟩ := h
    exact Stmt.Indents.loopClauses (Stmt.indentsOpt i hi) (Expr.indentsOpt x hx)
      (Stmt.indentsOpt q hq) (Block.indents b hb)
  | .breakLoop _, _ => Stmt.Indents.breakLoop
  | .continueLoop _, _ => Stmt.Indents.continueLoop
  | .ret vs _, h => Stmt.Indents.ret (Expr.indentsAll vs h)
  | .assign ts vs _, h => by
    simp only [Stmt.shaped, Bool.and_eq_true] at h
    exact Stmt.Indents.assign (Expr.indentsAll ts h.1.2) (Expr.indentsAll vs h.2)
  | .define ns vs _, h => by
    simp only [Stmt.shaped, Bool.and_eq_true, List.all_eq_true] at h
    exact Stmt.Indents.define h.1.2 (Expr.indentsAll vs h.2)
termination_by structural s => s

end

/-- A shaped statement prints as the depth-threaded printer writes it outside every block. -/
theorem Stmt.render_eq_renderAt {s : Stmt} (h : s.shaped) : s.render = s.renderAt 0 :=
  (Stmt.indents s h).1

theorem Expr.render_eq_renderAt {x : Expr} (h : x.shaped) : x.render = x.renderAt 0 :=
  (Expr.indents x h).1

/-- A shaped program prints as its statements at depth 0, each followed by a line feed. -/
theorem Program.render_eq {p : Program} (h : p.shaped) :
    p.render = String.join (p.map fun s => s.renderAt 0 ++ "\n") := by
  have hs := (Stmt.shapedAll_iff p).mp h
  rw [Program.render]
  congr 1
  exact List.map_congr_left fun s hm => by rw [Stmt.render_eq_renderAt (hs s hm)]

end ScriptFront
