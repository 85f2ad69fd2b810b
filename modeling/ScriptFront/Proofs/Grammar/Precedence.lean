import ScriptFront.Proofs.Print.ReadExpr
/-!
# Precedence and grouping of operators

Operands joined by binary operators, `u₀ a₀ op₁ u₁ a₁ … opₙ uₙ aₙ`, where each operand is a run
of prefix operators before an atom, read as one expression. `Written` is such an expression as
it stands in tokens, parentheses kept, and `Written.Grouped` is the grouping the grammar gives
it: a prefix operator applies to its own operand only, and a binary operation has, outside
parentheses, only operators of its own level or tighter on its left and only tighter ones on its
right. Parentheses leave no node in the expression a written tree stands for.

Every chain of tokens is written by a grouped tree (`Written.Chain.grouped`): an operand and an
operator go down the left edge of the tree of what follows them, past every operation that
binds no tighter (`Written.graft`). The readers read the tokens of every grouped tree as the
expression it stands for and stop right after them (`Written.readsBack`), so the reader of `||`
gives the one expression that all grouped trees of a chain stand for (`chain_reads_grouped`).
-/

set_option autoImplicit false

namespace ScriptFront

def Token.atom? (t : Token) : Option Expr :=
  match t.kind with
  | .identifier => some (.name t.text t.start)
  | .number => (Text.toInt64? t.text).map fun v => .integer v t.start
  | .kwTrue => some (.boolean true t.start)
  | .kwFalse => some (.boolean false t.start)
  | _ => none

/-- An expression of operators as it is written in tokens, parentheses kept. -/
inductive Written where
  | atom (t : Token) (x : Expr)
  | group (opening : Token) (inner : Written) (closing : Token)
  | prefixed (op : UnaryOp) (t : Token) (operand : Written)
  | binary (op : BinaryOp) (t : Token) (left right : Written)

namespace Written

def tokens : Written → List Token
  | atom t _ => [t]
  | group o w c => o :: (w.tokens ++ [c])
  | prefixed _ t w => t :: w.tokens
  | binary _ t l r => l.tokens ++ t :: r.tokens

def expr : Written → Expr
  | atom _ x => x
  | group _ w _ => w.expr
  | prefixed op t w => .unary op w.expr t.start
  | binary op t l r => .binary op l.expr r.expr t.start

def opsOutside : Written → List BinaryOp
  | atom .. | group .. => []
  | prefixed _ _ w => w.opsOutside
  | binary op _ l r => l.opsOutside ++ op :: r.opsOutside

def precedence : Written → Nat
  | atom .. | group .. => 7
  | prefixed .. => UnaryOp.precedence
  | binary op .. => op.precedence

/-- The grouping that the grammar gives: operators bind by precedence and those of one level
group to the left. -/
def Grouped : Written → Prop
  | atom t x => t.atom? = some x
  | group o w c => o.kind = .openParen ∧ w.Grouped ∧ c.kind = .closeParen
  | prefixed op t w => UnaryOp.ofKind? t.kind = some op ∧ w.Grouped ∧ w.opsOutside = []
  | binary op t l r => BinaryOp.ofKind? t.kind = some op ∧ l.Grouped ∧ r.Grouped ∧
      (∀ o ∈ l.opsOutside, op.precedence ≤ o.precedence) ∧
      (∀ o ∈ r.opsOutside, op.precedence < o.precedence)

mutual

inductive Chain : List Token → Prop where
  | operand {ts : List Token} : Operand ts → Chain ts
  | cons {ts : List Token} {t : Token} {op : BinaryOp} {rest : List Token} :
      Operand ts → BinaryOp.ofKind? t.kind = some op → Chain rest → Chain (ts ++ t :: rest)

inductive Operand : List Token → Prop where
  | atom {t : Token} {x : Expr} : t.atom? = some x → Operand [t]
  | group {o : Token} {ts : List Token} {c : Token} : o.kind = .openParen → Chain ts →
      c.kind = .closeParen → Operand (o :: (ts ++ [c]))
  | prefixed {t : Token} {op : UnaryOp} {ts : List Token} : UnaryOp.ofKind? t.kind = some op →
      Operand ts → Operand (t :: ts)

end

def graft (x : Written) (op : BinaryOp) (t : Token) : Written → Written
  | binary op' t' l r =>
    if op'.precedence ≤ op.precedence then binary op' t' (x.graft op t l) r
    else binary op t x (binary op' t' l r)
  | w => binary op t x w

section Graft

variable {x : Written} {op : BinaryOp} {t : Token}

theorem tokens_graft (w : Written) : (x.graft op t w).tokens = x.tokens ++ t :: w.tokens := by
  induction w with
  | atom | group | prefixed => rfl
  | binary op' t' l r ihl =>
    unfold graft
    split
    · simp [tokens, ihl]
    · rfl

theorem mem_opsOutside_graft (hx : x.opsOutside = []) (w : Written) {o : BinaryOp} :
    o ∈ (x.graft op t w).opsOutside ↔ o = op ∨ o ∈ w.opsOutside := by
  induction w with
  | atom | group | prefixed => simp [graft, opsOutside, hx]
  | binary op' t' l r ihl =>
    unfold graft
    split
    · simp only [opsOutside, List.mem_append, List.mem_cons, ihl, or_assoc]
    · simp [opsOutside, hx]

theorem le_of_mem_opsOutside {op' : BinaryOp} {t' : Token} {l r : Written}
    (h : (binary op' t' l r).Grouped) {o : BinaryOp} (ho : o ∈ (binary op' t' l r).opsOutside) :
    op'.precedence ≤ o.precedence := by
  obtain ⟨-, -, -, hl, hr⟩ := h
  simp only [opsOutside, List.mem_append, List.mem_cons] at ho
  rcases ho with ho | rfl | ho
  · exact hl o ho
  · exact Nat.le_refl _
  · exact Nat.le_of_lt (hr o ho)

theorem Grouped.graft (hx : x.Grouped) (hx0 : x.opsOutside = [])
    (ht : BinaryOp.ofKind? t.kind = some op) {w : Written} (hw : w.Grouped) :
    (x.graft op t w).Grouped := by
  induction w with
  | atom t' y => exact ⟨ht, hx, hw, by simp [hx0], by simp [opsOutside]⟩
  | group o w' c => exact ⟨ht, hx, hw, by simp [hx0], by simp [opsOutside]⟩
  | prefixed op' t' w' => exact ⟨ht, hx, hw, by simp [hx0], by simp [opsOutside, hw.2.2]⟩
  | binary op' t' l r ihl =>
    unfold Written.graft
    split
    · next hle =>
      obtain ⟨h', hl, hr, hlo, hro⟩ := hw
      refine ⟨h', ihl hl, hr, fun o ho => ?_, hro⟩
      rcases (mem_opsOutside_graft hx0 l).mp ho with rfl | ho
      · exact hle
      · exact hlo o ho
    · next hlt =>
      refine ⟨ht, hx, hw, by simp [hx0], fun o ho => ?_⟩
      have := le_of_mem_opsOutside hw ho
      omega

end Graft

mutual

theorem Chain.grouped : ∀ {ts : List Token}, Chain ts → ∃ w : Written, w.Grouped ∧ w.tokens = ts
  | _, .operand h => by
    obtain ⟨w, hw, -, ht⟩ := h.grouped
    exact ⟨w, hw, ht⟩
  | _, .cons h hop hr => by
    obtain ⟨x, hx, hx0, rfl⟩ := h.grouped
    obtain ⟨w, hw, rfl⟩ := hr.grouped
    exact ⟨x.graft _ _ w, hx.graft hx0 hop hw, tokens_graft w⟩

theorem Operand.grouped : ∀ {ts : List Token}, Operand ts →
    ∃ w : Written, w.Grouped ∧ w.opsOutside = [] ∧ w.tokens = ts
  | _, @Operand.atom t x h => ⟨atom t x, h, rfl, rfl⟩
  | _, @Operand.group o _ c ho h hc => by
    obtain ⟨w, hw, rfl⟩ := h.grouped
    exact ⟨group o w c, ⟨ho, hw, hc⟩, rfl, rfl⟩
  | _, @Operand.prefixed t op _ hop h => by
    obtain ⟨w, hw, hw0, rfl⟩ := h.grouped
    exact ⟨prefixed op t w, ⟨hop, hw, hw0⟩, hw0, rfl⟩

end

theorem one_le_precedence (w : Written) : 1 ≤ w.precedence := by
  cases w with
  | atom | group | prefixed => simp [precedence, UnaryOp.precedence]
  | binary op => exact op.level.one_le_precedence

theorem le_precedence {w : Written} {n : Nat} (h : ∀ o ∈ w.opsOutside, n ≤ o.precedence)
    (hn : n ≤ 6) : n ≤ w.precedence := by
  cases w with
  | atom | group => simp only [precedence]; omega
  | prefixed => exact hn
  | binary op t l r => exact h op (by simp [opsOutside])

end Written

namespace Cursor

variable {c d e : Cursor} {t : Token} {ts ts' : List Token}

def Over (c : Cursor) (ts : List Token) (d : Cursor) : Prop :=
  c.ahead = ts ++ d.ahead ∧ c.last = d.last

theorem Over.eq_of_nil (h : c.Over [] d) : c = d := ext_iff.mpr h

theorem Over.cons (h : c.Over (t :: ts) d) : c.current = t ∧ c.next.Over ts d :=
  ⟨current_of_ahead h.1, by simp [h.1], by simp [h.2]⟩

theorem Over.single (h : c.Over [t] d) : c.current = t ∧ d = c.next :=
  ⟨h.cons.1, h.cons.2.eq_of_nil.symm⟩

theorem Over.append (h : c.Over (ts ++ ts') e) : ∃ d, c.Over ts d ∧ d.Over ts' e := by
  have hne : ∀ u ∈ ts' ++ e.ahead, u.kind ≠ .eof := fun u hu =>
    c.ahead_ne_eof u (by rw [h.1]; simp only [List.mem_append] at hu ⊢; rcases hu with hu | hu <;> simp [hu])
  exact ⟨⟨ts' ++ e.ahead, c.last, hne, c.last_eof⟩, ⟨by rw [h.1, List.append_assoc], rfl⟩, rfl, h.2⟩

end Cursor

theorem Rule.wrapRead_eq {α : Type} {c d : Cursor} {f : α → RuleValue} {r : Read α c} {a : α}
    (h : plain r = .ok (a, d)) : Rule.wrapRead f r = .ok (f a, d) := by
  cases r <;> simp_all [plain, Rule.wrapRead]

namespace Reader

theorem reads_atom {c : Cursor} {x : Expr} (h : c.current.atom? = some x) :
    Reads .unary c (.expr x) c.next := by
  unfold Token.atom? at h
  split at h
  · next hk =>
    cases h
    exact .unaryPrimary (by rw [hk]; rfl) (.primaryName hk)
  · next hk =>
    obtain ⟨v, hv, rfl⟩ := Option.map_eq_some_iff.mp h
    have hi : c.current.integer = .ok (.integer v c.current.start) := by
      simp [Token.integer, hv]
    exact .unaryPrimary (by rw [hk]; rfl) (.primaryInteger hk hi)
  · next hk =>
    cases h
    exact .unaryPrimary (by rw [hk]; rfl) (.primaryTrue hk)
  · next hk =>
    cases h
    exact .unaryPrimary (by rw [hk]; rfl) (.primaryFalse hk)
  · cases h

end Reader

namespace Written

open Reader Cursor

structure ReadsBack (w : Written) : Prop where
  unary : 6 ≤ w.precedence → ∀ {c d : Cursor}, c.Over w.tokens d →
    Reads .unary c (.expr w.expr) d
  level : ∀ (l : Level), l.precedence ≤ w.precedence → ∀ {c d : Cursor}, c.Over w.tokens d →
    d.current.kind.bindsBelow (l.precedence + 1) →
    ∀ v e, Reads (.levelRest l w.expr) d v e → Reads (.level l) c v e

namespace ReadsBack

variable {w : Written} {c d : Cursor}

theorem of_unary
    (hu : ∀ {c d : Cursor}, c.Over w.tokens d → Reads .unary c (.expr w.expr) d) :
    w.ReadsBack where
  unary _ := hu
  level l _ _ _ hs hd _ _ hr := .level ((hu hs).operand_of_unary l hd) hr

theorem read (h : w.ReadsBack) (l : Level) (hl : l.precedence ≤ w.precedence)
    (hs : c.Over w.tokens d) (hd : d.current.kind.bindsBelow l.precedence) :
    Reads (.level l) c (.expr w.expr) d :=
  h.level l hl hs (TokenKind.bindsBelow_of_le hd (by omega)) _ _
    (.levelRestStop (opAt?_eq_none hd))

theorem operand (h : w.ReadsBack) (l : Level) (hl : l.precedence < w.precedence)
    (hs : c.Over w.tokens d) (hd : d.current.kind.bindsBelow (l.precedence + 1)) :
    Reads (Reader.operand l) c (.expr w.expr) d := by
  cases hm : l.tighter with
  | none =>
    have : l = .multiplicative := by cases l <;> simp_all [Level.tighter]
    subst this
    exact h.unary (by simp [Level.precedence] at hl; omega) hs
  | some m =>
    have hp := Level.precedence_tighter hm
    rw [operand_of_tighter hm]
    exact h.read m (by omega) hs (by rw [← hp]; exact hd)

theorem binary {op : BinaryOp} {t : Token} {l r : Written} (hl : l.ReadsBack) (hr : r.ReadsBack)
    (ht : BinaryOp.ofKind? t.kind = some op) (hlp : op.precedence ≤ l.precedence)
    (hrp : op.precedence < r.precedence) : (Written.binary op t l r).ReadsBack := by
  have own : ∀ {c d : Cursor}, c.Over (Written.binary op t l r).tokens d →
      d.current.kind.bindsBelow (op.level.precedence + 1) →
      ∀ v e, Reads (.levelRest op.level (Written.binary op t l r).expr) d v e →
        Reads (.level op.level) c v e := by
    intro c d hs hd v e he
    obtain ⟨m, hsl, hsr⟩ := Over.append hs
    obtain ⟨hm, hsr⟩ := hsr.cons
    have hat : m.opAt? op.level = some op := by simp [Cursor.opAt?, hm, ht]
    have hmb : m.current.kind.bindsBelow (op.level.precedence + 1) := by
      intro o ho
      rw [hm, ht, Option.some.injEq] at ho
      subst ho
      exact Nat.lt_succ_self _
    exact hl.level op.level hlp hsl hmb v e
      (.levelRestStep hat (hr.operand op.level hrp hsr hd) (by rw [hm]; exact he))
  refine ⟨fun h6 => absurd (Nat.le_trans h6 op.level.precedence_le) (by decide),
    fun L hL c d hs hd => ?_⟩
  exact Reads.levelRest_looser (fun hk => own hs hk) L hL hd

end ReadsBack

/-- The tokens of every grouped written expression read back as the expression it stands for. -/
theorem readsBack {w : Written} (h : w.Grouped) : w.ReadsBack := by
  induction w with
  | atom t x =>
    refine .of_unary fun {c d} hs => ?_
    obtain ⟨hc, rfl⟩ := hs.single
    exact reads_atom (by rw [hc]; exact h)
  | group o w' cl ih =>
    obtain ⟨ho, hw, hcl⟩ := h
    refine .of_unary fun {c d} hs => ?_
    obtain ⟨hc, hs1⟩ := hs.cons
    obtain ⟨m, hs2, hclose⟩ := hs1.append
    obtain ⟨hm, rfl⟩ := hclose.single
    have hk : c.current.kind = .openParen := by rw [hc]; exact ho
    have hmk : m.current.kind = .closeParen := by rw [hm]; exact hcl
    have hr := (ih hw).read .disjunction w'.one_le_precedence hs2
      (TokenKind.bindsBelow_of_ofKind? (by rw [hmk]; rfl) _)
    exact .unaryPrimary (by rw [hk]; rfl) (.primaryGroup hk (.group hk hr hmk))
  | prefixed op t w' ih =>
    obtain ⟨ht, hw, h0⟩ := h
    refine .of_unary fun {c d} hs => ?_
    obtain ⟨hc, hs1⟩ := hs.cons
    have h6 : 6 ≤ w'.precedence := le_precedence (by simp [h0]) (Nat.le_refl 6)
    have r := Reads.unaryOp (by rw [hc]; exact ht) ((ih hw).unary h6 hs1)
    rwa [hc] at r
  | binary op t l r ihl ihr =>
    obtain ⟨ht, hl, hr, hlo, hro⟩ := h
    exact .binary (ihl hl) (ihr hr) ht (le_precedence hlo (Nat.le_succ_of_le op.level.precedence_le))
      (le_precedence hro (Nat.succ_le_succ op.level.precedence_le))

theorem Grouped.first_ne_func {w : Written} (h : w.Grouped) {c d : Cursor}
    (hs : c.Over w.tokens d) : c.current.kind ≠ .kwFunc := by
  induction w generalizing c d with
  | atom t x =>
    rw [hs.cons.1]
    intro hk
    simp [Grouped, Token.atom?, hk] at h
  | group o w' cl =>
    rw [hs.cons.1, h.1]
    decide
  | prefixed op t w' =>
    rw [hs.cons.1]
    intro hk
    have ht := h.1
    rw [hk] at ht
    cases ht
  | binary op t l r ihl =>
    obtain ⟨m, hsl, -⟩ := Over.append hs
    exact ihl h.2.1 hsl

theorem readOr_eq {w : Written} (h : w.Grouped) {c d : Cursor} (hs : c.Over w.tokens d)
    (hd : BinaryOp.ofKind? d.current.kind = none) : plain (readOr c) = .ok (w.expr, d) := by
  have r := (readsBack h).read .disjunction w.one_le_precedence hs
    (TokenKind.bindsBelow_of_ofKind? hd _)
  obtain ⟨⟨x, d'⟩, hx, he⟩ := Except.map_eq_ok.mp r.run
  cases he
  exact hx

end Written

/-- Operands joined by binary operators read as one expression, the one that every grouped
tree of the tokens stands for. -/
theorem chain_reads_grouped {ts : List Token} (h : Written.Chain ts) {c d : Cursor}
    (hc : c.ahead = ts ++ d.ahead) (hl : c.last = d.last)
    (hd : BinaryOp.ofKind? d.current.kind = none) :
    ∃ w : Written, w.Grouped ∧ w.tokens = ts ∧
      Rule.run .orLevel c = .ok (.expr w.expr, d) ∧ Rule.run .expr c = .ok (.expr w.expr, d) ∧
      ∀ w' : Written, w'.Grouped → w'.tokens = ts → w'.expr = w.expr := by
  obtain ⟨w, hw, rfl⟩ := h.grouped
  have hor := Written.readOr_eq hw ⟨hc, hl⟩ hd
  have hexpr : plain (readExpr c) = .ok (w.expr, d) := by
    rw [readExpr_eq, if_neg (hw.first_ne_func ⟨hc, hl⟩), hor]
  refine ⟨w, hw, rfl, Rule.wrapRead_eq hor, Rule.wrapRead_eq hexpr, fun w' hw' ht => ?_⟩
  -- the reader is a function, so every grouped tree of the tokens gives what it gives
  have hor' := Written.readOr_eq hw' ⟨ht ▸ hc, hl⟩ hd
  rw [hor, Except.ok.injEq, Prod.mk.injEq] at hor'
  exact hor'.1.symm

theorem chain_reads_grouped_negated_difference :
    Written.Chain [⟨.minus, "-", ⟨.null, .null⟩⟩, ⟨.identifier, "a", ⟨.null, .null⟩⟩,
        ⟨.minus, "-", ⟨.null, .null⟩⟩, ⟨.identifier, "b", ⟨.null, .null⟩⟩,
        ⟨.star, "*", ⟨.null, .null⟩⟩, ⟨.identifier, "c", ⟨.null, .null⟩⟩] ∧
      Rule.run .orLevel (Cursor.ofTokens [⟨.minus, "-", ⟨.null, .null⟩⟩,
        ⟨.identifier, "a", ⟨.null, .null⟩⟩, ⟨.minus, "-", ⟨.null, .null⟩⟩,
        ⟨.identifier, "b", ⟨.null, .null⟩⟩, ⟨.star, "*", ⟨.null, .null⟩⟩,
        ⟨.identifier, "c", ⟨.null, .null⟩⟩, Token.endAt .null]) =
        .ok (.expr (.binary .subtract (.unary .negate (.name "a" .null) .null)
          (.binary .multiply (.name "b" .null) (.name "c" .null) .null) .null),
          Cursor.ofTokens [Token.endAt .null]) := by
  have hchain : Written.Chain [⟨.minus, "-", ⟨.null, .null⟩⟩, ⟨.identifier, "a", ⟨.null, .null⟩⟩,
      ⟨.minus, "-", ⟨.null, .null⟩⟩, ⟨.identifier, "b", ⟨.null, .null⟩⟩,
      ⟨.star, "*", ⟨.null, .null⟩⟩, ⟨.identifier, "c", ⟨.null, .null⟩⟩] :=
    .cons (.prefixed rfl (.atom rfl)) rfl (.cons (.atom rfl) rfl (.operand (.atom rfl)))
  obtain ⟨w, -, -, hr, -, hu⟩ := chain_reads_grouped hchain
    (c := Cursor.ofTokens [⟨.minus, "-", ⟨.null, .null⟩⟩, ⟨.identifier, "a", ⟨.null, .null⟩⟩,
      ⟨.minus, "-", ⟨.null, .null⟩⟩, ⟨.identifier, "b", ⟨.null, .null⟩⟩,
      ⟨.star, "*", ⟨.null, .null⟩⟩, ⟨.identifier, "c", ⟨.null, .null⟩⟩, Token.endAt .null])
    (d := Cursor.ofTokens [Token.endAt .null]) rfl rfl rfl
  have hw : (Written.binary .subtract ⟨.minus, "-", ⟨.null, .null⟩⟩
      (.prefixed .negate ⟨.minus, "-", ⟨.null, .null⟩⟩
        (.atom ⟨.identifier, "a", ⟨.null, .null⟩⟩ (.name "a" .null)))
      (.binary .multiply ⟨.star, "*", ⟨.null, .null⟩⟩
        (.atom ⟨.identifier, "b", ⟨.null, .null⟩⟩ (.name "b" .null))
        (.atom ⟨.identifier, "c", ⟨.null, .null⟩⟩ (.name "c" .null)))).Grouped :=
    ⟨rfl, ⟨rfl, rfl, rfl⟩, ⟨rfl, rfl, rfl, by simp [Written.opsOutside], by simp [Written.opsOutside]⟩,
      by simp [Written.opsOutside], by decide⟩
  rw [← hu _ hw rfl] at hr
  exact ⟨hchain, hr⟩

end ScriptFront
