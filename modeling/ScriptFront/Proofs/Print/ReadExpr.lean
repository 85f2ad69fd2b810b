import ScriptFront.Proofs.Print.Lexes
import ScriptFront.Proofs.Grammar.Shaped
/-!
# Reading printed types and expressions back

`Cursor.Spans c ls d` says that the tokens from `c` up to `d` are read as `ls`. Over such
tokens the readers give back what was printed: a type reads as the same type wherever what
follows starts no result type, and an expression of the grammar's shape reads as an expression
of the same shape wherever what follows is no binary operator that would take it as an operand.

Parentheses are printed only where the precedence of an operand needs them, and operators of
one level group to the left, so a left operand at its parent's level is not read on its own:
the reader goes on from it with the rest of its level. `Expr.ReadsBack` says this for every
level an expression can be read at, and is proved by recursion on the expression.
-/

set_option autoImplicit false

namespace ScriptFront

namespace Cursor

variable {c d e : Cursor} {l : Lex} {ls ls' : List Lex}

def Spans (c : Cursor) (ls : List Lex) (d : Cursor) : Prop :=
  ∃ ts : List Token, ts.map Token.lex = ls ∧ c.ahead = ts ++ d.ahead ∧ c.last = d.last

theorem Spans.eq_of_nil (h : c.Spans [] d) : c = d := by
  obtain ⟨ts, hts, ha, hl⟩ := h
  rw [List.map_eq_nil_iff] at hts
  subst hts
  exact ext_iff.mpr ⟨ha, hl⟩

theorem Spans.cons (h : c.Spans (l :: ls) d) : c.current.lex = l ∧ c.next.Spans ls d := by
  obtain ⟨ts, hts, ha, hl⟩ := h
  obtain ⟨t, ts', rfl, ht, hts'⟩ := List.map_eq_cons_iff.mp hts
  refine ⟨by rw [current_of_ahead ha]; exact ht, ts', hts', by simp [ha], by simp [hl]⟩

theorem Spans.kind (h : c.Spans (l :: ls) d) : c.current.kind = l.1 := by
  have := congrArg Prod.fst h.cons.1
  simpa [Token.lex] using this

theorem Spans.single (h : c.Spans [l] d) : c.current.lex = l ∧ d = c.next :=
  ⟨h.cons.1, h.cons.2.eq_of_nil.symm⟩

theorem Spans.append (h : c.Spans (ls ++ ls') e) : ∃ d, c.Spans ls d ∧ d.Spans ls' e := by
  obtain ⟨ts, hts, ha, hl⟩ := h
  obtain ⟨ts1, ts2, rfl, h1, h2⟩ := List.map_eq_append_iff.mp hts
  have hne : ∀ t ∈ ts2 ++ e.ahead, t.kind ≠ .eof := fun t ht =>
    c.ahead_ne_eof t (by rw [ha]; simp only [List.mem_append] at ht ⊢; rcases ht with ht | ht <;> simp [ht])
  exact ⟨⟨ts2 ++ e.ahead, c.last, hne, c.last_eof⟩, ⟨ts1, h1, by simp [ha], rfl⟩,
    ⟨ts2, h2, rfl, hl⟩⟩

theorem Spans.cons_append (h : c.Spans (l :: (ls ++ ls')) e) :
    ∃ d, c.next.Spans ls d ∧ d.Spans ls' e :=
  h.cons.2.append

end Cursor

def TokenKind.bindsBelow (k : TokenKind) (n : Nat) : Prop :=
  ∀ op, BinaryOp.ofKind? k = some op → op.precedence < n

theorem TokenKind.bindsBelow_of_le {k : TokenKind} {n m : Nat} (h : k.bindsBelow n) (hnm : n ≤ m) :
    k.bindsBelow m :=
  fun op hop => Nat.lt_of_lt_of_le (h op hop) hnm

theorem TokenKind.bindsBelow_of_ofKind? {k : TokenKind} (h : BinaryOp.ofKind? k = none) (n : Nat) :
    k.bindsBelow n := by
  intro op hop
  rw [h] at hop
  cases hop

def TokenKind.endsType (k : TokenKind) : Prop :=
  k ≠ .openParen ∧ k ≠ .kwInt ∧ k ≠ .kwBool ∧ k ≠ .kwFunc

theorem BinaryOp.ofKind?_kind (op : BinaryOp) : BinaryOp.ofKind? op.kind = some op := by
  cases op <;> rfl

theorem UnaryOp.ofKind?_kind (op : UnaryOp) : UnaryOp.ofKind? op.kind = some op := by
  cases op <;> rfl

theorem Cursor.opAt?_eq_none {c : Cursor} {l : Level} (h : c.current.kind.bindsBelow l.precedence) :
    c.opAt? l = none := by
  unfold Cursor.opAt?
  split
  · next op hop =>
    have hlt := h op hop
    split
    · next heq =>
      rw [BinaryOp.precedence, heq] at hlt
      exact absurd hlt (Nat.lt_irrefl _)
    · rfl
  · rfl

@[simp] theorem TokenKind.lex_fst (k : TokenKind) : k.lex.1 = k := rfl

theorem Token.kind_of_lex {t : Token} {l : Lex} (h : t.lex = l) : t.kind = l.1 :=
  congrArg Prod.fst h

theorem Token.text_of_lex {t : Token} {l : Lex} (h : t.lex = l) : t.text = l.2 :=
  congrArg Prod.snd h

theorem commaLexes_cons (l : List Lex) (ls : List (List Lex)) :
    commaLexes (l :: ls) = l ++ ls.flatMap (TokenKind.comma.lex :: ·) := by
  induction ls generalizing l with
  | nil => simp [commaLexes]
  | cons l' ls ih =>
    rw [commaLexes, List.intercalate_cons_cons, ← commaLexes, ih]
    simp

theorem Ty.lexes_head (t : Ty) : ∃ l rest, t.lexes = l :: rest ∧
    (l.1 = .kwInt ∨ l.1 = .kwBool ∨ l.1 = .kwFunc) := by
  cases t with
  | basic b =>
    cases b with
    | int => exact ⟨_, _, rfl, .inl rfl⟩
    | bool => exact ⟨_, _, rfl, .inr (.inl rfl)⟩
  | func _ _ => exact ⟨TokenKind.kwFunc.lex, _, rfl, .inr (.inr rfl)⟩

theorem Cursor.kind_of_spans_commas {ls : List (List Lex)} {c d : Cursor}
    (h : c.Spans (ls.flatMap (TokenKind.comma.lex :: ·)) d) :
    c.current.kind = .comma ∨ c = d := by
  cases ls with
  | nil => exact .inr h.eq_of_nil
  | cons l ls => exact .inl h.kind

section ReadTypes

open Reader Cursor

mutual

theorem Ty.readsBack : ∀ (t : Ty) {c d : Cursor}, c.Spans t.lexes d →
    d.current.kind.endsType → ∃ t', Reads type c (.type (some t')) d ∧ t.same t'
  | .basic .int, c, d, h, _ => by
    obtain ⟨h1, rfl⟩ := h.single
    exact ⟨.basic .int, .typeInt (Token.kind_of_lex h1), by simp [Ty.same]⟩
  | .basic .bool, c, d, h, _ => by
    obtain ⟨h1, rfl⟩ := h.single
    exact ⟨.basic .bool, .typeBool (Token.kind_of_lex h1), by simp [Ty.same]⟩
  | .func ps rs, c, d, h, hd => by
    simp only [Ty.lexes] at h
    obtain ⟨k1, h⟩ := h.cons
    obtain ⟨k2, h⟩ := h.cons
    obtain ⟨m, hps, h⟩ := h.append
    obtain ⟨k3, hrs⟩ := h.cons
    obtain ⟨ps', rps, sps⟩ := Ty.readsList ps hps (Token.kind_of_lex k3)
    obtain ⟨rs', rrs, srs⟩ := Ty.readsResults rs hrs hd
    refine ⟨.func ps' rs', .typeFunc (Token.kind_of_lex k1) (.funcType (Token.kind_of_lex k1)
      (Token.kind_of_lex k2) rps (Token.kind_of_lex k3) rrs), ?_⟩
    simp [Ty.same, sps, srs]

theorem Ty.readsList : ∀ (ts : List Ty) {c d : Cursor}, c.Spans (commaLexes (Ty.lexesAll ts)) d →
    d.current.kind = .closeParen → ∃ ts', Reads typeList c (.types ts') d ∧ Ty.sameAll ts ts'
  | [], c, d, h, hd => by
    have h : c = d := h.eq_of_nil
    subst h
    exact ⟨[], .typeListNil (.typeNone (by rw [hd]; decide) (by rw [hd]; decide)
      (by rw [hd]; decide)), rfl⟩
  | t :: ts, c, d, h, hd => by
    rw [Ty.lexesAll, commaLexes_cons] at h
    obtain ⟨m, ht, hts⟩ := h.append
    have hm : m.current.kind.endsType := by
      rcases kind_of_spans_commas hts with hk | rfl <;> simp [TokenKind.endsType, *]
    obtain ⟨t', rt, st⟩ := Ty.readsBack t ht hm
    obtain ⟨ts', rts, sts⟩ := Ty.readsMore ts hts hd
    exact ⟨t' :: ts', .typeListCons rt rts, by simp [Ty.sameAll, st, sts]⟩

theorem Ty.readsMore : ∀ (ts : List Ty) {c d : Cursor},
    c.Spans ((Ty.lexesAll ts).flatMap (TokenKind.comma.lex :: ·)) d →
    d.current.kind = .closeParen → ∃ ts', Reads moreTypes c (.types ts') d ∧ Ty.sameAll ts ts'
  | [], c, d, h, hd => by
    have h : c = d := h.eq_of_nil
    subst h
    exact ⟨[], .moreTypesNil (by rw [hd]; decide), rfl⟩
  | t :: ts, c, d, h, hd => by
    simp only [Ty.lexesAll, List.flatMap_cons, List.cons_append] at h
    obtain ⟨k, h⟩ := h.cons
    obtain ⟨m, ht, hts⟩ := h.append
    have hm : m.current.kind.endsType := by
      rcases kind_of_spans_commas hts with hk | rfl <;> simp [TokenKind.endsType, *]
    obtain ⟨t', rt, st⟩ := Ty.readsBack t ht hm
    obtain ⟨ts', rts, sts⟩ := Ty.readsMore ts hts hd
    exact ⟨t' :: ts', .moreTypesCons (Token.kind_of_lex k) rt rts, by simp [Ty.sameAll, st, sts]⟩

theorem Ty.readsResults : ∀ (rs : List Ty) {c d : Cursor},
    c.Spans (resultsLexes (Ty.lexesAll rs)) d → d.current.kind.endsType →
    ∃ rs', Reads results c (.types rs') d ∧ Ty.sameAll rs rs'
  | [], c, d, h, hd => by
    have h : c = d := h.eq_of_nil
    subst h
    exact ⟨[], .resultsBare hd.1 (.typeNone hd.2.1 hd.2.2.1 hd.2.2.2), rfl⟩
  | [r], c, d, h, hd => by
    simp only [Ty.lexesAll, resultsLexes] at h
    obtain ⟨l, rest, hl, hk⟩ := Ty.lexes_head r
    have hc : c.current.kind = l.1 := by rw [hl] at h; exact h.kind
    obtain ⟨r', rr, sr⟩ := Ty.readsBack r h hd
    refine ⟨[r'], .resultsBare ?_ rr, by simp [Ty.sameAll, sr]⟩
    rw [hc]
    rcases hk with hk | hk | hk <;> rw [hk] <;> decide
  | r₁ :: r₂ :: rs, c, d, h, hd => by
    simp only [Ty.lexesAll, resultsLexes, commaLexes_cons, List.append_assoc] at h
    obtain ⟨k1, h⟩ := h.cons
    obtain ⟨m', h1, h⟩ := h.append
    obtain ⟨m, hrest, hclose⟩ := h.append
    obtain ⟨k2, rfl⟩ := hclose.single
    have hrest' : m'.Spans ((Ty.lexesAll (r₂ :: rs)).flatMap (TokenKind.comma.lex :: ·)) m := by
      simpa [Ty.lexesAll] using hrest
    have hm' : m'.current.kind.endsType := by
      rw [Ty.lexesAll, List.flatMap_cons, List.cons_append] at hrest'
      simp [TokenKind.endsType, hrest'.kind]
    obtain ⟨r₁', rr1, sr1⟩ := Ty.readsBack r₁ h1 hm'
    obtain ⟨rs', rrs, srs⟩ := Ty.readsMore (r₂ :: rs) hrest' (Token.kind_of_lex k2)
    exact ⟨r₁' :: rs', .resultsList (Token.kind_of_lex k1) (.typeListCons rr1 rrs)
      (Token.kind_of_lex k2), by simp [Ty.sameAll, sr1, srs]⟩

end

end ReadTypes

theorem Reader.operand_of_tighter {l m : Level} (h : l.tighter = some m) :
    Reader.operand l = Reader.level m := by
  simp [Reader.operand, h]

namespace Level

theorem eq_of_precedence {l m : Level} (h : l.precedence = m.precedence) : l = m := by
  cases l <;> cases m <;> first | rfl | (simp [precedence] at h)

theorem precedence_le (l : Level) : l.precedence ≤ 5 := by
  cases l <;> simp [precedence]

theorem one_le_precedence (l : Level) : 1 ≤ l.precedence := by
  cases l <;> simp [precedence]

theorem exists_tighter {l : Level} (h : l.precedence < 5) : ∃ m, l.tighter = some m := by
  cases l <;> simp_all [tighter, precedence]

end Level

theorem Expr.one_le_precedence {x : Expr} (h : x.isFunc = false) : 1 ≤ x.precedence := by
  cases x <;> simp_all [Expr.isFunc, Expr.precedence, BinaryOp.precedence, Level.one_le_precedence]

namespace Reader

open Cursor

variable {c d : Cursor} {x : Expr}

theorem Reads.level_of_level {m : Level} (h : Reads (Reader.level m) c (.expr x) d) :
    ∀ (n : Nat) (l : Level), l.precedence + n = m.precedence →
      d.current.kind.bindsBelow l.precedence → Reads (Reader.level l) c (.expr x) d
  | 0, l, hl, _ => by
    rw [Level.eq_of_precedence (by omega : l.precedence = m.precedence)]
    exact h
  | n + 1, l, hl, hd => by
    have := m.precedence_le
    obtain ⟨l', hl'⟩ := Level.exists_tighter (by omega : l.precedence < 5)
    have hp := Level.precedence_tighter hl'
    have ih := Reads.level_of_level h n l' (by omega) (TokenKind.bindsBelow_of_le hd (by omega))
    exact .level (by rw [operand_of_tighter hl']; exact ih) (.levelRestStop (opAt?_eq_none hd))

theorem Reads.level_of_unary (h : Reads Reader.unary c (.expr x) d) (l : Level)
    (hd : d.current.kind.bindsBelow l.precedence) : Reads (Reader.level l) c (.expr x) d := by
  have := l.precedence_le
  have hm : Reads (Reader.level .multiplicative) c (.expr x) d :=
    .level h (.levelRestStop (opAt?_eq_none (TokenKind.bindsBelow_of_le hd this)))
  exact hm.level_of_level (5 - l.precedence) l (by show l.precedence + (5 - l.precedence) = 5; omega) hd

theorem Reads.operand_of_unary (h : Reads Reader.unary c (.expr x) d) (l : Level)
    (hd : d.current.kind.bindsBelow (l.precedence + 1)) : Reads (operand l) c (.expr x) d := by
  cases hl : l.tighter with
  | none =>
    have : l = .multiplicative := by cases l <;> simp_all [Level.tighter]
    subst this
    exact h
  | some m =>
    rw [operand_of_tighter hl]
    exact h.level_of_unary m (by rw [← Level.precedence_tighter hl]; exact hd)

theorem Reads.levelRest_looser {k : Level}
    (own : d.current.kind.bindsBelow (k.precedence + 1) →
      ∀ v e, Reads (levelRest k x) d v e → Reads (Reader.level k) c v e)
    (L : Level) (hL : L.precedence ≤ k.precedence)
    (hd : d.current.kind.bindsBelow (L.precedence + 1)) :
    ∀ v e, Reads (levelRest L x) d v e → Reads (Reader.level L) c v e := by
  by_cases hE : L = k
  · subst hE
    exact own hd
  have hlt : L.precedence < k.precedence :=
    Nat.lt_of_le_of_ne hL fun h => hE (Level.eq_of_precedence h)
  have rx : Reads (Reader.level k) c (.expr x) d :=
    own (TokenKind.bindsBelow_of_le hd (by omega)) _ _
      (.levelRestStop (opAt?_eq_none (TokenKind.bindsBelow_of_le hd (by omega))))
  obtain ⟨M, hM⟩ := Level.exists_tighter (by have := k.precedence_le; omega : L.precedence < 5)
  have hMp := Level.precedence_tighter hM
  have rM := rx.level_of_level (k.precedence - M.precedence) M (by omega) (hMp ▸ hd)
  exact fun v e h => .level (by rw [operand_of_tighter hM]; exact rM) h

end Reader

structure Expr.ReadsBack (x : Expr) : Prop where
  unary : 6 ≤ x.precedence → ∀ {c d : Cursor}, c.Spans x.lexes d →
    ∃ x', Reader.Reads .unary c (.expr x') d ∧ x.same x'
  level : ∀ (l : Level), l.precedence ≤ x.precedence → ∀ {c d : Cursor}, c.Spans x.lexes d →
    d.current.kind.bindsBelow (l.precedence + 1) →
    ∃ x', x.same x' ∧ ∀ v e, Reader.Reads (.levelRest l x') d v e → Reader.Reads (.level l) c v e

namespace Expr.ReadsBack

open Reader Cursor

variable {c d : Cursor} {x : Expr}

theorem of_unary
    (hu : ∀ {c d : Cursor}, c.Spans x.lexes d → ∃ x', Reads Reader.unary c (.expr x') d ∧ x.same x') :
    x.ReadsBack where
  unary _ := hu
  level l _ c d hs hd := by
    obtain ⟨x', r, hx⟩ := hu hs
    exact ⟨x', hx, fun v e hr => .level (r.operand_of_unary l hd) hr⟩

theorem read (h : x.ReadsBack) (l : Level) (hl : l.precedence ≤ x.precedence)
    (hs : c.Spans x.lexes d) (hd : d.current.kind.bindsBelow l.precedence) :
    ∃ x', Reads (Reader.level l) c (.expr x') d ∧ x.same x' := by
  obtain ⟨x', hx, hk⟩ := h.level l hl hs (TokenKind.bindsBelow_of_le hd (by omega))
  exact ⟨x', hk _ _ (.levelRestStop (opAt?_eq_none hd)), hx⟩

theorem paren (h : x.ReadsBack) (hx : 1 ≤ x.precedence)
    (hs : c.Spans (parenLexes true x.lexes) d) : ∃ x', Reads Reader.unary c (.expr x') d ∧ x.same x' := by
  simp only [parenLexes, if_true] at hs
  obtain ⟨k1, hs⟩ := hs.cons
  obtain ⟨m, hx', hclose⟩ := hs.append
  obtain ⟨k2, rfl⟩ := hclose.single
  have hm : m.current.kind.bindsBelow Level.disjunction.precedence :=
    TokenKind.bindsBelow_of_ofKind? (by rw [Token.kind_of_lex k2]; rfl) _
  obtain ⟨x', rx, sx⟩ := h.read .disjunction hx hx' hm
  have hk1 := Token.kind_of_lex k1
  exact ⟨x', .unaryPrimary (by rw [hk1]; rfl)
    (.primaryGroup hk1 (.group hk1 rx (Token.kind_of_lex k2))), sx⟩

theorem right (h : x.ReadsBack) (hx : 1 ≤ x.precedence) (l : Level)
    (hs : c.Spans (parenLexes (decide (x.precedence < l.precedence + 1)) x.lexes) d)
    (hd : d.current.kind.bindsBelow (l.precedence + 1)) :
    ∃ x', Reads (operand l) c (.expr x') d ∧ x.same x' := by
  by_cases hp : x.precedence < l.precedence + 1
  · rw [decide_eq_true hp] at hs
    obtain ⟨x', r, sx⟩ := h.paren hx hs
    exact ⟨x', r.operand_of_unary l hd, sx⟩
  · rw [decide_eq_false hp] at hs
    cases hl : l.tighter with
    | none =>
      have : l = .multiplicative := by cases l <;> simp_all [Level.tighter]
      subst this
      exact h.unary (by simp [Level.precedence] at hp; omega) hs
    | some m =>
      have hm := Level.precedence_tighter hl
      obtain ⟨x', r, sx⟩ := h.read m (by omega) hs (by rw [← hm]; exact hd)
      exact ⟨x', by rw [operand_of_tighter hl]; exact r, sx⟩

theorem left (h : x.ReadsBack) (hx : 1 ≤ x.precedence) (l : Level)
    (hs : c.Spans (parenLexes (decide (x.precedence < l.precedence)) x.lexes) d)
    (hd : d.current.kind.bindsBelow (l.precedence + 1)) :
    ∃ x', x.same x' ∧ ∀ v e, Reads (levelRest l x') d v e → Reads (Reader.level l) c v e := by
  by_cases hp : x.precedence < l.precedence
  · rw [decide_eq_true hp] at hs
    obtain ⟨x', r, sx⟩ := h.paren hx hs
    exact ⟨x', sx, fun v e hr => .level (r.operand_of_unary l hd) hr⟩
  · rw [decide_eq_false hp] at hs
    exact h.level l (by omega) hs hd

theorem unaryOp {op : UnaryOp} {e : Expr} {p : Position} (he : e.ReadsBack) (he1 : 1 ≤ e.precedence) :
    (Expr.unary op e p).ReadsBack := by
  refine of_unary fun {c d} hs => ?_
  obtain ⟨k, hs⟩ := Spans.cons hs
  obtain ⟨e', re, se⟩ : ∃ e', Reads Reader.unary c.next (.expr e') d ∧ e.same e' := by
    by_cases hp : e.precedence < UnaryOp.precedence
    · rw [decide_eq_true hp] at hs
      exact he.paren he1 hs
    · rw [decide_eq_false hp] at hs
      exact he.unary (by simp [UnaryOp.precedence] at hp; omega) hs
  have hk : UnaryOp.ofKind? c.current.kind = some op := by
    rw [Token.kind_of_lex k]
    exact UnaryOp.ofKind?_kind op
  exact ⟨_, .unaryOp hk re, by simp [Expr.same, se]⟩

theorem binaryOp {op : BinaryOp} {l r : Expr} {p : Position} (hl : l.ReadsBack) (hr : r.ReadsBack)
    (hl1 : 1 ≤ l.precedence) (hr1 : 1 ≤ r.precedence) : (Expr.binary op l r p).ReadsBack := by
  have hop : (Expr.binary op l r p).precedence = op.level.precedence := rfl
  have own : ∀ {c d : Cursor}, c.Spans (Expr.binary op l r p).lexes d →
      d.current.kind.bindsBelow (op.level.precedence + 1) →
      ∃ x', (Expr.binary op l r p).same x' ∧
        ∀ v e, Reads (levelRest op.level x') d v e → Reads (Reader.level op.level) c v e := by
    intro c d hs hd
    obtain ⟨m, hsl, hsr⟩ := Spans.append hs
    obtain ⟨k, hsr⟩ := hsr.cons
    have hk : m.current.kind = op.kind := Token.kind_of_lex k
    have hm : m.current.kind.bindsBelow (op.level.precedence + 1) := by
      intro o ho
      rw [hk, BinaryOp.ofKind?_kind, Option.some.injEq] at ho
      subst ho
      exact Nat.lt_succ_self _
    have hat : m.opAt? op.level = some op := by simp [Cursor.opAt?, hk, BinaryOp.ofKind?_kind]
    obtain ⟨l', sl, kl⟩ := hl.left hl1 op.level hsl hm
    obtain ⟨r', rr, sr⟩ := hr.right hr1 op.level hsr hd
    exact ⟨.binary op l' r' m.current.start, by simp [Expr.same, sl, sr],
      fun v e h => kl v e (.levelRestStep hat rr h)⟩
  refine ⟨fun h6 => absurd h6 (by have := op.level.precedence_le; omega), fun L hL c d hs hd => ?_⟩
  have hL' : L.precedence ≤ op.level.precedence := hop ▸ hL
  obtain ⟨x', sx, kx⟩ := own hs (TokenKind.bindsBelow_of_le hd (by omega))
  exact ⟨x', sx, Reads.levelRest_looser (fun _ => kx) L hL' hd⟩

end Expr.ReadsBack

theorem decimalValue_toString (v : Nat) : decimalValue (toString v) = v := by
  have h : (toString v).toList = Nat.toDigits 10 v := by simp
  rw [decimalValue, h]
  exact Nat.ofDigitChars_ten_toDigits

theorem Token.integer_of_text {t : Token} {v : Nat} (h : t.text = toString v)
    (hv : v ≤ 9223372036854775807) :
    t.integer = .ok (.integer v t.start) := by
  have hd : ∀ c ∈ (toString v).toList, c.isDigit := by
    simpa using fun x hx => Nat.isDigit_of_mem_toDigits (by decide) (by decide) hx
  unfold Token.integer
  rw [h, Text.toInt64?_of_digits (by simp) hd, decimalValue_toString, if_pos hv]

open Reader Cursor in
/-- The printed tokens of every shaped expression that is not a function literal read back as
the same expression. -/
theorem Expr.readsBack : ∀ x : Expr, x.shaped → x.isFunc = false → x.ReadsBack
  | .name n p, _, _ => .of_unary fun {c d} hs => by
    obtain ⟨k, rfl⟩ := Spans.single hs
    have hk := Token.kind_of_lex k
    refine ⟨_, .unaryPrimary (by rw [hk]; rfl) (.primaryName hk), ?_⟩
    simp [Expr.same, Token.text_of_lex k]
  | .integer v p, hx, _ => .of_unary fun {c d} hs => by
    obtain ⟨k, rfl⟩ := Spans.single hs
    have hk := Token.kind_of_lex k
    have hv : 0 ≤ v ∧ v ≤ 9223372036854775807 := by simpa [Expr.shaped] using hx
    obtain ⟨m, rfl⟩ := Int.eq_ofNat_of_zero_le hv.1
    exact ⟨_, .unaryPrimary (by rw [hk]; rfl)
      (.primaryInteger hk (Token.integer_of_text (Token.text_of_lex k) (by omega))),
      by simp [Expr.same]⟩
  | .boolean b p, _, _ => .of_unary fun {c d} hs => by
    obtain ⟨k, rfl⟩ := Spans.single hs
    have hk := Token.kind_of_lex k
    cases b
    · exact ⟨_, .unaryPrimary (by rw [hk]; rfl) (.primaryFalse hk), by simp [Expr.same]⟩
    · exact ⟨_, .unaryPrimary (by rw [hk]; rfl) (.primaryTrue hk), by simp [Expr.same]⟩
  | .unary op e p, hx, _ => by
    have he : e.isFunc = false ∧ e.shaped := by simpa [Expr.shaped] using hx
    exact .unaryOp (Expr.readsBack e he.2 he.1) (Expr.one_le_precedence he.1)
  | .binary op l r p, hx, _ => by
    have h : ((l.isFunc = false ∧ r.isFunc = false) ∧ l.shaped) ∧ r.shaped := by
      simpa [Expr.shaped] using hx
    exact .binaryOp (Expr.readsBack l h.1.2 h.1.1.1) (Expr.readsBack r h.2 h.1.1.2)
      (Expr.one_le_precedence h.1.1.1) (Expr.one_le_precedence h.1.1.2)

end ScriptFront
