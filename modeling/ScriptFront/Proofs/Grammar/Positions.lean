import ScriptFront.Proofs.Tree.Anchors
import ScriptFront.Proofs.Print.Necessary
import ScriptFront.Proofs.Grammar.Loop
/-!
# Node positions follow the source

Every position that a reading records is the start of a token that the reading reads, and the
token is the one the node's anchor asks for (`Reader.Reads.hosts`): the readers take each
position from the token under the cursor, an operator's after its left operand, and they pass
the positions of what they are given (a left operand, the names of a parameter run, a loop's
first clause, a chain's first `if`) on unchanged. Since the tokens of a scanned source start one
after the other, the positions inside each node come in source order (`Reader.Reads.ordered`).
The main statement is `node_positions`.
-/

set_option autoImplicit false

namespace ScriptFront

namespace Cursor

def Sits (c d : Cursor) (a : Position × Anchor) : Prop :=
  ∃ t ∈ c.readTo d, t.start = a.1 ∧ a.2.Fits t

def Hosts (c d : Cursor) (as : List (Position × Anchor)) : Prop := ∀ a ∈ as, c.Sits d a

variable {c0 c d e x : Cursor} {a : Position × Anchor} {as bs : List (Position × Anchor)}

theorem Follows.next (h : c.Follows c0) : c.next.Follows c0 := (next_follows c).trans h

theorem hosts_nil (c d : Cursor) : c.Hosts d [] := by simp [Hosts]

theorem Hosts.cons (ha : c.Sits d a) (h : c.Hosts d as) : c.Hosts d (a :: as) := by
  intro a' ha'
  rcases List.mem_cons.mp ha' with rfl | ha'
  · exact ha
  · exact h a' ha'

theorem Hosts.head (h : c.Hosts d (a :: as)) : c.Sits d a := h a List.mem_cons_self

theorem Hosts.of_cons (h : c.Hosts d (a :: as)) : c.Hosts d as :=
  fun a' ha' => h a' (List.mem_cons_of_mem _ ha')

theorem Hosts.append (h1 : c.Hosts d as) (h2 : c.Hosts d bs) : c.Hosts d (as ++ bs) := by
  intro a ha
  rcases List.mem_append.mp ha with ha | ha
  · exact h1 a ha
  · exact h2 a ha

theorem Sits.later (h : c.Sits d a) (hle : e.ahead.length ≤ d.ahead.length) : c.Sits e a := by
  obtain ⟨t, ht, h1, h2⟩ := h
  refine ⟨t, (List.take_prefix_take_left (by omega)).subset ht, h1, h2⟩

theorem Hosts.later (h : c.Hosts d as) (hle : e.ahead.length ≤ d.ahead.length) : c.Hosts e as :=
  fun a ha => (h a ha).later hle

theorem sits_current {an : Anchor} (hx : x.Follows c) (hlt : d.ahead.length < x.ahead.length)
    (hf : an.Fits x.current) : c.Sits d (x.current.start, an) := by
  obtain ⟨pre, hpre⟩ := hx.1
  have hne : x.ahead ≠ [] := List.ne_nil_of_length_pos (by omega)
  obtain ⟨t, rest, hxa⟩ := List.exists_cons_of_ne_nil hne
  have hlen : c.ahead.length = pre.length + (rest.length + 1) := by
    rw [← hpre, hxa, List.length_append, List.length_cons]
  rw [hxa, List.length_cons] at hlt
  obtain ⟨k, hk⟩ : ∃ k, c.ahead.length - d.ahead.length = pre.length + (k + 1) :=
    ⟨rest.length - d.ahead.length, by omega⟩
  refine ⟨x.current, ?_, rfl, hf⟩
  rw [current_of_ahead hxa, readTo, hk, ← hpre, hxa, List.take_length_add_append,
    List.take_succ_cons]
  exact List.mem_append_right _ List.mem_cons_self

def Rising (c : Cursor) : Prop := c.ahead.Pairwise fun t u => t.start.Before u.start

def Holds (d : Cursor) (as : List (Position × Anchor)) : Prop :=
  ∀ a ∈ as, ∃ t ∈ d.ahead, t.start = a.1 ∧ a.2.Fits t

theorem Rising.follows (hc : c.Rising) (hd : d.Follows c) : d.Rising :=
  List.Pairwise.sublist hd.1.sublist hc

theorem Rising.before (hc : c.Rising) (hx : x.Follows c) {t u : Token} (ht : t ∈ c.readTo x)
    (hu : u ∈ x.ahead) : t.start.Before u.start := by
  unfold Rising at hc
  rw [← readTo_append hx] at hc
  exact (List.pairwise_append.mp hc).2.2 t ht u hu

theorem Rising.current_atOrBefore (hc : c.Rising) {u : Token} (hu : u ∈ c.ahead) :
    c.current.start.AtOrBefore u.start := by
  obtain ⟨t, rest, h⟩ := List.exists_cons_of_ne_nil (List.ne_nil_of_mem hu)
  unfold Rising at hc
  rw [current_of_ahead h]
  rw [h] at hu hc
  rcases List.mem_cons.mp hu with rfl | hu
  · exact Position.atOrBefore_refl _
  · exact Position.atOrBefore_of_before (List.rel_of_pairwise_cons hc hu)

theorem Rising.current_before (hc : c.Rising) {u : Token} (hu : u ∈ c.next.ahead) :
    c.current.start.Before u.start := by
  unfold Rising at hc
  rw [ahead_next] at hu
  cases h : c.ahead with
  | nil => simp [h] at hu
  | cons t rest =>
    rw [h] at hu hc
    rw [current_of_ahead h]
    exact List.rel_of_pairwise_cons hc hu

theorem current_mem (h : c.ahead ≠ []) : c.current ∈ c.ahead := by
  obtain ⟨t, rest, h⟩ := List.exists_cons_of_ne_nil h
  rw [current_of_ahead h, h]
  exact List.mem_cons_self

theorem Sits.ahead (h : c.Sits d a) : ∃ t ∈ c.ahead, t.start = a.1 ∧ a.2.Fits t := by
  obtain ⟨t, ht, h1, h2⟩ := h
  exact ⟨t, List.mem_of_mem_take ht, h1, h2⟩

theorem Sits.before (h : c.Sits x a) (hc : c.Rising) (hx : x.Follows c) {u : Token}
    (hu : u ∈ x.ahead) : a.1.Before u.start := by
  obtain ⟨t, ht, he, -⟩ := h
  rw [← he]
  exact hc.before hx ht hu

theorem Hosts.holds (h : c.Hosts d as) : c.Holds as := fun a ha => (h a ha).ahead

theorem Hosts.leads (h : c.Hosts d as) (hc : c.Rising) : c.current.start.Leads as := by
  intro a ha
  obtain ⟨t, ht, he, -⟩ := (h a ha).ahead
  rw [← he]
  exact hc.current_atOrBefore ht

theorem Hosts.after (h : c.next.Hosts d as) (hc : c.Rising) :
    ∀ a ∈ as, c.current.start.Before a.1 := by
  intro a ha
  obtain ⟨t, ht, he, -⟩ := (h a ha).ahead
  rw [← he]
  exact hc.current_before ht

end Cursor

/-! ## What each reading records -/

def Outcome.anchors : Outcome → List (Position × Anchor)
  | .expr x => x.anchors
  | .exprs xs => Expr.anchorsAll xs
  | .cond x => Expr.anchorsOpt x
  | .stmt s => s.anchors
  | .post s => Stmt.anchorsOpt s
  | .stmts ss => Stmt.anchorsAll ss
  | .block b => b.anchors
  | .chain (bs, o) => Branch.anchorsAll bs ++ Block.anchorsOpt o
  | .clauses (shape, b) => shape.anchors ++ b.anchors
  | .names bs => bs.map Binding.anchor
  | .params ps => ps.map Param.anchor
  | .type _ | .funcType _ | .types _ => []

namespace Reader

def argAnchors : Reader → List (Position × Anchor)
  | paramRun pending done => pending.map Binding.anchor ++ done.map Param.anchor
  | levelRest _ left => left.anchors
  | clauses init => Stmt.anchorsOpt init
  | branches pos => [(pos, .kind .kwIf)]
  | _ => []

theorem argAnchors_operand (l : Level) : (operand l).argAnchors = [] := by
  cases l <;> rfl

open Cursor in
theorem hosts_paramStep {c d : Cursor} {pending : List Binding} {done : List Param} {b : Binding}
    (ty : Option Ty) (h : c.Hosts d (paramRun pending done).argAnchors) (hb : c.Sits d b.anchor) :
    c.Hosts d
      (paramRun (paramStep pending done b ty).1 (paramStep pending done b ty).2).argAnchors := by
  have hp : c.Hosts d (pending.map Binding.anchor) := fun a ha => h a (List.mem_append_left _ ha)
  have hd : c.Hosts d (done.map Param.anchor) := fun a ha => h a (List.mem_append_right _ ha)
  have htyped : ∀ t : Ty, Param.anchor ∘ Binding.typed t = Binding.anchor := fun _ => rfl
  cases ty with
  | some t =>
    simp only [paramStep, argAnchors, List.map_nil, List.nil_append, List.map_append,
      List.map_map, htyped]
    exact hd.append (hp.append (Hosts.cons hb (hosts_nil _ _)))
  | none =>
    simp only [paramStep, argAnchors, List.map_append]
    exact (hp.append (Hosts.cons hb (hosts_nil _ _))).append hd

theorem bindingsOf_anchors {xs : List Expr} {ns : List Binding} (h : bindingsOf xs = .ok ns) :
    ns.map Binding.anchor = Expr.anchorsAll xs := by
  induction xs generalizing ns with
  | nil =>
    simp only [bindingsOf, List.mapM_nil] at h
    cases h
    rfl
  | cons x xs ih =>
    cases x with
    | name n p =>
      rw [bindingsOf_cons_name] at h
      obtain ⟨bs, hbs, rfl⟩ := Except.map_eq_ok.mp h
      rw [List.map_cons, ih hbs]
      rfl
    | _ => simp [bindingsOf, List.mapM_cons] at h

open Cursor in
/-- Every position that a reading records stands at a token that it reads and that fits the
node, or is a position of what the reader was given, passed on. -/
theorem Reads.hosts {r : Reader} {c : Cursor} {v : Outcome} {d : Cursor} (h : Reads r c v d) :
    ∀ c0 : Cursor, c.Follows c0 → c0.Hosts c r.argAnchors → c0.Hosts d v.anchors := by
  induction h with
  | typeInt | typeBool | typeFunc | typeNone | funcType | typeListNil | typeListCons
  | moreTypesCons | moreTypesNil | resultsList | resultsBare | paramsNone | moreExprsNil
  | condNone | postNone | blockBodyEnd => exact fun _ _ _ => hosts_nil _ _
  | paramsSome _ _ ih | primaryGroup _ _ ih | unaryPrimary _ _ ih | exprFunc _ _ ih
  | exprOr _ _ ih | condSome _ _ ih | headVar _ _ ih | headIf _ _ ih | headFor _ _ ih
  | headReturn _ _ ih | headSimple _ _ ih | headBlock _ _ ih | postSome _ _ _ ih =>
    exact fun c0 hc _ => ih c0 hc (hosts_nil _ _)
  | levelRestStop => exact fun _ _ ha => ha
  | @namesMore c bs d k1 k2 s ih =>
    intro c0 hc _
    have l1 := next_lt (by decide) k1
    have l2 := s.follows.length_le
    have l3 := c.next.length_next_le
    exact .cons (sits_current hc (by omega) ⟨k1, rfl⟩) (ih c0 hc.next.next (hosts_nil _ _))
  | @namesLast c k1 _ =>
    intro c0 hc _
    exact .cons (sits_current hc (next_lt (by decide) k1) ⟨k1, rfl⟩) (hosts_nil _ _)
  | @paramRunMore pending done c ty d ps e k1 s1 _ s2 ih1 ih2 =>
    intro c0 hc ha
    have l1 := next_lt (by decide) k1
    have l2 := s1.follows.length_le
    have l3 := d.length_next_le
    have hb : c0.Sits d.next c.current.binding.anchor :=
      sits_current hc (by omega) ⟨k1, rfl⟩
    exact ih2 c0 (s1.follows.trans hc.next).next (hosts_paramStep ty (ha.later (by omega)) hb)
  | @paramRunLast pending done c ty d ps k1 s1 _ hs =>
    intro c0 hc ha
    have l1 := next_lt (by decide) k1
    have l2 := s1.follows.length_le
    have hb : c0.Sits d c.current.binding.anchor := sits_current hc (by omega) ⟨k1, rfl⟩
    have g := hosts_paramStep ty (ha.later (by omega)) hb
    rw [hs] at g
    simpa [argAnchors, Outcome.anchors] using g
  | @levelRestStep l left c op r d v e hop s1 s2 ih1 ih2 =>
    intro c0 hc ha
    have l1 := opAt?_lt hop
    have l2 := s1.follows.length_le
    have g1 : c0.Hosts d r.anchors :=
      ih1 c0 hc.next (by rw [argAnchors_operand]; exact hosts_nil _ _)
    have g2 : c0.Sits d (c.current.start, .binary op) :=
      sits_current hc (by omega) (Cursor.kind_of_opAt? hop).1
    exact ih2 c0 (s1.follows.trans hc.next) ((ha.later (by omega)).append (.cons g2 g1))
  | @moreExprsCons c x d xs e hk s1 s2 ih1 ih2 =>
    intro c0 hc _
    have l := s2.follows.length_le
    exact ((ih1 c0 hc.next (hosts_nil _ _)).later l).append
      (ih2 c0 (s1.follows.trans hc.next) (hosts_nil _ _))
  | @group c x d h1 s h2 ih =>
    intro c0 hc _
    exact (ih c0 hc.next (hosts_nil _ _)).later d.length_next_le
  | @primaryName c hk =>
    intro c0 hc _
    exact .cons (sits_current hc (next_lt (by decide) hk) ⟨hk, rfl⟩) (hosts_nil _ _)
  | @primaryInteger c x hk hx =>
    intro c0 hc _
    obtain ⟨v, hv, rfl⟩ := Token.integer_eq_ok hx
    exact .cons (sits_current hc (next_lt (by decide) hk) ⟨hk, hv⟩) (hosts_nil _ _)
  | @primaryTrue c hk | @primaryFalse c hk =>
    intro c0 hc _
    exact .cons (sits_current hc (next_lt (by decide) hk) hk) (hosts_nil _ _)
  | @unaryOp c op x d hop s ih =>
    intro c0 hc _
    have l1 := unary_lt hop
    have l2 := s.follows.length_le
    exact .cons (sits_current hc (by omega) (UnaryOp.kind_of_ofKind? hop))
      (ih c0 hc.next (hosts_nil _ _))
  | @level l c x d v e s1 s2 ih1 ih2 =>
    intro c0 hc _
    exact ih2 c0 (s1.follows.trans hc)
      (ih1 c0 hc (by rw [argAnchors_operand]; exact hosts_nil _ _))
  | @funcLit c ps d rs e b f h1 h2 s1 h4 s2 s3 ih1 _ ih3 =>
    intro c0 hc _
    have l1 := next_lt (by decide) h1
    have l2 := c.next.length_next_le
    have l3 := s1.follows.length_le
    have l4 := d.length_next_le
    have l5 := s2.follows.length_le
    have l6 := s3.follows.length_le
    have g1 : c0.Hosts d (ps.map Param.anchor) := ih1 c0 hc.next.next (hosts_nil _ _)
    have hd : d.Follows c0 := s1.follows.trans hc.next.next
    exact .cons (sits_current hc (by omega) h1)
      ((g1.later (by omega)).append (ih3 c0 (s2.follows.trans hd.next) (hosts_nil _ _)))
  | @exprList c x d xs e s1 s2 ih1 ih2 =>
    intro c0 hc _
    exact ((ih1 c0 hc (hosts_nil _ _)).later s2.follows.length_le).append
      (ih2 c0 (s1.follows.trans hc) (hosts_nil _ _))
  | @branchesElseIf pos c x d b e bs o f s1 s2 he hi s3 ih1 ih2 ih3 =>
    intro c0 hc ha
    have l1 := s1.follows.length_le
    have l2 := s2.follows.length_le
    have l3 := next_lt (by decide) he
    have l4 := next_lt (by decide) hi
    have l5 := s3.follows.length_le
    have hd : d.Follows c0 := s1.follows.trans hc
    have he' : e.Follows c0 := s2.follows.trans hd
    have g3 := ih3 c0 he'.next.next (.cons (sits_current he'.next (by omega) hi) (hosts_nil _ _))
    simp only [Outcome.anchors, Branch.anchorsAll, List.cons_append, List.append_assoc] at g3 ⊢
    exact .cons (ha.later (by omega)).head (((ih1 c0 hc (hosts_nil _ _)).later (by omega)).append
      (((ih2 c0 hd (hosts_nil _ _)).later (by omega)).append g3))
  | @branchesElse pos c x d b e b' f s1 s2 he hi s3 ih1 ih2 ih3 =>
    intro c0 hc ha
    have l1 := s1.follows.length_le
    have l2 := s2.follows.length_le
    have l3 := next_lt (by decide) he
    have l5 := s3.follows.length_le
    have hd : d.Follows c0 := s1.follows.trans hc
    have he' : e.Follows c0 := s2.follows.trans hd
    simp only [Outcome.anchors, Branch.anchorsAll, Block.anchorsOpt, List.cons_append,
      List.append_assoc, List.append_nil]
    exact .cons (ha.later (by omega)).head (((ih1 c0 hc (hosts_nil _ _)).later (by omega)).append
      (((ih2 c0 hd (hosts_nil _ _)).later (by omega)).append (ih3 c0 he'.next (hosts_nil _ _))))
  | @branchesEnd pos c x d b e s1 s2 he ih1 ih2 =>
    intro c0 hc ha
    have l1 := s1.follows.length_le
    have l2 := s2.follows.length_le
    simp only [Outcome.anchors, Branch.anchorsAll, Block.anchorsOpt, List.cons_append,
      List.append_nil]
    exact .cons (ha.later (by omega)).head (((ih1 c0 hc (hosts_nil _ _)).later (by omega)).append
      (ih2 c0 (s1.follows.trans hc) (hosts_nil _ _)))
  | @simpleSingle c x d s _ _ _ ih =>
    intro c0 hc _
    exact .cons (sits_current hc s.lt_expr (s.startsExpr rfl)) (ih c0 hc (hosts_nil _ _))
  | @simpleAssign c x d xs e vs f s1 _ s2 _ s3 ih1 ih2 ih3 =>
    intro c0 hc _
    have l1 := s1.lt_expr
    have l2 := s2.follows.length_le
    have l3 := e.length_next_le
    have l4 := s3.follows.length_le
    have he : e.Follows c0 := s2.follows.trans (s1.follows.trans hc)
    exact .cons (sits_current hc (by omega) (s1.startsExpr rfl))
      ((((ih1 c0 hc (hosts_nil _ _)).later (by omega)).append
        ((ih2 c0 (s1.follows.trans hc) (hosts_nil _ _)).later (by omega))).append
          (ih3 c0 he.next (hosts_nil _ _)))
  | @simpleDefine c x d xs e ns vs f s1 _ s2 _ hb s3 ih1 ih2 ih3 =>
    intro c0 hc _
    have l1 := s1.lt_expr
    have l2 := s2.follows.length_le
    have l3 := e.length_next_le
    have l4 := s3.follows.length_le
    have he : e.Follows c0 := s2.follows.trans (s1.follows.trans hc)
    have g : c0.Hosts f (ns.map Binding.anchor) := by
      rw [bindingsOf_anchors hb]
      exact ((ih1 c0 hc (hosts_nil _ _)).later (by omega)).append
        ((ih2 c0 (s1.follows.trans hc) (hosts_nil _ _)).later (by omega))
    exact .cons (sits_current hc (by omega) (s1.startsExpr rfl))
      (g.append (ih3 c0 he.next (hosts_nil _ _)))
  | @block c ss d hk s ih =>
    intro c0 hc _
    have hb := Follows.ite_next c.next (c.next.current.kind = .newline)
    have l1 := s.lt_blockBody
    have l2 := hb.length_le
    have l3 := next_lt (by decide) hk
    exact .cons (sits_current hc (by omega) hk) (ih c0 (hb.trans hc.next) (hosts_nil _ _))
  | @blockBodyStmt c s d ss e _ _ s1 s2 ih1 ih2 =>
    intro c0 hc _
    exact ((ih1 c0 hc (hosts_nil _ _)).later s2.follows.length_le).append
      (ih2 c0 (s1.follows.trans hc) (hosts_nil _ _))
  | @varDeclTyped c bs d ty e vs f hk s1 s2 _ s3 ih1 _ ih3
  | @varDeclInferred c bs d e vs f hk s1 s2 _ s3 ih1 _ ih3 =>
    intro c0 hc _
    have he : e.Follows c0 := s2.follows.trans (s1.follows.trans hc.next)
    have l1 := next_lt (by decide) hk
    have l2 := s1.follows.length_le
    have l3 := s2.follows.length_le
    have l4 := e.length_next_le
    have l5 := s3.follows.length_le
    exact .cons (sits_current hc (by omega) hk)
      (((ih1 c0 hc.next (hosts_nil _ _)).later (by omega)).append (ih3 c0 he.next (hosts_nil _ _)))
  | @varDeclBare c bs d ty e hk s1 s2 _ ih1 _ =>
    intro c0 hc _
    have l1 := next_lt (by decide) hk
    have l2 := s1.follows.length_le
    have l3 := s2.follows.length_le
    exact .cons (sits_current hc (by omega) hk)
      (((ih1 c0 hc.next (hosts_nil _ _)).later (by omega)).append (hosts_nil _ _))
  | @ifChain c bs o d hk s ih =>
    intro c0 hc _
    have l1 := next_lt (by decide) hk
    have l2 := s.follows.length_le
    exact .cons (sits_current hc (by omega) hk)
      (ih c0 hc.next (.cons (sits_current hc l1 hk) (hosts_nil _ _)))
  | @loopForever c b d hk _ s ih =>
    intro c0 hc _
    have l1 := next_lt (by decide) hk
    have l2 := s.follows.length_le
    exact .cons (sits_current hc (by omega) hk)
      ((hosts_nil _ _).append (ih c0 hc.next (hosts_nil _ _)))
  | @loopClauses c shape b d hk _ s ih =>
    intro c0 hc _
    have l1 := next_lt (by decide) hk
    have l2 := s.follows.length_le
    exact .cons (sits_current hc (by omega) hk) (ih c0 hc.next (hosts_nil _ _))
  | @loopGuarded c x q p d b e hk _ _ s1 _ s2 ih1 ih2 =>
    intro c0 hc _
    have l1 := next_lt (by decide) hk
    have l2 := s1.follows.length_le
    have l3 := s2.follows.length_le
    have g1 := ih1 c0 hc.next (hosts_nil _ _)
    exact .cons (sits_current hc (by omega) hk)
      ((g1.of_cons.later l3).append (ih2 c0 (s1.follows.trans hc.next) (hosts_nil _ _)))
  | @loopInit c s d shape b e hk _ _ s1 _ s2 ih1 ih2 =>
    intro c0 hc _
    have l1 := next_lt (by decide) hk
    have l2 := s1.follows.length_le
    have l3 := s2.follows.length_le
    exact .cons (sits_current hc (by omega) hk)
      (ih2 c0 (s1.follows.trans hc.next) (ih1 c0 hc.next (hosts_nil _ _)))
  | @clauses init c x d p e b f _ s1 _ s2 s3 ih1 ih2 ih3 =>
    intro c0 hc ha
    have hd : d.Follows c0 := s1.follows.trans hc.next
    have he : e.Follows c0 := s2.follows.trans hd.next
    have l1 := s1.follows.length_le
    have l2 := c.length_next_le
    have l3 := d.length_next_le
    have l4 := s2.follows.length_le
    have l5 := s3.follows.length_le
    exact (((ha.later (by omega)).append ((ih1 c0 hc.next (hosts_nil _ _)).later (by omega))).append
      ((ih2 c0 hd.next (hosts_nil _ _)).later l5)).append (ih3 c0 he (hosts_nil _ _))
  | @retEmpty c hk _ | @headBreak c hk | @headContinue c hk =>
    intro c0 hc _
    exact .cons (sits_current hc (next_lt (by decide) hk) hk) (hosts_nil _ _)
  | @retValues c vs d hk _ s ih =>
    intro c0 hc _
    have l1 := next_lt (by decide) hk
    have l2 := s.follows.length_le
    exact .cons (sits_current hc (by omega) hk) (ih c0 hc.next (hosts_nil _ _))
  | @stmtSemicolon c d hk hd =>
    intro c0 hc _
    have l1 := next_lt (by decide) hk
    have l2 := (endLine_follows hd).length_le
    exact .cons (sits_current hc (by omega) (.inl hk)) (hosts_nil _ _)
  | @stmtNewline c hk =>
    intro c0 hc _
    exact .cons (sits_current hc (next_lt (by decide) hk) (.inr hk)) (hosts_nil _ _)
  | @stmtHead c s d e _ _ _ he ih =>
    intro c0 hc _
    show c0.Hosts e (s.closedBy _).anchors
    rw [Stmt.anchors_closedBy]
    exact (ih c0 hc (hosts_nil _ _)).later
      ((endLine_follows he).trans (Follows.ite_next _ _)).length_le

end Reader

/-! ## Source order -/

def Outcome.Ordered : Outcome → Prop
  | .expr x => x.Ordered
  | .exprs xs => Expr.OrderedAll xs
  | .cond x => Expr.OrderedOpt x
  | .stmt s => s.Ordered
  | .post s => Stmt.OrderedOpt s
  | .stmts ss => Stmt.InOrder ss
  | .block b => b.Ordered
  | .chain (bs, o) => Branch.OrderedAll bs ∧ Block.OrderedOpt o
  | .clauses (shape, b) => shape.Ordered ∧ b.Ordered
  | .names _ | .params _ | .type _ | .funcType _ | .types _ => True

theorem Position.Leads.tail {p : Position} {a : Position × Anchor} {as : List (Position × Anchor)}
    (h : p.Leads (a :: as)) : p.Leads as :=
  fun b hb => h b (List.mem_cons_of_mem _ hb)

theorem Stmt.pos_mem_anchors (s : Stmt) : ∃ an, (s.pos, an) ∈ s.anchors := by
  cases s with
  | block b =>
    cases b
    exact ⟨_, List.mem_cons_self⟩
  | _ => exact ⟨_, List.mem_cons_self⟩

theorem Stmt.mem_anchorsAll {ss : List Stmt} {t : Stmt} {a : Position × Anchor} (ht : t ∈ ss)
    (ha : a ∈ t.anchors) : a ∈ Stmt.anchorsAll ss := by
  induction ss with
  | nil => cases ht
  | cons s ss ih =>
    rcases List.mem_cons.mp ht with rfl | ht
    · exact List.mem_append_left _ ha
    · exact List.mem_append_right _ (ih ht)

theorem Stmt.before_rest {c d : Cursor} {s : Stmt} {ss : List Stmt} (hc : c.Rising)
    (hd : d.Follows c) (g1 : c.Hosts d s.anchors) (g2 : d.Holds (Stmt.anchorsAll ss)) :
    ∀ t ∈ ss, s.pos.Before t.pos := by
  intro t ht
  obtain ⟨an, hs⟩ := s.pos_mem_anchors
  obtain ⟨an', ht'⟩ := t.pos_mem_anchors
  obtain ⟨u, hu, he, -⟩ := g2 _ (Stmt.mem_anchorsAll ht ht')
  have he : u.start = t.pos := he
  rw [← he]
  exact (g1 _ hs).before hc hd hu

namespace Reader

def OrderedArgs : Reader → Cursor → Prop
  | levelRest _ left, c => left.Ordered ∧ ∀ a ∈ left.anchors, ∀ u ∈ c.ahead, a.1.Before u.start
  | clauses init, _ => Stmt.OrderedOpt init
  | _, _ => True

theorem orderedArgs_operand (l : Level) (c : Cursor) : (operand l).OrderedArgs c := by
  cases l <;> trivial

open Cursor in
theorem orderedArgs_binary {l : Level} {left r : Expr} {c d : Cursor} {op : BinaryOp}
    (hc : c.Rising) (hop : c.opAt? l = some op) (hg : (levelRest l left).OrderedArgs c)
    (hd : d.Follows c.next) (hr : c.next.Hosts d r.anchors) (ho : r.Ordered) :
    (levelRest l (.binary op left r c.current.start)).OrderedArgs d := by
  have hne : c.ahead ≠ [] := fun h => by
    have := opAt?_lt hop
    simp [h] at this
  obtain ⟨hlo, hlb⟩ := hg
  have hsub : ∀ u ∈ d.ahead, u ∈ c.ahead := fun u hu =>
    (hd.trans (next_follows c)).1.subset hu
  refine ⟨⟨fun a ha => hlb a ha _ (current_mem hne), hr.after hc, hlo, ho⟩, ?_⟩
  intro a ha u hu
  rcases List.mem_append.mp ha with ha | ha
  · exact hlb a ha u (hsub u hu)
  rcases List.mem_cons.mp ha with rfl | ha
  · exact hc.current_before (hd.1.subset hu)
  · exact (hr a ha).before (hc.follows (next_follows c)) hd hu

open Cursor in
/-- Every reading is ordered, when the tokens ahead start one after the other and what the reader
is given is ordered: the position of each node comes from a token read before, between or after
the tokens of its parts, in the order of the node. -/
theorem Reads.ordered {r : Reader} {c : Cursor} {v : Outcome} {d : Cursor} (h : Reads r c v d) :
    c.Rising → r.OrderedArgs c → v.Ordered := by
  induction h with
  | typeInt | typeBool | typeFunc | typeNone | funcType | typeListNil | typeListCons
  | moreTypesCons | moreTypesNil | resultsList | resultsBare | namesMore | namesLast
  | paramRunMore | paramRunLast | paramsNone | primaryName | primaryTrue | primaryFalse
  | moreExprsNil | condNone | postNone | blockBodyEnd | headBreak | headContinue
  | stmtSemicolon | stmtNewline => exact fun _ _ => trivial
  | primaryGroup _ _ ih | unaryPrimary _ _ ih | exprFunc _ _ ih | exprOr _ _ ih | condSome _ _ ih
  | headVar _ _ ih | headIf _ _ ih | headFor _ _ ih | headReturn _ _ ih | headSimple _ _ ih
  | headBlock _ _ ih | postSome _ _ _ ih | paramsSome _ _ ih => exact fun hc _ => ih hc trivial
  | primaryInteger _ hx =>
    intro _ _
    obtain ⟨v, -, rfl⟩ := Token.integer_eq_ok hx
    trivial
  | levelRestStop => exact fun _ hg => hg.1
  | @levelRestStep l left c op r d v e hop s1 s2 ih1 ih2 =>
    intro hc hg
    have hn := hc.follows (next_follows c)
    exact ih2 (hn.follows s1.follows) (orderedArgs_binary hc hop hg s1.follows
      (s1.hosts c.next (.refl _) (by rw [argAnchors_operand]; exact hosts_nil _ _))
      (ih1 hn (orderedArgs_operand _ _)))
  | @moreExprsCons c x d xs e _ s1 _ ih1 ih2 =>
    intro hc _
    have hn := hc.follows (next_follows c)
    exact ⟨ih1 hn trivial, ih2 (hn.follows s1.follows) trivial⟩
  | @group c x d _ _ _ ih => exact fun hc _ => ih (hc.follows (next_follows c)) trivial
  | @unaryOp c op x d _ s ih =>
    intro hc _
    exact ⟨(s.hosts c.next (.refl _) (hosts_nil _ _)).after hc,
      ih (hc.follows (next_follows c)) trivial⟩
  | @level l c x d v e s1 s2 ih1 ih2 =>
    intro hc _
    have g := s1.hosts c (.refl _) (by rw [argAnchors_operand]; exact hosts_nil _ _)
    exact ih2 (hc.follows s1.follows) ⟨ih1 hc (orderedArgs_operand _ _),
      fun a ha u hu => (g a ha).before hc s1.follows hu⟩
  | @funcLit c ps d rs e b f _ _ s1 _ s2 _ _ _ ih3 =>
    intro hc _
    exact ih3 (hc.follows (s2.follows.trans (s1.follows.trans
      ((next_follows _).trans (next_follows c))).next)) trivial
  | @exprList c x d xs e s1 _ ih1 ih2 =>
    exact fun hc _ => ⟨ih1 hc trivial, ih2 (hc.follows s1.follows) trivial⟩
  | @branchesElseIf pos c x d b e bs o f s1 s2 _ _ _ ih1 ih2 ih3 =>
    intro hc _
    have hd := hc.follows s1.follows
    have he := hd.follows s2.follows
    have g3 := ih3 (he.follows ((next_follows _).trans (next_follows e))) trivial
    exact ⟨⟨ih1 hc trivial, ih2 hd trivial, g3.1⟩, g3.2⟩
  | @branchesElse pos c x d b e b' f s1 s2 _ _ _ ih1 ih2 ih3 =>
    intro hc _
    have hd := hc.follows s1.follows
    have he := hd.follows s2.follows
    exact ⟨⟨ih1 hc trivial, ih2 hd trivial, trivial⟩, ih3 (he.follows (next_follows e)) trivial⟩
  | @branchesEnd pos c x d b e s1 _ _ ih1 ih2 =>
    intro hc _
    exact ⟨⟨ih1 hc trivial, ih2 (hc.follows s1.follows) trivial, trivial⟩, trivial⟩
  | @simpleSingle c x d s h2 h3 h4 ih =>
    intro hc _
    have g := (Reads.simpleSingle s h2 h3 h4).hosts c (.refl _) (hosts_nil _ _)
    exact ⟨(g.leads hc).tail, ih hc trivial⟩
  | @simpleAssign c x d xs e vs f s1 h2 s2 h4 s3 ih1 ih2 ih3 =>
    intro hc _
    have g := (Reads.simpleAssign s1 h2 s2 h4 s3).hosts c (.refl _) (hosts_nil _ _)
    have hd := hc.follows s1.follows
    have he := hd.follows s2.follows
    exact ⟨(g.leads hc).tail, ⟨ih1 hc trivial, ih2 hd trivial⟩,
      ih3 (he.follows (next_follows e)) trivial⟩
  | @simpleDefine c x d xs e ns vs f s1 h2 s2 h4 h5 s3 _ _ ih3 =>
    intro hc _
    have g := (Reads.simpleDefine s1 h2 s2 h4 h5 s3).hosts c (.refl _) (hosts_nil _ _)
    have he := hc.follows (s2.follows.trans s1.follows)
    exact ⟨(g.leads hc).tail, ih3 (he.follows (next_follows e)) trivial⟩
  | @block c ss d hk s ih =>
    intro hc _
    have g := (Reads.block hk s).hosts c (.refl _) (hosts_nil _ _)
    exact ⟨(g.leads hc).tail,
      ih (hc.follows ((Follows.ite_next c.next _).trans (next_follows c))) trivial⟩
  | @blockBodyStmt c s d ss e _ _ s1 s2 ih1 ih2 =>
    intro hc _
    have hd := hc.follows s1.follows
    exact ⟨Stmt.before_rest hc s1.follows (s1.hosts c (.refl _) (hosts_nil _ _))
      (s2.hosts d (.refl _) (hosts_nil _ _)).holds, ih1 hc trivial, ih2 hd trivial⟩
  | @varDeclTyped c bs d ty e vs f hk s1 s2 ha s3 _ _ ih3 =>
    intro hc _
    have g := (Reads.varDeclTyped hk s1 s2 ha s3).hosts c (.refl _) (hosts_nil _ _)
    have he := hc.follows (s2.follows.trans (s1.follows.trans (next_follows c)))
    exact ⟨(g.leads hc).tail, ih3 (he.follows (next_follows e)) trivial⟩
  | @varDeclInferred c bs d e vs f hk s1 s2 ha s3 _ _ ih3 =>
    intro hc _
    have g := (Reads.varDeclInferred hk s1 s2 ha s3).hosts c (.refl _) (hosts_nil _ _)
    have he := hc.follows (s2.follows.trans (s1.follows.trans (next_follows c)))
    exact ⟨(g.leads hc).tail, ih3 (he.follows (next_follows e)) trivial⟩
  | @varDeclBare c bs d ty e hk s1 s2 ha _ _ =>
    intro hc _
    have g := (Reads.varDeclBare hk s1 s2 ha).hosts c (.refl _) (hosts_nil _ _)
    exact ⟨(g.leads hc).tail, trivial⟩
  | @ifChain c bs o d hk s ih =>
    intro hc _
    have g := (Reads.ifChain hk s).hosts c (.refl _) (hosts_nil _ _)
    exact ⟨(g.leads hc).tail, ih (hc.follows (next_follows c)) trivial⟩
  | @loopForever c b d hk h2 s ih =>
    intro hc _
    have g := (Reads.loopForever hk h2 s).hosts c (.refl _) (hosts_nil _ _)
    exact ⟨(g.leads hc).tail, trivial, ih (hc.follows (next_follows c)) trivial⟩
  | @loopClauses c shape b d hk h2 s ih =>
    intro hc _
    have g := (Reads.loopClauses hk h2 s).hosts c (.refl _) (hosts_nil _ _)
    exact ⟨(g.leads hc).tail, ih (hc.follows (next_follows c)) trivial⟩
  | @loopGuarded c x q p d b e hk h2 h3 s1 h5 s2 ih1 ih2 =>
    intro hc _
    have g := (Reads.loopGuarded hk h2 h3 s1 h5 s2).hosts c (.refl _) (hosts_nil _ _)
    have hn := hc.follows (next_follows c)
    exact ⟨(g.leads hc).tail, (ih1 hn trivial).2, ih2 (hn.follows s1.follows) trivial⟩
  | @loopInit c s d shape b e hk h2 h3 s1 h5 s2 ih1 ih2 =>
    intro hc _
    have g := (Reads.loopInit hk h2 h3 s1 h5 s2).hosts c (.refl _) (hosts_nil _ _)
    have hn := hc.follows (next_follows c)
    exact ⟨(g.leads hc).tail, ih2 (hn.follows s1.follows) (ih1 hn trivial)⟩
  | @clauses init c x d p e b f _ s1 _ s2 s3 ih1 ih2 ih3 =>
    intro hc hg
    have hn := hc.follows (next_follows c)
    have hd := hn.follows s1.follows
    have he := hd.follows (next_follows d) |>.follows s2.follows
    exact ⟨⟨hg, ih1 hn trivial, ih2 (hd.follows (next_follows d)) trivial⟩, ih3 he trivial⟩
  | @retEmpty c hk h2 =>
    intro hc _
    have g := (Reads.retEmpty hk h2).hosts c (.refl _) (hosts_nil _ _)
    exact ⟨(g.leads hc).tail, trivial⟩
  | @retValues c vs d hk h2 s ih =>
    intro hc _
    have g := (Reads.retValues hk h2 s).hosts c (.refl _) (hosts_nil _ _)
    exact ⟨(g.leads hc).tail, ih (hc.follows (next_follows c)) trivial⟩
  | stmtHead _ _ _ _ ih => exact fun hc _ => Stmt.ordered_closedBy _ (ih hc trivial)

theorem Reads.pos_head {c d : Cursor} {s : Stmt} (h : Reads head c (.stmt s) d) :
    s.pos = c.current.start := by
  cases h with
  | headVar _ h | headFor _ h | headReturn _ h | headSimple _ h => cases h <;> rfl
  | headIf _ h | headBlock _ h => cases h; rfl
  | headBreak | headContinue => rfl

theorem readStmt_pos {c d : Cursor} {s : Stmt} (h : plain (readStmt c) = .ok (s, d)) :
    s.pos = c.current.start := by
  cases sound stmt c (.stmt s) d (by rw [run, h]; rfl) with
  | stmtSemicolon | stmtNewline => rfl
  | stmtHead _ _ hh => rw [Stmt.pos_closedBy, hh.pos_head]

end Reader

open Cursor in
theorem Program.readAll_holds {c : Cursor} {p : Program} (h : Program.readAll c = .ok p) :
    c.Holds (Stmt.anchorsAll p) := by
  fun_induction Program.readAll c generalizing p with
  | case1 =>
    cases h
    exact fun _ ha => absurd ha List.not_mem_nil
  | case2 => cases h
  | case3 c _ s d _ hs ih =>
    obtain ⟨q, hq, rfl⟩ := Except.map_eq_ok.mp h
    have hr := Reader.reads_stmt hs
    have g1 := hr.hosts c (.refl c) (hosts_nil _ _)
    intro a ha
    rcases List.mem_append.mp ha with ha | ha
    · exact (g1 a ha).ahead
    · obtain ⟨t, ht, h1, h2⟩ := ih hq a ha
      exact ⟨t, hr.follows.1.subset ht, h1, h2⟩

open Cursor in
/-- A program read from tokens that start one after the other is ordered, and its statements
come one after the other. -/
theorem Program.readAll_inOrder {c : Cursor} {p : Program} (h : Program.readAll c = .ok p)
    (hc : c.Rising) : Stmt.InOrder p := by
  fun_induction Program.readAll c generalizing p with
  | case1 =>
    cases h
    trivial
  | case2 => cases h
  | case3 c _ s d _ hs ih =>
    obtain ⟨q, hq, rfl⟩ := Except.map_eq_ok.mp h
    have hr := Reader.reads_stmt hs
    have g1 := hr.hosts c (.refl c) (hosts_nil _ _)
    exact ⟨Stmt.before_rest hc hr.follows g1 (Program.readAll_holds hq), hr.ordered hc trivial,
      ih hq (hc.follows hr.follows)⟩

/-- Every position that a tree records is the start of a token that fits the node; in a source
that fits the 32-bit counters the positions also follow the source order. -/
theorem node_positions :
    (∀ (c : Cursor) (s : Stmt) (d : Cursor), plain (readStmt c) = .ok (s, d) →
      s.pos = c.current.start) ∧
    (∀ (c : Cursor) (s : Stmt) (d : Cursor), plain (readSimple c) = .ok (s, d) →
      s.pos = c.current.start) ∧
    ∀ (source : String) (file : Option String) (ts : List Token) (p : Program),
      tokenize source file = .ok ts → Program.ofTokens ts = .ok p →
      (∀ a ∈ Stmt.anchorsAll p, ∃ t ∈ ts, t.start = a.1 ∧ a.2.Fits t) ∧
      (Position.Fits source.toList → Stmt.InOrder p) := by
  refine ⟨fun _ _ _ => Reader.readStmt_pos, fun _ _ _ => readSimple_pos,
    fun source file ts p hts hp => ⟨fun a ha => ?_, fun hfit => ?_⟩⟩
  all_goals have hpre : (Cursor.ofTokens ts).ahead <+: ts := List.takeWhile_prefix _
  · obtain ⟨t, ht, h1, h2⟩ := Program.readAll_holds hp a ha
    exact ⟨t, hpre.subset ht, h1, h2⟩
  · exact Program.readAll_inOrder hp (List.Pairwise.sublist hpre.sublist (tokenize_rising hfit hts))

theorem node_positions_sum :
    ∃ ts p, tokenize "x := a + b\ny := x" none = .ok ts ∧ Program.ofTokens ts = .ok p ∧
      Position.Fits "x := a + b\ny := x".toList ∧ Stmt.InOrder p := by
  obtain ⟨p, hp⟩ := Except.exists_of_toBool (x := Program.ofSource "x := a + b\ny := x" "shell")
    (by decide +kernel)
  obtain ⟨ts, hts, hp⟩ := Except.bind_eq_ok.mp hp
  have hfit : Position.Fits "x := a + b\ny := x".toList := by decide
  exact ⟨ts, p, hts, hp, hfit, (node_positions.2.2 _ none ts p hts hp).2 hfit⟩

theorem Position.AtOrBefore.not_before {p q : Position} (h : p.AtOrBefore q) : ¬ q.Before p := by
  unfold AtOrBefore at h
  unfold Before
  simp only [UInt32.lt_iff_toNat_lt, UInt32.le_iff_toNat_le, ← UInt32.toNat_inj] at *
  omega

theorem Position.Leads.cons_self {p : Position} {as : List (Position × Anchor)} (h : p.Leads as)
    (an : Anchor) : p.Leads ((p, an) :: as) := by
  intro a ha
  rcases List.mem_cons.mp ha with rfl | ha
  · exact Position.atOrBefore_refl _
  · exact h a ha

theorem Stmt.Ordered.leads {s : Stmt} (h : s.Ordered) : s.pos.Leads s.anchors := by
  cases s with
  | empty | breakLoop | continueLoop =>
    exact Position.Leads.cons_self (fun _ ha => absurd ha List.not_mem_nil) _
  | block b =>
    cases b
    exact h.1.cons_self _
  | single | varDecl | ifChain | loop | ret | assign | define => exact h.1.cons_self _

theorem Stmt.InOrder.ordered {ss : List Stmt} (h : Stmt.InOrder ss) : ∀ s ∈ ss, s.Ordered := by
  induction ss with
  | nil => simp
  | cons s ss ih =>
    intro t ht
    rcases List.mem_cons.mp ht with rfl | ht
    · exact h.2.1
    · exact ih h.2.2 t ht

theorem Stmt.not_inOrder_of_anchor_before {ss : List Stmt} {s : Stmt} (hs : s ∈ ss)
    {a : Position × Anchor} (ha : a ∈ s.anchors) (hb : a.1.Before s.pos) : ¬ Stmt.InOrder ss :=
  fun h => ((h.ordered s hs).leads a ha).not_before hb

/-- Behind `2 ^ 32 - 4` blanks the column counter has wrapped: in `a +`, those blanks, `b` the
operand `b` is recorded at column 0, before the statement `a + b` that holds it. -/
theorem operand_column_wraps :
    ∃ ts p, tokenize (String.ofList ('a' :: ' ' :: '+' :: (List.replicate (UInt32.size - 4) ' ' ++ ['b'])))
        none = .ok ts ∧ Program.ofTokens ts = .ok p ∧
      p.map (fun s => (s.pos, s.anchors.map Prod.fst)) =
        [(⟨1, 1, "shell"⟩, [⟨1, 1, "shell"⟩, ⟨1, 1, "shell"⟩, ⟨1, 3, "shell"⟩, ⟨1, 0, "shell"⟩])] ∧
      ¬ Stmt.InOrder p := by
  have hword : ∀ r, Lexeme.split? ('a' :: ' ' :: r) = some (.word, ['a'], ' ' :: r) := fun r => by
    rw [Lexeme.split?_word _ (by decide)]
    simp [Lexeme.isWordChar]
  have hplus : ∀ n r, Lexeme.split? ('+' :: (List.replicate (n + 1) ' ' ++ r)) =
      some (.punctuator .plus, ['+'], List.replicate (n + 1) ' ' ++ r) := fun n r =>
    (split?_punctuator (['+'], .plus) (by decide) _ (by simp [FreeHead])).1
  have hts : tokenize (String.ofList ('a' :: ' ' :: '+' :: (List.replicate (UInt32.size - 4) ' ' ++ ['b'])))
      none = .ok [⟨.identifier, "a", ⟨⟨1, 1, "shell"⟩, ⟨1, 2, "shell"⟩⟩⟩,
        ⟨.plus, "+", ⟨⟨1, 3, "shell"⟩, ⟨1, 4, "shell"⟩⟩⟩,
        ⟨.identifier, "b", ⟨⟨1, 0, "shell"⟩, ⟨1, 1, "shell"⟩⟩⟩, Token.endAt ⟨1, 1, "shell"⟩] := by
    rw [tokenize, String.toList_ofList,
      scanFrom_of_token (t := ⟨.identifier, "a", ⟨⟨1, 1, "shell"⟩, ⟨1, 2, "shell"⟩⟩⟩) (hword _)
        (by decide), scanFrom_space, show UInt32.size - 4 = UInt32.size - 5 + 1 from rfl,
      scanFrom_of_token (t := ⟨.plus, "+", ⟨⟨1, 3, "shell"⟩, ⟨1, 4, "shell"⟩⟩⟩) (hplus _ _)
        (by decide), scanFrom_spaces]
    decide +kernel
  obtain ⟨p, hp, hmap⟩ := Except.map_eq_ok.mp (by decide +kernel : (Program.ofTokens
    [⟨.identifier, "a", ⟨⟨1, 1, "shell"⟩, ⟨1, 2, "shell"⟩⟩⟩,
      ⟨.plus, "+", ⟨⟨1, 3, "shell"⟩, ⟨1, 4, "shell"⟩⟩⟩,
      ⟨.identifier, "b", ⟨⟨1, 0, "shell"⟩, ⟨1, 1, "shell"⟩⟩⟩, Token.endAt ⟨1, 1, "shell"⟩]).map
      (·.map fun s => (s.pos, s.anchors.map Prod.fst)) =
    .ok [(⟨1, 1, "shell"⟩, [⟨1, 1, "shell"⟩, ⟨1, 1, "shell"⟩, ⟨1, 3, "shell"⟩, ⟨1, 0, "shell"⟩])])
  refine ⟨_, p, hts, hp, hmap, ?_⟩
  obtain ⟨s, rfl, hs⟩ := List.map_eq_singleton_iff.mp hmap
  simp only [Prod.mk.injEq] at hs
  obtain ⟨a, ha, hfst⟩ : ∃ a ∈ s.anchors, a.1 = ⟨1, 0, "shell"⟩ :=
    List.mem_map.mp (by rw [hs.2]; simp)
  exact Stmt.not_inOrder_of_anchor_before List.mem_cons_self ha (by rw [hfst, hs.1]; decide)

end ScriptFront
