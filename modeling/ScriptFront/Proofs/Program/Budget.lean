import ScriptFront.Program
import ScriptFront.Proofs.Grammar.Soundness
/-!
# Reading a program within its tokens

A statement read takes at least one token and a block at least two, so the top-level statements
of a token list are at most as many as its tokens before the end of file. Read lazily, they come
in order with an error only last, every later step answers nothing, and collecting the answers
is reading the whole program.
-/

set_option autoImplicit false

namespace ScriptFront

namespace Cursor

variable {c d : Cursor}

theorem Follows.exists_drop {k : Nat} (h : d.Follows c)
    (hk : d.ahead.length + k ≤ c.ahead.length) :
    ∃ n, k ≤ n ∧ d.ahead = c.ahead.drop n ∧ d.last = c.last :=
  ⟨c.ahead.length - d.ahead.length, by omega, List.suffix_iff_eq_drop.mp h.1, h.2⟩

theorem length_ahead_ofTokens_le (v : List Token) :
    (ofTokens v).ahead.length ≤ v.countP (·.kind != .eof) := by
  have hall : ∀ t ∈ (ofTokens v).ahead, (t.kind != .eof) = true := fun t ht => by
    simpa using (ofTokens v).ahead_ne_eof t ht
  calc (ofTokens v).ahead.length = (ofTokens v).ahead.countP (·.kind != .eof) :=
        (List.countP_eq_length.mpr hall).symm
    _ ≤ v.countP (·.kind != .eof) := (List.takeWhile_prefix _).sublist.countP_le

end Cursor

theorem readStmt_follows {c : Cursor} {s : Stmt} {d : Ahead c} (h : readStmt c = .ok (s, d)) :
    d.1.Follows c :=
  (Reader.reads_stmt h).follows

theorem readBlock_follows {c : Cursor} {b : Block} {d : Ahead c} (h : readBlock c = .ok (b, d)) :
    d.1.Follows c :=
  Reader.forward .block c (.block b) d.1 (by rw [Reader.run, eq_ok_iff_plain.mp h]; rfl)

theorem readBlock_two_le {c : Cursor} {b : Block} {d : Ahead c} (h : readBlock c = .ok (b, d)) :
    d.1.ahead.length + 2 ≤ c.ahead.length := by
  obtain ⟨d, hd⟩ := d
  have h' := eq_ok_iff_plain.mp h
  rw [readBlock_eq] at h'
  simp only [Except.bind_eq_ok] at h'
  obtain ⟨⟨t, d1⟩, h1, ⟨ss, d2⟩, h2, hv⟩ := h'
  cases hv
  have l1 := Reader.expectOr_lt (by decide) h1
  dsimp only at h2
  have l2 : (if d1.current.kind = .newline then d1.next else d1).ahead.length ≤
      d1.ahead.length := by
    split
    · exact d1.next_follows.length_le
    · exact Nat.le_refl _
  have l3 := Read.lt_of_plain h2
  dsimp only at l3 ⊢
  omega

namespace Program

theorem items_of_atEnd {c : Cursor} (h : c.atEnd) : items c = [] := by
  rw [items]
  simp [h]

theorem items_of_error {c : Cursor} {e : Error} (h : ¬c.atEnd) (he : readStmt c = .error e) :
    items c = [.error e] := by
  rw [items]
  simp [h, he]

theorem items_of_ok {c : Cursor} {s : Stmt} {d : Ahead c} (h : ¬c.atEnd)
    (hs : readStmt c = .ok (s, d)) : items c = .ok s :: items d.1 := by
  rw [items]
  simp [h, hs]

theorem length_items_le (c : Cursor) : (items c).length ≤ c.ahead.length := by
  fun_induction items c with
  | case1 c h => simp
  | case2 c h e he =>
    have : c.ahead ≠ [] := by simpa [Cursor.atEnd] using h
    exact List.length_pos_iff.mpr this
  | case3 c h s d hd hs ih =>
    simp only [List.length_cons]
    omega

theorem items_shape (c : Cursor) :
    ∃ (oks : List Stmt) (err : Option Error), items c = oks.map .ok ++ err.toList.map .error := by
  fun_induction items c with
  | case1 c h => exact ⟨[], none, rfl⟩
  | case2 c h e he => exact ⟨[], some e, rfl⟩
  | case3 c h s d hd hs ih =>
    obtain ⟨oks, err, ih⟩ := ih
    exact ⟨s :: oks, err, by simp [ih]⟩

theorem readAll_eq_mapM (c : Cursor) : readAll c = (items c).mapM id := by
  fun_induction items c with
  | case1 c h =>
    rw [readAll]
    simp [h]
    rfl
  | case2 c h e he =>
    rw [readAll]
    simp [h, he]
  | case3 c h s d hd hs ih =>
    rw [readAll]
    simp [h, hs, ← ih]
    cases readAll d <;> rfl

theorem steps_none (n : Nat) : steps n none = List.replicate n none := by
  induction n with
  | zero => rfl
  | succ n ih => simp [steps, next, ih, List.replicate_succ]

/-- The `i`-th step of lazy reading answers the `i`-th statement read, and nothing after the
last. -/
theorem steps_eq_items (n : Nat) (c : Cursor) :
    steps n (some c) = (List.range n).map fun i => (items c)[i]? := by
  induction n generalizing c with
  | zero => rfl
  | succ n ih =>
    rw [steps, List.range_succ_eq_map, List.map_cons, List.map_map]
    by_cases h : c.atEnd
    · simp [next, h, items_of_atEnd h, steps_none, Function.comp_def, List.map_const']
    · rcases hs : readStmt c with e | ⟨s, d⟩
      · simp [next, h, hs, items_of_error h hs, steps_none, Function.comp_def, List.map_const']
      · simp [next, h, hs, items_of_ok h hs, ih d.1]

end Program

/-- Reading the statements of a token list stays within its tokens, and reading the program is
collecting the statements read one at a time. -/
theorem statements_within_tokens (v : List Token) :
    (∀ (c : Cursor) (s : Stmt) (d : Ahead c), readStmt c = .ok (s, d) →
      ∃ n, 1 ≤ n ∧ d.1.ahead = c.ahead.drop n ∧ d.1.last = c.last) ∧
    (∀ (c : Cursor) (b : Block) (d : Ahead c), readBlock c = .ok (b, d) →
      ∃ n, 2 ≤ n ∧ d.1.ahead = c.ahead.drop n ∧ d.1.last = c.last) ∧
    (Program.items (Cursor.ofTokens v)).length ≤ v.countP (·.kind != .eof) ∧
    (∃ (oks : List Stmt) (err : Option Error),
      Program.items (Cursor.ofTokens v) = oks.map .ok ++ err.toList.map .error) ∧
    (∀ n, Program.steps n (some (Cursor.ofTokens v)) =
      (List.range n).map fun i => (Program.items (Cursor.ofTokens v))[i]?) ∧
    Program.ofTokens v = (Program.items (Cursor.ofTokens v)).mapM id := by
  refine ⟨?stmt, ?block, ?length, Program.items_shape _, (Program.steps_eq_items · _),
    Program.readAll_eq_mapM _⟩
  case stmt =>
    intro c s d h
    exact (readStmt_follows h).exists_drop d.2
  case block =>
    intro c b d h
    exact (readBlock_follows h).exists_drop (readBlock_two_le h)
  case length =>
    exact Nat.le_trans (Program.length_items_le _) (Cursor.length_ahead_ofTokens_le v)

theorem statements_within_tokens_break :
    ∃ ts s d, tokenize "break" none = .ok ts ∧ readStmt (Cursor.ofTokens ts) = .ok (s, d) ∧
      ∃ n, 1 ≤ n ∧ d.1.ahead = (Cursor.ofTokens ts).ahead.drop n ∧
        d.1.last = (Cursor.ofTokens ts).last := by
  obtain ⟨ts, ⟨s, d⟩, hts, hr, -⟩ := Except.bind_map_eq_ok.mp (by decide +kernel :
    (tokenize "break" none >>= fun ts => (readStmt (Cursor.ofTokens ts)).map fun _ => ()) = .ok ())
  exact ⟨ts, s, d, hts, hr, (statements_within_tokens ts).1 _ s d hr⟩

end ScriptFront
