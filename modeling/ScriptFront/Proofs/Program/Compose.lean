import Mathlib.Data.List.Basic
import Mathlib.Data.List.TakeWhile
import ScriptFront.Program
import ScriptFront.Proofs.Grammar.Tail
/-!
# Programs across a line break

A program read from tokens `a` reads on the same once a line feed and more tokens `b` follow
it: the statements of `b` come after it, with the empty statement of that line feed between
them unless `a` ended in the middle of a line, where the line feed only ends that line. An
error in `b` is the error of the whole. The statement-level half of this is `Reads.extend`.
-/

set_option autoImplicit false

namespace ScriptFront

open Reader Cursor

namespace Program

theorem readAll_of_nil {c : Cursor} (h : c.ahead = []) : readAll c = .ok [] := by
  rw [readAll]
  simp [Cursor.atEnd, h]

theorem readAll_of_reads {c d : Cursor} {s : Stmt} (h : Reads stmt c (.stmt s) d) :
    readAll c = (readAll d).map (s :: ·) := by
  have hrun := h.run
  rw [Reader.run, Except.map_eq_ok] at hrun
  obtain ⟨⟨s', d'⟩, hp, hv⟩ := hrun
  simp only [Prod.mk.injEq, Outcome.stmt.injEq] at hv
  obtain ⟨rfl, rfl⟩ := hv
  have hc : c.atEnd = false := by
    simpa [Cursor.atEnd] using ahead_ne_nil_of_lt (Read.lt_of_plain hp)
  rcases hr : readStmt c with e | ⟨s'', d''⟩
  · rw [hr] at hp
    cases hp
  · rw [eq_ok_iff_plain.mp hr, Except.ok.injEq, Prod.mk.injEq] at hp
    obtain ⟨rfl, rfl⟩ := hp
    rw [readAll]
    simp [hc, hr]

def midLine (ts : List Token) : Bool := ts.getLast?.any (·.kind != .newline)

theorem midLine_of_follows {c d : Cursor} (h : d.Follows c) (hd : d.ahead ≠ []) :
    midLine c.ahead = midLine d.ahead := by
  obtain ⟨top, htop⟩ := h.1
  rw [← htop, midLine, midLine, List.getLast?_append_of_ne_nil _ hd]

theorem midLine_of_endsInNewline {c d : Cursor} (h : c.EndsInNewline d) (hd : d.ahead = []) :
    midLine c.ahead = false := by
  obtain ⟨pre, t, hc, ht⟩ := h
  rw [hc, hd]
  simp [midLine, ht]

theorem midLine_of_not_endsInNewline {c d : Cursor} (h : ¬c.EndsInNewline d) (hf : d.Follows c)
    (hd : d.ahead = []) (hc : c.ahead ≠ []) : midLine c.ahead = true := by
  obtain ⟨top, htop⟩ := hf.1
  rw [hd, List.append_nil] at htop
  rcases List.eq_nil_or_concat c.ahead with hn | ⟨L, t, ht⟩
  · exact absurd hn hc
  · have hk : t.kind ≠ .newline := fun hk => h ⟨L, t, by rw [ht, hd]; simp, hk⟩
    simp [midLine, ht, hk]

/-- Reading on through the tail `T` from `c`: the program read from `c`, then the empty statement
of the tail's line feed unless `c`'s tokens end in the middle of a line, then the program after
the line feed. -/
theorem readAll_extend (T : Tail) {c : Cursor} {p : Program} (h : readAll c = .ok p) :
    readAll (T.extend c) = (readAll T.after).map fun q =>
      p ++ (if midLine c.ahead then [] else [.empty T.nl.start]) ++ q := by
  fun_induction readAll c generalizing p with
  | case1 c hc =>
    have hn : c.ahead = [] := by simpa [Cursor.atEnd] using hc
    rw [Except.ok.injEq] at h
    subst h
    have hr := Reads.stmtNewline (c := T.extend c) (by rw [T.current_extend_of_nil hn]; exact T.nl_kind)
    rw [T.current_extend_of_nil hn, T.next_extend_of_nil hn] at hr
    rw [readAll_of_reads hr]
    simp [hn, midLine]
  | case2 c hc e he => simp_all
  | case3 c hc s d hd hs ih =>
    have hr := reads_stmt hs
    obtain ⟨q, hq, rfl⟩ := Except.map_eq_ok.mp h
    have hne : c.ahead ≠ [] := by simpa [Cursor.atEnd] using hc
    rcases hr.extend T with ⟨r1, hend⟩ | ⟨hdn, r2, hnot⟩
    · have hmid : midLine c.ahead = midLine d.ahead := by
        by_cases hdn : d.ahead = []
        · rw [midLine_of_endsInNewline (hend hdn) hdn, hdn]
          rfl
        · exact midLine_of_follows hr.follows hdn
      rw [readAll_of_reads r1, ih hq, hmid]
      cases readAll T.after <;> simp [Except.map]
    · rw [readAll_of_nil hdn, Except.ok.injEq] at hq
      subst hq
      rw [readAll_of_reads r2, midLine_of_not_endsInNewline hnot hr.follows hdn hne]
      cases readAll T.after <;> simp [Except.map]

end Program

theorem Cursor.ofTokens_of_ne_eof {ts : List Token} (h : ∀ t ∈ ts, t.kind ≠ .eof) :
    (Cursor.ofTokens ts).ahead = ts ∧ (Cursor.ofTokens ts).last = Cursor.closing ts := by
  refine ⟨List.takeWhile_eq_self_iff.mpr fun t ht => by simpa using h t ht, ?_⟩
  have hf : ts.find? (·.kind == .eof) = none := List.find?_eq_none.mpr fun t ht => by simpa using h t ht
  simp [Cursor.ofTokens, Cursor.stopOf, hf]

/-- Statements compose across a line break: with `a` read as `p`, reading `a`, a line feed and
then `b` reads `p`, the empty statement of the line feed unless `a` ended in the middle of a
line, and then what `b` reads on its own; an error in `b` is the error of the whole. -/
theorem ofTokens_across_newline {a b : List Token} {nl : Token} {p : Program}
    (ha : ∀ t ∈ a, t.kind ≠ .eof) (hb : ∀ t ∈ b, t.kind ≠ .eof) (hnl : nl.kind = .newline)
    (hp : Program.ofTokens a = .ok p) :
    Program.ofTokens (a ++ [nl] ++ b) = (Program.ofTokens b).map fun q =>
      p ++ (if a.getLast?.any (·.kind != .newline) then [] else [.empty nl.start]) ++ q := by
  let T : Tail := ⟨nl, b, Cursor.stopOf (a ++ [nl] ++ b), hnl, hb, Cursor.stopOf_eof _⟩
  have hab : ∀ t ∈ a ++ [nl] ++ b, t.kind ≠ .eof := by
    intro t ht
    simp only [List.append_assoc, List.mem_append, List.mem_singleton] at ht
    rcases ht with ht | rfl | ht
    · exact ha t ht
    · simp [hnl]
    · exact hb t ht
  have hext : Cursor.ofTokens (a ++ [nl] ++ b) = T.extend (Cursor.ofTokens a) := by
    rw [Cursor.ext_iff, (Cursor.ofTokens_of_ne_eof hab).1]
    refine ⟨?_, rfl⟩
    simp [(Cursor.ofTokens_of_ne_eof ha).1, T]
  have hafter : Program.readAll T.after = Program.ofTokens b := by
    by_cases hb0 : b = []
    · subst hb0
      rw [Program.readAll_of_nil rfl]
      exact (Program.readAll_of_nil (Cursor.ofTokens_of_ne_eof hb).1).symm
    · congr 1
      rw [Cursor.ext_iff, (Cursor.ofTokens_of_ne_eof hb).1, (Cursor.ofTokens_of_ne_eof hb).2]
      refine ⟨rfl, ?_⟩
      show Cursor.stopOf (a ++ [nl] ++ b) = Cursor.closing b
      rw [Cursor.stopOf, List.find?_eq_none.mpr fun t ht => by simpa using hab t ht,
        Option.getD_none, Cursor.closing, Cursor.closing, List.getLast?_append_of_ne_nil _ hb0]
  have h := Program.readAll_extend T hp
  rw [(Cursor.ofTokens_of_ne_eof ha).1] at h
  rw [Program.ofTokens, hext, h, hafter]
  rfl

theorem ofTokens_across_newline_names :
    let a : List Token := [⟨.identifier, "x", ⟨⟨1, 1, "f"⟩, ⟨1, 2, "f"⟩⟩⟩]
    let nl : Token := ⟨.newline, "\n", ⟨⟨1, 2, "f"⟩, ⟨2, 1, "f"⟩⟩⟩
    let b : List Token := [⟨.identifier, "y", ⟨⟨2, 1, "f"⟩, ⟨2, 2, "f"⟩⟩⟩]
    ∃ p, Program.ofTokens a = .ok p ∧
      Program.ofTokens (a ++ [nl] ++ b) = (Program.ofTokens b).map fun q =>
        p ++ (if a.getLast?.any (·.kind != .newline) then [] else [.empty nl.start]) ++ q := by
  intro a nl b
  obtain ⟨p, hp⟩ := Except.exists_of_toBool (x := Program.ofTokens a) (by decide +kernel)
  exact ⟨p, hp, ofTokens_across_newline (by decide) (by decide) rfl hp⟩

end ScriptFront
