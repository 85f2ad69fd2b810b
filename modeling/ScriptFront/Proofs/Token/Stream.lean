import ScriptFront.Token.Session
import ScriptFront.Proofs.Grammar.Steps
/-!
# A token stream, call after call

A stream over a token list `v` holds `v`, with one more end of file when `v` does not end with
one (`Cursor.held`). A cursor keeps no index; `Cursor.At` says that it stands at index `i` of what
the stream holds. Every call leaves the cursor where it was or moves it on by one token
(`perform_moves`), so every cursor that calls reach stands at such an index.
-/

set_option autoImplicit false

namespace ScriptFront

def CursorCall.reads : CursorCall → Bool
  | .advance | .tryMatch _ | .tryMatchAny _ | .expect _ | .expectOr _ _ | .tryMatchNewline => true
  | .current | .currentKind | .atEnd | .tryPeek _ | .endLine | .unexpected _ => false

namespace Cursor

def held (v : List Token) : List Token :=
  if v.getLast?.map (·.kind) = some .eof then v else v ++ [closing v]

def after (c : Cursor) : List CursorCall → Cursor
  | [] => c
  | op :: ops => (c.perform op).2.after ops

/-- The cursor `c` stands at index `i` of what a stream over `v` holds: the tokens ahead of it
are those of a fresh cursor from `i` on, `i` is not past them, and reading stops where it stops
for the fresh cursor. -/
structure At (v : List Token) (c : Cursor) (i : Nat) : Prop where
  le_stop : i ≤ (ofTokens v).ahead.length
  ahead_eq : c.ahead = (ofTokens v).ahead.drop i
  last_eq : c.last = stopOf v

variable {v : List Token} {c : Cursor} {i : Nat}

/-! ## What the stream holds -/

theorem closing_eof (v : List Token) : (closing v).kind = .eof := rfl

theorem held_getLast (v : List Token) : ∃ t, (held v).getLast? = some t ∧ t.kind = .eof := by
  unfold held
  split
  · next h =>
    obtain ⟨t, ht, hk⟩ := Option.map_eq_some_iff.mp h
    exact ⟨t, ht, hk⟩
  · exact ⟨closing v, by simp, closing_eof v⟩

theorem takeWhile_append_eof (v : List Token) {t : Token} (ht : t.kind = .eof) :
    (v ++ [t]).takeWhile (·.kind != .eof) = v.takeWhile (·.kind != .eof) := by
  induction v with
  | nil => simp [ht]
  | cons u v ih =>
    by_cases hu : u.kind = .eof
    · simp [hu]
    · simp [hu, ih]

theorem getElem?_length_takeWhile (l : List Token) :
    l[(l.takeWhile (·.kind != .eof)).length]? = l.find? (·.kind == .eof) := by
  induction l with
  | nil => rfl
  | cons u l ih =>
    by_cases hu : u.kind = .eof
    · simp [hu]
    · simp [hu, ih]

theorem takeWhile_held (v : List Token) :
    (held v).takeWhile (·.kind != .eof) = (ofTokens v).ahead := by
  unfold held
  split
  · rfl
  · exact takeWhile_append_eof v (closing_eof v)

theorem find?_held (v : List Token) : (held v).find? (·.kind == .eof) = some (stopOf v) := by
  unfold held stopOf
  split
  · next h =>
    obtain ⟨t, ht, hk⟩ := Option.map_eq_some_iff.mp h
    have hne : v.find? (·.kind == .eof) ≠ none := by
      rw [Ne, List.find?_eq_none]
      exact fun hall => hall t (List.mem_of_getLast? ht) (by simp [hk])
    obtain ⟨u, hu⟩ := Option.ne_none_iff_exists'.mp hne
    simp [hu]
  · rw [List.find?_append]
    cases v.find? (·.kind == .eof) <;> simp [closing_eof]

theorem getElem?_held_stop (v : List Token) :
    (held v)[(ofTokens v).ahead.length]? = some (stopOf v) := by
  rw [← takeWhile_held, getElem?_length_takeWhile, find?_held]

/-! ## Cursors at an index -/

theorem at_ofTokens (v : List Token) : (ofTokens v).At v 0 := ⟨Nat.zero_le _, by simp, rfl⟩

theorem At.current_eq (h : c.At v i) : (held v)[i]? = some c.current := by
  rcases Nat.lt_or_ge i (ofTokens v).ahead.length with hi | hi
  · have hc : c.current = (ofTokens v).ahead[i] :=
      current_of_ahead (by rw [h.ahead_eq, List.drop_eq_getElem_cons hi])
    have hpre : (ofTokens v).ahead <+: held v := takeWhile_held v ▸ List.takeWhile_prefix _
    rw [hc, hpre.getElem hi, List.getElem?_eq_getElem]
  · have hn : c.ahead = [] := by rw [h.ahead_eq, List.drop_eq_nil_of_le hi]
    rw [current_of_nil hn, h.last_eq, Nat.le_antisymm h.le_stop hi, getElem?_held_stop]

theorem next_of_eof (h : c.current.kind = .eof) : c.next = c := by
  have hn : c.ahead = [] := List.isEmpty_iff.mp ((current_eof_iff c).mp h)
  rw [ext_iff]
  simp [hn]

theorem At.next (h : c.At v i) : c.next.At v (if c.current.kind = .eof then i else i + 1) := by
  split
  · next he => rwa [next_of_eof he]
  · next hne =>
    have hi : i < (ofTokens v).ahead.length := by
      have hc : c.ahead ≠ [] := ahead_ne_nil_of_kind hne rfl
      rw [h.ahead_eq] at hc
      simpa using hc
    exact ⟨hi, by rw [ahead_next, h.ahead_eq, List.tail_drop], by rw [last_next, h.last_eq]⟩

/-! ## One call -/

variable {op : CursorCall} {t : Token} {d : Cursor}

theorem perform_advance : c.perform .advance = (.token c.current, c.next) := rfl

theorem perform_tryMatch (k : TokenKind) : c.perform (.tryMatch k) =
    if c.current.kind = k then (.maybe (some c.current), c.next) else (.maybe none, c) := by
  simp only [perform, tryMatch]
  split <;> rfl

theorem perform_tryMatchAny (ks : List TokenKind) : c.perform (.tryMatchAny ks) =
    if c.current.kind ∈ ks then (.maybe (some c.current), c.next) else (.maybe none, c) := by
  simp only [perform, tryMatchAny]
  split <;> rfl

theorem perform_tryMatchNewline : c.perform .tryMatchNewline =
    if c.current.kind = .newline then (.maybe (some c.current), c.next) else (.maybe none, c) := by
  simp only [perform, tryMatch]
  split <;> rfl

theorem perform_expect (k : TokenKind) : c.perform (.expect k) =
    if c.current.kind = k then (.token c.current, c.next)
    else (.failed (c.unexpected k.describe), c) := by
  simp only [perform, expect, expectOr]
  split <;> rfl

theorem perform_expectOr (k : TokenKind) (expected : String) : c.perform (.expectOr k expected) =
    if c.current.kind = k then (.token c.current, c.next)
    else (.failed (c.unexpected expected), c) := by
  simp only [perform, expectOr]
  split <;> rfl

theorem perform_endLine_newline (hn : c.current.kind = .newline) :
    c.perform .endLine = (.done, c.next) := by
  simp [perform, endLine, hn]

theorem perform_endLine_stays (hn : c.current.kind ≠ .newline) : (c.perform .endLine).2 = c := by
  simp only [perform]
  rcases h : c.endLine with e | d
  · rfl
  · unfold endLine at h
    split at h <;> simp_all

theorem perform_endLine :
    (c.perform .endLine).2 = if c.current.kind = .newline then c.next else c := by
  by_cases hn : c.current.kind = .newline
  · simp [perform_endLine_newline hn, hn]
  · simp [perform_endLine_stays hn, hn]

attribute [local simp] perform_advance perform_tryMatch perform_tryMatchAny perform_tryMatchNewline
  perform_expect perform_expectOr

theorem perform_read (hop : op.reads) (hr : (c.perform op).1 = .token t ∨
    (c.perform op).1 = .maybe (some t)) : t = c.current ∧ (c.perform op).2 = c.next := by
  cases op <;> simp only [CursorCall.reads, Bool.false_eq_true] at hop <;> simp at hr ⊢ <;>
    (try split_ifs at hr ⊢) <;> simp_all

theorem perform_look (hop : op.reads = false) (hl : op ≠ .endLine) : (c.perform op).2 = c := by
  cases op <;> simp_all [CursorCall.reads, perform]

theorem perform_miss (hr : (c.perform op).1 = .maybe none ∨ ∃ e, (c.perform op).1 = .failed e) :
    (c.perform op).2 = c := by
  cases hop : op.reads
  · by_cases hl : op = .endLine
    · subst hl
      by_cases hn : c.current.kind = .newline
      · simp [perform_endLine_newline hn] at hr
      · exact perform_endLine_stays hn
    · exact perform_look hop hl
  · cases op <;> simp only [CursorCall.reads, Bool.false_eq_true] at hop <;> simp at hr ⊢ <;>
      (try split_ifs at hr ⊢) <;> simp_all

theorem perform_moves (c : Cursor) (op : CursorCall) :
    (c.perform op).2 = c ∨ (c.perform op).2 = c.next := by
  cases hop : op.reads
  · by_cases hl : op = .endLine
    · subst hl
      rw [perform_endLine]
      split
      · exact .inr rfl
      · exact .inl rfl
    · exact .inl (perform_look hop hl)
  · cases op <;> simp only [CursorCall.reads, Bool.false_eq_true] at hop <;> simp <;>
      (try split_ifs) <;> simp

/-! ## Runs of calls -/

theorem At.perform (h : c.At v i) (op : CursorCall) : ∃ j, (c.perform op).2.At v j := by
  rcases perform_moves c op with hd | hd <;> rw [hd]
  · exact ⟨i, h⟩
  · exact ⟨_, h.next⟩

/-- Calls keep a cursor at some index. -/
theorem At.after (h : c.At v i) (ops : List CursorCall) : ∃ j, (c.after ops).At v j := by
  induction ops generalizing c i with
  | nil => exact ⟨i, h⟩
  | cons op ops ih =>
    obtain ⟨j, hj⟩ := h.perform op
    exact ih hj

theorem At.perform_read (h : c.At v i) (hop : op.reads)
    (hr : (c.perform op).1 = .token t ∨ (c.perform op).1 = .maybe (some t)) :
    t = c.current ∧ (c.perform op).2.At v (if t.kind = .eof then i else i + 1) := by
  obtain ⟨rfl, hd⟩ := Cursor.perform_read hop hr
  rw [hd]
  exact ⟨rfl, h.next⟩

theorem At.perform_endLine (h : c.At v i) :
    (c.perform .endLine).2.At v (if c.current.kind = .newline then i + 1 else i) := by
  rw [Cursor.perform_endLine]
  by_cases hn : c.current.kind = .newline
  · have hne : c.current.kind ≠ .eof := by rw [hn]; decide
    simpa [hn, hne] using h.next
  · simpa [hn] using h

theorem atEnd_perform (h : c.atEnd) (op : CursorCall) : (c.perform op).2.atEnd := by
  rcases perform_moves c op with hd | hd <;> rw [hd]
  · exact h
  · rwa [next_of_eof ((current_eof_iff c).mpr h)]

theorem atEnd_after (h : c.atEnd) (ops : List CursorCall) : (c.after ops).atEnd := by
  induction ops generalizing c with
  | nil => exact h
  | cons op ops ih => exact ih (atEnd_perform h op)

/-- A stream's cursor stands, after any calls, at an index of what the stream holds, and each call
moves it on by at most one token. -/
theorem stream_calls_track_index (v : List Token) (ops : List CursorCall) (op : CursorCall) :
    let c := (ofTokens v).after ops
    let r := (c.perform op).1
    let d := (c.perform op).2
    (∃ t, (held v).getLast? = some t ∧ t.kind = .eof) ∧
    ∃ i, c.At v i ∧ i ≤ ((held v).takeWhile (·.kind != .eof)).length ∧
      (held v)[i]? = some c.current ∧
      (c.atEnd → ∀ more, (c.after more).atEnd) ∧
      (op.reads → ∀ t, (r = .token t ∨ r = .maybe (some t)) →
        t = c.current ∧ d.At v (if t.kind = .eof then i else i + 1)) ∧
      (op = .endLine → d.At v (if c.current.kind = .newline then i + 1 else i)) ∧
      ((r = .maybe none ∨ (∃ e, r = .failed e) ∨ (op.reads = false ∧ op ≠ .endLine)) → d = c) := by
  dsimp only
  obtain ⟨i, hi⟩ := (at_ofTokens v).after ops
  generalize (ofTokens v).after ops = c at hi ⊢
  refine ⟨held_getLast v, i, hi, takeWhile_held v ▸ hi.le_stop, hi.current_eq,
    fun h more => atEnd_after h more, fun hop t hr => hi.perform_read hop hr, ?_, ?_⟩
  · rintro rfl
    exact hi.perform_endLine
  · rintro (hr | hr | ⟨hop, hl⟩)
    · exact perform_miss (.inl hr)
    · exact perform_miss (.inr hr)
    · exact perform_look hop hl

end Cursor

end ScriptFront
