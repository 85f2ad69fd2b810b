import Mathlib.Data.List.Induction
import ScriptFront.Proofs.Scan.Munch
import ScriptFront.Proofs.Print.ScanText
import ScriptFront.Source.Line
/-!
# Where the tokens of a source stand

A place in a source can be counted from its characters: its line is one more than the line
feeds before it, and its column one more than the characters after the last of them
(`Position.ofIndex`). The scanner moves a position on character by character instead, and the
main statement, `token_places`, says that the two agree. Each token spans its lexeme, from the
place of its first character to the place after its last; the end of file stands at the place
after the source; the tokens start one after the other; and a scan that fails names the place
of the character where it stopped. The line that `lineAt` quotes for a token's line, without
its ending carriage returns, holds the token's lexeme from the token's column on.
-/

set_option autoImplicit false

namespace ScriptFront

def lastLine (pre : List Char) : List Char := (pre.reverse.takeWhile (· != '\n')).reverse

@[simp] theorem lastLine_nil : lastLine [] = [] := rfl

theorem lastLine_append_singleton (pre : List Char) (c : Char) :
    lastLine (pre ++ [c]) = if c = '\n' then [] else lastLine pre ++ [c] := by
  by_cases hc : c = '\n'
  · simp [lastLine, hc]
  · simp [lastLine, hc]

theorem lastLine_append_of_not_mem (pre : List Char) {seg : List Char} (h : '\n' ∉ seg) :
    lastLine (pre ++ seg) = lastLine pre ++ seg := by
  induction seg using List.reverseRecOn with
  | nil => simp
  | append_singleton seg c ih =>
    have hc : c ≠ '\n' := fun e => h (by simp [e])
    rw [← List.append_assoc, lastLine_append_singleton, if_neg hc, ih fun hn => h (by simp [hn]),
      List.append_assoc]

namespace Position

/-- The place of the character at index `i` of the source `cs` named `file`, in the scanner's
32-bit counters. -/
def ofIndex (file : String) (cs : List Char) (i : Nat) : Position :=
  ⟨(1 + (cs.take i).count '\n').toUInt32, (1 + (lastLine (cs.take i)).length).toUInt32, file⟩

def Before (p q : Position) : Prop :=
  p.line < q.line ∨ (p.line = q.line ∧ p.column < q.column)

instance (p q : Position) : Decidable (p.Before q) := inferInstanceAs (Decidable (_ ∨ _))

theorem Before.trans {p q r : Position} (h : p.Before q) (h' : q.Before r) : p.Before r := by
  unfold Before at *
  simp only [UInt32.lt_iff_toNat_lt, ← UInt32.toNat_inj] at *
  omega

theorem first_advance (file : String) (ds : List Char) :
    (first file).advance ds =
      ⟨(1 + ds.count '\n').toUInt32, (1 + (lastLine ds).length).toUInt32, file⟩ := by
  induction ds using List.reverseRecOn with
  | nil => rfl
  | append_singleton ds c ih =>
    rw [advance_append, ih, lastLine_append_singleton]
    by_cases hc : c = '\n'
    · subst hc
      simp only [advance, List.foldl, next, if_true, List.count_append, List.count_singleton,
        beq_self_eq_true, if_true, Position.mk.injEq, and_true, List.length_nil]
      refine ⟨UInt32.toNat_inj.mp ?_, rfl⟩
      simp only [UInt32.toNat_add, Nat.toUInt32_eq, UInt32.toNat_ofNat', UInt32.toNat_one]
      omega
    · simp only [advance, List.foldl, next, List.count_append, List.count_singleton, beq_iff_eq,
        if_neg hc, Position.mk.injEq, true_and, and_true, List.length_append,
        List.length_singleton, Nat.add_zero]
      apply UInt32.toNat_inj.mp
      simp only [UInt32.toNat_add, Nat.toUInt32_eq, UInt32.toNat_ofNat', UInt32.toNat_one]
      omega

theorem ofIndex_eq_advance (file : String) (cs : List Char) (i : Nat) :
    ofIndex file cs i = (first file).advance (cs.take i) :=
  (first_advance file _).symm

@[simp] theorem ofIndex_zero (file : String) (cs : List Char) : ofIndex file cs 0 = first file :=
  rfl

/-- Every place of the source has a line and a column below `2 ^ 32`, so that the scanner's
counters never wrap: it has fewer than `2 ^ 32 - 1` line feeds, and each of its lines fewer than
`2 ^ 32 - 1` characters. -/
def Fits (cs : List Char) : Prop :=
  cs.count '\n' + 1 < UInt32.size ∧ ∀ l ∈ cs.splitOn '\n', l.length + 1 < UInt32.size

instance (cs : List Char) : Decidable (Fits cs) := inferInstanceAs (Decidable (_ ∧ _))

end Position

/-! ### Lines -/

theorem length_splitOn (cs : List Char) : (cs.splitOn '\n').length = cs.count '\n' + 1 := by
  induction cs with
  | nil => simp
  | cons c cs ih =>
    rw [List.splitOn_cons_eq_if_modifyHead]
    by_cases hc : c = '\n'
    · subst hc
      simp [ih]
    · simp [hc, ih]

theorem splitOn_head (rest : List Char) :
    (rest.splitOn '\n')[0]? = some (rest.takeWhile (· != '\n')) := by
  induction rest with
  | nil => simp
  | cons c r ih =>
    rw [List.splitOn_cons_eq_if_modifyHead]
    by_cases hc : c = '\n'
    · subst hc
      simp
    · simp [hc, List.getElem?_modifyHead, ih]

theorem splitOn_count (pre rest : List Char) :
    ((pre ++ rest).splitOn '\n')[pre.count '\n']? =
      some (lastLine pre ++ rest.takeWhile (· != '\n')) := by
  induction pre using List.reverseRecOn generalizing rest with
  | nil => simpa using splitOn_head rest
  | append_singleton pre c ih =>
    rw [List.append_assoc, List.singleton_append, lastLine_append_singleton]
    by_cases hc : c = '\n'
    · subst hc
      rw [List.splitOn_append_cons_self, List.getElem?_append_right (by simp [length_splitOn])]
      simpa [length_splitOn] using splitOn_head rest
    · have := ih (c :: rest)
      simp only [List.count_append, List.count_singleton, beq_iff_eq, hc, if_false,
        Nat.add_zero] at this ⊢
      simpa [hc] using this

theorem trimEnd_append {X : List Char} (Y : List Char) (hX : ∀ c ∈ X.getLast?, c ≠ '\r') :
    ((X ++ Y).reverse.dropWhile (· == '\r')).reverse =
      X ++ (Y.reverse.dropWhile (· == '\r')).reverse := by
  have hXr : X.reverse.dropWhile (· == '\r') = X.reverse := by
    cases hx : X.reverse with
    | nil => rfl
    | cons c r =>
      have hc : c ≠ '\r' := hX c (by rw [← List.head?_reverse, hx]; rfl)
      simp [hc]
  rw [List.reverse_append, List.dropWhile_append]
  split
  · next h =>
    rw [hXr, List.isEmpty_iff.mp h]
    simp
  · simp

theorem lineAt_succ (source : String) (k : Nat) :
    lineAt source (k + 1) = ((source.toList.splitOn '\n')[k]?).map fun l =>
      String.ofList (l.reverse.dropWhile (· == '\r')).reverse := rfl

/-! ### Sources that fit the counters -/

namespace Position

variable {cs : List Char}

theorem ofIndex_toNat (h : Fits cs) (file : String) (i : Nat) :
    (ofIndex file cs i).line.toNat = 1 + (cs.take i).count '\n' ∧
      (ofIndex file cs i).column.toNat = 1 + (lastLine (cs.take i)).length := by
  have hc : (cs.take i).count '\n' ≤ cs.count '\n' := (List.take_sublist i cs).count_le _
  have hline := splitOn_count (cs.take i) (cs.drop i)
  rw [List.take_append_drop] at hline
  have hl := h.2 _ (List.mem_of_getElem? hline)
  rw [List.length_append] at hl
  simp only [ofIndex, Nat.toUInt32_eq, UInt32.toNat_ofNat']
  have := h.1
  simp only [UInt32.size] at hl this
  omega

/-- In a source that fits, a place at a smaller index comes before one at a larger index. -/
theorem ofIndex_before (h : Fits cs) (file : String) {i j : Nat} (hij : i < j)
    (hj : j ≤ cs.length) : (ofIndex file cs i).Before (ofIndex file cs j) := by
  obtain ⟨seg, hseg, hne⟩ : ∃ seg, cs.take j = cs.take i ++ seg ∧ seg ≠ [] := by
    refine ⟨(cs.take j).drop i, ?_, ?_⟩
    · calc cs.take j = (cs.take j).take i ++ (cs.take j).drop i := (List.take_append_drop i _).symm
        _ = cs.take i ++ (cs.take j).drop i := by
          rw [List.take_take, Nat.min_eq_left (Nat.le_of_lt hij)]
    · simp only [ne_eq, List.drop_eq_nil_iff, List.length_take]
      omega
  obtain ⟨hli, hci⟩ := ofIndex_toNat h file i
  obtain ⟨hlj, hcj⟩ := ofIndex_toNat h file j
  unfold Before
  simp only [UInt32.lt_iff_toNat_lt, ← UInt32.toNat_inj, hli, hci, hlj, hcj, hseg,
    List.count_append]
  by_cases hn : '\n' ∈ seg
  · have := List.count_pos_iff.mpr hn
    omega
  · rw [lastLine_append_of_not_mem _ hn, List.count_eq_zero.mpr hn, List.length_append]
    have := List.length_pos_iff.mpr hne
    omega

end Position

theorem lineAt_ofIndex (source file : String) (hfit : Position.Fits source.toList) (b : Nat)
    {w : List Char} (hw : w <+: source.toList.drop b) (hn : '\n' ∉ w)
    (hr : ∀ c ∈ w.getLast?, c ≠ '\r') :
    ∃ line, lineAt source (Position.ofIndex file source.toList b).line.toNat = some line ∧
      w <+: line.toList.drop ((Position.ofIndex file source.toList b).column.toNat - 1) := by
  obtain ⟨hl, hc⟩ := Position.ofIndex_toNat hfit file b
  rw [hl, hc]
  obtain ⟨u, hu⟩ := hw
  have hcs : source.toList = source.toList.take b ++ (w ++ u) := by
    rw [hu, List.take_append_drop]
  have htw : (w ++ u).takeWhile (· != '\n') = w ++ u.takeWhile (· != '\n') := by
    refine List.takeWhile_append_of_pos fun x hx => ?_
    simp only [bne_iff_ne, ne_eq]
    rintro rfl
    exact hn hx
  have hline := splitOn_count (source.toList.take b) (w ++ u)
  rw [← hcs, htw] at hline
  refine ⟨String.ofList (((lastLine (source.toList.take b) ++
      (w ++ u.takeWhile (· != '\n'))).reverse.dropWhile (· == '\r')).reverse), ?_, ?_⟩
  · rw [Nat.add_comm 1, lineAt_succ, hline]
    rfl
  rcases List.eq_nil_or_concat w with rfl | ⟨w', c, rfl⟩
  · exact List.nil_prefix
  · rw [List.concat_eq_append] at hr ⊢
    have hX : ∀ x ∈ (lastLine (source.toList.take b) ++ (w' ++ [c])).getLast?, x ≠ '\r' := by
      simpa using hr
    rw [String.toList_ofList, ← List.append_assoc, trimEnd_append _ hX]
    simp

namespace Lexeme

structure Placed where
  lexeme : Lexeme
  text : List Char
  start : Nat

def Placed.stop (x : Placed) : Nat := x.start + x.text.length

def place : List (Lexeme × List Char) → Nat → List Placed
  | [], _ => []
  | (l, w) :: ws, b => ⟨l, w, b⟩ :: place ws (b + w.length)

def Placed.token? (pos : Nat → Position) (x : Placed) : Option Token :=
  (x.lexeme.tokenOf? x.text).map fun kv => ⟨kv.1, kv.2, ⟨pos x.start, pos x.stop⟩⟩

theorem Spells.ne_nil {l : Lexeme} {w : List Char} (h : l.Spells w) : w ≠ [] := by
  cases l with
  | word =>
    obtain ⟨c, cs, rfl, -⟩ := h
    simp
  | number => exact h.1
  | blank => exact h.1
  | newline =>
    rw [show w = ['\n'] from h]
    simp
  | string =>
    obtain ⟨b, rfl, -⟩ := h
    simp
  | comment =>
    obtain ⟨cs, rfl, -⟩ := h
    simp
  | punctuator k =>
    obtain ⟨c, cs, rfl, -⟩ := punctuator_head h
    simp

theorem Munch.spells {cs rest : List Char} {ws : List (Lexeme × List Char)}
    (h : Munch cs ws rest) : ∀ lw ∈ ws, lw.1.Spells lw.2 := by
  induction h with
  | stop => simp
  | lexeme hw _ _ ih =>
    intro lw hlw
    rcases List.mem_cons.mp hlw with rfl | hlw
    · exact hw
    · exact ih lw hlw

theorem Munch.place_prefix {cs rest : List Char} {ws : List (Lexeme × List Char)}
    (h : Munch cs ws rest) (src : List Char) (b : Nat) (hb : src.drop b = cs) :
    ∀ x ∈ place ws b, x.lexeme.Spells x.text ∧ x.text <+: src.drop x.start := by
  induction h generalizing b with
  | stop => simp [place]
  | @lexeme l w cs' rest' ws' hw _ _ ih =>
    have hb' : src.drop (b + w.length) = cs' := by
      rw [← List.drop_drop, hb]
      simp
    intro x hx
    rcases List.mem_cons.mp hx with rfl | hx
    · exact ⟨hw, hb ▸ List.prefix_append w cs'⟩
    · exact ih (b + w.length) hb' x hx

theorem lexemeTokens_ofIndex (file : String) (cs : List Char) (ws : List (Lexeme × List Char)) :
    ∀ b, cs.drop b = ws.flatMap Prod.snd →
      lexemeTokens ws (Position.ofIndex file cs b) =
        (place ws b).filterMap (Placed.token? (Position.ofIndex file cs)) ++
          [Token.endAt (Position.ofIndex file cs cs.length)] := by
  induction ws with
  | nil =>
    intro b h
    have hb : cs.length ≤ b := List.drop_eq_nil_iff.mp (by simpa using h)
    simp [lexemeTokens, place, Position.ofIndex, List.take_of_length_le hb]
  | cons lw ws ih =>
    obtain ⟨l, w⟩ := lw
    intro b h
    have hdrop : cs.drop (b + w.length) = ws.flatMap Prod.snd := by
      rw [← List.drop_drop, h]
      simp
    have hadv : (Position.ofIndex file cs b).advance w = Position.ofIndex file cs (b + w.length) := by
      rw [Position.ofIndex_eq_advance, Position.ofIndex_eq_advance, ← Position.advance_append,
        List.take_add, h]
      simp
    rw [lexemeTokens_cons, hadv, ih _ hdrop]
    cases ht : l.tokenOf? w <;> simp [place, Placed.token?, Placed.stop, ht]

theorem place_starts (ws : List (Lexeme × List Char)) (b : Nat) (hne : ∀ lw ∈ ws, lw.2 ≠ []) :
    (place ws b).Pairwise (fun x y => x.start < y.start) ∧
      ∀ x ∈ place ws b, b ≤ x.start ∧ x.start < b + (ws.flatMap Prod.snd).length := by
  induction ws generalizing b with
  | nil => simp [place]
  | cons lw ws ih =>
    obtain ⟨l, w⟩ := lw
    have hw : 0 < w.length := List.length_pos_iff.mpr (hne (l, w) List.mem_cons_self)
    obtain ⟨hpair, hbound⟩ := ih (b + w.length) fun lw h => hne lw (List.mem_cons_of_mem _ h)
    refine ⟨List.pairwise_cons.mpr ⟨fun y hy => ?_, hpair⟩, fun x hx => ?_⟩
    · have := (hbound y hy).1
      simp only
      omega
    · rcases List.mem_cons.mp hx with rfl | hx
      · simp only [List.flatMap_cons, List.length_append]
        omega
      · have := hbound x hx
        simp only [List.flatMap_cons, List.length_append]
        omega

theorem placedTokens_rising (file : String) {cs : List Char} (h : Position.Fits cs)
    (ws : List (Lexeme × List Char)) (hne : ∀ lw ∈ ws, lw.2 ≠ []) (hcs : cs = ws.flatMap Prod.snd) :
    ((place ws 0).filterMap (Placed.token? (Position.ofIndex file cs)) ++
        [Token.endAt (Position.ofIndex file cs cs.length)]).Pairwise
      (fun t u => t.start.Before u.start) := by
  obtain ⟨hpair, hbound⟩ := place_starts ws 0 hne
  have hstart : ∀ (x : Placed) (t : Token), t ∈ x.token? (Position.ofIndex file cs) →
      t.start = Position.ofIndex file cs x.start := by
    intro x t ht
    unfold Placed.token? at ht
    obtain ⟨kv, -, rfl⟩ := Option.map_eq_some_iff.mp ht
    rfl
  have hlen : ∀ x ∈ place ws 0, x.start < cs.length := fun x hx => by
    have := (hbound x hx).2
    rw [hcs]
    omega
  refine List.pairwise_append.mpr ⟨?_, List.pairwise_singleton _ _, fun t ht u hu => ?_⟩
  · refine List.pairwise_filterMap.mpr (hpair.imp_of_mem fun {x y} hx hy hxy t ht u hu => ?_)
    rw [hstart x t ht, hstart y u hu]
    exact Position.ofIndex_before h file hxy (Nat.le_of_lt (hlen y hy))
  · obtain ⟨x, hx, hxt⟩ := List.mem_filterMap.mp ht
    rw [List.mem_singleton.mp hu, hstart x t hxt]
    exact Position.ofIndex_before h file (hlen x hx) (Nat.le_refl _)

theorem lexemeTokens_file (ws : List (Lexeme × List Char)) (p : Position) :
    ∀ t ∈ lexemeTokens ws p, t.span.start.file = p.file ∧ t.span.stop.file = p.file := by
  induction ws generalizing p with
  | nil => simp [lexemeTokens, Token.endAt]
  | cons lw ws ih =>
    obtain ⟨l, w⟩ := lw
    intro t ht
    rw [lexemeTokens_cons] at ht
    rcases List.mem_append.mp ht with ht | ht
    · cases hk : l.tokenOf? w with
      | none => simp [hk] at ht
      | some kv =>
        simp only [hk, Option.map_some, Option.toList_some, List.mem_singleton] at ht
        subst ht
        simp
    · simpa using ih (p.advance w) t ht

theorem StringBody.not_mem_newline {b : List Char} (h : StringBody b) : '\n' ∉ b := by
  induction h with
  | nil => simp
  | plain _ _ hn _ ih => simp [Ne.symm hn, ih]
  | escape he _ ih => simp [Ne.symm he, ih]

theorem Spells.within_line {l : Lexeme} {w : List Char} (hs : l.Spells w) (hl : l ≠ .newline)
    (ht : (l.tokenOf? w).isSome) : '\n' ∉ w ∧ ∀ c ∈ w.getLast?, c ≠ '\r' := by
  have of_chars : (∀ x ∈ w, x ≠ '\n' ∧ x ≠ '\r') → '\n' ∉ w ∧ ∀ c ∈ w.getLast?, c ≠ '\r' :=
    fun h => ⟨fun hn => (h _ hn).1 rfl, fun c hc => (h c (List.mem_of_getLast? hc)).2⟩
  cases l with
  | word =>
    obtain ⟨c, cs, rfl, hc, hcs⟩ := hs
    refine of_chars fun x hx => ?_
    rcases List.mem_cons.mp hx with rfl | hx
    · constructor <;> rintro rfl <;> exact absurd hc (by decide)
    · have hw := hcs x hx
      constructor <;> rintro rfl <;> exact absurd hw (by decide)
  | number =>
    refine of_chars fun x hx => ?_
    have hd := hs.2 x hx
    constructor <;> rintro rfl <;> exact absurd hd (by decide)
  | blank => simp [tokenOf?] at ht
  | newline => exact absurd rfl hl
  | string =>
    obtain ⟨b, rfl, hb⟩ := hs
    refine ⟨by simp [hb.not_mem_newline], fun c hc => ?_⟩
    rw [← List.cons_append, List.getLast?_append] at hc
    simp only [List.getLast?_singleton, Option.some_or] at hc
    obtain rfl := Option.mem_some_iff.mp hc
    decide
  | comment => simp [tokenOf?] at ht
  | punctuator k =>
    have key : TokenKind.punctuators.all (fun p => !p.1.contains '\n' && !p.1.contains '\r') =
        true := by decide
    have hk := List.all_eq_true.mp key (w, k) hs
    simp only [Bool.and_eq_true, Bool.not_eq_eq_eq_not, Bool.not_true, List.contains_eq_mem,
      decide_eq_false_iff_not] at hk
    refine of_chars fun x hx => ⟨?_, ?_⟩ <;> rintro rfl
    · exact hk.1 hx
    · exact hk.2 hx

end Lexeme

/-- The tokens of a scanned source are those of its longest lexemes, over their counted places,
and the end of file at the place after the source. -/
theorem tokenize_placed {source : String} {file : Option String} {ts : List Token}
    (h : tokenize source file = .ok ts) : ∃ ws, Lexeme.Munch source.toList ws [] ∧
      ts = (Lexeme.place ws 0).filterMap
          (Lexeme.Placed.token? (Position.ofIndex (file.getD defaultFile) source.toList)) ++
        [Token.endAt (Position.ofIndex (file.getD defaultFile) source.toList source.toList.length)] ∧
      ts = Lexeme.lexemeTokens ws (Position.first (file.getD defaultFile)) := by
  obtain ⟨ws, hm, -, rfl⟩ := (Lexeme.scanFrom_eq_ok_iff _ _ ts).mp h
  have hflat : source.toList = ws.flatMap Prod.snd := by simpa using hm.eq_append
  have hts := Lexeme.lexemeTokens_ofIndex (file.getD defaultFile) source.toList ws 0
    (by simpa using hflat)
  rw [Position.ofIndex_zero] at hts
  exact ⟨ws, hm, hts, rfl⟩

theorem tokenize_rising {source : String} {file : Option String} {ts : List Token}
    (hfit : Position.Fits source.toList) (h : tokenize source file = .ok ts) :
    ts.Pairwise fun t u => t.start.Before u.start := by
  obtain ⟨ws, hm, hts, -⟩ := tokenize_placed h
  rw [hts]
  exact Lexeme.placedTokens_rising _ hfit ws (fun lw h => (hm.spells lw h).ne_nil)
    (by simpa using hm.eq_append)

/-- The scanner's positions are the counted places of the source in 32-bit counters; in a
source that fits them the tokens rise and each stands on the line that `lineAt` quotes. -/
theorem token_places (source : String) (file : Option String) :
    (∀ ts, tokenize source file = .ok ts → ∃ ws, Lexeme.Munch source.toList ws [] ∧
      ts = (Lexeme.place ws 0).filterMap
          (Lexeme.Placed.token? (Position.ofIndex (file.getD defaultFile) source.toList)) ++
        [Token.endAt (Position.ofIndex (file.getD defaultFile) source.toList source.toList.length)] ∧
      (∀ x ∈ Lexeme.place ws 0, x.text = (source.toList.drop x.start).take x.text.length) ∧
      (∀ t ∈ ts, t.span.start.file = file.getD defaultFile ∧
        t.span.stop.file = file.getD defaultFile) ∧
      (Position.Fits source.toList →
        ts.Pairwise (fun t u => t.start.Before u.start) ∧
        ∀ x ∈ Lexeme.place ws 0, x.lexeme ≠ .newline → (x.lexeme.tokenOf? x.text).isSome →
          ∃ line, lineAt source
              (Position.ofIndex (file.getD defaultFile) source.toList x.start).line.toNat =
              some line ∧
            x.text <+: line.toList.drop
              ((Position.ofIndex (file.getD defaultFile) source.toList x.start).column.toNat - 1))) ∧
    (∀ e, tokenize source file = .error e → ∃ ws rest, Lexeme.Munch source.toList ws rest ∧
      Lexeme.Stuck rest e.fault ∧
      e.position = Position.ofIndex (file.getD defaultFile) source.toList
        (source.toList.length - rest.length)) := by
  refine ⟨fun ts h => ?_, fun e h => ?_⟩
  · obtain ⟨ws, hm, hts, hlex⟩ := tokenize_placed h
    have hplace := hm.place_prefix source.toList 0 rfl
    refine ⟨ws, hm, hts, fun x hx => List.prefix_iff_eq_take.mp (hplace x hx).2,
      fun t ht => ?_, fun hfit => ⟨tokenize_rising hfit h, fun x hx hl ht => ?_⟩⟩
    · rw [hlex] at ht
      simpa [Position.first] using Lexeme.lexemeTokens_file ws _ t ht
    · obtain ⟨hn, hr⟩ := (hplace x hx).1.within_line hl ht
      exact lineAt_ofIndex source _ hfit x.start (hplace x hx).2 hn hr
  · obtain ⟨ws, rest, hm, -, hst, hpos⟩ := Lexeme.scanFrom_eq_error h
    refine ⟨ws, rest, hm, hst, ?_⟩
    have hcs := hm.eq_append
    have hlen : source.toList.length - rest.length = (ws.flatMap Prod.snd).length := by
      rw [hcs]
      simp
    rw [hpos, hlen, Position.ofIndex_eq_advance, hcs]
    simp

theorem token_places_line_feed :
    tokenize "a\nb" none = .ok [⟨.identifier, "a", ⟨⟨1, 1, "shell"⟩, ⟨1, 2, "shell"⟩⟩⟩,
        ⟨.newline, "\n", ⟨⟨1, 2, "shell"⟩, ⟨2, 1, "shell"⟩⟩⟩,
        ⟨.identifier, "b", ⟨⟨2, 1, "shell"⟩, ⟨2, 2, "shell"⟩⟩⟩, Token.endAt ⟨2, 2, "shell"⟩] ∧
      [(⟨.identifier, "a", ⟨⟨1, 1, "shell"⟩, ⟨1, 2, "shell"⟩⟩⟩ : Token),
        ⟨.newline, "\n", ⟨⟨1, 2, "shell"⟩, ⟨2, 1, "shell"⟩⟩⟩,
        ⟨.identifier, "b", ⟨⟨2, 1, "shell"⟩, ⟨2, 2, "shell"⟩⟩⟩,
        Token.endAt ⟨2, 2, "shell"⟩].Pairwise (fun t u => t.start.Before u.start) := by
  have h : tokenize "a\nb" none = .ok [⟨.identifier, "a", ⟨⟨1, 1, "shell"⟩, ⟨1, 2, "shell"⟩⟩⟩,
      ⟨.newline, "\n", ⟨⟨1, 2, "shell"⟩, ⟨2, 1, "shell"⟩⟩⟩,
      ⟨.identifier, "b", ⟨⟨2, 1, "shell"⟩, ⟨2, 2, "shell"⟩⟩⟩, Token.endAt ⟨2, 2, "shell"⟩] := by
    decide +kernel
  obtain ⟨ws, -, -, -, -, hfit⟩ := (token_places "a\nb" none).1 _ h
  exact ⟨h, (hfit (by decide)).1⟩

theorem scanFrom_spaces (n : Nat) (rest : List Char) (p : Position) :
    scanFrom (List.replicate n ' ' ++ rest) p = scanFrom rest ⟨p.line, p.column + n.toUInt32, p.file⟩ := by
  induction n generalizing p with
  | zero => simp
  | succ n ih =>
    rw [List.replicate_succ, List.cons_append, scanFrom_space, ih]
    simp only [Position.next, if_neg (by decide : ' ' ≠ '\n')]
    congr 2
    apply UInt32.toNat_inj.mp
    simp only [UInt32.toNat_add, Nat.toUInt32_eq, UInt32.toNat_ofNat', UInt32.toNat_one]
    omega

/-- After `2 ^ 32` blanks the column counter is back where it started: the `a` that follows them
is scanned at column 1, not at the place `2 ^ 32 + 1` that counting gives. -/
theorem blank_run_wraps_column :
    tokenize (String.ofList (List.replicate UInt32.size ' ' ++ ['a'])) none =
      .ok [⟨.identifier, "a", ⟨⟨1, 1, "shell"⟩, ⟨1, 2, "shell"⟩⟩⟩, Token.endAt ⟨1, 2, "shell"⟩] := by
  rw [tokenize, String.toList_ofList, scanFrom_spaces]
  decide +kernel

end ScriptFront
