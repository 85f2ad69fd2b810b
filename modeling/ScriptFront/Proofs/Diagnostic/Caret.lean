import ScriptFront.Proofs.Grammar.ErrorPlaces
import ScriptFront.Diagnostic.Render
/-!
# The caret of a diagnostic

A diagnostic quotes the line of its error without the spaces and tabs that start it and puts a
caret under the error's column, counted after them. The caret is where the quoted character is
exactly when the error's column lies after those spaces and tabs; the display then never has to
widen its run of dashes to one.

Every error of scanning or reading a source marks a place that is not a blank: a character where
scanning stopped, the start of a token, or the end of the source (`Position.Marks`). On its line,
the characters before such a place include all the spaces and tabs that start the line, so the
column lies after them (`indent_le_column`). The main statement is `caret_under_column`.
-/

set_option autoImplicit false

namespace ScriptFront

def Position.Marks (file : String) (cs : List Char) (p : Position) : Prop :=
  ∃ b ≤ cs.length, p = Position.ofIndex file cs b ∧
    ∀ ch ∈ (cs.drop b).head?, Lexeme.isBlankChar ch = false

/-! ## Where errors stand in the source -/

namespace Lexeme

theorem Spells.head_unblank {l : Lexeme} {w : List Char} (h : l.Spells w)
    (ht : (l.tokenOf? w).isSome) : ∃ ch cs, w = ch :: cs ∧ isBlankChar ch = false := by
  cases l with
  | word =>
    obtain ⟨ch, cs, rfl, hw, -⟩ := h
    refine ⟨ch, cs, rfl, ?_⟩
    cases hb : isBlankChar ch
    · rfl
    · rw [(isBlankChar_start hb).1] at hw
      cases hw
  | number =>
    obtain ⟨hne, hd⟩ := h
    obtain ⟨ch, cs, rfl⟩ := List.exists_cons_of_ne_nil hne
    refine ⟨ch, cs, rfl, ?_⟩
    cases hb : isBlankChar ch
    · rfl
    · have hdig := hd ch List.mem_cons_self
      rw [(isBlankChar_start hb).2] at hdig
      cases hdig
  | blank => simp [tokenOf?] at ht
  | newline => exact ⟨'\n', [], h, by decide⟩
  | string =>
    obtain ⟨body, rfl, -⟩ := h
    exact ⟨'"', _, rfl, by decide⟩
  | comment => simp [tokenOf?] at ht
  | punctuator k =>
    obtain ⟨ch, cs, rfl, -, -, hb, -⟩ := punctuator_head h
    exact ⟨ch, cs, rfl, hb⟩

end Lexeme

theorem tokenize_marks {source file : String} {ts : List Token}
    (h : tokenize source file = .ok ts) :
    (∃ t ∈ ts, t.kind = .eof) ∧ ∀ t ∈ ts, t.start.Marks file source.toList := by
  obtain ⟨ws, hm, hts, -⟩ := tokenize_placed h
  rw [Option.getD_some] at hts
  have hplace := hm.place_prefix source.toList 0 rfl
  rw [hts]
  refine ⟨⟨_, List.mem_append_right _ (List.mem_singleton_self _), rfl⟩, fun t ht => ?_⟩
  rcases List.mem_append.mp ht with ht | ht
  · obtain ⟨x, hx, hxt⟩ := List.mem_filterMap.mp ht
    obtain ⟨hsp, hpre⟩ := hplace x hx
    unfold Lexeme.Placed.token? at hxt
    obtain ⟨kv, hkv, rfl⟩ := Option.map_eq_some_iff.mp hxt
    obtain ⟨ch, rest, htext, hch⟩ := hsp.head_unblank (by rw [hkv]; rfl)
    rw [htext] at hpre
    obtain ⟨u, hu⟩ := hpre
    have hdrop : source.toList.drop x.start = ch :: (rest ++ u) := by
      rw [← hu]
      rfl
    have hlt : x.start < source.toList.length := by
      have hlen := congrArg List.length hdrop
      simp only [List.length_drop, List.length_cons] at hlen
      omega
    exact ⟨x.start, hlt.le, rfl, by simpa [hdrop] using hch⟩
  · rw [List.mem_singleton] at ht
    subst ht
    exact ⟨source.toList.length, Nat.le_refl _, rfl, by simp⟩

theorem tokenize_error_marks {source file : String} {e : Error}
    (h : tokenize source file = .error e) : e.position.Marks file source.toList := by
  obtain ⟨ws, rest, hm, -, hst, hpos⟩ := Lexeme.scanFrom_eq_error h
  rw [Option.getD_some] at hpos
  have hcs := hm.eq_append
  refine ⟨(ws.flatMap Prod.snd).length, by rw [hcs]; simp, ?_, ?_⟩
  · rw [hpos, Position.ofIndex_eq_advance, hcs, List.take_left]
  · rw [hcs, List.drop_left]
    rcases hst with ⟨ch, r, rfl, hno, -⟩ | ⟨w, r, rfl, hsp, -⟩
    · cases hb : Lexeme.isBlankChar ch
      · simpa using hb
      · exact absurd (List.prefix_append [ch] r)
          (hno .blank [ch] ⟨List.cons_ne_nil _ _, by simpa using hb⟩)
    · obtain ⟨body, rfl, -⟩ := hsp
      simp [Lexeme.isBlankChar]

theorem Cursor.startsAt_ofTokens {ts : List Token} {p : Position}
    (heof : ∃ t ∈ ts, t.kind = .eof) (h : (Cursor.ofTokens ts).StartsAt p) :
    ∃ t ∈ ts, t.start = p := by
  rcases h with h | ⟨t, ht, he⟩
  · obtain ⟨t, ht, hk⟩ := heof
    have hf : (ts.find? (·.kind == .eof)).isSome := List.find?_isSome.mpr ⟨t, ht, by simp [hk]⟩
    obtain ⟨u, hu⟩ := Option.isSome_iff_exists.mp hf
    refine ⟨u, List.mem_of_find?_eq_some hu, ?_⟩
    rw [h]
    simp [Cursor.ofTokens, Cursor.stopOf, hu]
  · exact ⟨t, (List.takeWhile_prefix _).subset ht, he⟩

theorem ofSource_error_marks {source file : String} {e : Error}
    (h : Program.ofSource source file = .error e) : e.position.Marks file source.toList := by
  unfold Program.ofSource at h
  rcases Except.bind_eq_error.mp h with h | ⟨ts, hts, h⟩
  · exact tokenize_error_marks h
  · obtain ⟨heof, hmarks⟩ := tokenize_marks hts
    obtain ⟨t, ht, he⟩ := Cursor.startsAt_ofTokens heof (Program.readAll_points h)
    rw [← he]
    exact hmarks t ht

/-! ## The quoted line -/

theorem lineAt_ofIndex_eq (source file : String) (hfit : Position.Fits source.toList) (b : Nat) :
    lineAt source (Position.ofIndex file source.toList b).line.toNat =
      some (String.ofList ((lastLine (source.toList.take b) ++
        (source.toList.drop b).takeWhile (· != '\n')).reverse.dropWhile (· == '\r')).reverse) := by
  have hline := splitOn_count (source.toList.take b) (source.toList.drop b)
  rw [List.take_append_drop] at hline
  rw [(Position.ofIndex_toNat hfit file b).1, Nat.add_comm 1, lineAt_succ, hline]
  rfl

theorem takeWhile_append_length_le {p : Char → Bool} (P : List Char) {R : List Char}
    (hR : ∀ ch ∈ R.head?, p ch = false) : ((P ++ R).takeWhile p).length ≤ P.length := by
  induction P with
  | nil =>
    cases R with
    | nil => simp
    | cons ch R => simp [hR ch rfl]
  | cons a P ih =>
    rw [List.cons_append, List.takeWhile_cons]
    split
    · rw [List.length_cons, List.length_cons]
      omega
    · simp

theorem indent_le_column (P : List Char) {rest : List Char}
    (hrest : ∀ ch ∈ rest.head?, Lexeme.isBlankChar ch = false) :
    ((((P ++ rest.takeWhile (· != '\n')).reverse.dropWhile (· == '\r')).reverse).takeWhile
      fun c => c == ' ' || c == '\t').length ≤ P.length := by
  have hend : (((P.reverse.dropWhile (· == '\r')).reverse).takeWhile
      fun c => c == ' ' || c == '\t').length ≤ P.length :=
    calc _ ≤ ((P.reverse.dropWhile (· == '\r')).reverse).length :=
          (List.takeWhile_prefix _).length_le
      _ ≤ P.length := by simpa using List.length_dropWhile_le _ P.reverse
  cases rest with
  | nil => simpa using hend
  | cons ch rest =>
    by_cases hn : ch = '\n'
    · subst hn
      simpa using hend
    · have hch : (ch ≠ ' ' ∧ ch ≠ '\t') ∧ ch ≠ '\r' := by
        simpa [Lexeme.isBlankChar] using hrest ch rfl
      rw [List.takeWhile_cons_of_pos (by simpa using hn),
        show P ++ ch :: rest.takeWhile (· != '\n') = (P ++ [ch]) ++ rest.takeWhile (· != '\n') by
          simp,
        trimEnd_append _ (by simpa using hch.2), List.append_assoc, List.singleton_append]
      exact takeWhile_append_length_le P (by simp [hch.1.1, hch.1.2])

/-! ## The rendered lines -/

theorem toString_uint32 (n : UInt32) : toString n = toString n.toNat := rfl

theorem Error.header_eq (e : Error) : e.header = "Error: " ++ e.fault.name ++
    (e.fault.tip.map fun t => " (" ++ t ++ ")").getD "" ++ "\n-> " ++ e.position.file ++ ":" ++
    toString e.position.line.toNat ++ ":" ++ toString e.position.column.toNat ++ "\n" := by
  unfold Error.header Position.render
  split <;> rename_i h <;> simp [h, String.append_assoc, toString_uint32]

theorem Error.quoteLine_toList (n column k : Nat) (line : String)
    (hk : k = (line.toList.takeWhile fun c => c == ' ' || c == '\t').length) (hlt : k < column) :
    (Error.quoteLine n column line).toList =
      List.replicate ((toString n).length + 1) ' ' ++ ['|', '\n'] ++
      (toString n).toList ++ [' ', '|', ' '] ++
        (Text.dropTrailingBlanks (String.ofList (line.toList.drop k))).toList ++ ['\n'] ++
      List.replicate ((toString n).length + 1) ' ' ++ ['|', ' '] ++
        List.replicate (column - k - 1) '-' ++ ['^', '\n'] := by
  unfold Error.quoteLine
  dsimp only
  rw [← hk, show max 1 (column - k) = column - k by omega]
  simp [Text.fill]

theorem Text.dropTrailingBlanks_prefix (s : String) :
    (Text.dropTrailingBlanks s).toList <+: s.toList := by
  unfold Text.dropTrailingBlanks
  rw [String.toList_ofList]
  have h := congrArg List.reverse (List.takeWhile_append_dropWhile (p := Text.isBlank)
    (l := s.toList.reverse))
  rw [List.reverse_append, List.reverse_reverse] at h
  exact ⟨_, h⟩

/-- What the display of an error over `source` promises: a header, the error's line with its
`k` leading blanks and its trailing blanks dropped, and a caret line whose `^` stands in the
quoted line where the character of the error's column does. -/
def Error.CaretShown (source file : String) (e : Error) : Prop :=
  ∃ (line : String) (k : Nat) (T : List Char),
    lineAt source e.position.line.toNat = some line ∧
    k = (line.toList.takeWhile fun c => c == ' ' || c == '\t').length ∧
    T = (Text.dropTrailingBlanks (String.ofList (line.toList.drop k))).toList ∧
    e.position.file = file ∧ 1 ≤ e.position.line.toNat ∧ k < e.position.column.toNat ∧
    (e.render source).toList =
      ("Error: " ++ e.fault.name ++ (e.fault.tip.map fun t => " (" ++ t ++ ")").getD "" ++
        "\n-> " ++ file ++ ":" ++ toString e.position.line.toNat ++ ":" ++
        toString e.position.column.toNat ++ "\n").toList ++
      List.replicate ((toString e.position.line.toNat).length + 1) ' ' ++ ['|', '\n'] ++
      (toString e.position.line.toNat).toList ++ [' ', '|', ' '] ++ T ++ ['\n'] ++
      List.replicate ((toString e.position.line.toNat).length + 1) ' ' ++ ['|', ' '] ++
        List.replicate (e.position.column.toNat - k - 1) '-' ++ ['^', '\n'] ∧
    T <+: line.toList.drop k ∧
    (e.position.column.toNat - 1 - k < T.length →
      ((toString e.position.line.toNat).toList ++ [' ', '|', ' '] ++ T)[(toString
        e.position.line.toNat).length + 2 + (e.position.column.toNat - k)]? =
        line.toList[e.position.column.toNat - 1]?)

theorem quoted_getElem? (s : String) {T cs : List Char} {k col : Nat} (hT : T <+: cs.drop k)
    (hk : k < col) (hi : col - 1 - k < T.length) :
    (s.toList ++ [' ', '|', ' '] ++ T)[s.length + 2 + (col - k)]? = cs[col - 1]? := by
  obtain ⟨u, hu⟩ := hT
  have hidx : s.length + 2 + (col - k) = (s.toList ++ [' ', '|', ' ']).length + (col - 1 - k) := by
    simp only [List.length_append, String.length_toList, List.length_cons, List.length_nil]
    omega
  have hT : T[col - 1 - k]? = (cs.drop k)[col - 1 - k]? := by
    rw [← hu, List.getElem?_append_left hi]
  rw [hidx, List.getElem?_append_right (by omega), Nat.add_sub_cancel_left, hT,
    List.getElem?_drop]
  congr 1
  omega

theorem Error.caretShown_of_line {source file : String} {e : Error} {line : String}
    (hline : lineAt source e.position.line.toNat = some line) (hfile : e.position.file = file)
    (hl : 1 ≤ e.position.line.toNat)
    (hk : (line.toList.takeWhile fun c => c == ' ' || c == '\t').length < e.position.column.toNat) :
    e.CaretShown source file := by
  have hT := Text.dropTrailingBlanks_prefix (String.ofList (line.toList.drop
    (line.toList.takeWhile fun c => c == ' ' || c == '\t').length))
  rw [String.toList_ofList] at hT
  refine ⟨line, _, _, hline, rfl, rfl, hfile, hl, hk, ?_, hT,
    fun hi => quoted_getElem? _ hT hk hi⟩
  rw [Error.render, hline]
  dsimp only
  rw [String.toList_append, Error.quoteLine_toList _ _ _ _ rfl hk, Error.header_eq, hfile]
  simp only [List.append_assoc]

/-- An error at a place that is not a blank is shown with its caret under its column. -/
theorem Error.caretShown_of_marks {source file : String} {e : Error}
    (hfit : Position.Fits source.toList) (hm : e.position.Marks file source.toList) :
    e.CaretShown source file := by
  obtain ⟨b, -, hpos, hblank⟩ := hm
  have hline := lineAt_ofIndex_eq source file hfit b
  obtain ⟨hl, hc⟩ := Position.ofIndex_toNat hfit file b
  rw [← hpos] at hline hl hc
  refine Error.caretShown_of_line hline (by rw [hpos]; rfl) (by omega) ?_
  have hindent := indent_le_column (lastLine (source.toList.take b)) hblank
  rw [String.toList_ofList, hc]
  omega

/-- The display of every error of scanning or reading a source that fits the scanner's 32-bit
counters puts its caret under the error's column. -/
theorem caret_under_column {source file : String} {e : Error} (hfit : Position.Fits source.toList)
    (he : tokenize source file = .error e ∨ Program.ofSource source file = .error e) :
    e.CaretShown source file := by
  rcases he with he | he
  · exact Error.caretShown_of_marks hfit (tokenize_error_marks he)
  · exact Error.caretShown_of_marks hfit (ofSource_error_marks he)

theorem lineAt_one_of_not_mem (s : String) (hn : '\n' ∉ s.toList)
    (hr : ∀ c ∈ s.toList.getLast?, c ≠ '\r') : lineAt s 1 = some s := by
  have htrim := trimEnd_append (X := s.toList) [] hr
  simp only [List.append_nil, List.reverse_nil, List.dropWhile_nil] at htrim
  rw [lineAt_succ, List.splitOn_eq_singleton hn, List.getElem?_cons_zero, Option.map_some, htrim,
    String.ofList_toList]

/-- Behind `2 ^ 32` blanks the column counter has wrapped: the `@` where scanning stops is
reported at column 1, which lies within the blanks that start its line, so the caret cannot stand
under it. -/
theorem caret_column_wraps :
    tokenize (String.ofList (List.replicate UInt32.size ' ' ++ ['@'])) "shell" =
        .error ⟨.unrecognised "@", ⟨1, 1, "shell"⟩⟩ ∧
      ¬ Error.CaretShown (String.ofList (List.replicate UInt32.size ' ' ++ ['@'])) "shell"
        ⟨.unrecognised "@", ⟨1, 1, "shell"⟩⟩ := by
  refine ⟨by rw [tokenize, String.toList_ofList, scanFrom_spaces]; decide +kernel, ?_⟩
  have hline : ∀ n, lineAt (String.ofList (List.replicate n ' ' ++ ['@'])) 1 =
      some (String.ofList (List.replicate n ' ' ++ ['@'])) := fun n =>
    lineAt_one_of_not_mem _ (by simp) (by simp)
  have hind : ∀ n, ((List.replicate n ' ' ++ ['@']).takeWhile
      fun c => c == ' ' || c == '\t').length = n := fun n => by
    rw [List.takeWhile_append_of_pos (by simp)]
    simp
  rintro ⟨line, k, T, hl, hk, -, -, -, hlt, -⟩
  rw [show (1 : UInt32).toNat = 1 from rfl, hline, Option.some.injEq] at hl
  rw [← hl, String.toList_ofList, hind] at hk
  rw [show (1 : UInt32).toNat = 1 from rfl, hk] at hlt
  exact absurd hlt (by decide)

theorem caret_under_column_indented :
    Program.ofSource "\tvar = 1" "m.gs" =
        .error ⟨.unexpected "identifier during variable declaration" "`=`", ⟨1, 6, "m.gs"⟩⟩ ∧
      Error.CaretShown "\tvar = 1" "m.gs"
        ⟨.unexpected "identifier during variable declaration" "`=`", ⟨1, 6, "m.gs"⟩⟩ := by
  have h : Program.ofSource "\tvar = 1" "m.gs" =
      .error ⟨.unexpected "identifier during variable declaration" "`=`", ⟨1, 6, "m.gs"⟩⟩ :=
    Except.map_eq_error.mp (by decide +kernel : (Program.ofSource "\tvar = 1" "m.gs").map
      (fun _ => ()) =
        .error ⟨.unexpected "identifier during variable declaration" "`=`", ⟨1, 6, "m.gs"⟩⟩)
  exact ⟨h, caret_under_column (by decide) (.inr h)⟩

end ScriptFront
