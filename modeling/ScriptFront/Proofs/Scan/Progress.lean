import ScriptFront.Token.Scan
/-!
# The scanner always moves on

Each step of the scanner splits a non-empty lexeme off the front of the text and goes on with
the rest, and a string literal's lexeme holds the two quotes around its body. Scanning is
therefore total, takes at most one step per character, and gives at most one token more than
the source has characters.
-/

set_option autoImplicit false

namespace ScriptFront

/-- Every lexeme is a non-empty front piece of the text, a string literal's piece is its body
between two quotes, and a source of `n` characters scans into at most `n + 1` tokens. -/
theorem scan_moves_on :
    (∀ (cs w rest : List Char) (l : Lexeme), Lexeme.split? cs = some (l, w, rest) →
      w ≠ [] ∧ w ++ rest = cs ∧ (l = .string → ∃ body, w = '"' :: (body ++ ['"']))) ∧
    (∀ (source file : String) (ts : List Token), tokenize source file = .ok ts →
      ts.length ≤ source.toList.length + 1) := by
  refine ⟨fun cs w rest l h => ?_, fun source file => tokenize_length source file⟩
  obtain ⟨happ, hne⟩ := Lexeme.split?_append h
  refine ⟨hne, happ, ?_⟩
  rintro rfl
  exact Lexeme.split?_string h

theorem tokenize_eq_ok_of_toOption {source file : String} {ts : List Token}
    (h : (tokenize source file).toOption = some ts) : tokenize source file = .ok ts := by
  cases hr : tokenize source file with
  | error e => rw [hr] at h; cases h
  | ok us => rw [hr] at h; cases h; rfl

theorem scan_moves_on_quoted :
    (Lexeme.split? ['"', 'a', '"', ';'] = some (.string, ['"', 'a', '"'], [';']) ∧
      (['"', 'a', '"'] ≠ [] ∧ ['"', 'a', '"'] ++ [';'] = ['"', 'a', '"', ';'] ∧
        (Lexeme.string = .string → ∃ body, ['"', 'a', '"'] = '"' :: (body ++ ['"'])))) ∧
    (tokenize "x" "f" = .ok [⟨.identifier, "x", ⟨⟨1, 1, "f"⟩, ⟨1, 2, "f"⟩⟩⟩,
        ⟨.eof, "EOF", ⟨⟨1, 2, "f"⟩, ⟨1, 2, "f"⟩⟩⟩] ∧ 2 ≤ "x".toList.length + 1) :=
  have hs : Lexeme.split? ['"', 'a', '"', ';'] = some (.string, ['"', 'a', '"'], [';']) := by
    decide
  have ht : tokenize "x" "f" = .ok [⟨.identifier, "x", ⟨⟨1, 1, "f"⟩, ⟨1, 2, "f"⟩⟩⟩,
      ⟨.eof, "EOF", ⟨⟨1, 2, "f"⟩, ⟨1, 2, "f"⟩⟩⟩] :=
    tokenize_eq_ok_of_toOption (by decide +kernel)
  ⟨⟨hs, scan_moves_on.1 _ _ _ _ hs⟩, ⟨ht, scan_moves_on.2 _ _ _ ht⟩⟩

end ScriptFront
