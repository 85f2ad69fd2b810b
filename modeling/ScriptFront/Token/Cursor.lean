import ScriptFront.Token.Basic
import ScriptFront.Diagnostic.Fault
/-!
# Cursors over tokens

A cursor is a place in a token list. It holds the tokens still ahead, none of which is an end
of file, and the end-of-file token that follows them, so there is always a current token and
reading never runs off the list. A list without an end of file gets one that copies the span
of its last token, or that lies at the null position if the list is empty; tokens after the
first end of file are never reached.
-/

set_option autoImplicit false

namespace ScriptFront

/-- A reading place in a token list. -/
structure Cursor where
  ahead : List Token
  last : Token
  ahead_ne_eof : ∀ t ∈ ahead, t.kind ≠ .eof
  last_eof : last.kind = .eof

namespace Cursor

def closing (ts : List Token) : Token :=
  ⟨.eof, "EOF", (ts.getLast?.map (·.span)).getD ⟨Position.null, Position.null⟩⟩

def stopOf (ts : List Token) : Token :=
  (ts.find? (·.kind == .eof)).getD (closing ts)

theorem stopOf_eof (ts : List Token) : (stopOf ts).kind = .eof := by
  unfold stopOf
  cases h : ts.find? (·.kind == .eof) with
  | none => rfl
  | some t => simpa using List.find?_some h

def ofTokens (ts : List Token) : Cursor where
  ahead := ts.takeWhile (·.kind != .eof)
  last := stopOf ts
  ahead_ne_eof := fun t ht => by
    have hall : (ts.takeWhile (·.kind != .eof)).all (·.kind != .eof) = true :=
      List.all_takeWhile
    simpa using List.all_eq_true.mp hall t ht
  last_eof := stopOf_eof ts

def current (c : Cursor) : Token := c.ahead.head?.getD c.last

def atEnd (c : Cursor) : Bool := c.ahead.isEmpty

def rest (c : Cursor) {t : Token} {ts : List Token} (h : c.ahead = t :: ts) :
    {d : Cursor // d.ahead.length < c.ahead.length} :=
  ⟨⟨ts, c.last, fun u hu => c.ahead_ne_eof u (by simp [h, hu]), c.last_eof⟩, by simp [h]⟩

def next (c : Cursor) : Cursor :=
  match h : c.ahead with
  | [] => c
  | _ :: _ => (c.rest h).1

def advance (c : Cursor) : Token × Cursor := (c.current, c.next)

def tryPeek (c : Cursor) (k : TokenKind) : Option Token :=
  if c.current.kind = k then some c.current else none

def tryMatch (c : Cursor) (k : TokenKind) : Option Token × Cursor :=
  if c.current.kind = k then (some c.current, c.next) else (none, c)

def tryMatchAny (c : Cursor) (ks : List TokenKind) : Option Token × Cursor :=
  if c.current.kind ∈ ks then (some c.current, c.next) else (none, c)

def unexpected (c : Cursor) (expected : String) : Error :=
  ⟨.unexpected expected c.current.describe, c.current.start⟩

def expectOr (c : Cursor) (k : TokenKind) (e : Error) : Except Error (Token × Cursor) :=
  if c.current.kind = k then .ok (c.current, c.next) else .error e

def expect (c : Cursor) (k : TokenKind) : Except Error (Token × Cursor) :=
  c.expectOr k (c.unexpected k.describe)

/-- The end of a line: a line feed is read, and a closing brace or the end of file ends the
line too, without being read. -/
def endLine (c : Cursor) : Except Error Cursor :=
  match c.current.kind with
  | .newline => .ok c.next
  | .closeCurly | .eof => .ok c
  | _ => .error (c.unexpected TokenKind.newline.describe)

theorem current_of_ahead {c : Cursor} {t : Token} {rest : List Token}
    (h : c.ahead = t :: rest) : c.current = t := by
  simp [current, h]

theorem current_of_nil {c : Cursor} (h : c.ahead = []) : c.current = c.last := by
  simp [current, h]

theorem current_eof_iff (c : Cursor) : c.current.kind = .eof ↔ c.atEnd = true := by
  unfold current atEnd
  cases h : c.ahead with
  | nil => simp [c.last_eof]
  | cons t rest =>
    simp only [List.head?_cons, Option.getD_some, List.isEmpty_cons, Bool.false_eq_true,
      iff_false]
    exact c.ahead_ne_eof t (by simp [h])

@[simp] theorem ahead_next (c : Cursor) : c.next.ahead = c.ahead.tail := by
  unfold next
  split <;> simp_all [rest]

end Cursor

end ScriptFront
