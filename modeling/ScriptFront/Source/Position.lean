/-!
# Positions in a source

A position names a file and a place in it: a line and a column, both counted from 1, the
column counting characters. Line and column are 32-bit counters, as the scanner keeps them:
a count past `2 ^ 32 - 1` starts again from 0. Reading a character moves a position one column
on, and a line feed moves it to the first column of the next line.
-/

set_option autoImplicit false

namespace ScriptFront

/-- A place in a named source. -/
structure Position where
  line : UInt32
  column : UInt32
  file : String
deriving Repr, DecidableEq, Inhabited

structure Span where
  start : Position
  stop : Position
deriving Repr, DecidableEq, Inhabited

namespace Position

def first (file : String) : Position := ⟨1, 1, file⟩

def null : Position := ⟨0, 0, "<null>"⟩

def next (p : Position) (c : Char) : Position :=
  if c = '\n' then ⟨p.line + 1, 1, p.file⟩ else ⟨p.line, p.column + 1, p.file⟩

/-- The position after the characters `cs`, read one at a time. -/
def advance (p : Position) (cs : List Char) : Position := cs.foldl next p

def render (p : Position) : String :=
  p.file ++ ":" ++ toString p.line ++ ":" ++ toString p.column

@[simp] theorem advance_nil (p : Position) : p.advance [] = p := rfl

@[simp] theorem advance_cons (p : Position) (c : Char) (cs : List Char) :
    p.advance (c :: cs) = (p.next c).advance cs := rfl

theorem advance_append (p : Position) (cs ds : List Char) :
    p.advance (cs ++ ds) = (p.advance cs).advance ds := by
  simp [advance, List.foldl_append]

@[simp] theorem file_next (p : Position) (c : Char) : (p.next c).file = p.file := by
  unfold next; split <;> rfl

@[simp] theorem file_advance (p : Position) (cs : List Char) : (p.advance cs).file = p.file := by
  induction cs generalizing p with
  | nil => rfl
  | cons c cs ih => simp [ih]

theorem advance_of_no_newline (p : Position) (cs : List Char) (h : '\n' ∉ cs) :
    p.advance cs = ⟨p.line, p.column + cs.length.toUInt32, p.file⟩ := by
  induction cs generalizing p with
  | nil => simp
  | cons c cs ih =>
    simp only [List.mem_cons, not_or] at h
    have hc : c ≠ '\n' := fun e => h.1 e.symm
    simp only [advance_cons, next, if_neg hc, ih _ h.2, List.length_cons]
    congr 1
    apply UInt32.toNat_inj.mp
    simp only [UInt32.toNat_add, Nat.toUInt32_eq, UInt32.toNat_ofNat', UInt32.toNat_one]
    omega

end Position

end ScriptFront
