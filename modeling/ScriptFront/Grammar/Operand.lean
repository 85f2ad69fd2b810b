import ScriptFront.Grammar.Read
import ScriptFront.Tree.Print
/-!
# Tokens of expressions and statements

The pieces that the grammar of expressions and statements reads without recursion: operator
tokens, integer literals, the targets of a defining assignment, the keyword statements
`break` and `continue`, and the mark that a `;` leaves on an expression statement.
-/

set_option autoImplicit false

namespace ScriptFront

def BinaryOp.ofKind? : TokenKind → Option BinaryOp
  | .orOr => some .logicalOr
  | .andAnd => some .logicalAnd
  | .equal => some .equal
  | .notEqual => some .notEqual
  | .greater => some .greater
  | .less => some .less
  | .greaterEqual => some .greaterEqual
  | .lessEqual => some .lessEqual
  | .plus => some .add
  | .minus => some .subtract
  | .star => some .multiply
  | .slash => some .divide
  | .percent => some .modulo
  | _ => none

def UnaryOp.ofKind? : TokenKind → Option UnaryOp
  | .minus => some .negate
  | .bang => some .not
  | _ => none

/-- The binding-power table: each token kind that is a binary operator, with the level it is
registered at, in the order of registration. -/
def infixTable : List (TokenKind × Level) :=
  [(.orOr, .disjunction), (.andAnd, .conjunction),
   (.equal, .comparison), (.notEqual, .comparison), (.less, .comparison),
   (.lessEqual, .comparison), (.greater, .comparison), (.greaterEqual, .comparison),
   (.plus, .additive), (.minus, .additive),
   (.star, .multiplicative), (.slash, .multiplicative), (.percent, .multiplicative)]

def TokenKind.bindingPower? (k : TokenKind) : Option Level :=
  (infixTable.reverse.find? (·.1 == k)).map (·.2)

structure Combiner where
  name : String
  ops : List (TokenKind × BinaryOp)

def Level.combiner : Level → Combiner
  | .disjunction => ⟨"logical or", [(.orOr, .logicalOr)]⟩
  | .conjunction => ⟨"logical and", [(.andAnd, .logicalAnd)]⟩
  | .comparison => ⟨"comparison",
      [(.equal, .equal), (.notEqual, .notEqual), (.greater, .greater), (.less, .less),
       (.greaterEqual, .greaterEqual), (.lessEqual, .lessEqual)]⟩
  | .additive => ⟨"additive", [(.plus, .add), (.minus, .subtract)]⟩
  | .multiplicative => ⟨"multiplicative", [(.star, .multiply), (.slash, .divide), (.percent, .modulo)]⟩

def Level.accepts? (l : Level) (k : TokenKind) : Option BinaryOp :=
  (l.combiner.ops.find? (·.1 == k)).map (·.2)

def unexpectedOperator (level : String) (t : Token) : Error :=
  ⟨.internal (t.describe ++ " is not a " ++ level ++ " operator"), t.start⟩

def Level.combine (l : Level) (t : Token) (left right : Expr) : Except Error Expr :=
  match l.accepts? t.kind with
  | some op => .ok (.binary op left right t.start)
  | none => .error (unexpectedOperator l.combiner.name t)

def prefixKinds : List TokenKind := [.minus, .bang]

namespace Cursor

def takeInfix? (c : Cursor) (l : Level) : Option (Token × Ahead c) :=
  c.takeIf? (·.kind.bindingPower? == some l)

def takeAny? (c : Cursor) (ks : List TokenKind) : Option (Token × Ahead c) :=
  c.takeIf? (ks.contains ·.kind)

end Cursor

theorem TokenKind.bindingPower?_eq (k : TokenKind) :
    k.bindingPower? = (BinaryOp.ofKind? k).map BinaryOp.level := by
  cases k <;> rfl

theorem Level.accepts?_eq (l : Level) (k : TokenKind) :
    l.accepts? k = (BinaryOp.ofKind? k).filter (·.level == l) := by
  cases l <;> cases k <;> rfl

theorem UnaryOp.ofKind?_isSome_iff (k : TokenKind) :
    (UnaryOp.ofKind? k).isSome ↔ k ∈ prefixKinds := by
  cases k <;> decide

def decimalValue (s : String) : Nat :=
  s.toList.foldl (fun n d => 10 * n + (d.toNat - '0'.toNat)) 0

def Text.signedValue? (sign : Int) (ds : List Char) : Option Int :=
  if ds ≠ [] ∧ ds.all Char.isDigit then
    let v := sign * decimalValue (String.ofList ds)
    if -9223372036854775808 ≤ v ∧ v ≤ 9223372036854775807 then some v else none
  else none

/-- A text read as a signed 64-bit integer, the way the standard library reads one: an optional
`+` or `-`, then decimal digits and nothing else. -/
def Text.toInt64? (s : String) : Option Int :=
  match s.toList with
  | '-' :: ds => Text.signedValue? (-1) ds
  | '+' :: ds => Text.signedValue? 1 ds
  | ds => Text.signedValue? 1 ds

theorem Text.toInt64?_of_digits {s : String} (hne : s.toList ≠ []) (hd : ∀ c ∈ s.toList, c.isDigit) :
    Text.toInt64? s =
      if decimalValue s ≤ 9223372036854775807 then some (decimalValue s : Int) else none := by
  have hv : Text.signedValue? 1 s.toList =
      if decimalValue s ≤ 9223372036854775807 then some (decimalValue s : Int) else none := by
    unfold Text.signedValue?
    rw [if_pos ⟨hne, List.all_eq_true.mpr hd⟩, String.ofList_toList, Int.one_mul]
    by_cases hlt : decimalValue s ≤ 9223372036854775807
    · rw [if_pos ⟨by omega, by omega⟩, if_pos hlt]
    · rw [if_neg (by omega), if_neg hlt]
  unfold Text.toInt64?
  split
  · next ds h => exact absurd (hd '-' (by rw [h]; exact List.mem_cons_self)) (by decide)
  · next ds h => exact absurd (hd '+' (by rw [h]; exact List.mem_cons_self)) (by decide)
  · exact hv

/-- The integer that a number token stands for; an error if its text is no 64-bit integer. -/
def Token.integer (t : Token) : Except Error Expr :=
  match Text.toInt64? t.text with
  | some v => .ok (.integer v t.start)
  | none => .error ⟨.badNumber t.text, t.start⟩

def bindingsOf (targets : List Expr) : Except Error (List Binding) :=
  targets.mapM fun
    | .name n p => .ok ⟨n, p⟩
    | e => .error ⟨.nonNameDefined e.render, e.pos⟩

def Stmt.closedBy (semi : Bool) : Stmt → Stmt
  | .single e _ p => .single e semi p
  | s => s

def readBreak (c : Cursor) : Read Stmt c :=
  match c.need .kwBreak with
  | .error e => .error e
  | .ok (t, d) => .ok (.breakLoop t.start, d)

def readContinue (c : Cursor) : Read Stmt c :=
  match c.need .kwContinue with
  | .error e => .error e
  | .ok (t, d) => .ok (.continueLoop t.start, d)

def TokenKind.endsReturn (k : TokenKind) : Bool :=
  k == .semicolon || k == .newline || k == .closeCurly || k == .eof

end ScriptFront
