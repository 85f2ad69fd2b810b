import ScriptFront.Token.Cursor
/-!
# Sessions on a cursor

A session runs a list of cursor operations one after another on one cursor and records, for
each, its answer and the current token after it. It shows the cursor's behaviour step by step:
what each operation reads, what it answers, and where it leaves the cursor.
-/

set_option autoImplicit false

namespace ScriptFront

/-- One operation on a cursor. -/
inductive CursorCall where
  | current
  | currentKind
  | atEnd
  | advance
  | tryPeek (k : TokenKind)
  | tryMatch (k : TokenKind)
  | tryMatchAny (ks : List TokenKind)
  | expect (k : TokenKind)
  | expectOr (k : TokenKind) (expected : String)
  | tryMatchNewline
  | endLine
  | unexpected (expected : String)
deriving Repr, DecidableEq, Inhabited

inductive CursorReply where
  | token (t : Token)
  | kind (k : TokenKind)
  | flag (b : Bool)
  | maybe (t : Option Token)
  | failed (e : Error)
  | done
deriving Repr, DecidableEq, Inhabited

namespace Cursor

def settle (c : Cursor) : Except Error (Token × Cursor) → CursorReply × Cursor
  | .ok (t, d) => (.token t, d)
  | .error e => (.failed e, c)

def perform (c : Cursor) : CursorCall → CursorReply × Cursor
  | .current => (.token c.current, c)
  | .currentKind => (.kind c.current.kind, c)
  | .atEnd => (.flag c.atEnd, c)
  | .advance => let (t, d) := c.advance; (.token t, d)
  | .tryPeek k => (.maybe (c.tryPeek k), c)
  | .tryMatch k => let (t, d) := c.tryMatch k; (.maybe t, d)
  | .tryMatchAny ks => let (t, d) := c.tryMatchAny ks; (.maybe t, d)
  | .expect k => c.settle (c.expect k)
  | .expectOr k expected => c.settle (c.expectOr k (c.unexpected expected))
  | .tryMatchNewline => let (t, d) := c.tryMatch .newline; (.maybe t, d)
  | .endLine =>
    match c.endLine with
    | .ok d => (.done, d)
    | .error e => (.failed e, c)
  | .unexpected expected => (.failed (c.unexpected expected), c)

/-- Runs the operations in order: for each, its answer and the current token after it. -/
def session (c : Cursor) : List CursorCall → List (CursorReply × Token)
  | [] => []
  | op :: ops =>
    let (r, d) := c.perform op
    (r, d.current) :: d.session ops

end Cursor

end ScriptFront
