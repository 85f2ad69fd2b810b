import ScriptFront.Source.Position
/-!
# Lines of a source

The lines of a source are the pieces between its line feeds, so a source that ends with a line
feed has an empty last line. Diagnostics quote a line without the carriage returns that end it.
-/

set_option autoImplicit false

namespace ScriptFront

/-- The line numbered `n` of `source`, counting from 1, without its ending carriage returns;
none for line 0 and for lines past the end. -/
def lineAt (source : String) (n : Nat) : Option String :=
  match n with
  | 0 => none
  | k + 1 =>
    ((source.toList.splitOn '\n')[k]?).map fun l =>
      String.ofList (l.reverse.dropWhile (· == '\r')).reverse

end ScriptFront
