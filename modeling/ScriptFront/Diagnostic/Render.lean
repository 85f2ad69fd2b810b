import ScriptFront.Diagnostic.Fault
import ScriptFront.Source.Line
import ScriptFront.Text.Blank
/-!
# Rendered diagnostics

An error is shown against its source in up to five lines:

```text
Error: UnexpectedToken (expected `=`, found newline)
-> main.gs:3:6
  |
3 | var x
  | -----^
```

The header names the fault and, between parentheses, its tip. The second line gives the
position. If the source has the error's line, the line follows between two gutter lines,
without its leading spaces and tabs and without its trailing blanks, and a run of dashes ends
in a caret under the error's column, counted after the spaces and tabs that were removed.
The gutter's bar stands one column after the line number.
-/

set_option autoImplicit false

namespace ScriptFront

def Text.fill (n : Nat) (c : Char) : String := String.ofList (List.replicate n c)

def Error.header (e : Error) : String :=
  let title := match e.fault.tip with
    | none => "Error: " ++ e.fault.name
    | some t => "Error: " ++ e.fault.name ++ " (" ++ t ++ ")"
  title ++ "\n-> " ++ e.position.render ++ "\n"

def Error.quoteLine (n column : Nat) (line : String) : String :=
  let number := toString n
  let gutter := Text.fill (number.length + 1) ' ' ++ "|"
  let indent := (line.toList.takeWhile fun c => c == ' ' || c == '\t').length
  let text := Text.dropTrailingBlanks (String.ofList (line.toList.drop indent))
  let width := max 1 (column - indent)
  gutter ++ "\n" ++ number ++ " | " ++ text ++ "\n" ++
    gutter ++ " " ++ Text.fill (width - 1) '-' ++ "^\n"

/-- The diagnostic for `e` against the text `source` in which it was found. -/
def Error.render (e : Error) (source : String) : String :=
  match lineAt source e.position.line.toNat with
  | none => e.header
  | some line => e.header ++ Error.quoteLine e.position.line.toNat e.position.column.toNat line

end ScriptFront
