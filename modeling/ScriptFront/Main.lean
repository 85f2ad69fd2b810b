import ScriptFront.Program
import ScriptFront.Diagnostic.Render
/-!
# Command line

`scriptfront FILE [--tokens] [-v | --verbose]` reads a source file and prints it back in
canonical form, or with `--tokens` prints one line per token. A file that cannot be read
reports the error under the file's base name, with its diagnostic, and fails.
-/

open ScriptFront

/-- The options of the command line. -/
structure Options where
  file : Option String := none
  tokens : Bool := false
  verbose : Bool := false

def Options.ofArgs : List String → Options → Except String Options
  | [], o => .ok o
  | "--tokens" :: rest, o => Options.ofArgs rest ⟨o.file, true, o.verbose⟩
  | "-v" :: rest, o | "--verbose" :: rest, o => Options.ofArgs rest ⟨o.file, o.tokens, true⟩
  | a :: rest, o =>
    if a.startsWith "-" || o.file.isSome then .error a
    else Options.ofArgs rest ⟨some a, o.tokens, o.verbose⟩

def baseName (path : String) : String :=
  ((path.splitOn "/").filter (!·.isEmpty)).getLast?.getD path

def report (e : Error) (source : String) : IO UInt32 := do
  IO.eprint (e.render source)
  IO.eprintln ("Error: " ++ e.message)
  return 1

def main (args : List String) : IO UInt32 := do
  match Options.ofArgs args {} with
  | .error a =>
    IO.eprintln ("error: unexpected argument '" ++ a ++ "'")
    return 2
  | .ok ⟨none, _, _⟩ =>
    IO.eprintln "error: the following required arguments were not provided: <FILE>"
    return 2
  | .ok ⟨some path, tokens, _⟩ =>
    match ← (IO.FS.readFile path).toBaseIO with
    | .error err =>
      IO.eprintln ("Error: failed to read " ++ path ++ "\n\nCaused by:\n    " ++ toString err)
      return 1
    | .ok source =>
    match tokenize source (baseName path) with
    | .error e => report e source
    | .ok ts =>
      if tokens then
        for t in ts do IO.println t.dump
        return 0
      else
        match Program.ofTokens ts with
        | .error e => report e source
        | .ok p =>
          IO.print p.render
          return 0
