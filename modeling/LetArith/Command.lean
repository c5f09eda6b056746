import LetArith.Command.Options
import LetArith.Parser.Statement
import LetArith.Tree.Render

/-!
What the command line answers: a report with an exit code and the texts for the two output streams.
A listing of tokens always succeeds. A program is written even where parts of it failed, and its
diagnostics decide the exit code. The log that the environment (`RUST_LOG`) can turn on, which goes to
the error stream as well, is not part of the report.
-/

namespace LetArith
open Text

structure Report where
  code : Nat
  output : String
  errors : String
deriving DecidableEq, Repr

inductive ReadFailure where
  | missing
  | notDirectory
  | isDirectory
  | notText
  | other (reason : String)
deriving DecidableEq, Repr

def ReadFailure.reason : ReadFailure → String
  | .missing => "No such file or directory (os error 2)"
  | .notDirectory => "Not a directory (os error 20)"
  | .isDirectory => "Is a directory (os error 21)"
  | .notText => "stream did not contain valid UTF-8"
  | .other reason => reason

def decodeSource (bytes : ByteArray) : Except ReadFailure String :=
  match String.fromUTF8? bytes with
  | some source => .ok source
  | none => .error .notText

namespace Report

def ofTokens (source : String) : Report :=
  ⟨0, lines ((tokenize source).map Token.text), ""⟩

def ofProgram (outline : Bool) (source : String) (limit : Nat) : Report :=
  let (program, parser) := parse source limit
  { code := if parser.diagnostics.isEmpty then 0 else 1
    output := if outline then Program.outline program else Program.text program
    errors := lines (parser.diagnostics.map Diagnostic.text) }

def ofFailure (origin : String) (failure : ReadFailure) : Report :=
  ⟨1, "", lines ["Error: failed to read " ++ origin, "", "Caused by:", "    " ++ failure.reason]⟩

end Report

namespace Options

def origin (options : Options) : String :=
  options.file.getD "stdin"

def report (options : Options) : Except ReadFailure String → Report
  | .error failure => .ofFailure options.origin failure
  | .ok source =>
    if options.tokens then .ofTokens source
    else .ofProgram options.outline source (options.limit.getD Parser.defaultLimit)

end Options

end LetArith
