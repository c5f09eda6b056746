import LetArith.Command

/-!
The command line: reads the arguments and the source, prints the report and exits with its code. A
command line that is not well formed is answered by a usage line and code 2.
-/

namespace LetArith

partial def readStream (stream : IO.FS.Stream) (bytes : ByteArray) : IO ByteArray := do
  let more ← stream.read 65536
  if more.isEmpty then return bytes
  readStream stream (bytes ++ more)

def readSource (file : Option String) : IO (Except ReadFailure String) := do
  try
    let bytes ← match file with
      | some name => IO.FS.readBinFile name
      | none => readStream (← IO.getStdin) .empty
    return decodeSource bytes
  catch
    | .noFileOrDirectory .. => return .error .missing
    -- a directory opens but cannot be read, and reading failures carry no name
    | .inappropriateType (some _) .. => return .error .notDirectory
    | .inappropriateType none .. => return .error .isDirectory
    | failure => return .error (.other (toString failure))

def usage : String :=
  "usage: [-t | --tokens] [-d | --dump] [--max-depth N] [FILE]\n"

end LetArith

open LetArith

def main (arguments : List String) : IO UInt32 := do
  match Options.ofArguments? arguments with
  | none =>
    (← IO.getStderr).putStr usage
    return 2
  | some options =>
    let report := options.report (← readSource options.file)
    (← IO.getStdout).putStr report.output
    (← IO.getStderr).putStr report.errors
    return report.code.toUInt32
