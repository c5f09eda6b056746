import LetArith.Text.Format

/-!
The arguments of the command line: flags, which may be joined behind one dash, a nesting limit, and
at most one file name. Each option is given at most once, options may follow the file name, and two
dashes alone end them.

The program leaves its arguments to the library `clap`, for which `ofArguments?` stands with the rules
above. It knows no `--help` and no `--version`: they are refused like any other unknown option, with
the usage line and the code 2, where the library prints what was asked for and exits with 0.
-/

namespace LetArith
open Text

inductive Argument where
  | endOfOptions
  | tokens
  | outline
  | limit
  | limitValue (text : String)
  | flags (letters : List Char)
  | unknown
  | name (text : String)
deriving DecidableEq, Repr

def limitOption : List Char := "--max-depth".toList

def Argument.ofString (text : String) : Argument :=
  let chars := text.toList
  if text = "--" then .endOfOptions
  else if text = "--tokens" then .tokens
  else if text = "--dump" then .outline
  else if chars = limitOption then .limit
  else if (limitOption ++ ['=']).isPrefixOf chars then
    .limitValue (String.ofList (chars.drop (limitOption.length + 1)))
  else match chars with
    | '-' :: '-' :: _ => .unknown
    | '-' :: letter :: letters => .flags (letter :: letters)
    | _ => .name text

def limit? (text : String) : Option Nat :=
  let digits := match text.toList with
    | '+' :: digits => digits
    | digits => digits
  (readNat? digits).filter (· < Nat.pow 2 64)

structure Options where
  file : Option String
  tokens : Bool
  outline : Bool
  limit : Option Nat
deriving DecidableEq, Repr

namespace Options

def empty : Options :=
  ⟨none, false, false, none⟩

def setTokens (options : Options) : Option Options :=
  if options.tokens then none else some { options with tokens := true }

def setOutline (options : Options) : Option Options :=
  if options.outline then none else some { options with outline := true }

def setLimit (options : Options) (text : String) : Option Options :=
  match options.limit, limit? text with
  | none, some limit => some { options with limit := some limit }
  | _, _ => none

def setFile (options : Options) (name : String) : Option Options :=
  if options.file.isSome || name.isEmpty then none else some { options with file := some name }

def setFlag (options : Options) : Char → Option Options
  | 't' => options.setTokens
  | 'd' => options.setOutline
  | _ => none

def addArguments (options : Options) : List String → Option Options
  | [] => some options
  | argument :: rest =>
    match Argument.ofString argument with
    | .endOfOptions => rest.foldlM setFile options
    | .tokens => options.setTokens.bind (addArguments · rest)
    | .outline => options.setOutline.bind (addArguments · rest)
    | .limit =>
      match rest with
      | [] => none
      | value :: rest => (options.setLimit value).bind (addArguments · rest)
    | .limitValue text => (options.setLimit text).bind (addArguments · rest)
    | .flags letters => (letters.foldlM setFlag options).bind (addArguments · rest)
    | .unknown => none
    | .name name => (options.setFile name).bind (addArguments · rest)

def ofArguments? (arguments : List String) : Option Options :=
  empty.addArguments arguments

end Options

end LetArith
