import Stencil.Command.FileTree
import Stencil.Json.Reader
import Stencil.Report

/-! # Failures of a command

Each failure has an exit code and a wording.  What the input is to blame for is reported as an error;
the rest as an unexpected one. -/

namespace Stencil.Command

open Text

/-- The codes with which the program ends. -/
inductive ExitCode where
  | success
  | unexpected
  | rejected
  | badInput
deriving DecidableEq, Repr

/-- A code as a number. -/
def ExitCode.toNat : ExitCode → Nat
  | success => 0
  | unexpected => 1
  | rejected => 2
  | badInput => 3

/-- Why a command failed. -/
inductive Failure where
  | templateUnreadable (path : Text) (refusal : Refusal)
  | dataUnreadable (path : Text) (refusal : Refusal)
  | outputUnwritable (path : Text) (refusal : Refusal)
  | malformedData (source data : Text) (what : Json.Malformed) (left : Nat)
  | dataNotObject (source : Text) (data : Value)
  | invalidTemplate (path : Text) (problems : List Problem)
  | fault (fault : Fault)
  | undecodable (flaw : Utf8.Flaw)
  | nulInPath
  /-- The value of the switch for data was dropped. -/
  | droppedData
  /-- The value of the switch for a data file was dropped. -/
  | droppedDataFile
deriving Repr

/-- What kind of value data is, as failures name it. -/
def kindText : Value → Text
  | .undefined => "_Undefined".toList
  | .null => "NoneType".toList
  | .bool _ => "bool".toList
  | .int _ => "int".toList
  | .float _ => "float".toList
  | .str _ => "str".toList
  | .bareword _ => "Bareword".toList
  | .list _ => "list".toList
  | .tuple _ => "tuple".toList
  | .mapping _ => "dict".toList

namespace Failure

/-- The code with which the program ends after a failure. -/
def exitCode : Failure → ExitCode
  | templateUnreadable .. | dataUnreadable .. | outputUnwritable .. | malformedData ..
  | dataNotObject .. => .badInput
  | invalidTemplate .. => .rejected
  | fault _ | undecodable _ | nulInPath | droppedData | droppedDataFile => .unexpected

/-- The wording of a failure. -/
def message : Failure → Text
  | templateUnreadable path refusal =>
    "Cannot read template ".toList ++ path ++ [':', ' '] ++ refusal.message
  | dataUnreadable path refusal =>
    "Cannot read data file ".toList ++ path ++ [':', ' '] ++ refusal.message
  | outputUnwritable path refusal =>
    "Cannot write output ".toList ++ path ++ [':', ' '] ++ refusal.message
  | malformedData source data what left =>
    "Invalid JSON in ".toList ++ source ++ [':', ' ']
      ++ (Json.ReadError.malformed what left).message data
  | dataNotObject source data =>
    "Data in ".toList ++ source ++ " must be a JSON object, got ".toList ++ kindText data
  | invalidTemplate path problems =>
    Nat.toDigits 10 problems.length ++ " problem(s) in ".toList ++ path
  | fault f => f.message
  | undecodable flaw => flaw.message
  | nulInPath => "embedded null byte".toList
  | droppedData => "the JSON object must be str, bytes or bytearray, not list".toList
  | droppedDataFile => "expected str, bytes or os.PathLike object, not list".toList

/-- What a failure writes to the error stream. -/
def report (f : Failure) : Text :=
  let label := match f.exitCode with
    | .unexpected => "Unexpected error: ".toList
    | _ => "Error: ".toList
  let details := match f with
    | invalidTemplate _ problems => problems.flatMap fun p => [' ', ' '] ++ p.message ++ ['\n']
    | _ => []
  details ++ label ++ f.message ++ ['\n']

end Failure
end Stencil.Command
