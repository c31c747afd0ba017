import Stencil.Command.Plan

/-! # The program

Reads the files that the command line names, works out the plan and carries it out. -/

namespace Stencil.Command

/-- The number by which the system calls an access to a directory as if it were a file. -/
def directoryCode : UInt32 := 21

/-- The refusal that a failed access to a file amounts to. -/
def refusalOf : IO.Error → Refusal
  | .inappropriateType _ code _ => if code = directoryCode then .isDirectory else .notDirectory
  | .invalidArgument .. => .nameTooLong
  | _ => .notFound

/-- The way in which the program reads its command line. -/
def programRelease : Release := .early

/-- The paths of the files that a command line asks to read. -/
def pathsRead (words : List Text) : List Text :=
  match Invocation.ofWords programRelease words with
  | .ok ⟨_, some job⟩ =>
    job.template :: match job.dataFile with
      | some (.text path) => [path]
      | _ => []
  | _ => []

/-- Reads a file. -/
def readPath (path : Text) : IO (Except Refusal (List UInt8)) := do
  try
    let bytes ← IO.FS.readBinFile (String.ofList path)
    return .ok bytes.toList
  catch e => return .error (refusalOf e)

/-- Carries out a plan on the files of the system. -/
def Plan.deliverFile (plan : Plan) : IO Plan := do
  match plan.file with
  | none => return plan
  | some (path, text) =>
    try
      IO.FS.writeFile (String.ofList path) (String.ofList text)
      return plan
    catch e => return plan.refused path (refusalOf e)

end Stencil.Command

open Stencil Stencil.Command in
def main (arguments : List String) : IO UInt32 := do
  let words := arguments.map String.toList
  let delimiter ← IO.getEnv "INKWELL_DELIMITER"
  let paths := pathsRead words
  let input ← if paths.contains ['-'] then (← IO.getStdin).readBinToEnd else pure ByteArray.empty
  let files ← paths.mapM fun path => return (path, ← readPath path)
  let surroundings : Surroundings :=
    { delimiter := delimiter.map String.toList
      input := input.toList
      read := fun path => (files.lookup path).getD (.error .notFound) }
  let plan ← (Plan.ofWords surroundings programRelease words).deliverFile
  IO.print (String.ofList plan.output)
  IO.eprint (String.ofList plan.errors)
  return plan.code.toNat.toUInt32
