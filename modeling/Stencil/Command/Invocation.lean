import Stencil.Command.Grammars

/-! # What a command line asks for

`Invocation.ofWords` reads a whole command line: the switches of the program, the command and the
words behind it.  Words that neither the program nor the command asks for are an error of the program,
which is found after every error of the command. -/

namespace Stencil.Command

open Text

/-- A command with what it was given. -/
structure Job where
  action : Action
  template : Text
  data : Option Argument
  dataFile : Option Argument
  delimiter : Option Argument
  output : Option Argument
  format : Option Argument
deriving DecidableEq, Repr

/-- A command line that can be used.  Without a command it asks for the help page. -/
structure Invocation where
  verbose : Bool
  job : Option Job
deriving DecidableEq, Repr

/-- The job that the words behind a command describe, and the words that are left over. -/
def Job.ofWords (release : Release) (action : Action) (words : List Text) :
    Except Stop (Job × List Text) := do
  let g := action.grammar
  let reading ← g.parse release words
  match reading.operand with
  | none =>
    let name := match g.operand with
      | .single name | .command name _ => name
    .error (.error g (.missingOperand name))
  | some (template, _) =>
    let job : Job :=
      { action, template
        data := reading.value? .data
        dataFile := reading.value? .dataFile
        delimiter := reading.value? .delimiter
        output := reading.value? .output
        format := reading.value? .format }
    return (job, reading.extras)

/-- The command that a word calls on the program's command line. -/
def calledAction (word : Text) : Except Stop Action :=
  match Action.ofWord? word with
  | some action => .ok action
  | none =>
    .error (.error programGrammar
      (.unknownChoice ["command".toList] word (Action.all.map Action.word)))

namespace Invocation

/-- Reads a command line. -/
def ofWords (release : Release) (words : List Text) : Except Stop Invocation := do
  let reading ← programGrammar.parse release words
  let verbose := reading.flags.contains .verbose
  let (job, extras) ← match reading.operand with
    | none => pure (none, [])
    | some (word, words) => do
      let (job, extras) ← Job.ofWords release (← calledAction word) words
      pure (some job, extras)
  let extras := reading.extras ++ extras
  if extras.isEmpty then return ⟨verbose, job⟩
  else .error (.error programGrammar (.unrecognized extras))

end Invocation
end Stencil.Command
