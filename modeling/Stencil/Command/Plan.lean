import Stencil.Command.Failure
import Stencil.Command.Invocation
import Stencil.Json.Pages
import Stencil.Renderer

/-! # What a command line leads to

`Plan.ofWords` works out, without touching a file, how the program ends, what it writes to its streams
and which file it writes.  `Plan.run` carries a plan out on a file tree, and `runWith` does both. -/

namespace Stencil.Command

open Text

/-- Where a command takes its input from. -/
structure Surroundings where
  /-- The delimiter that the environment asks for. -/
  delimiter : Option Text
  /-- The bytes of the standard input. -/
  input : List UInt8
  /-- The bytes of the file that a path leads to. -/
  read : Text → Except Refusal (List UInt8)

/-- How the program ends, what it writes to its streams and the file that it writes. -/
structure Plan where
  code : ExitCode
  output : Text := []
  errors : Text := []
  file : Option (Text × Text) := none
deriving DecidableEq, Repr

/-! ### Input -/

/-- The text that bytes hold, with line feeds for line breaks. -/
def textOfBytes (bytes : List UInt8) : Except Failure Text :=
  match Utf8.decode bytes with
  | .ok text => .ok (normalizeBreaks text)
  | .error flaw => .error (.undecodable flaw)

namespace Surroundings

/-- The text of a file. -/
def readText (s : Surroundings) (refused : Refusal → Failure) (path : Text) :
    Except Failure Text :=
  if path.contains '\x00' then .error .nulInPath
  else
    match s.read path with
    | .ok bytes => textOfBytes bytes
    | .error refusal => .error (refused refusal)

/-- The template that a path names; a hyphen names the standard input. -/
def template (s : Surroundings) (path : Text) : Except Failure Text :=
  if path = ['-'] then textOfBytes s.input
  else s.readText (.templateUnreadable path) path

/-- The object that a JSON text is. -/
def objectOf (source text : Text) : Except Failure Value :=
  match Json.read text with
  | .ok (.mapping fields) => .ok (.mapping fields)
  | .ok v => .error (.dataNotObject source v)
  | .error (.malformed what left) => .error (.malformedData source text what left)
  | .error (.fault f) => .error (.fault f)

/-- The data of a job.  Data on the command line count before a data file. -/
def context (s : Surroundings) (job : Job) : Except Failure Value :=
  match job.data, job.dataFile with
  | none, none => .ok (.mapping [])
  | some (.text json), _ => objectOf "--data".toList json
  | some .dropped, _ => .error .droppedData
  | none, some (.text path) => do
    objectOf path (← s.readText (.dataUnreadable path) path)
  | none, some .dropped => .error .droppedDataFile

/-- The delimiter token of a job: its own, else the one that the environment asks for.  A job whose
own token was dropped has none. -/
def token? (s : Surroundings) (job : Job) : Option Text :=
  match job.delimiter with
  | none => some (s.delimiter.getD Delimiters.defaultToken)
  | some (.text token) => some token
  | some .dropped => none

/-- The result of rendering a template for a job, and its records.  Without a token nothing is
bracketed. -/
def rendered (s : Surroundings) (job : Job) (template : Text) (data : Value) :
    List Record × Except Fault Text :=
  match s.token? job with
  | some token =>
    let r : Renderer := ⟨token⟩
    (r.records template data, r.render template data)
  | none => ([.unusableDelimiter ['[', ']']], .ok template)

/-- The report on a template for a job. -/
def report (s : Surroundings) (job : Job) (template : Text) : Report :=
  Report.ofTemplate (Delimiters.ofToken ((s.token? job).getD [])) template

end Surroundings

/-! ### Commands -/

/-- Records as lines of the error stream. -/
def recordLines (records : List Record) : Text :=
  records.flatMap fun r => r.channel ++ [':', ' '] ++ r.message ++ ['\n']

namespace Plan

/-- The plan after a failure. -/
def failed (logged : Text) (f : Failure) : Plan :=
  { code := f.exitCode, errors := logged ++ f.report }

/-- The plan that writes to the output stream only. -/
def print (text : Text) : Plan := { code := .success, output := text }

/-- The plan that delivers a rendered text: to the output file, if one is named. -/
def deliver (job : Job) (logged text : Text) : Plan :=
  match job.output with
  | some (.text (c :: path)) =>
    if (c :: path).contains '\x00' then failed logged .nulInPath
    else { code := .success, errors := logged, file := some (c :: path, text) }
  | _ => { code := .success, output := text, errors := logged }

/-- Renders a template. -/
def render (s : Surroundings) (verbose : Bool) (job : Job) : Except Failure Plan := do
  let template ← s.template job.template
  let data ← s.context job
  let (records, result) := s.rendered job template data
  let logged := if verbose then recordLines records else []
  match result with
  | .ok text => return deliver job logged text
  | .error fault => return failed logged (.fault fault)

/-- Checks the directives of a template. -/
def validate (s : Surroundings) (job : Job) : Except Failure Plan := do
  let report := s.report job (← s.template job.template)
  if report.valid then
    return print ("Valid: ".toList ++ job.template ++ "\n  Conditions: ".toList
      ++ Nat.toDigits 10 report.conditions.length ++ "\n  Variables: ".toList
      ++ Nat.toDigits 10 report.paths.length ++ ['\n'])
  else .error (.invalidTemplate job.template report.problems)

/-- The report on a template as JSON. -/
def reportPage (r : Report) : Text :=
  Json.listsPage
    [("variables".toList, r.paths), ("conditions".toList, r.conditions),
      ("problems".toList, r.problems.map Problem.message)] ++ ['\n']

/-- The variables and conditions of a template under headings. -/
def reportText (r : Report) : Text :=
  let indented (t : Text) : Text := ' ' :: ' ' :: t ++ ['\n']
  "Variables:\n".toList ++ r.paths.flatMap indented ++ "\nConditions:\n".toList
    ++ r.conditions.flatMap indented

/-- Lists what a template refers to. -/
def list (s : Surroundings) (job : Job) : Except Failure Plan := do
  let report := s.report job (← s.template job.template)
  return print (if job.format = some (.text "json".toList) then reportPage report
    else reportText report)

/-- The plan of a job. -/
def ofJob (s : Surroundings) (verbose : Bool) (job : Job) : Plan :=
  let plan := match job.action with
    | .render => render s verbose job
    | .validate => validate s job
    | .list => list s job
  match plan with
  | .ok plan => plan
  | .error f => failed [] f

/-- The plan for a command line that was not read to its end. -/
def ofStop : Stop → Plan
  | .help g => print (g.usage ++ g.help)
  | .error g e =>
    { code := .rejected
      errors := g.usage ++ g.program ++ ": error: ".toList ++ e.message ++ ['\n'] }

/-- The plan of a command line. -/
def ofWords (s : Surroundings) (release : Release) (words : List Text) : Plan :=
  match Invocation.ofWords release words with
  | .error stop => ofStop stop
  | .ok ⟨_, none⟩ => ofStop (.help programGrammar)
  | .ok ⟨verbose, some job⟩ => ofJob s verbose job

/-- The plan after its file could not be written. -/
def refused (plan : Plan) (path : Text) (refusal : Refusal) : Plan :=
  failed plan.errors (.outputUnwritable path refusal)

end Plan

/-! ### Runs on a file tree -/

/-- How a run ended: what the program wrote, and the files afterwards. -/
structure Outcome where
  code : ExitCode
  output : Text
  errors : Text
  files : FileTree
deriving DecidableEq, Repr

/-- Carries out a plan. -/
def Plan.run (plan : Plan) (files : FileTree) : Outcome :=
  let ended (plan : Plan) (files : FileTree) : Outcome :=
    ⟨plan.code, plan.output, plan.errors, files⟩
  match plan.file with
  | none => ended plan files
  | some (path, text) =>
    match files.write path (Utf8.encode text) with
    | .ok files => ended plan files
    | .error refusal => ended (plan.refused path refusal) files

/-- Runs the program with a command line, read in a given way, in a directory. -/
def runWith (release : Release) (delimiter : Option Text) (input : List UInt8) (files : FileTree)
    (words : List Text) : Outcome :=
  (Plan.ofWords ⟨delimiter, input, files.read⟩ release words).run files

/-- Runs the program with a command line that is read in the early way. -/
def run (delimiter : Option Text) (input : List UInt8) (files : FileTree) (words : List Text) :
    Outcome :=
  runWith .early delimiter input files words

end Stencil.Command
