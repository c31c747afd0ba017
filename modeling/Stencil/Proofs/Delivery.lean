import Stencil.Command.Plan
import Stencil.Proofs.Encoding
import Stencil.Proofs.Run

/-! # What a command leaves behind

A command works out what it has to say before it says anything, so a command that fails has written
nothing to its output stream and has touched no file.  A rendering that succeeds is delivered in full
to one place: the output file that is named, or else the output stream.

* `FileTree.written_of_write`: a file that was written reads back as it was written, and every other
  file holds what it held.
* `Plan.Quiet`: a plan that ends with a failure writes nothing; `quiet_ofWords`: every plan of a
  command line is quiet.
* `Surroundings.Offers`, `Supplies` and `Chooses` say which template, data and token are meant for a job;
  `template_eq_ok_iff`, `context_eq_ok_iff` and `chooses_chosenToken`: these are the ones that are used.
* `run_delivers` puts this together for whole runs, however the command line is read. -/

namespace Stencil

open Text

/-! ### Writing and reading back -/

namespace FileTree

variable {t : FileTree} {p q : Place} {bytes : List UInt8}

/-- A tree that differs from another one in the file that a path leads to, and reads back the bytes
that were written there. -/
structure Written (before : FileTree) (path : Text) (bytes : List UInt8) (after : FileTree) :
    Prop where
  readBack : after.read path = .ok bytes
  others : ∃ p, before.target path = .ok p
    ∧ ∀ q, q ≠ p → after.files.lookup q = before.files.lookup q
  directories : after.directories = before.directories

theorem exists_key_setFile {f : Place × List UInt8} {files : List (Place × List UInt8)}
    (h : f ∈ files) (p : Place) (bytes : List UInt8) : ∃ g ∈ setFile p bytes files, g.1 = f.1 := by
  induction files with
  | nil => simp at h
  | cons first files ih =>
    unfold setFile
    split
    · rename_i same
      rcases List.mem_cons.mp h with rfl | later
      · exact ⟨_, List.mem_cons_self, same.symm⟩
      · exact ⟨f, List.mem_cons_of_mem _ later, rfl⟩
    · rcases List.mem_cons.mp h with rfl | later
      · exact ⟨_, List.mem_cons_self, rfl⟩
      · obtain ⟨g, hg, e⟩ := ih later
        exact ⟨g, List.mem_cons_of_mem _ hg, e⟩

/-- A directory is one after a file was written as well. -/
theorem isDirectory_setFile (h : t.isDirectory q = true) (p : Place) (bytes : List UInt8) :
    isDirectory { t with files := setFile p bytes t.files } q = true := by
  simp only [isDirectory, Bool.or_eq_true] at h ⊢
  refine h.imp_right fun holds => ?_
  obtain ⟨f, hf, inside⟩ := List.any_eq_true.mp holds
  obtain ⟨g, hg, e⟩ := exists_key_setFile hf p bytes
  rw [← e] at inside
  exact List.any_eq_true.mpr ⟨g, hg, inside⟩

theorem node?_setFile_self (t : FileTree) (p : Place) (bytes : List UInt8) :
    node? { t with files := setFile p bytes t.files } p = some (.file bytes) := by
  rw [node?, lookup_setFile_self]

/-- What is found at a directory does not change when a file is written somewhere else. -/
theorem node?_setFile_of_directory (h : t.node? q = some .directory) (hne : q ≠ p) :
    node? { t with files := setFile p bytes t.files } q = some .directory := by
  rw [node?, lookup_setFile_of_ne hne]
  rw [node?] at h
  split at h
  · simp at h
  · split at h
    · rename_i directory
      exact if_pos (isDirectory_setFile directory p bytes)
    · split at h <;> simp at h

section walk
variable (file : t.node? p ≠ some .directory)
include file

/-- Directories can be entered as before. -/
theorem enter_setFile (bytes : List UInt8) {r : Place} (h : t.enter q = .ok r) :
    enter { t with files := setFile p bytes t.files } q = .ok r := by
  unfold enter at h ⊢
  split at h
  · simp at h
  · simp at h
  · rename_i directory
    have hne : q ≠ p := by
      rintro rfl
      exact file directory
    rw [node?_setFile_of_directory directory hne]
    exact h

/-- Paths lead to the same places as before. -/
theorem walk_setFile (bytes : List UInt8) {names : List Text} {r : Place}
    (h : t.walk q names = .ok r) :
    walk { t with files := setFile p bytes t.files } q names = .ok r := by
  induction names generalizing q with
  | nil => exact h
  | cons name names ih =>
    rw [walk, List.foldlM_cons] at h ⊢
    obtain ⟨next, step, later⟩ := ok_of_bind h
    obtain ⟨directory, entered, child⟩ := ok_of_bind step
    rw [ok_bind (enter_setFile file bytes entered), ok_bind child]
    exact ih later

end walk

theorem walk_concat {names : List Text} {name : Text} {directory r : Place}
    (front : t.walk q names = .ok p) (entered : t.enter p = .ok directory)
    (child : directory.child name = .ok r) : t.walk q (names ++ [name]) = .ok r := by
  rw [walk, List.foldlM_append, ← walk, ok_bind front, List.foldlM_cons, ok_bind entered,
    ok_bind child]
  rfl

/-- What is known of the place that is written under a path. -/
theorem walk_of_target {path : Text} (h : t.target path = .ok p) :
    pathRefusal? path = none ∧ endsInSlash path = false ∧ t.node? p ≠ some .directory
      ∧ ∃ front directory name, namesOf path = (namesOf path).dropLast ++ [name]
        ∧ t.walk (startOf path) (namesOf path).dropLast = .ok front
        ∧ t.enter front = .ok directory ∧ directory.child name = .ok p := by
  unfold target at h
  split at h
  · simp at h
  · rename_i unrefused
    obtain ⟨front, walked, h⟩ := ok_of_bind h
    obtain ⟨directory, entered, h⟩ := ok_of_bind h
    split at h
    · simp at h
    · rename_i name last
      split at h
      · simp at h
      · rename_i plain
        obtain ⟨place, child, h⟩ := ok_of_bind h
        split at h
        · simp at h
        · rename_i file
          obtain rfl := Except.ok.inj h
          simp only [Bool.or_eq_true, not_or, Bool.not_eq_true] at plain
          obtain ⟨init, names⟩ := List.getLast?_eq_some_iff.mp last
          have joined : namesOf path = (namesOf path).dropLast ++ [name] := by
            rw [names, List.dropLast_concat]
          exact ⟨unrefused, plain.2, file, front, directory, name, joined, walked, entered, child⟩

/-- **A written file reads back as it was written, and all others are as before.** -/
theorem written_of_write {path : Text} {after : FileTree} (h : t.write path bytes = .ok after) :
    t.Written path bytes after := by
  obtain ⟨p, found, rfl⟩ := ok_of_map h
  obtain ⟨unrefused, no_slash, file, front, directory, name, names, walked, entered, child⟩ :=
    walk_of_target found
  refine ⟨?_, ⟨p, found, fun q hne => lookup_setFile_of_ne hne bytes t.files⟩, rfl⟩
  have there := walk_concat (walk_setFile file bytes walked)
    (enter_setFile file bytes entered) child
  rw [← names] at there
  rw [read, unrefused]
  dsimp only
  rw [ok_bind there, node?_setFile_self, no_slash]
  rfl

end FileTree

/-! ### Plans that fail are quiet -/

namespace Command

namespace Plan

/-- Unless it ends well, a plan writes nothing to the output stream and no file. -/
def Quiet (plan : Plan) : Prop := plan.code ≠ .success → plan.output = [] ∧ plan.file = none

theorem quiet_failed (logged : Text) (f : Failure) : (failed logged f).Quiet := fun _ => ⟨rfl, rfl⟩

theorem quiet_print (text : Text) : (print text).Quiet := fun h => absurd rfl h

theorem quiet_deliver (job : Job) (logged text : Text) : (deliver job logged text).Quiet := by
  unfold deliver
  split
  · split
    · exact quiet_failed logged _
    · exact fun h => absurd rfl h
  · exact fun h => absurd rfl h

section ofWords
variable {s : Surroundings} {job : Job} {plan : Plan}

theorem quiet_render {verbose : Bool} (h : render s verbose job = .ok plan) : plan.Quiet := by
  obtain ⟨template, -, h⟩ := ok_of_bind h
  obtain ⟨data, -, h⟩ := ok_of_bind h
  dsimp only at h
  split at h
  · obtain rfl := Except.ok.inj h
    exact quiet_deliver job _ _
  · obtain rfl := Except.ok.inj h
    exact quiet_failed _ _

theorem quiet_validate (h : validate s job = .ok plan) : plan.Quiet := by
  obtain ⟨template, -, h⟩ := ok_of_bind h
  dsimp only at h
  split at h
  · obtain rfl := Except.ok.inj h
    exact quiet_print _
  · simp at h

theorem quiet_list (h : list s job = .ok plan) : plan.Quiet := by
  obtain ⟨template, -, h⟩ := ok_of_bind h
  obtain rfl := Except.ok.inj h
  exact quiet_print _

/-- **Every plan of a command line is quiet**, whichever command it is for. -/
theorem quiet_ofWords (s : Surroundings) (release : Release) (words : List Text) :
    (ofWords s release words).Quiet := by
  unfold ofWords
  split
  · rename_i stop _
    cases stop with
    | help g => exact quiet_print _
    | error g e => exact fun _ => ⟨rfl, rfl⟩
  · exact quiet_print _
  · unfold ofJob
    dsimp only
    split
    · rename_i found
      split at found
      · exact quiet_render found
      · exact quiet_validate found
      · exact quiet_list found
    · exact quiet_failed [] _

end ofWords

/-- A quiet plan that is carried out leaves nothing behind where it fails. -/
theorem Quiet.run {plan : Plan} (quiet : plan.Quiet) {files : FileTree}
    (h : (plan.run files).code ≠ .success) :
    (plan.run files).output = [] ∧ (plan.run files).files = files := by
  cases named : plan.file with
  | none =>
    simp only [Plan.run, named] at h ⊢
    exact ⟨(quiet h).1, trivial⟩
  | some file =>
    obtain ⟨path, text⟩ := file
    cases written : files.write path (Utf8.encode text) with
    | error refusal =>
      simp [Plan.run, named, written, refused, failed]
    | ok after =>
      simp only [Plan.run, named, written] at h
      rw [(quiet h).2] at named
      simp at named

end Plan

/-! ### What a job is given -/

/-- A text and the same text with a line feed for each line break.  A carriage return is a break together
with the line feed behind it, or else by itself. -/
inductive FeedsFor : (written text : Text) → Prop
  | nil : FeedsFor [] []
  | both {written text : Text} : FeedsFor written text →
      FeedsFor ('\r' :: '\n' :: written) ('\n' :: text)
  | lone {written text : Text} : written.head? ≠ some '\n' → FeedsFor written text →
      FeedsFor ('\r' :: written) ('\n' :: text)
  | char {c : Char} {written text : Text} : c ≠ '\r' → FeedsFor written text →
      FeedsFor (c :: written) (c :: text)

/-- Bytes give the text that they encode, with line feeds for line breaks. -/
def Gives (bytes : List UInt8) (text : Text) : Prop :=
  ∃ written, Utf8.decode bytes = .ok written ∧ FeedsFor written text

namespace Surroundings

/-- A path leads to a file that can be read and gives a text. -/
structure Holds (s : Surroundings) (path text : Text) : Prop where
  nameable : '\x00' ∉ path
  readable : ∃ bytes, s.read path = .ok bytes ∧ Gives bytes text

/-- The template that a path names: what the standard input gives, or what a file holds. -/
inductive Offers (s : Surroundings) : (path template : Text) → Prop
  | input {template : Text} : Gives s.input template → s.Offers ['-'] template
  | file {path template : Text} : path ≠ ['-'] → s.Holds path template → s.Offers path template

/-- The data that a job asks for: no fields, or those of the JSON object on the command line, or else of
the one in the data file. -/
inductive Supplies (s : Surroundings) (job : Job) : (data : Value) → Prop
  | nothing : job.data = none → job.dataFile = none → s.Supplies job (.mapping [])
  | line {json : Text} {fields : List (Text × Value)} : job.data = some (.text json) →
      Json.read json = .ok (.mapping fields) → s.Supplies job (.mapping fields)
  | file {path json : Text} {fields : List (Text × Value)} : job.data = none →
      job.dataFile = some (.text path) → s.Holds path json →
      Json.read json = .ok (.mapping fields) → s.Supplies job (.mapping fields)

/-- The delimiter token for a job: its own, or the one of the environment, or else the default.  A job
whose token was dropped has an empty one, which brackets nothing. -/
inductive Chooses (s : Surroundings) (job : Job) : (token : Text) → Prop
  | own {token : Text} : job.delimiter = some (.text token) → s.Chooses job token
  | dropped : job.delimiter = some .dropped → s.Chooses job []
  | environment {token : Text} : job.delimiter = none → s.delimiter = some token →
      s.Chooses job token
  | default : job.delimiter = none → s.delimiter = none → s.Chooses job Delimiters.defaultToken

end Surroundings

theorem feedsFor_normalizeBreaks (written : Text) : FeedsFor written (normalizeBreaks written) := by
  fun_induction normalizeBreaks written with
  | case1 rest ih => exact .both ih
  | case2 rest lone ih =>
    refine .lone ?_ ih
    intro feed
    obtain ⟨later, e⟩ := List.head?_eq_some_iff.mp feed
    exact lone later e
  | case3 c rest _ other ih => exact .char other ih
  | case4 => exact .nil

theorem eq_of_feedsFor {written text : Text} (h : FeedsFor written text) :
    text = normalizeBreaks written := by
  induction h with
  | nil => rfl
  | both _ ih => rw [normalizeBreaks, ih]
  | lone alone _ ih =>
    rw [normalizeBreaks, ih]
    rintro later rfl
    exact alone rfl
  | char other _ ih =>
    rw [normalizeBreaks, ih]
    · rintro later rfl
      exact absurd rfl other
    · exact other

theorem textOfBytes_eq_ok_iff {bytes : List UInt8} {text : Text} :
    textOfBytes bytes = .ok text ↔ Gives bytes text := by
  unfold textOfBytes Gives
  constructor
  · intro h
    split at h
    · rename_i written decoded
      obtain rfl := Except.ok.inj h
      exact ⟨written, decoded, feedsFor_normalizeBreaks written⟩
    · simp at h
  · rintro ⟨written, decoded, feeds⟩
    rw [decoded, eq_of_feedsFor feeds]

namespace Surroundings

variable {s : Surroundings} {job : Job} {path text : Text} {data : Value}

theorem readText_eq_ok_iff {refused : Refusal → Failure} :
    s.readText refused path = .ok text ↔ s.Holds path text := by
  constructor
  · intro h
    unfold readText at h
    split at h
    · simp at h
    · rename_i nameable
      split at h
      · rename_i bytes found
        exact ⟨by simpa using nameable, bytes, found, textOfBytes_eq_ok_iff.mp h⟩
      · simp at h
  · rintro ⟨nameable, bytes, found, gives⟩
    rw [readText, if_neg (by simpa using nameable), found]
    exact textOfBytes_eq_ok_iff.mpr gives

theorem template_eq_ok_iff : s.template path = .ok text ↔ s.Offers path text := by
  unfold template
  split
  · rename_i hyphen
    subst hyphen
    rw [textOfBytes_eq_ok_iff]
    refine ⟨.input, ?_⟩
    rintro (gives | ⟨named, -⟩)
    · exact gives
    · exact absurd rfl named
  · rename_i named
    rw [readText_eq_ok_iff]
    refine ⟨.file named, ?_⟩
    rintro (_ | ⟨-, holds⟩)
    · exact absurd rfl named
    · exact holds

theorem objectOf_eq_ok_iff {source : Text} :
    objectOf source text = .ok data ↔ ∃ fields, Json.read text = .ok (.mapping fields)
      ∧ data = .mapping fields := by
  unfold objectOf
  cases Json.read text with
  | ok v => cases v <;> simp [eq_comm]
  | error e => cases e <;> simp

theorem context_eq_ok_iff : s.context job = .ok data ↔ s.Supplies job data := by
  constructor
  · intro h
    unfold context at h
    split at h
    · rename_i no_line no_file
      obtain rfl := Except.ok.inj h
      exact .nothing no_line no_file
    · rename_i line
      obtain ⟨fields, read, rfl⟩ := objectOf_eq_ok_iff.mp h
      exact .line line read
    · simp at h
    · rename_i no_line file
      obtain ⟨json, found, h⟩ := ok_of_bind h
      obtain ⟨fields, read, rfl⟩ := objectOf_eq_ok_iff.mp h
      exact .file no_line file (readText_eq_ok_iff.mp found) read
    · simp at h
  · rintro (⟨no_line, no_file⟩ | ⟨line, read⟩ | ⟨no_line, file, holds, read⟩)
    · rw [context, no_line, no_file]
    · rw [context, line]
      exact objectOf_eq_ok_iff.mpr ⟨_, read, rfl⟩
    · rw [context, no_line, file]
      exact (ok_bind (readText_eq_ok_iff.mpr holds) _).trans (objectOf_eq_ok_iff.mpr ⟨_, read, rfl⟩)

/-- The delimiter token that a job is done with. -/
def chosenToken (s : Surroundings) (job : Job) : Text := (s.token? job).getD []

theorem chooses_chosenToken (s : Surroundings) (job : Job) : s.Chooses job (s.chosenToken job) := by
  unfold chosenToken token?
  split
  · rename_i no_own
    cases asked : s.delimiter with
    | none => exact .default no_own asked
    | some token => exact .environment no_own asked
  · exact .own ‹_›
  · exact .dropped ‹_›

end Surroundings

/-! ### Where a rendering goes -/

/-- The output file that a job names, if it names one. -/
def Job.outputFile? (job : Job) : Option Text :=
  match job.output with
  | some (.text (c :: path)) => some (c :: path)
  | _ => none

/-- A text stands in full at the one place that is meant for it, an output file or else the output
stream, and nothing else was written.  The bytes of the file are read back as the text. -/
def Outcome.Delivers (o : Outcome) (before : FileTree) (text : Text) : Option Text → Prop
  | none => o.output = text ∧ o.files = before
  | some path => o.output = [] ∧ ∃ bytes, Utf8.decode bytes = .ok text
      ∧ before.Written path bytes o.files

theorem rendered_snd (s : Surroundings) (job : Job) (template : Text) (data : Value) :
    (s.rendered job template data).2 = Stencil.render template data (s.chosenToken job) := by
  unfold Surroundings.rendered Surroundings.chosenToken
  cases s.token? job with
  | some token => rfl
  | none =>
    have unusable : ¬ (Renderer.mk []).delimiters.usable = true := by decide
    rw [Option.getD_none, Stencil.render, Renderer.render, Renderer.renderWith, if_neg unusable]

/-- A rendered text goes to the output file, if one is named. -/
theorem deliver_eq (job : Job) (logged text : Text) : Plan.deliver job logged text =
    match job.outputFile? with
    | some path =>
      if path.contains '\x00' then Plan.failed logged .nulInPath
      else { code := .success, errors := logged, file := some (path, text) }
    | none => { code := .success, output := text, errors := logged } := by
  obtain ⟨_, _, _, _, _, output, _⟩ := job
  match output with
  | none | some .dropped | some (.text []) | some (.text (_ :: _)) => rfl

theorem Failure.exitCode_ne_success (f : Failure) : f.exitCode ≠ .success := by
  cases f <;> simp [exitCode]

theorem Plan.code_failed_ne_success (logged : Text) (f : Failure) (files : FileTree) :
    ((failed logged f).run files).code ≠ .success := f.exitCode_ne_success

/-- Where a rendering ends well, its text is delivered. -/
theorem delivers_deliver {job : Job} {logged text : Text} {files : FileTree}
    (h : ((Plan.deliver job logged text).run files).code = .success) :
    ((Plan.deliver job logged text).run files).Delivers files text job.outputFile? := by
  rw [deliver_eq] at h ⊢
  cases named : job.outputFile? with
  | none => exact ⟨rfl, rfl⟩
  | some path =>
    rw [named] at h
    dsimp only at h ⊢
    by_cases nul : path.contains '\x00' = true
    · rw [if_pos nul] at h
      exact absurd h (Plan.code_failed_ne_success logged .nulInPath files)
    · rw [if_neg nul] at h ⊢
      cases written : files.write path (Utf8.encode text) with
      | error refusal =>
        simp only [Plan.run, written] at h
        exact absurd h (Plan.code_failed_ne_success logged (.outputUnwritable path refusal) files)
      | ok after =>
        simp only [Plan.run, written]
        exact ⟨rfl, _, Utf8.decode_eq_ok_iff.mpr rfl, FileTree.written_of_write written⟩

/-- A job of rendering that ends well has rendered the template that is meant with the data that are
meant, and has delivered the result. -/
theorem delivers_ofJob {s : Surroundings} {verbose : Bool} {job : Job} {files : FileTree}
    (asked : job.action = .render) (success : ((Plan.ofJob s verbose job).run files).code = .success) :
    ∃ template data text, s.Offers job.template template ∧ s.Supplies job data
      ∧ Stencil.render template data (s.chosenToken job) = .ok text
      ∧ ((Plan.ofJob s verbose job).run files).Delivers files text job.outputFile? := by
  unfold Plan.ofJob at success ⊢
  rw [asked] at success ⊢
  dsimp only at success ⊢
  cases planned : Plan.render s verbose job with
  | error f =>
    rw [planned] at success
    exact absurd success (Plan.code_failed_ne_success [] f files)
  | ok plan =>
    rw [planned] at success
    obtain ⟨template, found, rest⟩ := ok_of_bind planned
    obtain ⟨data, parsed, rest⟩ := ok_of_bind rest
    have offered := Surroundings.template_eq_ok_iff.mp found
    have supplied := Surroundings.context_eq_ok_iff.mp parsed
    dsimp only at rest success ⊢
    split at rest
    · rename_i text result
      obtain rfl := Except.ok.inj rest
      rw [rendered_snd] at result
      exact ⟨template, data, text, offered, supplied, result, delivers_deliver success⟩
    · rename_i fault _
      obtain rfl := Except.ok.inj rest
      exact absurd success (Plan.code_failed_ne_success _ (.fault fault) files)

/-- **A command that fails leaves nothing behind, and a rendering that succeeds is delivered.**
Whatever the command line and the way of reading it, the environment, the input and the files are: if the
program does not end with success, its output stream is empty and all files are as before.  If it renders
a template and ends with success, then the template, the data and the token that are meant for the job
are rendered to a text, and this text stands in full in the output file that is named, or else on the
output stream, and nowhere else. -/
theorem run_delivers (release : Release) (delimiter : Option Text) (input : List UInt8)
    (files : FileTree) (words : List Text) :
    let s : Surroundings := ⟨delimiter, input, files.read⟩
    let outcome := runWith release delimiter input files words
    (outcome.code ≠ .success → outcome.output = [] ∧ outcome.files = files)
      ∧ ∀ verbose job, Invocation.ofWords release words = .ok ⟨verbose, some job⟩ →
        job.action = .render → outcome.code = .success →
        ∃ template data token text, s.Offers job.template template ∧ s.Supplies job data
          ∧ s.Chooses job token ∧ Stencil.render template data token = .ok text
          ∧ outcome.Delivers files text job.outputFile? := by
  intro s outcome
  refine ⟨(Plan.quiet_ofWords s release words).run, ?_⟩
  intro verbose job asked render_job success
  have planned : outcome = (Plan.ofJob s verbose job).run files := by
    simp only [outcome, runWith, Plan.ofWords, asked, s]
  rw [planned] at success ⊢
  obtain ⟨template, data, text, offered, supplied, rendered, delivered⟩ :=
    delivers_ofJob render_job success
  exact ⟨template, data, s.chosenToken job, text, offered, supplied, s.chooses_chosenToken job,
    rendered, delivered⟩

/-- A template that greets whom the data name. -/
def greeting : Text := "Hi <%#if name%><%name%><%#else%>you<%/if%>!".toList

/-- A working directory with that template and with data for it. -/
def greetingFiles : FileTree :=
  FileTree.ofPaths [("hi.tpl".toList, Utf8.encode greeting),
    ("name.json".toList, Utf8.encode "\x7b\"name\": \"Zoë\"\x7d".toList)] []

/-- Where a command line is run: in that directory, with a delimiter from the environment. -/
def greetingSurroundings : Surroundings := ⟨some "<%%>".toList, [], greetingFiles.read⟩

/-- A command line that renders a template with these data into a file whose name is two hyphens. -/
def greetingWords (template : Text) : List Text :=
  ["render".toList, template, "-f".toList, "name.json".toList, "--output=--".toList]

/-- What that command line asks for in the late way of reading it. -/
def greetingJob (template : Text) : Job where
  action := .render
  template := template
  data := none
  dataFile := some (.text "name.json".toList)
  delimiter := none
  output := some (.text ['-', '-'])
  format := none

/-- The outcome of that command line. -/
def greetingRun (template : Text) : Outcome :=
  runWith .late greetingSurroundings.delimiter greetingSurroundings.input greetingFiles
    (greetingWords template)

/-- A template that is missing leaves nothing behind; one that is there is rendered with the data into
the file that is named. -/
theorem run_delivers_greeting :
    ((greetingRun "ho.tpl".toList).code ≠ .success
      ∧ (greetingRun "ho.tpl".toList).output = []
      ∧ (greetingRun "ho.tpl".toList).files = greetingFiles)
    ∧ (greetingRun "hi.tpl".toList).code = .success
      ∧ (greetingRun "hi.tpl".toList).Delivers greetingFiles "Hi Zoë!".toList
          (some ['-', '-']) := by
  have fails : (greetingRun "ho.tpl".toList).code ≠ .success := by decide +kernel
  have succeeds : (greetingRun "hi.tpl".toList).code = .success := by decide +kernel
  refine ⟨⟨fails, (run_delivers .late _ _ greetingFiles _).1 fails⟩, succeeds, ?_⟩
  obtain ⟨template, data, token, text, offered, supplied, chosen, rendered, delivered⟩ :=
    (run_delivers .late greetingSurroundings.delimiter greetingSurroundings.input greetingFiles
      (greetingWords "hi.tpl".toList)).2 false (greetingJob "hi.tpl".toList) (by decide +kernel) rfl
      succeeds
  have found : greetingSurroundings.template "hi.tpl".toList = .ok template :=
    Surroundings.template_eq_ok_iff.mpr offered
  have parsed : greetingSurroundings.context (greetingJob "hi.tpl".toList) = .ok data :=
    Surroundings.context_eq_ok_iff.mpr supplied
  have greeting_found : (greetingSurroundings.template "hi.tpl".toList).toOption = some greeting := by
    decide +kernel
  rw [found] at greeting_found
  obtain rfl := Option.some.inj greeting_found
  have token_eq : "<%%>".toList = token := by
    cases chosen with
    | environment _ asked => exact Option.some.inj asked
    | own given | dropped given => cases given
    | default _ asked => cases asked
  have greeted : (greetingSurroundings.context (greetingJob "hi.tpl".toList)).toOption.bind
      (fun data => (Stencil.render greeting data "<%%>".toList).toOption)
        = some "Hi Zoë!".toList := by
    decide +kernel
  rw [parsed, token_eq] at greeted
  have same : (Stencil.render greeting data token).toOption = some "Hi Zoë!".toList := greeted
  rw [rendered] at same
  obtain rfl := Option.some.inj same
  exact delivered

/-- A template on the input, with data and token on the command line.  In the early way of reading it the
value of two hyphens is dropped, so the text goes to the output stream. -/
example :
    let words := ["render".toList, ['-'], "-d".toList, "\x7b\"name\": \"Zoë\"\x7d".toList,
      "--delimiter".toList, "<%%>".toList, "--output=--".toList]
    let outcome := runWith .early none (Utf8.encode "Hi <%name%>!".toList) {} words
    outcome.code = .success ∧ outcome.output = "Hi Zoë!".toList ∧ outcome.files = {} := by
  decide +kernel

end Command
end Stencil
