import Stencil.Text.Search
import Stencil.Text.Digit
import Stencil.Text.Quoted

/-! # Reading a command line

A command line is a row of words.  A word is a switch when it begins with a hyphen and one of the
known names begins like it; a single operand or a command with words of its own may stand among the
switches.

* `Grammar.classify` says what each word is before any of them takes effect, so an ambiguous name is
  an error whatever else the line says.
* `Grammar.interpret` then takes the words in order.  A request for help ends the reading where it
  stands.

Command lines are read in two ways, an early and a late one (`Release`), which differ in what may be
joined to a switch. -/

namespace Stencil.Command

open Text

/-- Which of two ways of reading a command line is followed.  They differ in what is joined to the
letter or the name of a switch:

* a value of two hyphens is dropped by the early one, and is a value like any other in the late one;
* a letter that names no switch, joined to one that names a switch without value, is an error in the
  early one, and in the late one it is left over with all that is joined to it;
* what stands behind an equals sign is a value in the late one, which a switch without value cannot have.
  The early one reads on with letters there, and behind any but the first letter of a word it takes the
  equals sign itself for a letter or for a part of the value. -/
inductive Release where
  | early
  | late
deriving DecidableEq, Repr

/-- What a switch sets. -/
inductive Setting where
  | help
  | verbose
  | data
  | dataFile
  | delimiter
  | output
  | format
deriving DecidableEq, Repr

/-- A switch with all its names. -/
structure Switch where
  setting : Setting
  names : List Text
  takesValue : Bool
  /-- The values that it may take; any if there are none. -/
  choices : List Text := []
deriving DecidableEq, Repr

/-- What stands among the switches: one operand, or a command with the words after it. -/
inductive Operand where
  | single (name : Text)
  | command (name : Text) (choices : List Text)
deriving DecidableEq, Repr

/-- What a program takes on its command line, and how it explains itself. -/
structure Grammar where
  program : Text
  usage : Text
  help : Text
  switches : List Switch
  operand : Operand
deriving DecidableEq, Repr

/-- A text that is joined to the name of a switch. -/
structure Joined where
  value : Text
  behindEquals : Bool
deriving DecidableEq, Repr

/-- What is joined to a letter. -/
def Release.joined? : Release → Text → Option Joined
  | _, [] => none
  | late, '=' :: value => some ⟨value, true⟩
  | _, rest => some ⟨rest, false⟩

/-- Whether what is joined to a letter is a value rather than more letters. -/
def Release.isValue (release : Release) (joined : Joined) : Bool :=
  release = late && joined.behindEquals

/-- The value that a switch is given.  Where a value of two hyphens is dropped, the switch is left
without one. -/
inductive Argument where
  | text (value : Text)
  | dropped
deriving DecidableEq, Repr

/-- The value that a text joined to its switch is. -/
def Argument.ofJoined (release : Release) (value : Text) : Argument :=
  if release = .early && value = ['-', '-'] then dropped else text value

/-! ### Errors -/

/-- Why a command line cannot be used. -/
inductive UsageError where
  | ambiguous (word : Text) (names : List Text)
  | missingValue (names : List Text)
  | unexpectedValue (names : List Text) (value : Text)
  | unknownChoice (names : List Text) (value : Text) (choices : List Text)
  | missingOperand (name : Text)
  | unrecognized (words : List Text)
deriving DecidableEq, Repr

/-- Texts with a separator in between. -/
def joinWith (separator : Text) : List Text → Text
  | [] => []
  | [t] => t
  | t :: ts => t ++ separator ++ joinWith separator ts

/-- The part of the wording that says which switch or operand is meant. -/
def aboutText (names : List Text) : Text := "argument ".toList ++ joinWith ['/'] names ++ [':', ' ']

/-- The wording of an error. -/
def UsageError.message : UsageError → Text
  | ambiguous word names =>
    "ambiguous option: ".toList ++ word ++ " could match ".toList ++ joinWith [',', ' '] names
  | missingValue names => aboutText names ++ "expected one argument".toList
  | unexpectedValue names value =>
    aboutText names ++ "ignored explicit argument ".toList ++ value.quoted
  | unknownChoice names value choices =>
    aboutText names ++ "invalid choice: ".toList ++ value.quoted ++ " (choose from ".toList
      ++ joinWith [',', ' '] (choices.map Text.quoted) ++ [')']
  | missingOperand name => "the following arguments are required: ".toList ++ name
  | unrecognized words => "unrecognized arguments: ".toList ++ joinWith [' '] words

/-- The error of giving a switch a value that is none of its choices. -/
def Switch.refusal? (s : Switch) : Argument → Option UsageError
  | .text value =>
    if s.choices.isEmpty || s.choices.contains value then none
    else some (.unknownChoice s.names value s.choices)
  | .dropped => none

/-- Why the reading of a command line ended early: help was asked for, or there is an error.  Either
way it concerns the program or command with a grammar. -/
inductive Stop where
  | help (g : Grammar)
  | error (g : Grammar) (e : UsageError)
deriving DecidableEq, Repr

/-! ### Words -/

/-- What a word is. -/
inductive Word where
  | operand (word : Text)
  | separator
  | switch (word : Text) (s : Switch) (name : Text) (joined : Option Joined)
  | unknown (word : Text)
deriving DecidableEq, Repr

namespace Word

/-- The word as it was written. -/
def source : Word → Text
  | operand word => word
  | separator => ['-', '-']
  | switch word _ _ _ => word
  | unknown word => word

end Word

/-- Whether the name of a switch begins with two hyphens. -/
def isLongName (name : Text) : Bool := name.take 2 == ['-', '-']

/-- The part of a word that names a switch, and what is joined to it.  A long name ends in front of an
equals sign, any other is a single letter. -/
def cutName (word : Text) : Text × Option Joined :=
  if isLongName word then
    match cut? ['='] word with
    | some (name, value) => (name, some ⟨value, true⟩)
    | none => (word, none)
  else (word.take 2, some ⟨word.drop 2, false⟩)

/-- Whether a word looks like a negative number: a hyphen, then digits, or digits with a point and a
digit behind it.  One line feed may end it. -/
def looksNegative (word : Text) : Bool :=
  let word := if word.getLast? = some '\n' then word.dropLast else word
  match word with
  | '-' :: number =>
    let behind := number.dropWhile isDecimalDigit
    match behind with
    | [] => !number.isEmpty
    | '.' :: fraction => !fraction.isEmpty && fraction.all isDecimalDigit
    | _ => false
  | _ => false

namespace Grammar

/-- All names of switches, each with its switch. -/
def names (g : Grammar) : List (Text × Switch) :=
  g.switches.flatMap fun s => s.names.map fun name => (name, s)

/-- The switch that a word names in full, with a value behind an equals sign or without one. -/
def named? (g : Grammar) (word : Text) : Option Word :=
  match g.names.lookup word with
  | some s => some (.switch word s word none)
  | none => do
    let (name, value) ← cut? ['='] word
    let s ← g.names.lookup name
    return .switch word s name (some ⟨value, true⟩)

/-- What a word in front of the separator is.  One that is no full name may be the beginning of a long
name or a letter with more behind it. -/
def classifyWord (g : Grammar) (word : Text) : Except Stop Word :=
  if word.head? != some '-' || word.length = 1 then .ok (.operand word)
  else
    match g.named? word with
    | some found => .ok found
    | none =>
      let (start, joined) := cutName word
      match g.names.filter fun known => start.isPrefixOf known.1 with
      | [(name, s)] => .ok (.switch word s name joined)
      | [] =>
        .ok (if looksNegative word || word.contains ' ' then .operand word else .unknown word)
      | several => .error (.error g (.ambiguous word (several.map Prod.fst)))

/-- What the words of a line are.  Behind the separator all are operands. -/
def classify (g : Grammar) : List Text → Except Stop (List Word)
  | [] => .ok []
  | word :: words =>
    if word = ['-', '-'] then .ok (.separator :: words.map .operand)
    else do
      let first ← g.classifyWord word
      let rest ← classify g words
      return first :: rest

/-! ### The switches of one word -/

/-- What a word that names a switch comes to: switches, with the values of those that take one, the
switch whose value is the next word, and the letters that are left over, as words. -/
structure Expansion where
  taken : List (Switch × Option Argument) := []
  waiting : Option Switch := none
  extras : List Text := []
deriving DecidableEq, Repr

/-- A switch with nothing joined to it. -/
def Expansion.alone (s : Switch) : Expansion :=
  if s.takesValue then { waiting := some s } else { taken := [(s, none)] }

/-- A switch without value that letters are joined to: each of them names a switch as well, up to one
that takes what is joined to it as its value. -/
def expandLetters (g : Grammar) (release : Release) (s : Switch) :
    (letters : Text) → Except UsageError Expansion
  | [] => .error (.unexpectedValue s.names [])
  | c :: rest =>
    match g.names.lookup ['-', c] with
    | none =>
      if release = .late && c != '-' then .ok { taken := [(s, none)], extras := ['-' :: c :: rest] }
      else .error (.unexpectedValue s.names (c :: rest))
    | some next =>
      let behind : Except UsageError Expansion :=
        match release.joined? rest with
        | none => .ok (.alone next)
        | some joined =>
          if next.takesValue then .ok { taken := [(next, some (.ofJoined release joined.value))] }
          else if release.isValue joined then .error (.unexpectedValue next.names joined.value)
          else expandLetters g release next rest
      behind.map fun e => { e with taken := (s, none) :: e.taken }

/-- A switch with what is joined to its name. -/
def expand (g : Grammar) (release : Release) (s : Switch) (name : Text) :
    Option Joined → Except UsageError Expansion
  | none => .ok (.alone s)
  | some joined =>
    if s.takesValue then .ok { taken := [(s, some (.ofJoined release joined.value))] }
    else if isLongName name || release.isValue joined then
      .error (.unexpectedValue s.names joined.value)
    else g.expandLetters release s joined.value

/-! ### Taking the words in order -/

/-- What has been read of a command line. -/
structure Reading where
  flags : List Setting := []
  values : List (Setting × Argument) := []
  /-- The operand, or the command with the words after it. -/
  operand : Option (Text × List Text) := none
  /-- The words that nothing asked for. -/
  extras : List Text := []
deriving DecidableEq, Repr

/-- Takes note of switches in order.  Help ends the reading, and a value must be one of the
choices. -/
def note (g : Grammar) (reading : Reading) :
    List (Switch × Option Argument) → Except Stop Reading
  | [] => .ok reading
  | (s, none) :: later =>
    if s.setting = .help then .error (.help g)
    else note g { reading with flags := reading.flags ++ [s.setting] } later
  | (s, some argument) :: later =>
    match s.refusal? argument with
    | some e => .error (.error g e)
    | none => note g { reading with values := reading.values ++ [(s.setting, argument)] } later

/-- The words behind an operand, without a separator directly behind it. -/
def dropSeparator : List Word → List Word
  | .separator :: words => words
  | words => words

theorem length_dropSeparator_le (words : List Word) :
    (dropSeparator words).length ≤ words.length := by
  unfold dropSeparator
  split <;> simp

/-- Takes the operand where none has been taken, and keeps every other word as an extra. -/
def interpret (g : Grammar) (release : Release) (reading : Reading) (words : List Word) :
    Except Stop Reading :=
  match words with
  | [] => .ok reading
  | .operand word :: later =>
    match g.operand, reading.operand with
    | .command _ _, none => .ok { reading with operand := some (word, later.map Word.source) }
    | .single _, none =>
      interpret g release { reading with operand := some (word, []) } (dropSeparator later)
    | _, some _ => interpret g release { reading with extras := reading.extras ++ [word] } later
  | .separator :: later =>
    match g.operand, reading.operand with
    | .single _, none => interpret g release reading later
    | .command _ _, none =>
      if later.isEmpty then .ok { reading with extras := reading.extras ++ [['-', '-']] }
      else .ok { reading with operand := some (['-', '-'], later.map Word.source) }
    | _, some _ =>
      interpret g release { reading with extras := reading.extras ++ [['-', '-']] } later
  | .unknown word :: later =>
    interpret g release { reading with extras := reading.extras ++ [word] } later
  | .switch _ s name joined :: later =>
    match g.expand release s name joined with
    | .error e => .error (.error g e)
    | .ok found =>
      let reading := { reading with extras := reading.extras ++ found.extras }
      match found.waiting, later with
      | none, later =>
        match g.note reading found.taken with
        | .error stop => .error stop
        | .ok reading => interpret g release reading later
      | some s, .operand value :: beyond =>
        match g.note reading (found.taken ++ [(s, some (.text value))]) with
        | .error stop => .error stop
        | .ok reading => interpret g release reading beyond
      | some s, _ => .error (.error g (.missingValue s.names))
termination_by words.length
decreasing_by
  · have := length_dropSeparator_le later
    simp only [List.length_cons]
    omega
  all_goals
    simp only [List.length_cons]
    omega

/-- Reads a command line. -/
def parse (g : Grammar) (release : Release) (words : List Text) : Except Stop Reading := do
  g.interpret release {} (← g.classify words)

end Grammar

/-- The last value that a setting was given. -/
def Grammar.Reading.value? (reading : Grammar.Reading) (setting : Setting) : Option Argument :=
  reading.values.reverse.lookup setting

end Stencil.Command
