import Stencil.Command.Switches

/-! # The commands and their switches

Three commands take a template: `render` renders it, `validate` checks its directives and `list` shows
what it refers to.  The help pages are set for a terminal of 80 columns. -/

namespace Stencil.Command

/-- The commands. -/
inductive Action where
  | render
  | validate
  | list
deriving DecidableEq, Repr

namespace Action

/-- The word that calls a command. -/
def word : Action → Text
  | render => "render".toList
  | validate => "validate".toList
  | list => "list".toList

def all : List Action := [render, validate, list]

/-- The command that a word calls. -/
def ofWord? (word : Text) : Option Action := all.find? fun a => a.word == word

end Action

/-! ### Switches -/

def helpSwitch : Switch := ⟨.help, ["-h".toList, "--help".toList], false, []⟩

def verboseSwitch : Switch := ⟨.verbose, ["--verbose".toList, "-v".toList], false, []⟩

def dataSwitch : Switch := ⟨.data, ["--data".toList, "-d".toList], true, []⟩

def dataFileSwitch : Switch := ⟨.dataFile, ["--data-file".toList, "-f".toList], true, []⟩

def delimiterSwitch : Switch := ⟨.delimiter, ["--delimiter".toList], true, []⟩

def outputSwitch : Switch := ⟨.output, ["--output".toList, "-o".toList], true, []⟩

def formatSwitch : Switch := ⟨.format, ["--format".toList], true, ["text".toList, "json".toList]⟩

/-- The operand of every command. -/
def templateOperand : Operand := .single "template".toList

/-! ### Grammars -/

def programGrammar : Grammar where
  program := "inkwell".toList
  usage := "usage: inkwell [-h] [--verbose] \x7brender,validate,list\x7d ...\n".toList
  help := "
Inkwell - template rendering with conditional blocks

positional arguments:
  \x7brender,validate,list\x7d
                        Commands
    render              Render a template
    validate            Check directive balance
    list                List variables and conditions

options:
  -h, --help            show this help message and exit
  --verbose, -v         Enable debug logging
".toList
  switches := [helpSwitch, verboseSwitch]
  operand := .command "command".toList (Action.all.map Action.word)

def renderGrammar : Grammar where
  program := "inkwell render".toList
  usage := "usage: inkwell render [-h] [--data DATA] [--data-file DATA_FILE]
                      [--delimiter DELIMITER] [--output OUTPUT]
                      template
".toList
  help := "
positional arguments:
  template              Path to template file, or - for stdin

options:
  -h, --help            show this help message and exit
  --data DATA, -d DATA  JSON data context
  --data-file DATA_FILE, -f DATA_FILE
                        Path to JSON data file
  --delimiter DELIMITER
                        Marker delimiter (default: $INKWELL_DELIMITER or '&&')
  --output OUTPUT, -o OUTPUT
                        Write output to file instead of stdout
".toList
  switches := [helpSwitch, dataSwitch, dataFileSwitch, delimiterSwitch, outputSwitch]
  operand := templateOperand

def validateGrammar : Grammar where
  program := "inkwell validate".toList
  usage := "usage: inkwell validate [-h] [--delimiter DELIMITER] template\n".toList
  help := "
positional arguments:
  template              Path to template file, or - for stdin

options:
  -h, --help            show this help message and exit
  --delimiter DELIMITER
                        Marker delimiter
".toList
  switches := [helpSwitch, delimiterSwitch]
  operand := templateOperand

def listGrammar : Grammar where
  program := "inkwell list".toList
  usage := "usage: inkwell list [-h] [--delimiter DELIMITER] [--format \x7btext,json\x7d]
                    template
".toList
  help := "
positional arguments:
  template              Path to template file, or - for stdin

options:
  -h, --help            show this help message and exit
  --delimiter DELIMITER
                        Marker delimiter
  --format \x7btext,json\x7d  Output format
".toList
  switches := [helpSwitch, delimiterSwitch, formatSwitch]
  operand := templateOperand

/-- The grammar of the words behind a command. -/
def Action.grammar : Action → Grammar
  | render => renderGrammar
  | validate => validateGrammar
  | list => listGrammar

end Stencil.Command
