/-!
# Options of the command line

The commands, the options that each of them understands, and the names by which an option is given:
a long one, and for some a letter.
-/

namespace Depot.Command

/-- What a command line may ask for or about: the program, or one of its commands. -/
inductive Topic where
  | program
  | resolve
  | localRepository
  | help
  deriving DecidableEq, Repr

/-- An option. -/
inductive Flag where
  | file
  | json
  | debug
  | help
  | version
  deriving DecidableEq, Repr

namespace Topic

/-- The commands in the order in which they are listed. -/
def commands : List Topic := [.resolve, .localRepository, .help]

/-- The word for a command. -/
def word : Topic → String
  | .program => "quarry"
  | .resolve => "resolve"
  | .localRepository => "local"
  | .help => "help"

/-- The command with a word. -/
def ofWord? (s : String) : Option Topic :=
  commands.find? (·.word == s)

/-- What a command does. -/
def about : Topic → String
  | .program => "Provision Maven, Ivy and flat directory artifact repositories"
  | .resolve => "Create every repository declared in a repositories file"
  | .localRepository => "Show where the local Maven repository lives"
  | .help => "Print this message or the help of the given subcommand(s)"

/-- The options that a command understands. -/
def flags : Topic → List Flag
  | .program => [.debug, .help, .version]
  | .resolve => [.file, .json, .debug, .help, .version]
  | .localRepository => [.file, .debug, .help, .version]
  | .help => []

end Topic

namespace Flag

/-- The long name of an option. -/
def name : Flag → String
  | .file => "file"
  | .json => "json"
  | .debug => "debug"
  | .help => "help"
  | .version => "version"

/-- The letter of an option. -/
def letter? : Flag → Option Char
  | .file => some 'f'
  | .json | .debug => none
  | .help => some 'h'
  | .version => some 'V'

/-- What the value of an option is called, if it takes one. -/
def value? : Flag → Option String
  | .file => some "FILE"
  | .json | .debug | .help | .version => none

/-- What an option does. -/
def about : Flag → String
  | .file => "Repositories file (defaults to ~/.config/quarry/repositories.yaml)"
  | .json => "Output as JSON"
  | .debug => "Enable debug output"
  | .help => "Print help"
  | .version => "Print version"

end Flag

namespace Topic

/-- The option of a command with a long name. -/
def flag? (t : Topic) (name : String) : Option Flag :=
  t.flags.find? (·.name == name)

/-- The option of a command with a letter. -/
def flagOfLetter? (t : Topic) (c : Char) : Option Flag :=
  t.flags.find? (·.letter? == some c)

end Topic

end Depot.Command
