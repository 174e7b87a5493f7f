import Depot.Command.Option
import Depot.Path

/-!
# Arguments

The arguments are read from left to right: options of the program, a command, and options of the
command. An option that takes a value has it behind an equals sign, behind its letter, or as the
next argument; options without a value may share a dash. A request for help or for the version ends
the reading at once, so what stands behind it does not matter.
-/

namespace Depot.Command

/-- The options given to a command. -/
structure Options where
  file : Option Path := none
  json : Bool := false
  debug : Bool := false
  deriving DecidableEq, Repr

/-- What a command line asks for. -/
inductive Request where
  | help (t : Topic)
  | version (t : Topic)
  | resolve (o : Options)
  | localRepository (o : Options)
  deriving DecidableEq, Repr

/-- Why arguments cannot be understood. -/
inductive UsageError where
  | missingCommand
  | unknownCommand (word : String)
  | unexpectedArgument (argument : String)
  | missingValue (f : Flag)
  | unneededValue (f : Flag)
  | repeated (f : Flag)
  deriving DecidableEq, Repr

/-- The wording of an error. -/
def UsageError.message : UsageError → String
  | .missingCommand => "a subcommand is required but was not provided"
  | .unknownCommand word => s!"unrecognized subcommand '{word}'"
  | .unexpectedArgument argument => s!"unexpected argument '{argument}' found"
  | .missingValue f => s!"a value is required for '--{f.name}' but none was supplied"
  | .unneededValue f => s!"unexpected value for '--{f.name}' found; no more were expected"
  | .repeated f => s!"the argument '--{f.name}' cannot be used multiple times"

/-! ### Single arguments -/

/-- What an argument looks like. -/
inductive Argument where
  | long (name : String) (value : Option String)
  | letters (cs : List Char)
  | separator
  | word (s : String)
  deriving DecidableEq, Repr

/-- The look of an argument. A dash by itself is a word. -/
def Argument.ofText (s : String) : Argument :=
  match s.toList with
  | ['-', '-'] => .separator
  | '-' :: '-' :: cs =>
    let value := cs.dropWhile (· != '=')
    .long (String.ofList (cs.takeWhile (· != '=')))
      (if value.isEmpty then none else some (String.ofList value.tail))
  | '-' :: c :: cs => .letters (c :: cs)
  | _ => .word s

/-- What follows from an argument: more options, the value of an option is awaited, or the request
is known. -/
inductive Progress where
  | options (o : Options)
  | awaiting (f : Flag) (o : Options)
  | request (r : Request)

/-- The options with the value of an option, of which there must be one. -/
def Options.setValue (o : Options) (f : Flag) (value : String) : Except UsageError Options :=
  if value.isEmpty then .error (.missingValue f)
  else if o.file.isSome then .error (.repeated f)
  else .ok { o with file := some ⟨value⟩ }

/-- What follows from an option without a value. -/
def Options.set (o : Options) (t : Topic) (f : Flag) : Except UsageError Progress :=
  match f with
  | .help => .ok (.request (.help t))
  | .version => .ok (.request (.version t))
  | .json => if o.json then .error (.repeated f) else .ok (.options { o with json := true })
  | .debug => if o.debug then .error (.repeated f) else .ok (.options { o with debug := true })
  | .file => .ok (.awaiting f o)

/-- What follows from an option given by its long name. -/
def readLong (t : Topic) (o : Options) (name : String) (value : Option String) :
    Except UsageError Progress :=
  match t.flag? name, value with
  | none, _ => .error (.unexpectedArgument ("--" ++ name))
  | some f, none => o.set t f
  | some f, some value =>
    if f.value?.isSome then (o.setValue f value).map .options else .error (.unneededValue f)

/-- What follows from letters behind one dash. -/
def readLetters (t : Topic) (o : Options) : List Char → Except UsageError Progress
  | [] => .ok (.options o)
  | c :: rest =>
    match t.flagOfLetter? c with
    | none => .error (.unexpectedArgument (String.ofList ['-', c]))
    | some f =>
      if f.value?.isSome then
        match rest with
        | [] => .ok (.awaiting f o)
        | '=' :: value => (o.setValue f (String.ofList value)).map .options
        | value => (o.setValue f (String.ofList value)).map .options
      else
        match o.set t f with
        | .ok (.options o) => readLetters t o rest
        | other => other

/-! ### All arguments -/

/-- What a command is asked for when its options end. -/
def Topic.request (t : Topic) (o : Options) : Except UsageError Request :=
  match t with
  | .resolve => .ok (.resolve o)
  | .localRepository => .ok (.localRepository o)
  | .help => .ok (.help .program)
  | .program => .error .missingCommand

/-- The request behind the command for help: about the program, or about the one command that is
named. -/
def readHelp : List String → Except UsageError Request
  | [] => .ok (.help .program)
  | word :: rest =>
    match Topic.ofWord? word, rest with
    | none, _ => .error (.unknownCommand word)
    | some t, [] => .ok (.help t)
    | some _, word :: _ => .error (.unknownCommand word)

/-- Reads the arguments of the program or of a command. -/
def readArguments (t : Topic) (o : Options) : List String → Except UsageError Request
  | [] => t.request o
  | argument :: rest =>
    let proceed (p : Except UsageError Progress) : Except UsageError Request :=
      match p with
      | .error e => .error e
      | .ok (.request r) => .ok r
      | .ok (.options o) => readArguments t o rest
      | .ok (.awaiting f o) =>
        match rest with
        | [] => .error (.missingValue f)
        | value :: rest =>
          match Argument.ofText value with
          | .word _ =>
            match o.setValue f value with
            | .ok o => readArguments t o rest
            | .error e => .error e
          | _ => .error (.missingValue f)
    match Argument.ofText argument with
    | .long name value => proceed (readLong t o name value)
    | .letters cs => proceed (readLetters t o cs)
    | .separator =>
      match rest with
      | [] => t.request o
      | extra :: _ => .error (.unexpectedArgument extra)
    | .word word =>
      if t ≠ .program then .error (.unexpectedArgument word)
      else
        match Topic.ofWord? word with
        | none => .error (.unknownCommand word)
        | some .help => readHelp rest
        | some command => readArguments command {} rest

/-- The request that a command line makes. -/
def Request.ofArguments (args : List String) : Except UsageError Request :=
  readArguments .program {} args

end Depot.Command
