import Depot.Command.Option

/-!
# Help

A page of help says what the program or one of its commands does, how it is called, and which
commands, arguments and options there are. In a list the descriptions begin in the same column, two
spaces behind the longest entry.
-/

namespace Depot.Command

/-- The version of the program. -/
def versionNumber : String := "0.2.0"

/-- The line that tells the version, for the program or one of its commands. -/
def Topic.versionLine (t : Topic) : String :=
  let name := if t = .program then t.word else Topic.program.word ++ "-" ++ t.word
  s!"{name} {versionNumber}\n"

namespace Help

/-- The lines of a list of entries and their descriptions. -/
def aligned (entries : List (String × String)) : List String :=
  let width := (entries.map fun e => e.1.length).foldl max 0
  entries.map fun (entry, about) =>
    let padding := String.ofList (List.replicate (width - entry.length) ' ')
    s!"  {entry}{padding}  {about}"

/-- An option as it stands in a list. -/
def flagEntry (f : Flag) : String :=
  let letter :=
    match f.letter? with
    | some c => s!"-{c}, "
    | none => "    "
  let value :=
    match f.value? with
    | some v => s!" <{v}>"
    | none => ""
  s!"{letter}--{f.name}{value}"

/-- How a topic is called. -/
def usage (t : Topic) : String :=
  match t with
  | .program => "quarry [OPTIONS] <COMMAND>"
  | .help => "quarry help [COMMAND]..."
  | .resolve | .localRepository => s!"quarry {t.word} [OPTIONS]"

/-- A titled list, unless it is empty. -/
def titled (title : String) (entries : List (String × String)) : List (List String) :=
  if entries.isEmpty then [] else [(title ++ ":") :: aligned entries]

/-- The paragraphs of a page. -/
def paragraphs (t : Topic) : List (List String) :=
  let commands := if t = .program then Topic.commands.map fun c => (c.word, c.about) else []
  let arguments := if t = .help then [("[COMMAND]...", "Print help for the subcommand(s)")] else []
  [[t.about], ["Usage: " ++ usage t]]
    ++ titled "Commands" commands
    ++ titled "Arguments" arguments
    ++ titled "Options" (t.flags.map fun f => (flagEntry f, f.about))

/-- The text of a page. -/
def page (t : Topic) : String :=
  "\n\n".intercalate ((paragraphs t).map fun lines => "\n".intercalate lines) ++ "\n"

end Help

end Depot.Command
