import Depot.Factory

/-!
# Rosters

The repositories declared so far, in their order and under distinct names. A repository whose name
was settled by the user is refused when the name is taken; any other one gets the least free number
from two on behind its name. An operation that fails declares nothing.
-/

namespace Depot

/-- The declared repositories, and how many holders of credentials were handed out. -/
structure Roster where
  declared : List Repository := []
  used : Nat := 0
  deriving DecidableEq, Inhabited

namespace Roster

/-! ### Looking at a roster -/

/-- The names in the order of declaration. -/
def names (s : Roster) : List String :=
  s.declared.map Repository.name

/-- The repository of a name. -/
def get? (s : Roster) (name : String) : Option Repository :=
  s.declared.find? (·.name == name)

/-- Whether a name is taken. -/
def takes (s : Roster) (name : String) : Bool :=
  s.declared.any (·.name == name)

/-! ### Names -/

/-- A name with a number behind it. -/
def numbered (base : String) (n : Nat) : String :=
  base ++ toString n

/-- The base with the least number from two on that makes a free name. As many numbers are tried as
there are repositories; one of them is free if the base itself is taken. -/
def freeName (s : Roster) (base : String) : String :=
  match (List.range' 2 s.declared.length).find? fun n => !s.takes (numbered base n) with
  | some n => numbered base n
  | none => base

/-! ### Declaring -/

/-- Declares a finished repository. -/
def enter (s : Roster) (r : Repository) (explicit : Bool) : Except Failure Repository × Roster :=
  let append (r : Repository) := (.ok r, { s with declared := s.declared ++ [r] })
  if !s.takes r.name then append r
  else if explicit then (.error (.duplicateRepository r.name), s)
  else append (r.withName (s.freeName r.name))

/-- Declares what a factory built, or passes on its failure. -/
def enterResult (s : Roster) (explicit : Bool) :
    Except Failure Repository × Nat → Except Failure Repository × Roster
  | (.error e, used) => (.error e, { s with used })
  | (.ok r, used) => enter { s with used } r explicit

/-- The name of the well known public repository. -/
def mavenCentralName : String := "MavenRepo"

/-- The name of the local repository. -/
def mavenLocalName : String := "MavenLocal"

/-- Declares the well known public repository with some properties. -/
def mavenCentral (f : Factory) (m : Properties) (s : Roster) :
    Except Failure Repository × Roster :=
  let (r, used) := f.mavenCentral s.used
  s.enterResult (m.contains "name")
    ((configured { r with name := mavenCentralName } m).map .maven, used)

/-- Declares the local repository with some properties. -/
def mavenLocal (f : Factory) (m : Properties) (s : Roster) : Except Failure Repository × Roster :=
  let (r, used) := f.mavenLocal s.used
  s.enterResult (m.contains "name")
    ((r.bind fun r => configured { r with name := mavenLocalName } m).map .maven, used)

/-- Declares a Maven repository with some properties. -/
def maven (f : Factory) (m : Properties) (s : Roster) : Except Failure Repository × Roster :=
  let (r, used) := f.maven s.used
  s.enterResult (m.contains "name") ((configured r m).map .maven, used)

/-- Declares an Ivy repository with some properties. -/
def ivy (f : Factory) (m : Properties) (s : Roster) : Except Failure Repository × Roster :=
  let (r, used) := f.ivy s.used
  s.enterResult (m.contains "name") ((configured r m).map .ivy, used)

/-- Declares a flat directory repository with some properties. -/
def flatDir (f : Factory) (m : Properties) (s : Roster) : Except Failure Repository × Roster :=
  s.enterResult (m.contains "name") ((configured f.flatDir m).map .flatDir, s.used)

/-- Declares what a draft asks for. -/
def add (f : Factory) (draft : Draft) (s : Roster) : Except Failure Repository × Roster :=
  s.enterResult draft.namesExplicitly (f.create draft s.used)

/-! ### Entries of a repositories file -/

/-- A word that declares a repository by itself or as the only key of an object. -/
inductive Shorthand where
  | mavenCentral
  | mavenLocal
  | maven
  | ivy
  | flatDir
  deriving DecidableEq, Repr

/-- All shorthands. -/
def Shorthand.all : List Shorthand := [.mavenCentral, .mavenLocal, .maven, .ivy, .flatDir]

/-- The spelling of a shorthand. -/
def Shorthand.text : Shorthand → String
  | .mavenCentral => "mavenCentral"
  | .mavenLocal => "mavenLocal"
  | .maven => "maven"
  | .ivy => "ivy"
  | .flatDir => "flatDir"

/-- The shorthand with a spelling. -/
def Shorthand.ofText? (s : String) : Option Shorthand :=
  all.find? (·.text == s)

/-- Declares what a shorthand stands for, with some properties. -/
def Shorthand.declare (w : Shorthand) (f : Factory) (m : Properties) (s : Roster) :
    Except Failure Repository × Roster :=
  match w with
  | .mavenCentral => s.mavenCentral f m
  | .mavenLocal => s.mavenLocal f m
  | .maven => s.maven f m
  | .ivy => s.ivy f m
  | .flatDir => s.flatDir f m

/-- The properties that stand behind a shorthand; null is an empty map. -/
def Shorthand.properties (w : Shorthand) : Json → Except Failure Properties
  | .null => .ok .empty
  | .object fields => .ok (Properties.ofList fields)
  | other =>
    .error (.invalidConfig s!"'{w.text}' expects a map of properties, got {other.compact}")

/-- The shorthand that an entry uses, with what stands behind it. A string is one by itself; an
object is one if it has a single key. -/
def shorthand? : Json → Option (Shorthand × Json)
  | .string "mavenCentral" => some (.mavenCentral, .null)
  | .string "mavenLocal" => some (.mavenLocal, .null)
  | .object fields =>
    match (Properties.ofList fields).entries with
    | [(key, config)] => (Shorthand.ofText? key).map fun w => (w, config)
    | _ => none
  | _ => none

/-- Declares an entry of a repositories file: a shorthand or any other value. -/
def declare (f : Factory) (entry : Json) (s : Roster) : Except Failure Repository × Roster :=
  match shorthand? entry with
  | some (w, config) =>
    match w.properties config with
    | .ok m => w.declare f m s
    | .error e => (.error e, s)
  | none => s.add f (.value entry)

/-- Declares entries one after another, up to the first that fails. -/
def declareAll (f : Factory) : List Json → Roster → Except Failure Unit × Roster
  | [], s => (.ok (), s)
  | entry :: rest, s =>
    match s.declare f entry with
    | (.ok _, s) => declareAll f rest s
    | (.error e, s) => (.error e, s)

/-! ### Operations -/

/-- A way of declaring a repository. -/
inductive Operation where
  | shorthand (w : Shorthand) (m : Properties)
  | add (draft : Draft)
  | declare (entry : Json)

/-- Runs one operation. -/
def run (f : Factory) : Operation → Roster → Except Failure Repository × Roster
  | .shorthand w m, s => w.declare f m s
  | .add draft, s => s.add f draft
  | .declare entry, s => s.declare f entry

/-- The roster after some operations, whether they succeed or fail. -/
def runAll (f : Factory) (ops : List Operation) (s : Roster) : Roster :=
  ops.foldl (fun s op => (s.run f op).2) s

end Roster

end Depot
