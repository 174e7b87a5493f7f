import Depot.Repository.Basic

/-!
# Listings

A row tells the name, the kind and the location of a repository, and whether it is authenticated.
The table pads names and kinds to the width of their columns, counting characters; a longer one
pushes what follows to the right.
-/

namespace Depot

/-- A line of a listing. -/
structure Row where
  name : String
  kind : Kind
  location : String
  authenticated : Bool
  deriving DecidableEq, Repr

namespace Row

/-- Where a repository is: at its URL, or in its directories. -/
def locationOf (r : Repository) : String :=
  match r with
  | .maven r => r.url.getD "-"
  | .ivy r => r.url.getD "-"
  | .flatDir r => if r.dirs.isEmpty then "-" else ", ".intercalate (r.dirs.map Path.text)
  | .custom _ => "-"

/-- The row of a repository. -/
def ofRepository (r : Repository) : Row where
  name := r.name
  kind := r.kind
  location := locationOf r
  authenticated := r.credentials?.any fun c => !c.isEmpty

/-- A row as an object. -/
def toJson (row : Row) : Json :=
  .object [("name", .string row.name), ("kind", .string row.kind.text),
    ("location", .string row.location), ("authenticated", .bool row.authenticated)]

/-- A text with spaces behind it up to a width in characters. -/
def pad (width : Nat) (s : String) : String :=
  s ++ String.ofList (List.replicate (width - s.length) ' ')

/-- Three columns in one line. -/
def columns (name kind location : String) : String :=
  pad 20 name ++ " " ++ pad 10 kind ++ " " ++ location

/-- The location with the mark of authentication. -/
def markedLocation (row : Row) : String :=
  if row.authenticated then row.location ++ " (authenticated)" else row.location

/-- The line of a row. -/
def line (row : Row) : String :=
  columns row.name row.kind.text row.markedLocation

end Row

/-- The lines of a table: a heading, a rule, and a line for each row. -/
def tableLines (rows : List Row) : List String :=
  Row.columns "NAME" "KIND" "LOCATION" :: String.ofList (List.replicate 60 '-') :: rows.map Row.line

/-- The text of a table. -/
def table (rows : List Row) : String :=
  "\n".intercalate (tableLines rows)

end Depot
