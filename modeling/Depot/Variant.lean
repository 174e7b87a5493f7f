/-!
# Spelled variants

The refusal of a word that spells none of the variants of a closed set.
-/

namespace Depot

/-- A word that spells none of the expected variants. -/
structure UnknownVariant where
  found : String
  expected : List String
  deriving DecidableEq, Repr

/-- The wording of a refusal. -/
def UnknownVariant.message (e : UnknownVariant) : String :=
  let choices := ", ".intercalate (e.expected.map fun word => "`" ++ word ++ "`")
  s!"unknown variant `{e.found}`, expected one of {choices}"

end Depot
