import Depot.Decimal.Shortest

/-!
# The meaning of plain scalars

A scalar without quotes stands for null, a truth value, a number or a string, by its text alone.
Decimal digits with a zero in front are a string, not a number; other bases have a prefix of their
own.
-/

namespace Depot.Yaml

open Decimal (Binary64)

/-- What a plain scalar stands for. An integer that 64 bits cannot hold is wide as long as 128 bits
hold it, with or without a sign. -/
inductive Meaning where
  | null
  | bool (b : Bool)
  | integer (i : Int)
  | wide (i : Int)
  | double (d : Binary64)
  | string
  deriving DecidableEq

namespace Meaning

/-- Whether a text is one of the spellings of null, the empty one aside. -/
def isNull (s : String) : Bool :=
  s ∈ ["null", "Null", "NULL", "~"]

/-- The truth value that a text spells. -/
def bool? (s : String) : Option Bool :=
  if s ∈ ["true", "True", "TRUE"] then some true
  else if s ∈ ["false", "False", "FALSE"] then some false
  else none

/-! ### Integers -/

/-- The value of a digit to a base. -/
def digit? (base : Nat) (c : Char) : Option Nat :=
  let v :=
    if c.isDigit then c.toNat - 48
    else if 'a' ≤ c ∧ c ≤ 'f' then c.toNat - 87
    else if 'A' ≤ c ∧ c ≤ 'F' then c.toNat - 55
    else base
  if v < base then some v else none

/-- The number that digits to a base write, of which there must be one. -/
def digits? (base : Nat) (ds : List Char) : Option Nat :=
  if ds.isEmpty then none
  else ds.foldl (fun n d => do return base * (← n) + (← digit? base d)) (some 0)

/-- Whether a text begins with a sign. -/
def isSigned (cs : List Char) : Bool :=
  cs.head? == some '-' || cs.head? == some '+'

/-- Whether a text, a sign aside, is more than one decimal digit with a zero in front. -/
def hasIdleZero (cs : List Char) : Bool :=
  let ds := if isSigned cs then cs.tail else cs
  1 < ds.length && ds.head? == some '0' && ds.all Char.isDigit

/-- The prefix of a base and the base. -/
def bases : List (List Char × Nat) :=
  [(['0', 'x'], 16), (['0', 'o'], 8), (['0', 'b'], 2)]

/-- The number behind the prefix of a base. -/
def based? (cs : List Char) : Option Nat :=
  bases.findSome? fun (mark, base) =>
    if mark.isPrefixOf cs then digits? base (cs.drop mark.length) else none

/-- The number that a text without a minus sign writes. -/
def unsigned? (cs : List Char) : Option Nat :=
  let bare := if cs.head? = some '+' then cs.tail else cs
  match based? bare with
  | some n => some n
  | none => if hasIdleZero cs then none else digits? 10 bare

/-- The number whose opposite a text with a minus sign writes. -/
def negated? (cs : List Char) : Option Nat :=
  match cs with
  | '-' :: bare =>
    match based? bare with
    | some n => some n
    | none => if hasIdleZero cs then none else digits? 10 bare
  | _ => none

/-- The count of the numbers that 64 bits can hold. -/
def wordCount : Nat := 0x10000000000000000

/-- The integer that a text writes, unless 128 bits cannot hold it. -/
def integer? (cs : List Char) : Option Meaning :=
  match unsigned? cs, negated? cs with
  | some n, _ =>
    if n < wordCount then some (.integer n)
    else if n < wordCount * wordCount then some (.wide n)
    else none
  | none, some n =>
    if n ≤ wordCount / 2 then some (.integer (-n))
    else if n ≤ wordCount * wordCount / 2 then some (.wide (-n))
    else none
  | none, none => none

/-! ### Floating point numbers -/

/-- The number that decimal digits, a point and an exponent write. Of digits before and behind the
point there must be one. -/
def decimal? (negative : Bool) (cs : List Char) : Option Binary64 :=
  let whole := cs.takeWhile Char.isDigit
  let rest := cs.dropWhile Char.isDigit
  let pointed := rest.head? == some '.'
  let places := if pointed then rest.tail.takeWhile Char.isDigit else []
  let rest := if pointed then rest.tail.dropWhile Char.isDigit else rest
  let exponent? : Option Int :=
    match rest with
    | [] => some 0
    | e :: rest =>
      if e ≠ 'e' ∧ e ≠ 'E' then none
      else
        let ds := if isSigned rest then rest.tail else rest
        (digits? 10 ds).map fun n => if rest.head? = some '-' then -(n : Int) else n
  match exponent?, digits? 10 (whole ++ places) with
  | some e, some n => some (Binary64.ofDecimal negative n (e - places.length))
  | _, _ => none

/-- The floating point number that a text spells. -/
def double? (cs : List Char) : Option Binary64 :=
  let bare := if cs.head? = some '+' then cs.tail else cs
  let s := String.ofList bare
  if cs.head? = some '+' ∧ isSigned bare then none
  else if s ∈ [".inf", ".Inf", ".INF"] then some (.infinity false)
  else if s ∈ ["-.inf", "-.Inf", "-.INF"] then some (.infinity true)
  else if cs = bare ∧ s ∈ [".nan", ".NaN", ".NAN"] then some .nan
  else
    let negative := bare.head? == some '-'
    (decimal? negative (if isSigned bare then bare.tail else bare)).filter Binary64.isFinite

/-- What a plain scalar stands for. -/
def ofText (s : String) : Meaning :=
  let cs := s.toList
  if s.isEmpty || isNull s then .null
  else
    match bool? s, integer? cs with
    | some b, _ => .bool b
    | none, some i => i
    | none, none =>
      match if hasIdleZero cs then none else double? cs with
      | some d => .double d
      | none => .string

end Meaning

end Depot.Yaml
