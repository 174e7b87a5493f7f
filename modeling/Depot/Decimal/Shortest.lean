import Depot.Decimal.Binary64

/-!
# Shortest decimals

The fewest digits that read back as a given binary number, and of those the nearest; an exact tie
goes to the even last digit. A number reads back from every decimal between its two halfway points,
and from the halfway points themselves when its significand is even.

`Layout` says how the digits are laid out as text. The layouts of the formats that this library
writes stand at the end.
-/

namespace Depot.Decimal

/-- Digits and a decimal point: the value `0.d₁d₂… · 10 ^ point`. -/
structure Digits where
  digits : List Char
  point : Int
  deriving DecidableEq, Repr

/-- The reals that read back as a positive number, on the grid of quarters of its last place: the
value, the lower and the upper end, and whether the ends belong to them. -/
structure Interval where
  value : Nat
  lower : Nat
  upper : Nat
  closed : Bool

/-- The interval of a finite number other than zero, in units of `2 ^ (exponent - 2)`. Below a power
of two the numbers lie twice as close. -/
def Binary64.interval (x : Binary64) : Interval :=
  let m := x.significand
  let narrow := x.fraction = 0 ∧ 1 < x.exponentField
  { value := 4 * m
    lower := 4 * m - (if narrow then 1 else 2)
    upper := 4 * m + 2
    closed := m % 2 = 0 }

/-- The least `n` such that `num / den < 10 ^ n`, searched upwards. -/
private def scaleUp (num den : Nat) : Nat → Nat → Nat
  | 0, n => n
  | fuel + 1, n => if num < den * Nat.pow 10 n then n else scaleUp num den fuel (n + 1)

/-- The greatest `n` such that `num / den < 10 ^ (-n)`, searched upwards. -/
private def scaleDown (num den : Nat) : Nat → Nat → Nat
  | 0, n => n
  | fuel + 1, n => if num * Nat.pow 10 (n + 1) < den then scaleDown num den fuel (n + 1) else n

/-- The `p` with `10 ^ (p - 1) ≤ num / den < 10 ^ p`, for a quotient in the range of the format. -/
def decimalPoint (num den : Nat) : Int :=
  if den ≤ num then scaleUp num den 400 1 else -(scaleDown num den 400 0 : Int)

/-- The multiples of the grid step next to a value: of the two that read back, the nearer one. -/
private def hit (i : Interval) (stepNum stepDen : Nat) : Option Nat :=
  let inside (k : Nat) : Bool :=
    let here := k * stepNum
    let low := i.lower * stepDen
    let high := i.upper * stepDen
    if i.closed then low ≤ here && here ≤ high else low < here && here < high
  let below := i.value * stepDen / stepNum
  let twice := 2 * (i.value * stepDen % stepNum)
  let lowFirst := twice < stepNum || (twice == stepNum && below % 2 == 0)
  let first := if lowFirst then below else below + 1
  let second := if lowFirst then below + 1 else below
  if inside first then some first else if inside second then some second else none

/-- Tries grids of more and more digits. The step of the grid of `n` digits is `10 ^ (point - n)`,
here in the units of the interval, which are `num / den`. -/
private def search (i : Interval) (num den : Nat) (point : Int) : Nat → Nat → Nat × Int
  | 0, n => (0, point - n)
  | fuel + 1, n =>
    let e := point - n
    let stepNum := if 0 ≤ e then den * Nat.pow 10 e.toNat else den
    let stepDen := if 0 ≤ e then num else num * Nat.pow 10 (-e).toNat
    match hit i stepNum stepDen with
    | some k => (k, e)
    | none => search i num den point fuel (n + 1)

/-- The shortest digits of a finite number, sign aside. Zero has the digit `0` before the point. -/
def Binary64.shortest (x : Binary64) : Digits :=
  if x.significand = 0 then ⟨['0'], 1⟩
  else
    let e := x.exponent - 2
    let num := if 0 ≤ e then Nat.pow 2 e.toNat else 1
    let den := if 0 ≤ e then 1 else Nat.pow 2 (-e).toNat
    let i := x.interval
    let found := search i num den (decimalPoint (i.value * num) den) 17 1
    let all := Nat.toDigits 10 found.1
    let kept := (all.reverse.dropWhile (· == '0')).reverse
    ⟨kept, found.2 + all.length⟩

/-- How digits become text: the exponents of the leading digit that are written positionally, the
sign in front of an exponent that is not negative, and whether an integer keeps a digit after the
point. -/
structure Layout where
  least : Int
  beyond : Int
  plus : String
  fraction : Bool

/-- Every exponent is positional. -/
def Layout.positional (l : Layout) (exponent : Int) : Bool :=
  l.least ≤ exponent && exponent < l.beyond

/-- Digits written out around the point. -/
private def writePositional (l : Layout) (d : Digits) : List Char :=
  let n : Int := d.digits.length
  if d.point ≤ 0 then
    "0.".toList ++ List.replicate (-d.point).toNat '0' ++ d.digits
  else if d.point < n then
    d.digits.take d.point.toNat ++ '.' :: d.digits.drop d.point.toNat
  else
    d.digits ++ List.replicate (d.point - n).toNat '0' ++ (if l.fraction then ".0".toList else [])

/-- Digits written with one digit before the point and an exponent. -/
private def writeScientific (l : Layout) (d : Digits) : List Char :=
  let e := d.point - 1
  let mantissa := match d.digits with
    | [] => []
    | [c] => [c]
    | c :: rest => c :: '.' :: rest
  let sign := if e < 0 then "-" else l.plus
  mantissa ++ 'e' :: sign.toList ++ Nat.toDigits 10 e.natAbs

/-- The text of a finite number. -/
def Layout.write (l : Layout) (x : Binary64) : String :=
  let d := x.shortest
  let body := if l.positional (d.point - 1) then writePositional l d else writeScientific l d
  String.ofList (if x.isNegative then '-' :: body else body)

end Depot.Decimal
