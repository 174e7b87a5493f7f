/-!
# Percent encoding

An octet that may not stand in a URL is written as a percent sign and two upper case hexadecimal
digits. The octets kept in the path of a `file` URL are the printing ASCII characters other than
the ones that delimit parts of a URL and the percent sign itself; `decode` undoes `encode`.
-/

namespace Depot.Text.Percent

/-- Whether an octet stands for itself inside one segment of a path. -/
def isKept (b : UInt8) : Bool :=
  0x20 < b.toNat && b.toNat < 0x7F &&
    !("\"#%/<>?\\`\x7b\x7d".toList.any fun c => c.toNat == b.toNat)

/-- The upper case hexadecimal digit of a number below sixteen. -/
def upperHex (n : Nat) : Char :=
  if n < 10 then Char.ofNat (48 + n) else Char.ofNat (55 + n)

/-- One octet inside a segment. -/
def encodeOctet (b : UInt8) : List Char :=
  if isKept b then [Char.ofNat b.toNat]
  else ['%', upperHex (b.toNat / 16), upperHex (b.toNat % 16)]

/-- One segment of a path. -/
def encode (segment : String) : List Char :=
  segment.toUTF8.data.toList.flatMap encodeOctet

/-- The value of a hexadecimal digit of either case. -/
def hexValue? (c : Char) : Option Nat :=
  if '0' ≤ c && c ≤ '9' then some (c.toNat - 48)
  else if 'a' ≤ c && c ≤ 'f' then some (c.toNat - 87)
  else if 'A' ≤ c && c ≤ 'F' then some (c.toNat - 55)
  else none

/-- The octets that a segment stands for; a percent sign without two digits stands for itself. -/
def decode : List Char → List UInt8
  | '%' :: a :: b :: rest =>
    match hexValue? a, hexValue? b with
    | some x, some y => UInt8.ofNat (16 * x + y) :: decode rest
    | _, _ => 0x25 :: decode (a :: b :: rest)
  | c :: rest => UInt8.ofNat c.toNat :: decode rest
  | [] => []

end Depot.Text.Percent
