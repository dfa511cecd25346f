/-!
# Decimal digits

Numbers in documents may be written with the decimal digits of any script.

* `digitValue?` — the value of a decimal digit
* `isDigit` — the decimal digits
* `isDigitLike` — the decimal digits and the digit signs that stand for one digit but form no
  numbers, such as superscripts
* `natOfDigits` — the number that a run of digits writes
* `Powers.natural` — powers of natural numbers, read the same with and without a library of
  algebra
-/

namespace Patchbay.Powers

/-- Powers of natural numbers as the natural numbers have them, and not those of a monoid. -/
scoped instance natural : Pow Nat Nat := instPowNat

end Patchbay.Powers

namespace Patchbay.Text

/-- The code points of the digit zero of each script; the digits one to nine follow it. -/
def zeroDigits : List Nat := [
  0x30, 0x660, 0x6F0, 0x7C0, 0x966, 0x9E6, 0xA66, 0xAE6, 0xB66, 0xBE6, 0xC66, 0xCE6, 0xD66, 0xDE6,
  0xE50, 0xED0, 0xF20, 0x1040, 0x1090, 0x17E0, 0x1810, 0x1946, 0x19D0, 0x1A80, 0x1A90, 0x1B50,
  0x1BB0, 0x1C40, 0x1C50, 0xA620, 0xA8D0, 0xA900, 0xA9D0, 0xA9F0, 0xAA50, 0xABF0, 0xFF10, 0x104A0,
  0x10D30, 0x11066, 0x110F0, 0x11136, 0x111D0, 0x112F0, 0x11450, 0x114D0, 0x11650, 0x116C0,
  0x11730, 0x118E0, 0x11950, 0x11C50, 0x11D50, 0x11DA0, 0x16A60, 0x16AC0, 0x16B50, 0x1D7CE,
  0x1D7D8, 0x1D7E2, 0x1D7EC, 0x1D7F6, 0x1E140, 0x1E2F0, 0x1E950, 0x1FBF0
]

/-- Ranges of characters that stand for a single digit without being decimal digits: superscripts,
subscripts, circled digits and the like. -/
def digitSigns : List (Nat × Nat) := [
  (0xB2, 0xB3), (0xB9, 0xB9), (0x1369, 0x1371), (0x19DA, 0x19DA), (0x2070, 0x2070),
  (0x2074, 0x2079), (0x2080, 0x2089), (0x2460, 0x2468), (0x2474, 0x247C), (0x2488, 0x2490),
  (0x24EA, 0x24EA), (0x24F5, 0x24FD), (0x24FF, 0x24FF), (0x2776, 0x277E), (0x2780, 0x2788),
  (0x278A, 0x2792), (0x10A40, 0x10A43), (0x10E60, 0x10E68), (0x11052, 0x1105A), (0x1F100, 0x1F10A)
]

/-- The value of a decimal digit of any script. -/
def digitValue? (c : Char) : Option Nat :=
  let n := c.toNat
  if n < 128 then
    if 48 ≤ n && n ≤ 57 then some (n - 48) else none
  else
    (zeroDigits.find? fun first => first ≤ n && n ≤ first + 9).map (n - ·)

/-- The decimal digits of every script. -/
def isDigit (c : Char) : Bool := (digitValue? c).isSome

/-- The characters that stand for one digit, whether or not numbers are written with them. -/
def isDigitLike (c : Char) : Bool :=
  isDigit c || digitSigns.any fun (first, last) => first ≤ c.toNat && c.toNat ≤ last

/-- The digits `0` to `9`. -/
def isAsciiDigit (c : Char) : Bool := 48 ≤ c.toNat && c.toNat ≤ 57

/-- The value of a hexadecimal digit: a decimal digit of any script, or a letter `a` to `f` in
either case. -/
def hexValue? (c : Char) : Option Nat :=
  let n := c.toNat
  if 97 ≤ n && n ≤ 102 then some (n - 87)
  else if 65 ≤ n && n ≤ 70 then some (n - 55)
  else digitValue? c

/-- The bytes that pairs of hexadecimal digits write; a last digit without a partner is passed
over. -/
def bytesOfHex (cs : List Char) : ByteArray := ByteArray.mk (pairs cs).toArray
where
  pairs : List Char → List UInt8
    | high :: low :: rest =>
      UInt8.ofNat ((hexValue? high).getD 0 * 16 + (hexValue? low).getD 0) :: pairs rest
    | _ => []

/-- The number that a run of decimal digits writes. Other characters count as zero, so callers
pass digits only. -/
def natOfDigits (cs : List Char) : Nat :=
  cs.foldl (fun value c => 10 * value + (digitValue? c).getD 0) 0

theorem natOfDigits_append_singleton (cs : List Char) (c : Char) :
    natOfDigits (cs ++ [c]) = 10 * natOfDigits cs + (digitValue? c).getD 0 := by
  simp [natOfDigits]

/-- The decimal digits of `n`, without leading zeros. -/
def digitsOfNat (n : Nat) : List Char := Nat.toDigits 10 n

/-- How many decimal digits write `n`. -/
def digitCount (n : Nat) : Nat := (digitsOfNat n).length

/-- An integer in decimal digits, with a minus sign when it is negative. -/
def integerText (i : Int) : String :=
  match i with
  | .ofNat n => String.ofList (digitsOfNat n)
  | .negSucc n => String.ofList ('-' :: digitsOfNat (n + 1))

end Patchbay.Text
