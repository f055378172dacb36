import TextTemplate.Number.Shortest

/-! Real numbers of double precision as text. -/

namespace TextTemplate

/-- A finite number as `± significand * 2 ^ exponent`. In a narrow one the significand is the
least with its exponent, and the neighbour towards zero has a smaller exponent. -/
structure BinaryParts where
  negative : Bool
  significand : Nat
  exponent : Int
  narrow : Bool

namespace BinaryParts

/-- The number of a 64-bit word: a sign, eleven bits of exponent, and the fraction below the hidden
leading bit. The greatest exponent marks what is not finite. -/
def ofBits? (bits : Nat) : Option BinaryParts :=
  let negative := bits >>> 63 = 1
  let exponent : Nat := (bits >>> 52) % 2048
  let hidden := Nat.pow 2 52
  let fraction := bits % hidden
  if exponent = 2047 then none
  else if exponent = 0 then some ⟨negative, fraction, -1074, false⟩
  else some ⟨negative, hidden + fraction, (exponent : Int) - 1075, fraction = 0 && 1 < exponent⟩

def ofReal? (x : Float) : Option BinaryParts :=
  ofBits? x.toBits.toNat

def toInt? (b : BinaryParts) : Option Int :=
  let scaled := b.significand * Nat.pow 2 b.exponent.toNat
  let divisor := Nat.pow 2 (-b.exponent).toNat
  if scaled % divisor = 0 then
    some (if b.negative then -(scaled / divisor : Nat) else (scaled / divisor : Nat))
  else none

end BinaryParts

/-- How a decimal is laid out: positionally from `leastPower` up to but not including
`firstScientific`, otherwise with one digit before the point and a signed exponent. -/
structure RealLayout where
  leastPower : Int
  firstScientific : Int
  exponentDigits : Nat
  notANumber : String
  infinity : String

def zeros (n : Nat) : String :=
  String.ofList (List.replicate n '0')

namespace RealLayout

/-- Texts show magnitudes from 0.0001 to below 10 ^ 16 positionally. -/
def plain : RealLayout := ⟨-4, 16, 2, "nan", "inf"⟩

/-- The text of the digits with the decimal point behind the first `place` of them. A point always
has a digit on each side. -/
def positional (digits : List Char) (place : Int) : String :=
  if place ≤ 0 then "0." ++ zeros (-place).toNat ++ String.ofList digits
  else if digits.length ≤ place then
    String.ofList digits ++ zeros (place.toNat - digits.length) ++ ".0"
  else String.ofList (digits.take place.toNat) ++ "." ++ String.ofList (digits.drop place.toNat)

def exponentText (layout : RealLayout) (power : Int) : String :=
  let digits := toString power.natAbs
  (if power < 0 then "e-" else "e+") ++ zeros (layout.exponentDigits - digits.length) ++ digits

def scientific (layout : RealLayout) (digits : List Char) (power : Int) : String :=
  let fraction := digits.drop 1
  String.ofList (digits.take 1) ++
    (if fraction.isEmpty then "" else "." ++ String.ofList fraction) ++ layout.exponentText power

/-- The decimal with these digits and the point behind the first `place` of them. -/
def layOut (layout : RealLayout) (digits : List Char) (place : Int) : String :=
  if layout.leastPower < place ∧ place ≤ layout.firstScientific then positional digits place
  else layout.scientific digits (place - 1)

def dropTrailingZeros (digits : List Char) : List Char :=
  (digits.reverse.dropWhile (· == '0')).reverse

def magnitude (layout : RealLayout) (b : BinaryParts) : String :=
  if b.significand = 0 then layout.layOut ['0'] 1
  else
    let (units, exponent) :=
      (RoundingInterval.ofBinary b.significand b.exponent b.narrow).shortest
    let digits := Nat.toDigits 10 units
    layout.layOut (dropTrailingZeros digits) (digits.length + exponent)

def write (layout : RealLayout) (x : Float) : String :=
  match BinaryParts.ofReal? x with
  | some b => (if b.negative then "-" else "") ++ layout.magnitude b
  | none =>
    if x.isNaN then layout.notANumber
    else if x < 0 then "-" ++ layout.infinity else layout.infinity

end RealLayout

/-- The text of a real number: the shortest decimal that reads back as it. -/
def realText (x : Float) : String :=
  RealLayout.plain.write x

def isDigits (cs : List Char) : Bool :=
  cs.all Char.isDigit

def digitsValue (cs : List Char) : Nat :=
  cs.foldl (fun n c => 10 * n + (c.toNat - '0'.toNat)) 0

def splitAtFirst (p : Char → Bool) (cs : List Char) : List Char × List Char :=
  cs.span (!p ·)

def readExponent? : List Char → Option Int
  | [] => some 0
  | _ :: '-' :: digits =>
    if digits.isEmpty || !isDigits digits then none else some (-(digitsValue digits : Int))
  | _ :: '+' :: digits =>
    if digits.isEmpty || !isDigits digits then none else some (digitsValue digits)
  | _ :: digits =>
    if digits.isEmpty || !isDigits digits then none else some (digitsValue digits)

def scaleDecimal (units : Nat) (exponent : Int) : Float :=
  Float.ofScientific units (exponent < 0) exponent.natAbs

/-- A decimal without sign: digits, perhaps a point with further digits, perhaps an exponent. -/
def readMagnitude? (cs : List Char) : Option Float :=
  let (mantissa, exponentPart) := splitAtFirst (fun c => c == 'e' || c == 'E') cs
  let (whole, fractionPart) := splitAtFirst (· == '.') mantissa
  let fraction := fractionPart.drop 1
  if isDigits whole && isDigits fraction && !(whole.isEmpty && fraction.isEmpty) then
    (readExponent? exponentPart).map fun exponent =>
      scaleDecimal (digitsValue (whole ++ fraction)) (exponent - fraction.length)
  else none

def readUnsignedReal? (cs : List Char) : Option Float :=
  match String.ofList cs with
  | "nan" => some (0.0 / 0.0)
  | "inf" => some (1.0 / 0.0)
  | _ => readMagnitude? cs

def readReal? (text : String) : Option Float :=
  match text.toList with
  | '-' :: rest => (readUnsignedReal? rest).map fun x => -x
  | '+' :: rest => readUnsignedReal? rest
  | rest => readUnsignedReal? rest

end TextTemplate
