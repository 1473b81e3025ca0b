import SpeechService.Text

/-!
Decimal numbers and binary floating point. `Layout.decode` reads a bit pattern as a sign, a
significand and a power of two; `Layout.round` gives the pattern nearest to a quotient, ties to the
even one.

A float is written with the fewest digits that read back as the same value: among the decimals
inside the interval of reals that round to it, those of fewest digits are taken, and of them the
nearest; an exact tie goes to the even digit. A literal of free text has an optional sign, then
digits with at most one point and an optional exponent, or one of the names `inf`, `infinity` and
`nan` in any letter case.
-/

set_option autoImplicit false

namespace SpeechService.Decimal

abbrev twoPow (exponent : Nat) : Nat := Nat.pow 2 exponent

abbrev tenPow (exponent : Nat) : Nat := Nat.pow 10 exponent

/-- How a bit pattern is divided: a sign bit, then the exponent, then the fraction. -/
structure Layout where
  exponentBits : Nat
  fractionBits : Nat
  deriving DecidableEq, Repr

def single : Layout := ⟨8, 23⟩

def double : Layout := ⟨11, 52⟩

/-- What a bit pattern stands for. A finite pattern is `significand * 2 ^ exponent`. -/
inductive Reading where
  | notANumber
  | infinite (negative : Bool)
  | finite (negative : Bool) (significand : Nat) (exponent : Int)
  deriving DecidableEq, Repr

namespace Layout

def leastExponent (layout : Layout) : Int :=
  2 - twoPow (layout.exponentBits - 1) - layout.fractionBits

def infinityBits (layout : Layout) : Nat :=
  (twoPow layout.exponentBits - 1) * twoPow layout.fractionBits

def decode (layout : Layout) (bits : Nat) : Reading :=
  let fraction := bits % twoPow layout.fractionBits
  let field := bits / twoPow layout.fractionBits % twoPow layout.exponentBits
  let negative := bits / twoPow (layout.fractionBits + layout.exponentBits) % 2 == 1
  if field = twoPow layout.exponentBits - 1 then
    if fraction = 0 then .infinite negative else .notANumber
  else if field = 0 then .finite negative fraction layout.leastExponent
  else .finite negative (twoPow layout.fractionBits + fraction) (layout.leastExponent + (field - 1))

/-- The nearest whole number to a quotient, ties to the even one. -/
def roundQuotient (numerator denominator : Nat) : Nat :=
  let floor := numerator / denominator
  let twice := 2 * (numerator % denominator)
  if twice < denominator then floor
  else if denominator < twice then floor + 1
  else if floor % 2 = 0 then floor else floor + 1

def floorLog (numerator denominator : Nat) : Int :=
  let guess : Int := numerator.log2 - denominator.log2
  let reached :=
    if 0 ≤ guess then denominator * twoPow guess.toNat ≤ numerator
    else denominator ≤ numerator * twoPow (-guess).toNat
  if reached then guess else guess - 1

/-- The bits of the value nearest to a quotient, ties to even; infinity from beyond the greatest. -/
def round (layout : Layout) (numerator denominator : Nat) : Nat :=
  if numerator = 0 then 0
  else
    let exponent :=
      max layout.leastExponent (floorLog numerator denominator - layout.fractionBits)
    let significand :=
      roundQuotient (numerator * twoPow (-exponent).toNat) (denominator * twoPow exponent.toNat)
    let steps := (exponent - layout.leastExponent).toNat * twoPow layout.fractionBits + significand
    min steps layout.infinityBits

end Layout

def doubleOfQuotient (numerator denominator : Nat) : Float :=
  Float.ofBits (UInt64.ofNat (double.round numerator denominator))

def singleOfQuotient (numerator denominator : Nat) : Float32 :=
  Float32.ofBits (UInt32.ofNat (single.round numerator denominator))

/-- The 32-bit pattern nearest to what a 64-bit one stands for, ties to even. -/
def narrowBits : Reading → Nat
  | .notANumber => single.infinityBits + twoPow (single.fractionBits - 1)
  | .infinite negative => signBit negative + single.infinityBits
  | .finite negative significand exponent =>
    signBit negative +
      single.round (significand * twoPow exponent.toNat) (twoPow (-exponent).toNat)
where
  signBit (negative : Bool) : Nat :=
    if negative then twoPow (single.fractionBits + single.exponentBits) else 0

def narrow (value : Float) : Float32 :=
  Float32.ofBits (UInt32.ofNat (narrowBits (double.decode value.toBits.toNat)))

structure Numeral where
  digits : Nat
  exponent : Int
  deriving DecidableEq, Repr

/-- Move the zeros at the end of the digits into the exponent. -/
def Numeral.reduce (number : Numeral) : Numeral :=
  if h : number.digits ≠ 0 ∧ number.digits % 10 = 0 then
    Numeral.reduce ⟨number.digits / 10, number.exponent + 1⟩
  else number
termination_by number.digits
decreasing_by omega

/-- The reals that round to one binary value, in quarters of a unit of its last place. The ends
belong to it when the value's significand is even. -/
structure Interval where
  low : Nat
  middle : Nat
  high : Nat
  closed : Bool
  /-- Exponent of two of the quarter unit. -/
  exponent : Int
  deriving DecidableEq, Repr

/-- The interval of `significand * 2 ^ exponent`. Below the least significand of a binade the
neighbour is only half as far away, unless the exponent is already the least. -/
def Layout.interval (layout : Layout) (significand : Nat) (exponent : Int) : Interval where
  low := 4 * significand -
    (if significand = twoPow layout.fractionBits ∧ layout.leastExponent < exponent then 1 else 2)
  middle := 4 * significand
  high := 4 * significand + 2
  closed := significand % 2 == 0
  exponent := exponent - 2

namespace Interval

/-- The factor on a number of quarter units when it is compared with points of the grid of `10 ^
place`. -/
def unitFactor (interval : Interval) (place : Int) : Nat :=
  twoPow interval.exponent.toNat * tenPow (-place).toNat

/-- The factor on a point of the grid of `10 ^ place` in the same comparison. -/
def gridFactor (interval : Interval) (place : Int) : Nat :=
  twoPow (-interval.exponent).toNat * tenPow place.toNat

/-- Whether the point `digits * 10 ^ place` lies in the interval. -/
def contains (interval : Interval) (place : Int) (digits : Nat) : Bool :=
  let point := digits * interval.gridFactor place
  let low := interval.low * interval.unitFactor place
  let high := interval.high * interval.unitFactor place
  if interval.closed then low ≤ point && point ≤ high else low < point && point < high

/-- The nearer of the two points of a grid next to the middle, if it lies in the interval; else the
other one, if that does. -/
def onGrid? (interval : Interval) (place : Int) : Option Numeral :=
  let middle := interval.middle * interval.unitFactor place
  let step := interval.gridFactor place
  let below := middle / step
  let twice := 2 * (middle % step)
  let lower := twice < step || (twice == step && below % 2 == 0)
  let near := if lower then below else below + 1
  let far := if lower then below + 1 else below
  if interval.contains place near then some ⟨near, place⟩
  else if interval.contains place far then some ⟨far, place⟩
  else none

/-- The place of the leading digit of the middle: the greatest `k` with `10 ^ k` at most the middle.
-/
def leadingPlace (interval : Interval) : Int :=
  let bits : Int := interval.middle.log2 + interval.exponent
  let guess := bits * 30103 / 100000
  let reaches (place : Int) : Bool :=
    interval.gridFactor place ≤ interval.middle * interval.unitFactor place
  if reaches (guess + 1) then guess + 1
  else if reaches guess then guess
  else guess - 1

/-- The decimal of fewest digits in the interval. Seventeen digits always suffice. -/
def shortest (interval : Interval) : Numeral :=
  let leading := interval.leadingPlace
  let grids := (List.range 17).map fun (count : Nat) => leading - count
  ((grids.findSome? interval.onGrid?).getD ⟨0, 0⟩).reduce

end Interval

def natural (number : Nat) : List Char := Nat.toDigits 10 number

/-- The exponents of the leading digit, from `least` to `greatest`, for which the digits are written
in full with a point; beyond them the number is written with an exponent. -/
structure Style where
  least : Int
  greatest : Int
  deriving DecidableEq, Repr

/-- The text of digits whose first one stands at `10 ^ leading`. -/
def Style.positional (digits : List Char) (leading : Int) : List Char :=
  if leading < 0 then
    ['0', '.'] ++ List.replicate (-leading - 1).toNat '0' ++ digits
  else
    let whole := leading.toNat + 1
    if digits.length ≤ whole then
      digits ++ List.replicate (whole - digits.length) '0' ++ ['.', '0']
    else digits.take whole ++ '.' :: digits.drop whole

/-- The text of digits whose first one stands at `10 ^ leading`, with an exponent and its sign. -/
def Style.scientific (digits : List Char) (leading : Int) : List Char :=
  let tail := digits.drop 1
  let point := if tail.isEmpty then [] else '.' :: tail
  let sign := if leading < 0 then '-' else '+'
  digits.take 1 ++ point ++ ['e', sign] ++ natural leading.natAbs

def Style.write (style : Style) (number : Numeral) : List Char :=
  let digits := natural number.digits
  let leading := number.exponent + digits.length - 1
  if style.least ≤ leading ∧ leading ≤ style.greatest then Style.positional digits leading
  else Style.scientific digits leading

/-- The text of a finite bit pattern; zero keeps its sign. Infinities and what is not a number have
no text. -/
def Style.writeBits? (style : Style) (layout : Layout) (bits : Nat) : Option (List Char) :=
  match layout.decode bits with
  | .finite negative significand exponent =>
    let magnitude :=
      if significand = 0 then ['0', '.', '0']
      else style.write (layout.interval significand exponent).shortest
    some (if negative then '-' :: magnitude else magnitude)
  | _ => none

/-- 64-bit values are written in full from 0.00001 up to sixteen whole digits. -/
def doubleStyle : Style := ⟨-5, 15⟩

/-- 32-bit values are written in full from 0.000001 up to thirteen whole digits. -/
def singleStyle : Style := ⟨-6, 12⟩

def double? (value : Float) : Option (List Char) :=
  doubleStyle.writeBits? double value.toBits.toNat

def single? (value : Float32) : Option (List Char) :=
  singleStyle.writeBits? single value.toBits.toNat

inductive LiteralFault where
  | empty
  | invalid
  deriving DecidableEq, Repr

def LiteralFault.message : LiteralFault → String
  | .empty => "cannot parse float from empty string"
  | .invalid => "invalid float literal"

/-- An exponent mark, an optional sign and digits; an absent exponent is zero. -/
def literalExponent? : List Char → Option Int
  | [] => some 0
  | mark :: rest =>
    if mark != 'e' && mark != 'E' then none
    else
      let (negative, digits) := match rest with
        | '-' :: digits => (true, digits)
        | '+' :: digits => (false, digits)
        | digits => (false, digits)
      if digits.isEmpty || !digits.all Char.isDigit then none
      else
        let value : Int := Text.digitsValue digits
        some (if negative then -value else value)

/-- The nearest 32-bit value to `digits * 10 ^ exponent`. Far outside the range of 32-bit values the
power is not computed. -/
def singleOfDigits (digits : List Char) (exponent : Int) : Float32 :=
  let significant := digits.dropWhile (· == '0')
  let value := Text.digitsValue significant
  let leading := exponent + significant.length
  if significant.isEmpty || leading < -100 then 0
  else if 100 < leading then singleOfQuotient (tenPow 100) 1
  else singleOfQuotient (value * tenPow exponent.toNat) (tenPow (-exponent).toNat)

def unsignedLiteral? (text : List Char) : Option Float32 :=
  let name := (text.map Char.toLower)
  if name = ['i', 'n', 'f'] ∨ name = ['i', 'n', 'f', 'i', 'n', 'i', 't', 'y'] then
    some (1 / 0)
  else if name = ['n', 'a', 'n'] then some (0 / 0)
  else
    let whole := text.takeWhile Char.isDigit
    let (fraction, rest) := match text.dropWhile Char.isDigit with
      | '.' :: rest => (rest.takeWhile Char.isDigit, rest.dropWhile Char.isDigit)
      | rest => ([], rest)
    if whole.isEmpty && fraction.isEmpty then none
    else (literalExponent? rest).map fun exponent =>
      singleOfDigits (whole ++ fraction) (exponent - fraction.length)

def readSingle (text : String) : Except LiteralFault Float32 :=
  let value? := match text.toList with
    | '-' :: rest => (unsignedLiteral? rest).map fun value => -value
    | '+' :: rest => unsignedLiteral? rest
    | rest => unsignedLiteral? rest
  if text.isEmpty then .error .empty
  else match value? with
    | some value => .ok value
    | none => .error .invalid

end SpeechService.Decimal
