import Reckoner.Number.Decimal

/-!
# Numerals

Texts that write a double, and the text that a double is shown as.  A numeral is an optional sign
before digits with at most one point among or around them and an optional exponent, or before one
of the words `inf`, `infinity` and `nan` in any case.  Nothing else is one, blanks included.  A
double is shown by its shortest decimal, without exponent.
-/

namespace Reckoner.Numeral

-- Powers are those of the core library, whatever else is in scope.
attribute [local instance(high)] instPowNat

/-- A digit of a numeral. -/
def isDigit (c : Char) : Bool := '0' ≤ c && c ≤ '9'

/-- The exponent that follows the digits: none is zero. -/
def readExponent? : Text → Option Int
  | [] => some 0
  | c :: rest =>
    if c = 'e' || c = 'E' then
      let (negative, ds) :=
        match rest with
        | '-' :: ds => (true, ds)
        | '+' :: ds => (false, ds)
        | ds => (false, ds)
      if ds.isEmpty || !ds.all isDigit then none
      else if negative then some (-(Decimal.ofDigits ds : Int))
      else some (Decimal.ofDigits ds)
    else none

/-- The decimal written by digits, a point and an exponent. -/
def readDecimal? (t : Text) : Option Decimal :=
  let whole := t.takeWhile isDigit
  let (fraction, tail) :=
    match t.dropWhile isDigit with
    | '.' :: rest => (rest.takeWhile isDigit, rest.dropWhile isDigit)
    | rest => ([], rest)
  if whole.isEmpty && fraction.isEmpty then none
  else
    (readExponent? tail).map fun exponent =>
      ⟨Decimal.ofDigits (whole ++ fraction), exponent - fraction.length⟩

/-- The double written by one of the words. -/
def readWord? (t : Text) : Option Float :=
  let word := t.map Char.toLower
  if word = ['i', 'n', 'f'] || word = ['i', 'n', 'f', 'i', 'n', 'i', 't', 'y'] then
    some (Magnitude.toFloat Magnitude.infinity)
  else if word = ['n', 'a', 'n'] then
    some (Magnitude.toFloat (Magnitude.infinity + 2 ^ (51 : Nat)))
  else none

/-- The double written without a sign. -/
def readUnsigned? (t : Text) : Option Float :=
  ((readDecimal? t).map fun d => Magnitude.toFloat d.magnitude).or (readWord? t)

/-- The double that a text writes, correctly rounded. -/
def read? : Text → Option Float
  | '-' :: rest => (readUnsigned? rest).map fun x => -x
  | '+' :: rest => readUnsigned? rest
  | t => readUnsigned? t

/-- How a magnitude is shown. -/
def ofMagnitude (n : Nat) : String :=
  if n < Magnitude.infinity then String.ofList (Decimal.shortest n).positional
  else if n = Magnitude.infinity then "inf"
  else "NaN"

/-- How a double is shown; negative zero loses its sign. -/
def ofFloat (x : Float) : String :=
  let n := Magnitude.ofFloat x
  if Magnitude.isNegative x && n != 0 && n ≤ Magnitude.infinity then "-" ++ ofMagnitude n
  else ofMagnitude n

/-- The digits of a coefficient as one digit and a fraction, with the power of ten that this is
scaled by. -/
def scientific (d : Decimal) : String :=
  let mantissa :=
    match Decimal.digits d.coefficient with
    | first :: second :: rest => first :: '.' :: second :: rest
    | ds => ds
  String.ofList mantissa ++ "e" ++ toString (d.pointPlace - 1)

/-- How a double is traced: the sign of zero and a place after the point are kept, and values from
`10 ^ 16` on or below `10 ^ -4` are written with an exponent. -/
def trace (x : Float) : String :=
  let n := Magnitude.ofFloat x
  let d := Decimal.shortest n
  let unsigned :=
    if Magnitude.infinity ≤ n then ofMagnitude n
    else if n != 0 && (16 < d.pointPlace || d.pointPlace < -3) then scientific d
    else if 0 ≤ d.exponent then ofMagnitude n ++ ".0"
    else ofMagnitude n
  if Magnitude.isNegative x && n ≤ Magnitude.infinity then "-" ++ unsigned else unsigned

end Reckoner.Numeral
