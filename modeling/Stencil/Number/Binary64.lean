import Stencil.Number.Numeral

/-! Binary floating point in 64 bits, as exact numbers: a finite value is `significand * 2 ^
exponent` with a sign. Every result here is the exact one, rounded once to the nearest
representable number, ties going to the even significand. Decimal texts are read so, and the
shortest numeral that reads back as the same number is written. -/
namespace Stencil

/-- Finite values are kept in the form that `ofRatio` gives: the least exponent that leaves the
significand below `2 ^ 53`, but none below -1074. -/
inductive Binary64
  | nan
  | infinity (negative : Bool)
  | finite (negative : Bool) (significand : Nat) (exponent : Int)
deriving DecidableEq

namespace Binary64

def minExponent : Int := -1074
def maxExponent : Int := 971

/-- The quotient rounded to the nearest whole number, a half to the even neighbour. -/
def roundDiv (num den : Nat) : Nat :=
  let floor := num / den
  let excess := 2 * (num % den)
  if den < excess || (excess = den && floor % 2 = 1) then floor + 1 else floor

/-- `num / den / 2 ^ exponent` as a quotient of whole numbers. -/
def scaled (num den : Nat) (exponent : Int) : Nat × Nat :=
  if 0 ≤ exponent then (num, den * Nat.pow 2 exponent.toNat)
  else (num * Nat.pow 2 (-exponent).toNat, den)

/-- The exponent at which the quotient has 53 binary digits, or the least one. -/
def exponentFor (num den : Nat) : Int :=
  let guess : Int := (num.log2 : Int) - den.log2 - 52
  let (n, d) := scaled num den guess
  max minExponent (if n < d * Nat.pow 2 52 then guess - 1 else guess)

/-- The number nearest to `num / den`, for a positive `den`. -/
def ofRatio (negative : Bool) (num den : Nat) : Binary64 :=
  if num = 0 then .finite negative 0 minExponent
  else
    let exponent := exponentFor num den
    let (n, d) := scaled num den exponent
    let significand := roundDiv n d
    let (significand, exponent) :=
      if significand = Nat.pow 2 53 then (Nat.pow 2 52, exponent + 1) else (significand, exponent)
    if maxExponent < exponent then .infinity negative else .finite negative significand exponent

def ofInt (z : Int) : Binary64 := ofRatio (z < 0) z.natAbs 1

/-- The number nearest to `digits * 10 ^ exponent`. Far outside the range of finite values the
power is not computed. -/
def ofDecimal (negative : Bool) (digits : Nat) (exponent : Int) : Binary64 :=
  let places := exponent + (Nat.toDigits 10 digits).length
  if digits = 0 || places < -400 then ofRatio negative 0 1
  else if 400 < places then .infinity negative
  else if 0 ≤ exponent then ofRatio negative (digits * Nat.pow 10 exponent.toNat) 1
  else ofRatio negative digits (Nat.pow 10 (-exponent).toNat)

/-- The size of a finite value as a quotient of whole numbers. -/
def ratio (significand : Nat) (exponent : Int) : Nat × Nat :=
  if 0 ≤ exponent then (significand * Nat.pow 2 exponent.toNat, 1)
  else (significand, Nat.pow 2 (-exponent).toNat)

/-- The whole part of a finite value, toward zero. -/
def truncate? : Binary64 → Option Int
  | .finite negative significand exponent =>
    let (n, d) := ratio significand exponent
    some (if negative then -((n / d : Nat) : Int) else (n / d : Nat))
  | _ => none

def isWhole : Binary64 → Bool
  | .finite _ significand exponent => let (n, d) := ratio significand exponent; n % d = 0
  | _ => false

def isFinite : Binary64 → Bool
  | .finite .. => true
  | _ => false

/-- The value as a quotient, sign on the numerator; nothing if it is not finite. -/
def quotient? : Binary64 → Option (Int × Nat)
  | .finite negative significand exponent =>
    let (n, d) := ratio significand exponent
    some (if negative then -(n : Int) else n, d)
  | _ => none

/-- Holds when the value is exactly `z`. -/
def equalsInt (x : Binary64) (z : Int) : Bool :=
  match x.quotient? with
  | some (n, d) => n = z * d
  | none => false

/-- Comparison of values: zeros of either sign are equal, NaN differs from itself. -/
def sameValue : Binary64 → Binary64 → Bool
  | .nan, _ => false
  | .finite _ 0 _, .finite _ 0 _ => true
  | x, y => x = y

end Binary64

namespace Decimal

def isDigitOrGroup (c : Char) : Bool := Text.isDigit c || c = '_'

/-- A run of digits that may be empty, and what follows it. -/
def run? (text : Text) : Option (List Nat × Text) :=
  match text.takeWhile isDigitOrGroup with
  | [] => some ([], text)
  | word => (Numeral.grouped? word).map (·, text.dropWhile isDigitOrGroup)

/-- The fraction, if a point opens one. -/
def fraction? : Text → Option (List Nat × Text)
  | '.' :: rest => run? rest
  | text => some ([], text)

/-- The exponent, which reaches to the end of the text. -/
def exponent? : Text → Option Int
  | [] => some 0
  | mark :: rest =>
    if mark = 'e' || mark = 'E' then
      let (negative, digits) := Numeral.sign rest
      (Numeral.grouped? digits).map (Numeral.signed negative <| Numeral.value ·)
    else none

def unsigned? (negative : Bool) (text : Text) : Option Binary64 := do
  let (whole, rest) ← run? text
  let (fraction, rest) ← fraction? rest
  let exponent ← exponent? rest
  if whole.isEmpty && fraction.isEmpty then none
  else
    some (Binary64.ofDecimal negative (Numeral.value (whole ++ fraction))
      (exponent - fraction.length))

def named? (negative : Bool) (word : Text) : Option Binary64 :=
  if word = "inf".toList || word = "infinity".toList then some (.infinity negative)
  else if word = "nan".toList then some .nan
  else none

/-- A sign, digits with a point before, among or after them, an exponent; or one of the names of
infinity and NaN in any case. Digits may be of any script and may be grouped by single underscores.
Spacing around the text is skipped. -/
def read? (text : Text) : Option Binary64 :=
  let (negative, rest) := Numeral.sign (Text.trimSpacing text)
  (named? negative (rest.map Char.toLower)).or (unsigned? negative rest)

end Decimal

namespace Binary64

/-- `digits * 10 ^ exponent`. -/
structure Scientific where
  digits : Nat
  exponent : Int
deriving DecidableEq

/-- The exponent of the leading decimal digit of a positive quotient. -/
def leading (num den : Nat) : Int :=
  if den ≤ num then ((Nat.toDigits 10 (num / den)).length : Int) - 1
  else -((Nat.toDigits 10 ((den - 1) / num)).length : Int)

/-- Of the two numerals around `num / den` on the grid of `10 ^ exponent`, those that read back as
`x`, the nearer one; of two equally near, the even one. -/
def readsBack? (x : Binary64) (num den : Nat) (exponent : Int) : Option Scientific :=
  let (n, d) :=
    if 0 ≤ exponent then (num, den * Nat.pow 10 exponent.toNat)
    else (num * Nat.pow 10 (-exponent).toNat, den)
  let nearer := roundDiv n d
  let farther := if nearer = n / d then nearer + 1 else n / d
  if ofDecimal false nearer exponent = x then some ⟨nearer, exponent⟩
  else if ofDecimal false farther exponent = x then some ⟨farther, exponent⟩
  else none

/-- Tries ever finer grids, `tries` of them, and then settles for one grid more. -/
def shortestFrom (x : Binary64) (num den : Nat) (exponent : Int) : Nat → Scientific
  | 0 =>
    let (n, d) :=
      if 0 ≤ exponent then (num, den * Nat.pow 10 exponent.toNat)
      else (num * Nat.pow 10 (-exponent).toNat, den)
    ⟨roundDiv n d, exponent⟩
  | tries + 1 =>
    (readsBack? x num den exponent).getD (shortestFrom x num den (exponent - 1) tries)

/-- The shortest numeral of a positive number; seventeen digits are always enough. -/
def shortest (significand : Nat) (exponent : Int) : Scientific :=
  let (num, den) := ratio significand exponent
  shortestFrom (.finite false significand exponent) num den (leading num den) 17

/-- Drops zeros at the end of the digits and counts them. -/
def dropZeros (digits : Text) : Text × Nat :=
  let kept := (digits.reverse.dropWhile (· = '0')).reverse
  (kept, digits.length - kept.length)

/-- Leading digits from `10 ^ -4` to `10 ^ 15` are written positionally, with one place at least;
others with an exponent of two digits at least. -/
def layout (digits : Text) (leading : Int) : Text :=
  if leading < -4 || 16 ≤ leading then
    let mark := if leading < 0 then '-' else '+'
    let fraction := digits.drop 1
    digits.take 1 ++ (if fraction.isEmpty then [] else '.' :: fraction) ++
      'e' :: mark :: Text.padZero 2 (Numeral.ofNat leading.natAbs)
  else if leading < 0 then
    '0' :: '.' :: List.replicate (leading.natAbs - 1) '0' ++ digits
  else
    let width := leading.toNat + 1
    let fraction := digits.drop width
    digits.take width ++ List.replicate (width - digits.length) '0' ++
      '.' :: (if fraction.isEmpty then ['0'] else fraction)

def withSign (negative : Bool) (text : Text) : Text := if negative then '-' :: text else text

/-- The numeral that `Decimal.read?` reads back. -/
def written : Binary64 → Text
  | .nan => ['n', 'a', 'n']
  | .infinity negative => withSign negative ['i', 'n', 'f']
  | .finite negative 0 _ => withSign negative ['0', '.', '0']
  | .finite negative significand exponent =>
    let numeral := shortest significand exponent
    let (digits, zeros) := dropZeros (Numeral.ofNat numeral.digits)
    withSign negative (layout digits (numeral.exponent + zeros + digits.length - 1))

/-- With exactly `places` places; the rounding is of the exact value, a half to the even digit. -/
def fixed (places : Nat) : Binary64 → Text
  | .nan => ['n', 'a', 'n']
  | .infinity negative => withSign negative ['i', 'n', 'f']
  | .finite negative significand exponent =>
    let (num, den) := ratio significand exponent
    let n := roundDiv (num * Nat.pow 10 places) den
    withSign negative
      (Numeral.ofNat (n / Nat.pow 10 places) ++
        '.' :: Text.padZero places (Numeral.ofNat (n % Nat.pow 10 places)))

end Binary64

end Stencil
