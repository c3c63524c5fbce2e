import Stencil.Text.Basic

/-! Decimal numerals of whole numbers. A numeral of more than `maxDigits` digits is neither
read nor written. Settings may write whole numbers more freely than pages. -/
namespace Stencil

namespace Numeral

def maxDigits : Nat := 4300

def ofNat (n : Nat) : Text := Nat.toDigits 10 n

def ofInt (z : Int) : Text := if z < 0 then '-' :: ofNat z.natAbs else ofNat z.natAbs

/-- Holds when the numeral of `z` may be written. -/
def Writable (z : Int) : Prop := (ofNat z.natAbs).length ≤ maxDigits

instance (z : Int) : Decidable (Writable z) := inferInstanceAs (Decidable (_ ≤ _))

/-- The number that digits, most significant first, stand for. -/
def value (digits : List Nat) : Nat := digits.foldl (fun n d => 10 * n + d) 0

def signed (negative : Bool) (n : Nat) : Int := if negative then -(n : Int) else n

/-- Splits off one sign; the flag says that it is a minus. -/
def sign : Text → Bool × Text
  | '+' :: rest => (false, rest)
  | '-' :: rest => (true, rest)
  | text => (false, text)

/-- One digit or more, and nothing else. -/
def digits? : Text → Option (List Nat)
  | [] => none
  | text => text.mapM Text.digit?

/-- As `digits?`, but one underscore may stand between two digits. -/
def grouped? : Text → Option (List Nat)
  | [] => none
  | [c] => (Text.digit? c).map ([·])
  | c :: d :: rest =>
    if d = '_' then return (← Text.digit? c) :: (← grouped? rest)
    else return (← Text.digit? c) :: (← grouped? (d :: rest))

inductive Reading
  | number (z : Int)
  | overlong
  | malformed
deriving DecidableEq

def ofDigits? (negative : Bool) : Option (List Nat) → Reading
  | none => .malformed
  | some digits =>
    if digits.length ≤ maxDigits then .number (signed negative (value digits)) else .overlong

/-- Reads a bare numeral: a sign if there is one, and digits. -/
def read (text : Text) : Reading :=
  let (negative, rest) := sign text
  ofDigits? negative (digits? rest)

/-- Reads a numeral that may be grouped and may stand between spacing. -/
def readLoose (text : Text) : Reading :=
  let (negative, rest) := sign (Text.trimSpacing text)
  ofDigits? negative (grouped? rest)

end Numeral

namespace Whole

def isZeroOrGroup (c : Char) : Bool := c = '0' || c = '_'
def isLeadingDigit (c : Char) : Bool := '1' ≤ c && c ≤ '9'

/-- Reads digits after their sign. A start that is too long decides before what follows it is
looked at. -/
def readDigits (negative : Bool) (text : Text) : Numeral.Reading :=
  let digits := text.takeWhile Char.isDigit
  if digits.head? = some '0' ∧ digits ≠ ['0'] then .malformed
  else if Numeral.maxDigits < digits.length then .overlong
  else if text.all Char.isDigit then Numeral.ofDigits? negative (Numeral.digits? text)
  else .malformed

/-- A minus if need be and plain digits, with no zero in front. -/
def readPlain : Text → Numeral.Reading
  | '-' :: rest => readDigits true rest
  | text => readDigits false text

/-- Takes zeros off the front, and underscores among them however many. One zero stays where no
number follows; a minus may stand behind the zeros. -/
def dropZeros? (text : Text) : Option Text :=
  let zeros := text.takeWhile isZeroOrGroup
  let rest := text.dropWhile isZeroOrGroup
  if zeros.head? = some '_' then none
  else match rest with
    | c :: _ =>
      if isLeadingDigit c || (c = '-' && zeros ≠ []) then some rest
      else if c = '.' && zeros.getLast? = some '0' then some ('0' :: rest)
      else none
    | [] => if zeros.getLast? = some '0' then some ['0'] else none

/-- Cuts off a point and the zeros after it, one at least. -/
def dropPlaces (text : Text) : Text :=
  match text.dropWhile (· ≠ '.') with
  | '.' :: places =>
    if places ≠ [] ∧ places.all (· = '0') then text.takeWhile (· ≠ '.') else text
  | _ => text

/-- Takes out underscores that stand singly and not at an end. -/
def ungrouped (text : Text) : Text :=
  let groups := Text.parts '_' text
  if groups.all (· ≠ []) then groups.flatten else text

/-- Takes out spacing around a number, a plus, zeros in front, a fraction of zeros, and underscores
between digits. -/
def tidied? (text : Text) : Option Text :=
  let (negative, rest) := Numeral.sign (Text.trimSpacing text)
  (dropZeros? rest).map fun rest =>
    let number := ungrouped (dropPlaces rest)
    if negative then '-' :: number else number

/-- A whole number in a setting. What is no number as it stands is tidied once and tried again. Only
a text that is too long as it stands is called so: one that turns out too long once it is tidied is
malformed. -/
def read (text : Text) : Numeral.Reading :=
  match readPlain text with
  | .malformed =>
    match (tidied? text).map readPlain with
    | some (.number z) => .number z
    | _ => .malformed
  | reading => reading

end Whole

end Stencil
