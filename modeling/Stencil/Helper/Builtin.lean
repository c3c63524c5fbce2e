import Stencil.Text.Case
import Stencil.Value.Written

/-! The built-in helpers: dates, amounts of money, case and truncation. -/
namespace Stencil.Helper

/-- Bytes as a text for reading a number, which has to be of ASCII alone. -/
def plain? (octets : List UInt8) : Option Text :=
  if octets.all (· < 0x80) then some (octets.map fun octet => Char.ofNat octet.toNat) else none

def readFloat (text : Text) : Except Failure Binary64 :=
  match Decimal.read? text with
  | some x => .ok x
  | none => .error .malformed

/-- A value as a floating-point number. -/
def toFloat : Value → Except Failure Binary64
  | .bool b => .ok (.ofInt (Value.truthInt b))
  | .int z =>
    match Binary64.ofInt z with
    | .infinity _ => .error .overflow
    | x => .ok x
  | .float x => .ok x
  | .text t => readFloat t
  | .bytes octets =>
    match plain? octets with
    | some text => readFloat text
    | none => .error .malformed
  | _ => .error .unusable

def readInt (text : Text) : Except Failure Int :=
  match Numeral.readLoose text with
  | .number z => .ok z
  | .overlong => .error .overlong
  | .malformed => .error .malformed

/-- A value as a whole number; fractions are cut off. -/
def toInt : Value → Except Failure Int
  | .bool b => .ok (Value.truthInt b)
  | .int z => .ok z
  | .float .nan => .error .malformed
  | .float x =>
    match x.truncate? with
    | some z => .ok z
    | none => .error .overflow
  | .text t => readInt t
  | .bytes octets =>
    match plain? octets with
    | some text => readInt text
    | none => .error .malformed
  | _ => .error .unusable

/-- A thousandth, rounded once. -/
def thousandth : Value → Binary64
  | .int z => .ofRatio (z < 0) z.natAbs 1000
  | .float x =>
    match x with
    | .finite negative significand exponent =>
      let (num, den) := Binary64.ratio significand exponent
      .ofRatio negative num (den * 1000)
    | x => x
  | _ => .nan

def ofRefusal : Epoch.Refusal → Failure
  | .undefined => .malformed
  | .wide => .overflow
  | .clock => .outsideClock
  | .calendar => .outsideCalendar

/-- The moment of a count of milliseconds. A whole count has to have a thousandth in range. -/
def ofMilliseconds (value : Value) : Except Failure Moment :=
  (Epoch.ofSeconds (thousandth value)).mapError ofRefusal

def toMoment : Value → Except Failure Moment
  | .moment m => .ok m
  | .date d => .ok ⟨d, .midnight, none⟩
  | .int z => ofMilliseconds (.int z)
  | .float x => ofMilliseconds (.float x)
  | .text t =>
    match Iso.read? (Text.trim t) with
    | some m => .ok m
    | none => .error .malformed
  | value => do throw (.invalidDate (← value.written))

/-- The format `short` leaves the time out. -/
def formatDate (value format : Value) : Except Failure Text := do
  let moment ← toMoment value
  return if format.isText "short".toList then moment.short else moment.long

def formatAmount (value : Value) : Except Failure Text :=
  return '$' :: (← toFloat value).fixed 2

def ellipsis : Text := ['.', '.', '.']

/-- The first `length` characters; a negative length counts from the end. -/
def cutTo (length : Int) (text : Text) : Text :=
  if 0 ≤ length then text.take length.toNat else text.take (text.length - length.natAbs)

def truncate (value length : Value) : Except Failure Text := do
  let text ← value.display
  let length ← toInt length
  return if length < text.length then cutTo length text ++ ellipsis else text

inductive Builtin
  | date
  | currency
  | upper
  | lower
  | truncate
deriving DecidableEq

namespace Builtin

def all : List Builtin := [date, currency, upper, lower, truncate]

def name : Builtin → Text
  | date => "date".toList
  | currency => "currency".toList
  | upper => "upper".toList
  | lower => "lower".toList
  | truncate => "truncate".toList

def defaultLength : Int := 50

def run : Builtin → List Value → Except Failure Text
  | date, [value] => formatDate value .null
  | date, [value, format] => formatDate value format
  | currency, [value] => formatAmount value
  | upper, [value] => return Text.upper (← value.display)
  | lower, [value] => return Text.lower (← value.display)
  | truncate, [value] => Helper.truncate value (.int defaultLength)
  | truncate, [value, length] => Helper.truncate value length
  | _, _ => .error .arity

def description : Builtin → Text
  | date =>
    "Format a date or epoch milliseconds ('short' gives 1/15/2024, default adds the time)".toList
  | currency => "Format an amount as dollars with two decimals (e.g., '$12.50')".toList
  | upper => "Uppercase the value".toList
  | lower => "Lowercase the value".toList
  | truncate => "Cut the value to a length (default 50), appending '...' when cut".toList

def usage : Builtin → Text
  | date => "date post.published \"short\"".toList
  | currency => "currency order.total".toList
  | upper => "upper user.name".toList
  | lower => "lower user.email".toList
  | truncate => "truncate post.body 120".toList

/-- A call as it is written in a template. -/
def sample (b : Builtin) : Text := ['{', '{', ' '] ++ b.usage ++ [' ', '}', '}']

end Builtin

end Stencil.Helper
