import Stencil.Calendar.Moment

/-! The ISO 8601 texts of moments. Writing gives one form. Reading is lenient: dates with or
without hyphens, by month or by week; any character before the time; times of two to six
digits with or without colons, a fraction after any of them; one stray character is passed
over between a time and its offset. A NUL counts as the end of the text. -/
namespace Stencil.Iso

def two (n : Nat) : Text := Text.padZero 2 (Numeral.ofNat n)

/-- A point and six digits, if there are microseconds at all. -/
def fraction (microsecond : Nat) : Text :=
  if microsecond = 0 then [] else '.' :: Text.padZero 6 (Numeral.ofNat microsecond)

def writeTime (t : TimeOfDay) : Text :=
  two t.hour ++ ':' :: two t.minute ++ ':' :: two t.second ++ fraction t.microsecond

/-- Hours and minutes; seconds and microseconds only if they are not zero. -/
def writeOffset (offset : Int) : Text :=
  let size := offset.natAbs
  let seconds := size / 1000000
  let rest := size % 1000000
  (if offset < 0 then '-' else '+') :: two (seconds / 3600) ++ ':' :: two (seconds / 60 % 60) ++
    (if seconds % 60 = 0 ∧ rest = 0 then [] else ':' :: two (seconds % 60)) ++ fraction rest

def write (separator : Char) (m : Moment) : Text :=
  m.date.iso ++ separator :: writeTime m.time ++ (m.offset?.map writeOffset).getD []

/-- Reads exactly `count` digits. -/
def number? : Nat → Text → Option (Nat × Text)
  | 0, text => some (0, text)
  | count + 1, c :: rest =>
    if c.isDigit then
      (number? count rest).map fun (n, rest) => ((c.toNat - 48) * Nat.pow 10 count + n, rest)
    else none
  | _ + 1, [] => none

def hyphenIf : Bool → Text → Option Text
  | true, '-' :: rest => some rest
  | true, _ => none
  | false, text => some text

/-- The day of a week, Monday if none is given. -/
def readWeek? (year : Nat) (hyphens : Bool) (text : Text) : Option Date := do
  let (week, rest) ← number? 2 text
  match rest with
  | [] => Date.ofWeek? year week 1
  | _ => Date.ofWeek? year week (← number? 1 (← hyphenIf hyphens rest)).1

def readDate? (text : Text) : Option Date := do
  let (year, rest) ← number? 4 text
  let hyphens := rest.head? = some '-'
  match if hyphens then rest.drop 1 else rest with
  | 'W' :: rest => readWeek? year hyphens rest
  | rest =>
    let (month, rest) ← number? 2 rest
    let (day, _) ← number? 2 (← hyphenIf hyphens rest)
    Date.of? year month day

/-- How much of a text is its date. A week date may end after the week or after the day, which the
characters that follow decide. -/
def dateWidth (text : Text) : Nat :=
  let isDigitAt (i : Nat) := (text[i]?.map Char.isDigit).getD false
  if text.length = 7 then 7
  else if text[4]? = some '-' then
    if text[5]? = some 'W' then
      if text[8]? = some '-' && !isDigitAt 10 then 10 else 8
    else 10
  else if text[4]? = some 'W' then
    let digits := (text.drop 7).takeWhile Char.isDigit |>.length
    if digits < 2 then 7 + digits else if digits % 2 = 1 then 7 else 8
  else 8

/-- Numbers of a time as they were read, and whether nothing was left. -/
structure Numbers where
  pairs : List Nat
  microsecond : Nat
  complete : Bool

def Numbers.cons (n : Nat) (numbers : Numbers) : Numbers :=
  { numbers with pairs := n :: numbers.pairs }

def ends : Text → Bool
  | [] => true
  | c :: _ => c = '\x00'

/-- A fraction of a second: digits after the sixth are passed over. -/
def readFraction? (last : Bool) (text : Text) : Option Numbers := do
  let count := min 6 text.length
  let (n, rest) ← number? count text
  let rest := rest.dropWhile Char.isDigit
  return ⟨[], n * Nat.pow 10 (6 - count), if rest.isEmpty then last else ends rest⟩

/-- Reads up to `count` more numbers of two digits and then a fraction. `colons?` says whether
colons separate the numbers, once the first separator has shown it; `last` says that nothing
follows the text. A stray character at the end is passed over if it is ASCII. -/
def readNumbers? (last : Bool) : Nat → Option Bool → Text → Option Numbers
  | 0, _, text => readFraction? last text
  | count + 1, colons?, text => do
    let (n, rest) ← number? 2 text
    match rest with
    | [] => some ⟨[n], 0, last⟩
    | [c] => if c.toNat < 128 then some ⟨[n], 0, c = '\x00'⟩ else none
    | c :: rest =>
      let colons := colons?.getD (c = ':')
      if colons && c = ':' then (readNumbers? last count (some colons) rest).map (.cons n)
      else if c = '.' || c = ',' then (readFraction? last rest).map (.cons n)
      else if colons then none
      else (readNumbers? last count (some colons) (c :: rest)).map (.cons n)

/-- What is not given is zero. -/
def Numbers.get (numbers : Numbers) (i : Nat) : Nat := numbers.pairs.getD i 0

def isOffsetMark (c : Char) : Bool := c = '+' || c = '-' || c = 'Z'

/-- An offset after its mark. One of less than a second is none. -/
def readOffset? (mark : Char) (text : Text) : Option Int := do
  if mark = 'Z' then
    if ends text then some 0 else none
  else
    let numbers ← readNumbers? true 3 none text
    let seconds := (numbers.get 0 * 60 + numbers.get 1) * 60 + numbers.get 2
    let size : Int := if seconds = 0 then 0 else seconds * 1000000 + numbers.microsecond
    if numbers.complete && size < Moment.microsecondsPerDay then
      some (if mark = '-' then -size else size)
    else none

def readTime? (text : Text) : Option (TimeOfDay × Option Int) := do
  let clock := text.takeWhile (!isOffsetMark ·)
  let rest := text.dropWhile (!isOffsetMark ·)
  let numbers ← readNumbers? rest.isEmpty 3 none clock
  let time ← TimeOfDay.of? (numbers.get 0) (numbers.get 1) (numbers.get 2) numbers.microsecond
  match rest with
  | [] => if numbers.complete then some (time, none) else none
  | mark :: rest => return (time, some (← readOffset? mark rest))

/-- A date alone is its midnight. -/
def read? (text : Text) : Option Moment := do
  let width := dateWidth text
  let date ← readDate? (text.take width)
  if text.length ≤ width then some ⟨date, .midnight, none⟩
  else
    let (time, offset?) ← readTime? (text.drop (width + 1))
    return ⟨date, time, offset?⟩

end Stencil.Iso
