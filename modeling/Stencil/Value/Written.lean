import Stencil.Calendar.Iso
import Stencil.Failure
import Stencil.Text.Quoted

/-! The texts of values. `display` is what lands on a page; `written` is the explicit form
that is used inside mappings and in messages, with texts in quotes. Both fail on a number
whose numeral is over the limit. -/
namespace Stencil

namespace Numeral

def write (z : Int) : Except Failure Text := if Writable z then .ok (ofInt z) else .error .overlong

end Numeral

/-- A name with its arguments in parentheses. -/
def termText (name : String) (arguments : List Text) : Text :=
  name.toList ++ '(' :: List.intercalate [',', ' '] arguments ++ [')']

namespace Date

def written (d : Date) : Text :=
  termText "datetime.date" ([d.year, d.month, d.day].map Numeral.ofNat)

end Date

/-- A span of time as days, seconds and microseconds, the last two not negative. -/
def writtenSpan (micros : Int) : Text :=
  let part (name : String) (n : Int) : List Text :=
    if n = 0 then [] else [name.toList ++ '=' :: Numeral.ofInt n]
  let parts := part "days" (micros / 86400000000) ++
    part "seconds" (micros % 86400000000 / 1000000) ++ part "microseconds" (micros % 1000000)
  termText "datetime.timedelta" (if parts.isEmpty then [['0']] else parts)

def writtenZone (offset : Int) : Text :=
  if offset = 0 then "datetime.timezone.utc".toList
  else termText "datetime.timezone" [writtenSpan offset]

def shownZone (offset : Int) : Text :=
  "UTC".toList ++ if offset = 0 then [] else Iso.writeOffset offset

def shownDays (days : Int) : Text :=
  if days = 0 then []
  else Numeral.ofInt days ++ if days.natAbs = 1 then " day, ".toList else " days, ".toList

/-- Days if there are any, then hours, minutes and seconds. -/
def shownSpan (s : Span) : Text :=
  let seconds := s.seconds.toNat
  shownDays s.days ++ Numeral.ofNat (seconds / 3600) ++ ':' :: Iso.two (seconds / 60 % 60) ++
    ':' :: Iso.two (seconds % 60) ++ Iso.fraction s.microseconds.toNat

namespace Moment

/-- Seconds and microseconds that are zero are left out, from the right. -/
def written (m : Moment) : Text :=
  let t := m.time
  let clock :=
    if t.microsecond ≠ 0 then [t.hour, t.minute, t.second, t.microsecond]
    else if t.second ≠ 0 then [t.hour, t.minute, t.second]
    else [t.hour, t.minute]
  let numbers := [m.date.year, m.date.month, m.date.day] ++ clock
  let zone := match m.offset? with
    | some offset => ["tzinfo=".toList ++ writtenZone offset]
    | none => []
  termText "datetime.datetime" (numbers.map Numeral.ofNat ++ zone)

end Moment

namespace Value

def enclosed : SequenceKind → List Text → Text
  | .list, items => '[' :: List.intercalate [',', ' '] items ++ [']']
  | .tuple, [item] => '(' :: item ++ [',', ')']
  | .tuple, items => '(' :: List.intercalate [',', ' '] items ++ [')']

mutual

def written : Value → Except Failure Text
  | absent => .ok "MISSING".toList
  | null => .ok "None".toList
  | bool b => .ok (if b then "True" else "False").toList
  | int z => Numeral.write z
  | float x => .ok x.written
  | text t => .ok (Text.quoted t)
  | sequence kind items => return enclosed kind (← writtenItems items)
  | mapping entries =>
    return '{' :: List.intercalate [',', ' '] (← writtenEntries entries) ++ ['}']
  | bytes octets => .ok (Text.quotedBytes octets)
  | date d => .ok d.written
  | moment m => .ok m.written
  | zone offset => .ok (writtenZone offset)
  | span s => .ok (writtenSpan s.micros)
  | object _ _ explicit => .ok explicit

def writtenItems : List Value → Except Failure (List Text)
  | [] => .ok []
  | item :: rest => return (← written item) :: (← writtenItems rest)

def writtenEntries : List (Value × Value) → Except Failure (List Text)
  | [] => .ok []
  | (key, value) :: rest =>
    return ((← written key) ++ ':' :: ' ' :: (← written value)) :: (← writtenEntries rest)

end

mutual

/-- Null and absent show nothing, a whole floating-point number shows no fraction, and the
items of a sequence are joined by commas. -/
def display : Value → Except Failure Text
  | absent | null => .ok []
  | text t => .ok t
  | bool b => .ok (if b then "true" else "false").toList
  | int z => Numeral.write z
  | float x =>
    match x.truncate? with
    | some whole => .ok (if x.isWhole then Numeral.ofInt whole else x.written)
    | none => .ok x.written
  | sequence _ items => return List.intercalate [','] (← displayItems items)
  | mapping entries => written (mapping entries)
  | bytes octets => .ok (Text.quotedBytes octets)
  | date d => .ok d.iso
  | moment m => .ok (Iso.write ' ' m)
  | zone offset => .ok (shownZone offset)
  | span s => .ok (shownSpan s)
  | object _ shown _ => .ok shown

def displayItems : List Value → Except Failure (List Text)
  | [] => .ok []
  | item :: rest => return (← display item) :: (← displayItems rest)

end

end Value

end Stencil
