import Stencil.Failure

/-! Paths such as `user.tags.0`: names and positions joined by points, followed from a value
inward. What cannot be reached is `absent`; only an index with too many digits fails. -/
namespace Stencil.Value

/-- The parts of a number that have a name. -/
def numberAttributes (z : Int) : List (Text × Value) :=
  [("real".toList, int z), ("imag".toList, int 0), ("numerator".toList, int z),
   ("denominator".toList, int 1)]

def floatAttributes (x : Binary64) : List (Text × Value) :=
  [("real".toList, float x), ("imag".toList, float (.ofInt 0))]

def dateAttributes (d : Date) : List (Text × Value) :=
  [("year".toList, int d.year), ("month".toList, int d.month), ("day".toList, int d.day),
   ("min".toList, date .first), ("max".toList, date .last), ("resolution".toList, span .day)]

/-- The names of a moment hide those that its day has too. -/
def momentAttributes (m : Moment) : List (Text × Value) :=
  [("hour".toList, int m.time.hour), ("minute".toList, int m.time.minute),
   ("second".toList, int m.time.second), ("microsecond".toList, int m.time.microsecond),
   ("tzinfo".toList, (m.offset?.map zone).getD null), ("fold".toList, int 0),
   ("min".toList, moment .first), ("max".toList, moment .last),
   ("resolution".toList, span .microsecond)] ++ dateAttributes m.date

def zoneAttributes : List (Text × Value) :=
  [("utc".toList, zone 0), ("min".toList, zone (-86340000000)), ("max".toList, zone 86340000000)]

def spanAttributes (s : Span) : List (Text × Value) :=
  [("days".toList, int s.days), ("seconds".toList, int s.seconds),
   ("microseconds".toList, int s.microseconds), ("min".toList, span .least),
   ("max".toList, span .greatest), ("resolution".toList, span .microsecond)]

/-- The attributes that hold data. What a value can do, its methods, are left out: a condition could
only tell that they are there, and a page where in memory. -/
def attributes : Value → List (Text × Value)
  | bool b => numberAttributes (truthInt b)
  | int z => numberAttributes z
  | float x => floatAttributes x
  | date d => dateAttributes d
  | moment m => momentAttributes m
  | zone _ => zoneAttributes
  | span s => spanAttributes s
  | object attributes _ _ => attributes
  | _ => []

def attribute? (v : Value) (name : Text) : Option Value := v.attributes.lookup name

/-- One step into a sequence: its length, or the item at a position written in plain digits. -/
def element (items : List Value) (part : Text) : Except Failure Value :=
  if part = "length".toList then .ok (int items.length)
  else if part ≠ [] ∧ part.all Char.isDigit then
    match Numeral.read part with
    | .number index => .ok (items.getD index.toNat absent)
    | _ => .error .overlong
  else .ok absent

/-- One step of a path. Attributes with a leading underscore are private. -/
def child (part : Text) : Value → Except Failure Value
  | absent | null | text _ => .ok absent
  | mapping entries => .ok ((Mapping.get? entries part).getD absent)
  | sequence _ items => element items part
  | bytes octets => element (octets.map fun octet => int octet.toNat) part
  | value => .ok (if part.head? = some '_' then absent else (value.attribute? part).getD absent)

def follow (path : Text) (value : Value) : Except Failure Value :=
  (Text.parts '.' path).foldlM (fun value part => value.child part) value

end Stencil.Value
