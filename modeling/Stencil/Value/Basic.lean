import Stencil.Calendar.Moment

/-! The values that a page is rendered from. A mapping keeps its entries in the order of
their first arrival; its keys are pairwise different in the sense of `sameKey`. -/
namespace Stencil

inductive SequenceKind
  | list
  | tuple
deriving DecidableEq

/-- `absent` stands for what a path does not reach, and is not the explicit `null`. -/
inductive Value
  | absent
  | null
  | bool (b : Bool)
  | int (z : Int)
  | float (x : Binary64)
  | text (t : Text)
  | sequence (kind : SequenceKind) (items : List Value)
  | mapping (entries : List (Value × Value))
  | bytes (octets : List UInt8)
  | date (d : Date)
  | moment (m : Moment)
  /-- The offset of a moment, in microseconds. -/
  | zone (offset : Int)
  | span (s : Span)
  /-- Attributes, the text that a page shows for the object, and the explicit one. -/
  | object (attributes : List (Text × Value)) (shown explicit : Text)

namespace Value

def isAbsent : Value → Bool
  | absent => true
  | _ => false

/-- Holds for the values that a loop runs over. -/
def isSequence : Value → Bool
  | sequence .. => true
  | _ => false

/-- False, null, absent, the empty text and an empty sequence choose the other branch; zero and
an empty mapping do not. -/
def holds : Value → Bool
  | absent | null | bool false | text [] | sequence _ [] => false
  | _ => true

def isText (t : Text) : Value → Bool
  | text u => t = u
  | _ => false

/-- A truth value as a number. -/
def truthInt (b : Bool) : Int := if b then 1 else 0

mutual

/-- Equality of keys: by value among numbers and truth values, part by part for tuples. Objects,
like NaN, differ from everything. -/
def sameKey : Value → Value → Bool
  | absent, absent => true
  | null, null => true
  | text t, text u => t = u
  | bytes a, bytes b => a = b
  | date a, date b => a = b
  | moment a, moment b => a.sameInstant b
  | zone a, zone b => a = b
  | span a, span b => a = b
  | bool a, bool b => a = b
  | bool a, int z => truthInt a = z
  | bool a, float x => x.equalsInt (truthInt a)
  | int z, bool b => z = truthInt b
  | int y, int z => y = z
  | int z, float x => x.equalsInt z
  | float x, bool b => x.equalsInt (truthInt b)
  | float x, int z => x.equalsInt z
  | float x, float y => x.sameValue y
  | sequence .tuple a, sequence .tuple b => sameKeys a b
  | _, _ => false

def sameKeys : List Value → List Value → Bool
  | [], [] => true
  | a :: as, b :: bs => sameKey a b && sameKeys as bs
  | _, _ => false

end

end Value

/-- Names and their values, as a template sees them. -/
abbrev Mapping := List (Value × Value)

namespace Mapping

def get? (m : Mapping) (name : Text) : Option Value := (m.find? fun e => e.1.isText name).map (·.2)

/-- A new entry goes to the end; an entry that is there keeps its place and its first key. -/
def insert (key value : Value) : Mapping → Mapping
  | [] => [(key, value)]
  | (k, v) :: rest => if k.sameKey key then (k, value) :: rest else (k, v) :: insert key value rest

def set (m : Mapping) (name : Text) (value : Value) : Mapping := m.insert (.text name) value

def ofEntries (entries : List (Value × Value)) : Mapping :=
  entries.foldl (fun m (k, v) => m.insert k v) []

end Mapping

end Stencil
