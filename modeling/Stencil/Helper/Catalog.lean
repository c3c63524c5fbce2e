import Stencil.Helper.Builtin
import Stencil.Value.Path

/-! Helpers by name, and their calls. Each catalog is a value of its own, seeded with the
helpers that are declared when it is made; declaring a helper later gives it to later
catalogs only. The argument text of a call is words between blanks that stand outside double
quotes, each a literal or a path. -/
namespace Stencil

namespace Helper

/-- A word is kept with its quotes. A quote after a backslash neither opens nor closes. What is left
of an unclosed quotation loses the blanks at its end. `current` is the word so far, last character
first. -/
def wordsFrom (quoted escaped : Bool) (current : Text) : Text → List Text
  | [] => match Text.trimEnd current.reverse with
    | [] => []
    | word => [word]
  | c :: rest =>
    if c = '"' ∧ ¬escaped then wordsFrom (!quoted) false (c :: current) rest
    else if Text.isBlank c ∧ ¬quoted then
      match current with
      | [] => wordsFrom false false [] rest
      | _ => current.reverse :: wordsFrom false false [] rest
    else wordsFrom quoted (c = '\\') (c :: current) rest

def words (text : Text) : List Text := wordsFrom false false [] text

inductive Argument
  | literal (value : Value)
  | path (path : Text)

/-- The inside of a word that starts and ends with a quote; one quote may be both. -/
def quotation? (word : Text) : Option Text :=
  if word.head? = some '"' ∧ word.getLast? = some '"' then some (word.drop 1).dropLast else none

def keyword? (word : Text) : Option Value :=
  if word = "true".toList then some (.bool true)
  else if word = "false".toList then some (.bool false)
  else if word = "null".toList then some .null
  else none

/-- A finite number that is not a bare numeral. -/
def decimal? (word : Text) : Option Value :=
  (Decimal.read? word).bind fun x => if x.isFinite then some (.float x) else none

/-- Quotations come before numbers, numbers before keywords; all else is a path. -/
def Argument.ofWord (word : Text) : Except Failure Argument :=
  match quotation? word with
  | some text => .ok (.literal (.text text))
  | none =>
    match Numeral.read word with
    | .number z => .ok (.literal (.int z))
    | .overlong => .error .overlong
    | .malformed =>
      match (decimal? word).or (keyword? word) with
      | some value => .ok (.literal value)
      | none => .ok (.path word)

/-- How a path gets its value. -/
abbrev Lookup := Text → Except Failure Value

/-- The value of a word; `name` is the helper it is meant for. -/
def argument (name : Text) (lookup : Lookup) (word : Text) : Except Failure Value := do
  match ← Argument.ofWord word with
  | .literal value => return value
  | .path path =>
    match ← lookup path with
    | .absent => throw (.undefinedArgument name path)
    | value => return value

/-- The values of all words, in order; the first that fails decides. -/
def arguments (name : Text) (lookup : Lookup) (text : Text) : Except Failure (List Value) :=
  (words text).mapM (argument name lookup)

end Helper

/-- What makes a helper the same as another one, whatever names they go by. -/
inductive Helper.Identity
  | builtin (b : Helper.Builtin)
  | custom (serial : Nat)
deriving DecidableEq

/-- A helper has no effect other than its result. -/
structure Helper where
  identity : Helper.Identity
  run : List Value → Except Failure Value

def Helper.ofBuiltin (b : Helper.Builtin) : Helper :=
  ⟨.builtin b, fun arguments => .text <$> b.run arguments⟩

/-- A declared helper with its documentation. -/
structure Declaration where
  helper : Helper
  description : Text
  sample? : Option Text

/-- The helpers that new catalogs start with. -/
abbrev Declarations := Ledger Declaration

def Declarations.builtin : Declarations :=
  Helper.Builtin.all.map fun b => (b.name, ⟨.ofBuiltin b, b.description, some b.sample⟩)

/-- A line of the overview of a catalog. -/
structure Listed where
  name : Text
  builtin : Bool
  description : Text
  sample? : Option Text
deriving DecidableEq

/-- Helpers by name. Each catalog is a value of its own. -/
structure Catalog where
  helpers : Ledger Helper

namespace Catalog

def empty : Catalog := ⟨[]⟩

def seeded (declared : Declarations) : Catalog := ⟨declared.map fun (name, d) => (name, d.helper)⟩

def register (c : Catalog) (name : Text) (helper : Helper) : Catalog :=
  ⟨c.helpers.put name helper⟩

def remove (c : Catalog) (name : Text) : Catalog := ⟨c.helpers.erase name⟩
def get? (c : Catalog) (name : Text) : Option Helper := c.helpers.get? name
def has (c : Catalog) (name : Text) : Bool := (c.get? name).isSome
def names (c : Catalog) : List Text := c.helpers.names
def count (c : Catalog) : Nat := c.helpers.length

/-- The documentation shows as long as the name still stands for the helper declared under it. -/
def entry (declared : Declarations) (name : Text) (helper : Helper) : Listed :=
  match declared.get? name with
  | some d =>
    if d.helper.identity = helper.identity then ⟨name, true, d.description, d.sample?⟩
    else ⟨name, false, [], none⟩
  | none => ⟨name, false, [], none⟩

/-- All helpers, by name in the order of code points. -/
def overview (c : Catalog) (declared : Declarations) : List Listed :=
  (c.helpers.map fun (name, helper) => entry declared name helper).mergeSort
    fun a b => !List.lex b.name a.name fun c d => c.toNat < d.toNat

/-- What a call shows for what the helper came to: what the helper itself raises is reported with
its name and its arguments. -/
def report (name : Text) (arguments : List Value) : Except Failure Value → Except Failure Text
  | .ok value => value.display
  | .error cause => .error (.helperFailed name arguments cause)

/-- Calls a helper with the arguments in `text`, where `run` says what it is to run one. Arguments
are looked at before the helper runs. -/
def callWith [Monad m] (c : Catalog) (run : Helper → List Value → m (Except Failure Value))
    (name text : Text) (lookup : Helper.Lookup) : m (Except Failure Text) :=
  match c.get? name with
  | none => return .error (.unknownHelper name)
  | some helper =>
    match Helper.arguments name lookup text with
    | .error failure => return .error failure
    | .ok arguments => return report name arguments (← run helper arguments)

def call (c : Catalog) (name text : Text) (lookup : Helper.Lookup) : Except Failure Text :=
  Id.run (c.callWith (fun helper arguments => pure (helper.run arguments)) name text lookup)

theorem call_eq (c : Catalog) (name text : Text) (lookup : Helper.Lookup) :
    c.call name text lookup =
      match c.get? name with
      | none => .error (.unknownHelper name)
      | some helper => Helper.arguments name lookup text >>= fun arguments =>
        report name arguments (helper.run arguments) := by
  unfold call callWith
  cases c.get? name with
  | none => rfl
  | some helper => cases Helper.arguments name lookup text <;> rfl

end Catalog

/-- Several catalogs side by side, and the declarations that new ones start from. -/
structure Catalogs where
  declared : Declarations
  all : List Catalog

/-- What can be asked of one catalog. Arguments are looked up in a value. -/
inductive Catalog.Operation
  | register (name : Text) (helper : Helper)
  | remove (name : Text)
  | clear
  | has (name : Text)
  | get (name : Text)
  | names
  | count
  | overview
  | arguments (text : Text) (context : Value)
  | call (name text : Text) (context : Value)

namespace Catalogs

inductive Step
  | create (withDeclared : Bool)
  | declare (name : Text) (declaration : Declaration)
  | declared
  | ask (index : Nat) (operation : Catalog.Operation)

inductive Answer
  | done
  | truth (b : Bool)
  | number (n : Nat)
  | names (names : List Text)
  | helper (found? : Option Helper)
  | overview (listed : List Listed)
  | declarations (declared : Declarations)
  | values (values : List Value)
  | text (text : Text)
  | failed (cause : Failure)

def Answer.ofExcept (f : α → Answer) : Except Failure α → Answer
  | .ok a => f a
  | .error cause => failed cause

/-- The answer of one catalog, and the catalog afterwards. -/
def answer (declared : Declarations) (c : Catalog) : Catalog.Operation → Answer × Catalog
  | .register name helper => (.done, c.register name helper)
  | .remove name => (.truth (c.has name), c.remove name)
  | .clear => (.done, .empty)
  | .has name => (.truth (c.has name), c)
  | .get name => (.helper (c.get? name), c)
  | .names => (.names c.names, c)
  | .count => (.number c.count, c)
  | .overview => (.overview (c.overview declared), c)
  | .arguments text context =>
    (.ofExcept .values (Helper.arguments [] (Value.follow · context) text), c)
  | .call name text context =>
    (.ofExcept .text (c.call name text (Value.follow · context)), c)

/-- A catalog that was never created answers as an empty one. -/
def perform (cs : Catalogs) : Step → Answer × Catalogs
  | .create withDeclared =>
    let c := if withDeclared then .seeded cs.declared else .empty
    (.number cs.all.length, { cs with all := cs.all ++ [c] })
  | .declare name declaration => (.done, { cs with declared := cs.declared.put name declaration })
  | .declared => (.declarations cs.declared, cs)
  | .ask index operation =>
    let (answer, c) := answer cs.declared (cs.all.getD index .empty) operation
    (answer, { cs with all := cs.all.set index c })

/-- The answers of a run, and the catalogs at its end. -/
def run (cs : Catalogs) : List Step → List Answer × Catalogs
  | [] => ([], cs)
  | step :: steps =>
    let (answer, cs) := cs.perform step
    let (answers, cs) := cs.run steps
    (answer :: answers, cs)

end Catalogs

end Stencil
