import Stencil.Files.Tree
import Stencil.Helper.Catalog
import Stencil.Markup.Tag

/-! Rendering a template in stages, each on the text left by the one before: included files,
loops, conditions, helper calls, variables. Finished output is held aside until the last
stage is done. An included file is rendered on its own with the context of the template that
includes it; the depth of inclusion is bounded, which ends cycles, and a file that cannot be
read counts as empty. -/
namespace Stencil

def isHexDigit (c : Char) : Bool := ('0' ≤ c && c ≤ '9') || ('a' ≤ c && c ≤ 'f')

/-- Sixteen hexadecimal digits in lower case. -/
structure Token where
  digits : Text
  length : digits.length = 16
  hex : ∀ c ∈ digits, isHexDigit c = true
deriving DecidableEq

def hexDigits : Text := "0123456789abcdef".toList

def hexDigit (n : Nat) : Char := hexDigits.getD (n % 16) '0'

theorem isHexDigit_hexDigit (n : Nat) : isHexDigit (hexDigit n) = true := by
  have all : ∀ k < 16, isHexDigit (hexDigits.getD k '0') = true := by decide
  exact all (n % 16) (Nat.mod_lt _ (by decide))

/-- The last sixteen hexadecimal digits of a number, the lowest first. -/
def Token.ofNat (n : Nat) : Token where
  digits := (List.range 16).map fun i => hexDigit (n / Nat.pow 16 i)
  length := by simp
  hex := by simp [isHexDigit_hexDigit]

/-- Finished output that waits for the end of a render. A placeholder takes its place in the text:
NUL, the token of the render, a colon, a number and NUL. No stage reads that as a tag, and who does
not know the token cannot write it. -/
structure Shelf where
  token : Token
  held : Array Text

namespace Shelf

def empty (token : Token) : Shelf := ⟨token, #[]⟩

/-- How every placeholder of a render starts. -/
def lead (token : Token) : Text := '\x00' :: token.digits ++ [':']

def placeholder (token : Token) (index : Nat) : Text :=
  lead token ++ Numeral.ofNat index ++ ['\x00']

def placeholder? (token : Token) : Markup.Rule Text := fun text =>
  (Text.after? (lead token) text).bind fun rest =>
    match rest.takeWhile Text.isDigit, rest.dropWhile Text.isDigit with
    | c :: digits, '\x00' :: tail => some (c :: digits, tail)
    | _, _ => none

/-- Asked for a number that was never given out. -/
def notHeld : Failure := .raised "IndexError".toList "list index out of range".toList

/-- The text kept under a number. In the form in which it was given out, a number is always
found; in any other it is read as a numeral, which may be too long. -/
def look (shelf : Shelf) (digits : Text) : Except Failure Text :=
  match shelf.held[Numeral.value (digits.filterMap Text.digit?)]? with
  | some text =>
    if Numeral.ofNat (Numeral.value (digits.filterMap Text.digit?)) = digits ∨
        digits.length ≤ Numeral.maxDigits then .ok text
    else .error .overlong
  | none => .error (if digits.length ≤ Numeral.maxDigits then notHeld else .overlong)

/-- Puts kept texts back. -/
def restore (shelf : Shelf) : Text → Except Failure Text :=
  Markup.rewrite (placeholder? shelf.token) fun _ digits => shelf.look digits

/-- Keeps a text and gives its placeholder; the empty text needs none. What is kept has its own
placeholders put back already, so that one pass restores all. -/
def keep (text : Text) (shelf : Shelf) : Except Failure (Text × Shelf) :=
  match text with
  | [] => return ([], shelf)
  | _ => return (placeholder shelf.token shelf.held.size,
      ⟨shelf.token, shelf.held.push (← shelf.restore text)⟩)

end Shelf

/-- Keeps a text on the shelf of a computation. -/
def setAside [Monad m] [MonadExcept Failure m] (text : Text) : StateT Shelf m Text := fun shelf =>
  match shelf.keep text with
  | .ok kept => pure kept
  | .error failure => throw failure

/-- The names of a context and those of one round of a loop. -/
def Mapping.withItem (m : Mapping) (item : Value) (index total : Int) : Mapping :=
  (((m.set "this".toList item).set "@index".toList (.int index)).set
    "@first".toList (.bool (index = 0))).set "@last".toList (.bool (index = total - 1))

/-- What a body sees in one round of a loop. -/
def itemScope (context item : Value) (index total : Int) : Except Failure Value :=
  match context with
  | .mapping m => .ok (.mapping (Mapping.withItem m item index total))
  | _ => .error .noMapping

namespace Render

open Markup

/-- The last stage of a tag: a value that is shown, safe for the page unless it is wanted raw. -/
def showVariable (context : Value) (v : Variable) : Except Failure Text := do
  let text ← (← context.follow v.path).display
  return if v.raw then text else escape text

def fillVariables (place : Place) (context : Value) : Text → Except Failure Text :=
  rewrite (atOpener (variableTag? place)) fun _ v => showVariable context v

def chooseBranch (context : Value) (b : Block) : Except Failure Text := do
  let value ← context.follow b.path
  return if value.holds then b.body else b.otherwise?.getD []

def chooseBranches (place : Place) (context : Value) : Text → Except Failure Text :=
  rewrite (atOpener (choice? place)) fun _ b => chooseBranch context b

/-- A computation that holds output aside. -/
abbrev Holding := StateT Shelf (Except Failure)

/-- A tag with no arguments, or with a name that is no helper's, stays for the variables. -/
def callHelper (catalog : Catalog) (context : Value) (lexeme : Text) (c : Call) :
    Holding Text :=
  match Text.trim c.arguments with
  | [] => return lexeme
  | arguments =>
    if catalog.has c.name then do
      let text ← catalog.call c.name arguments fun path => context.follow path
      setAside text
    else return lexeme

def callHelpers (catalog : Catalog) (context : Value) : Text → Holding Text :=
  rewrite (atOpener call?) (callHelper catalog context)

/-- One round of a loop. -/
def runRound (catalog : Catalog) (context : Value) (body : Text) : Holding Text := do
  let text ← chooseBranches .item context body
  let text ← callHelpers catalog context text
  fillVariables .item context text

def runRounds (catalog : Catalog) (context : Value) (body : Text) (items : List Value) :
    Holding Text :=
  List.flatten <$> items.zipIdx.mapM fun (item, index) => do
    runRound catalog (← itemScope context item index items.length) body

/-- A loop over anything but a sequence shows nothing. -/
def runLoop (catalog : Catalog) (context : Value) (b : Block) : Holding Text := do
  match ← context.follow b.path with
  | .sequence _ items => runRounds catalog context b.body items
  | _ => return []

def expandLoops (catalog : Catalog) (context : Value) : Text → Holding Text :=
  rewrite (atOpener loop?) fun _ b => do setAside (← runLoop catalog context b)

/-- All stages after the inclusion of files, and the output that was set aside. -/
def finish (catalog : Catalog) (context : Value) (text : Text) (shelf : Shelf) :
    Except Failure Text := do
  let (text, shelf) ← (expandLoops catalog context text).run shelf
  let text ← chooseBranches .page context text
  let (text, shelf) ← (callHelpers catalog context text).run shelf
  let text ← fillVariables .page context text
  shelf.restore text

end Render

/-- The token for a render that starts after so many requests for files. -/
abbrev Tokens := Nat → Token

structure Engine where
  views : Views
  catalog : Catalog
  maxDepth : Int

namespace Engine

open Markup

/-- Asks for a file and keeps a record of the request. -/
def request (reader : Reader) (path : FilePath) :
    Reading (List FilePath) (Except ReadError Text) := do
  let earlier ← getThe (List FilePath)
  set (earlier ++ [path])
  return reader earlier path

/-- What an included file adds to the page. -/
def includeFile (e : Engine) (reader : Reader) (inner : Text → Reading (List FilePath) Text)
    (name : Text) : Reading (List FilePath) Text := do
  match ← request reader (e.views.inclusion name) with
  | .ok content => inner content
  | .error (.failed cause) => throw cause
  | .error _ => return []

/-- The first stage: included files, in the order of the text. -/
def expandInclusions (inclusion : Text → Reading (List FilePath) Text) :
    Text → StateT Shelf (Reading (List FilePath)) Text :=
  rewrite (atOpener inclusion?) fun _ name => do setAside (← inclusion name)

/-- All stages, with `inclusion` for what an inclusion adds. -/
def assemble (e : Engine) (tokens : Tokens) (context : Value)
    (inclusion : Text → Reading (List FilePath) Text) (template : Text) :
    Reading (List FilePath) Text := do
  let earlier ← getThe (List FilePath)
  let (text, shelf) ← (expandInclusions inclusion template).run (.empty (tokens earlier.length))
  match Render.finish e.catalog context text shelf with
  | .ok page => return page
  | .error failure => throw failure

/-- Renders a template that may be followed `depth` levels into included files; deeper ones add
nothing and are not asked for. Nothing but `depth` limits the nesting here: the stack that it takes
is not modelled. -/
def renderWithin (e : Engine) (reader : Reader) (tokens : Tokens) (context : Value) :
    Nat → Text → Reading (List FilePath) Text
  | 0 => e.assemble tokens context fun _ => return []
  | depth + 1 =>
    e.assemble tokens context (e.includeFile reader (e.renderWithin reader tokens context depth))

def render (e : Engine) (reader : Reader) (tokens : Tokens) (context : Value)
    (template : Text) : Reading (List FilePath) Text :=
  e.renderWithin reader tokens context e.maxDepth.toNat template

end Engine

end Stencil
