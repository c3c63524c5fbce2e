import Stencil.Text.Basic

/-! The tags and blocks of a template. A form of tag is read from the start of a text, and
what follows the tag is handed back; a text is then the pieces that such a rule finds in it,
from left to right. Blanks may stand around what a tag names; a brace inside a tag that is
not its end makes it no tag. -/
namespace Stencil.Markup

/-- Reads a match at the start of a text and hands back what follows it. -/
abbrev Rule (α : Type) := Text → Option (α × Text)

/-- One character that is copied, or a match with the text that it covers. -/
inductive Piece (α : Type)
  | copied (c : Char)
  | found (lexeme : Text) (content : α)

namespace Piece

def source : Piece α → Text
  | copied c => [c]
  | found lexeme _ => lexeme

/-- The text that takes the place of a piece. -/
def replace [Monad m] (new : Text → α → m Text) : Piece α → m Text
  | copied c => pure [c]
  | found lexeme content => new lexeme content

end Piece

/-- `skip` counts the characters ahead that belong to the last match. -/
def piecesFrom (rule : Rule α) : Nat → Text → List (Piece α)
  | _, [] => []
  | skip + 1, _ :: rest => piecesFrom rule skip rest
  | 0, c :: rest =>
    match rule (c :: rest) with
    | some (content, tail) =>
      let width := (c :: rest).length - tail.length
      .found ((c :: rest).take width) content :: piecesFrom rule (width - 1) rest
    | none => .copied c :: piecesFrom rule 0 rest

/-- Matches do not overlap; where the rule does not match, a single character is copied. -/
def pieces (rule : Rule α) (text : Text) : List (Piece α) := piecesFrom rule 0 text

/-- A match with the positions where it starts and ends. -/
structure Span (α : Type) where
  start : Nat
  finish : Nat
  content : α

/-- The matches among pieces of which the first starts at `start`. -/
def spansFrom (start : Nat) : List (Piece α) → List (Span α)
  | [] => []
  | .copied _ :: rest => spansFrom (start + 1) rest
  | .found lexeme content :: rest =>
    ⟨start, start + lexeme.length, content⟩ :: spansFrom (start + lexeme.length) rest

def spans (rule : Rule α) (text : Text) : List (Span α) := spansFrom 0 (pieces rule text)

/-- The text with every match replaced, in order. -/
def rewrite [Monad m] (rule : Rule α) (new : Text → α → m Text) (text : Text) : m Text :=
  List.flatten <$> (pieces rule text).mapM (Piece.replace new)

def opener : Text := ['{', '{']
def closer : Text := ['}', '}']

/-- Where a tag stands: in the body of a loop, paths may name the loop's own values. -/
inductive Place
  | page
  | item
deriving DecidableEq

def isNameChar (c : Char) : Bool := c.isAlphanum || c = '_'
def isPathChar (place : Place) (c : Char) : Bool :=
  isNameChar c || c = '.' || (place = .item && c = '@')
def isFileChar (c : Char) : Bool := c.isAlphanum || c = '/' || c = '_' || c = '-'

/-- Tries a rule only where two braces open. Of three braces, the second is such a place too. -/
def atOpener (rule : Rule α) : Rule α := fun text =>
  if opener.isPrefixOf text then rule text else none

/-- A word between blanks, and then `close`. -/
def word? (allowed : Char → Bool) (close : Text) : Rule Text := fun text =>
  let text := Text.trimStart text
  match text.takeWhile allowed with
  | [] => none
  | word => (Text.after? close (Text.trimStart (text.dropWhile allowed))).map (word, ·)

/-- As `word?`, after `opening`. -/
def tag? (opening : Text) (allowed : Char → Bool) (close : Text) : Rule Text := fun text =>
  (Text.after? opening text).bind (word? allowed close)

/-- As `tag?`, with a blank at least after `opening`. -/
def spacedTag? (opening : Text) (allowed : Char → Bool) (close : Text) : Rule Text := fun text =>
  match Text.after? opening text with
  | some (c :: rest) => if Text.isBlank c then word? allowed close rest else none
  | _ => none

def inclusion? : Rule Text := tag? (opener ++ ['>']) isFileChar closer
def each? : Rule Text := spacedTag? (opener ++ "#each".toList) (isPathChar .page) closer
def condition? (place : Place) : Rule Text :=
  spacedTag? (opener ++ "#if".toList) (isPathChar place) closer
def raw? (place : Place) : Rule Text := tag? ('{' :: opener) (isPathChar place) ('}' :: closer)
def escaped? (place : Place) : Rule Text := tag? opener (isPathChar place) closer

/-- A variable tag: the path, and whether its value goes to the page as it is. -/
structure Variable where
  raw : Bool
  path : Text
deriving DecidableEq

def variableTag? (place : Place) : Rule Variable := fun text =>
  ((raw? place text).map fun (path, rest) => (⟨true, path⟩, rest)).or
    ((escaped? place text).map fun (path, rest) => (⟨false, path⟩, rest))

/-- A call of a helper by its name, with the text of its arguments. -/
structure Call where
  name : Text
  arguments : Text
deriving DecidableEq

/-- The arguments in what stands between a name and the first closing brace: a blank has to come
first and one character more has to follow. Where all is blank, the last blank counts. -/
def arguments? : Text → Option Text
  | c :: d :: rest =>
    if Text.isBlank c then
      match Text.trim (c :: d :: rest) with
      | [] => ((d :: rest).getLast?).map ([·])
      | arguments => some arguments
    else none
  | _ => none

def call? : Rule Call := fun text => do
  let inner ← Text.after? opener text
  let inner := Text.trimStart inner
  match inner.takeWhile isNameChar with
  | [] => none
  | name =>
    let inner := inner.dropWhile isNameChar
    let arguments ← arguments? (inner.takeWhile (· ≠ '}'))
    let rest ← Text.after? closer (inner.dropWhile (· ≠ '}'))
    return (⟨name, arguments⟩, rest)

/-- The forms of tags. -/
inductive Form
  | inclusion
  | each
  | condition (place : Place)
  | raw (place : Place)
  | escaped (place : Place)
  | call
deriving DecidableEq

/-- What a tag of each form names: a path or a file, or a helper and its arguments. -/
def Form.read? : Form → Rule (List Text)
  | inclusion, text => (inclusion? text).map fun (name, rest) => ([name], rest)
  | each, text => (each? text).map fun (path, rest) => ([path], rest)
  | condition place, text => (condition? place text).map fun (path, rest) => ([path], rest)
  | raw place, text => (raw? place text).map fun (path, rest) => ([path], rest)
  | escaped place, text => (escaped? place text).map fun (path, rest) => ([path], rest)
  | call, text => (call? text).map fun (c, rest) => ([c.name, c.arguments], rest)

/-- What a tag names first. -/
def Form.head? (form : Form) : Rule Text := fun text =>
  (form.read? text).bind fun (names, rest) => names.head?.map (·, rest)

/-- The first form that reads a tag, with what the tag names. -/
def firstOf : List Form → Rule (Form × List Text)
  | [], _ => none
  | form :: forms, text =>
    match form.read? text with
    | some (names, rest) => some ((form, names), rest)
    | none => firstOf forms text

structure Block where
  path : Text
  body : Text
  otherwise? : Option Text
deriving DecidableEq

def eachCloser : Text := opener ++ "/each".toList ++ closer
def conditionCloser : Text := opener ++ "/if".toList ++ closer
def otherwise : Text := opener ++ "else".toList ++ closer

/-- An opening tag, what it holds, and the first closing after it. Blocks of one kind do not nest,
and an opening tag that is never closed is no block. The first `separator?` in a block parts the
body from what stands for it otherwise. -/
def block? (opening : Rule Text) (closing : Text) (separator? : Option Text) : Rule Block :=
  fun text => do
    let (path, rest) ← opening text
    let (inside, tail) ← Text.cut? closing rest
    match separator?.bind (Text.cut? · inside) with
    | some (body, other) => return (⟨path, body, some other⟩, tail)
    | none => return (⟨path, inside, none⟩, tail)

def loop? : Rule Block := block? each? eachCloser none
def choice? (place : Place) : Rule Block :=
  block? (condition? place) conditionCloser (some otherwise)

/-- The five characters that have a meaning in HTML become entities. -/
def entity (c : Char) : Text :=
  if c = '&' then "&amp;".toList
  else if c = '<' then "&lt;".toList
  else if c = '>' then "&gt;".toList
  else if c = '"' then "&quot;".toList
  else if c = '\'' then "&#039;".toList
  else [c]

def escape (text : Text) : Text := text.flatMap entity

@[simp] theorem escape_nil : escape [] = [] := rfl
@[simp] theorem escape_cons (c : Char) (text : Text) :
    escape (c :: text) = entity c ++ escape text := rfl

theorem escape_append (a b : Text) : escape (a ++ b) = escape a ++ escape b := by
  simp [escape]

end Stencil.Markup
