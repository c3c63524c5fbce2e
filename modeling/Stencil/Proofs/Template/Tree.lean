import Stencil.Proofs.Text.NulFree
import Stencil.Render.Engine

/-! Templates as trees. No loop stands in a loop, and no condition in a condition unless a
loop is between them; a tree of another shape, or with a word that its tag would not read,
cannot be built. -/
namespace Stencil.Template

open Markup

/-- A word of letters of one class. -/
structure Word (allowed : Char → Bool) where
  text : Text
  nonempty : text ≠ []
  all : text.all allowed = true

theorem Word.allows {allowed : Char → Bool} (word : Word allowed) :
    ∀ c ∈ word.text, allowed c = true := List.all_eq_true.mp word.all

abbrev FileName := Word isFileChar

/-- A path in which no position has more digits than are read. -/
structure Path (place : Place) extends Word (isPathChar place) where
  short : ∀ part ∈ Text.parts '.' text,
    part.all Char.isDigit = true → part.length ≤ Numeral.maxDigits

/-- Text in which no tag starts. -/
structure Literal where
  text : Text
  noOpening : '{' ∉ text
  nulFree : Text.NulFree text

/-- A call of a helper of the catalog, with arguments that are not all blank. -/
structure Call (catalog : Catalog) where
  name : Word isNameChar
  known : catalog.has name.text = true
  arguments : Text
  noOpening : '{' ∉ arguments
  noClosing : '}' ∉ arguments
  nulFree : Text.NulFree arguments
  solid : Text.trim arguments ≠ []

/-- What has no parts. -/
inductive Leaf (catalog : Catalog) (place : Place) (ι : Type)
  | literal (l : Literal)
  | shown (raw : Bool) (path : Path place)
  | call (c : Call catalog)
  | inclusion (content : ι)

/-- A part that is always there, or parts of which a value chooses some. -/
inductive Conditional (place : Place) (α : Type)
  | plain (part : α)
  | choice (path : Path place) (yes : List α) (no? : Option (List α))

structure Loop (catalog : Catalog) (ι : Type) where
  path : Path .page
  body : List (Conditional .item (Leaf catalog .item ι))

inductive Item (catalog : Catalog) (ι : Type)
  | leaf (l : Leaf catalog .page ι)
  | loop (l : Loop catalog ι)

abbrev Page (catalog : Catalog) (ι : Type) := List (Conditional .page (Item catalog ι))

variable {catalog : Catalog} {place : Place} {ι κ α β : Type}

/-- A tag with what stands between its braces. -/
def tag (inside : Text) : Text := opener ++ inside ++ closer

def variableTag (raw : Bool) (path : Text) : Text :=
  if raw then '{' :: tag (' ' :: path ++ [' ']) ++ ['}'] else tag (' ' :: path ++ [' '])

def callTag (name arguments : Text) : Text := tag (' ' :: name ++ ' ' :: arguments ++ [' '])
def inclusionTag (name : Text) : Text := tag ('>' :: ' ' :: name ++ [' '])
def conditionTag (path : Text) : Text := tag ("#if ".toList ++ path)
def eachTag (path : Text) : Text := tag ("#each ".toList ++ path)

section Print

variable {σ : Type} (letters : Text → List σ) (included : ι → List σ)

def Leaf.print : Leaf catalog place ι → List σ
  | literal l => letters l.text
  | shown raw path => letters (variableTag raw path.text)
  | call c => letters (callTag c.name.text c.arguments)
  | inclusion content => included content

def Conditional.print (part : α → List σ) : Conditional place α → List σ
  | plain a => part a
  | choice path yes none =>
    letters (conditionTag path.text) ++ yes.flatMap part ++ letters conditionCloser
  | choice path yes (some no) =>
    letters (conditionTag path.text) ++ yes.flatMap part ++ letters otherwise ++
      no.flatMap part ++ letters conditionCloser

def Loop.print (l : Loop catalog ι) : List σ :=
  letters (eachTag l.path.text) ++
    l.body.flatMap (Conditional.print letters (Leaf.print letters included)) ++ letters eachCloser

def Item.print : Item catalog ι → List σ
  | leaf l => l.print letters included
  | loop l => l.print letters included

def Page.print (page : Page catalog ι) : List σ :=
  page.flatMap (Conditional.print letters (Item.print letters included))

end Print

/-- The template that a tree is printed to. -/
def Page.text (page : Page catalog FileName) : Text :=
  page.print id fun name => inclusionTag name.text

section Fill

variable {m : Type → Type} [Monad m]

/-- Something else in the place of every inclusion, in the order of the text. -/
def Leaf.fill (f : ι → m κ) : Leaf catalog place ι → m (Leaf catalog place κ)
  | literal l => return literal l
  | shown raw path => return shown raw path
  | call c => return call c
  | inclusion content => inclusion <$> f content

def Conditional.fill (f : α → m β) : Conditional place α → m (Conditional place β)
  | plain a => plain <$> f a
  | choice path yes none => do return choice path (← yes.mapM f) none
  | choice path yes (some no) => do return choice path (← yes.mapM f) (some (← no.mapM f))

def Loop.fill (f : ι → m κ) (l : Loop catalog ι) : m (Loop catalog κ) := do
  return ⟨l.path, ← l.body.mapM (Conditional.fill (Leaf.fill f))⟩

def Item.fill (f : ι → m κ) : Item catalog ι → m (Item catalog κ)
  | leaf l => leaf <$> l.fill f
  | loop l => loop <$> l.fill f

def Page.fill (f : ι → m κ) (page : Page catalog ι) : m (Page catalog κ) :=
  page.mapM (Conditional.fill (Item.fill f))

end Fill

section Meaning

variable (scope : Value)

def Leaf.meaning : Leaf catalog place Text → Except Failure Text
  | literal l => return l.text
  | shown raw path => Render.showVariable scope ⟨raw, path.text⟩
  | call c => catalog.call c.name.text (Text.trim c.arguments) fun path => scope.follow path
  | inclusion page => return page

/-- The parts that are taken. -/
def Conditional.chosen : Conditional place α → Except Failure (List α)
  | plain a => return [a]
  | choice path yes no? => do
    return if (← scope.follow path.text).holds then yes else no?.getD []

/-- What the parts that are taken mean, in order. -/
def Conditional.meaning (part : α → Except Failure Text) (c : Conditional place α) :
    Except Failure Text := do
  return (← (← c.chosen scope).mapM part).flatten

/-- A round for each item of a sequence, with a scope of its own; anything else has no rounds. -/
def Loop.meaning (l : Loop catalog Text) : Except Failure Text := do
  match ← scope.follow l.path.text with
  | .sequence _ items =>
    let rounds ← items.zipIdx.mapM fun (item, index) => do
      let inner ← itemScope scope item index items.length
      List.flatten <$> l.body.mapM (Conditional.meaning inner (Leaf.meaning inner))
    return rounds.flatten
  | _ => return []

def Item.meaning : Item catalog Text → Except Failure Text
  | leaf l => l.meaning scope
  | loop l => l.meaning scope

/-- All parts, whether they are taken or not. -/
def Conditional.parts : Conditional place α → List α
  | plain a => [a]
  | choice _ yes no? => yes ++ no?.getD []

def Item.loop? : Item catalog ι → Option (Loop catalog ι)
  | leaf _ => none
  | loop l => some l

/-- All loops of a part of a page, whether they are taken or not. -/
def Conditional.loops (c : Conditional .page (Item catalog ι)) : List (Loop catalog ι) :=
  c.parts.filterMap Item.loop?

/-- What is taken of a part of a page. All its loops have to come to a result. -/
def partMeaning (c : Conditional .page (Item catalog Text)) : Except Failure Text := do
  discard (c.loops.mapM (Loop.meaning scope))
  c.meaning scope (Item.meaning scope)

def Page.meaning (page : Page catalog Text) : Except Failure Text :=
  List.flatten <$> page.mapM (partMeaning scope)

end Meaning

end Stencil.Template
