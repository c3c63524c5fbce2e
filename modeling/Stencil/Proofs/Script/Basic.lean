import Stencil.Proofs.Outcome
import Stencil.Render.Engine

/-! Scripts: texts in which finished output stands as one symbol, and the stages of a render
on them. A chunk is no letter, so no form of tag can read it or hold a part of it; only the
arguments of a helper call may have chunks among them, and such a call has no answer. There
is no token, no number and nothing to put back. -/
namespace Stencil

inductive Symbol
  | letter (c : Char)
  | chunk (finished : Text)
deriving DecidableEq

namespace Symbol

/-- Holds for the letters of a class. -/
def among (allowed : Char → Bool) : Symbol → Bool
  | letter c => allowed c
  | chunk _ => false

@[simp] theorem among_letter (allowed : Char → Bool) (c : Char) :
    (letter c).among allowed = allowed c := rfl

@[simp] theorem among_chunk (allowed : Char → Bool) (finished : Text) :
    (chunk finished).among allowed = false := rfl

def source : Symbol → Text
  | letter c => [c]
  | chunk finished => finished

end Symbol

abbrev Script := List Symbol

namespace Script

def ofText (text : Text) : Script := text.map .letter

/-- The text that a script ends as. -/
def flatten (s : Script) : Text := s.flatMap Symbol.source

@[simp] theorem flatten_ofText (text : Text) : flatten (ofText text) = text := by
  simp [flatten, ofText, List.flatMap_map, Symbol.source]

/-- Finished output as a chunk; the empty text needs none. -/
def hold : Text → Script
  | [] => []
  | finished => [.chunk finished]

@[simp] theorem flatten_hold (text : Text) : flatten (hold text) = text := by
  cases text <;> simp [hold, flatten, Symbol.source]

theorem flatten_flatten (pieces : List Script) :
    flatten pieces.flatten = (pieces.map flatten).flatten := by
  induction pieces with
  | nil => rfl
  | cons piece pieces ih =>
    rw [List.flatten_cons, List.map_cons, List.flatten_cons, ← ih]
    exact List.flatMap_append

/-- The text of a script that has no chunk. -/
def text? : Script → Option Text
  | [] => some []
  | .letter c :: rest => (text? rest).map (c :: ·)
  | .chunk _ :: _ => none

@[simp] theorem text?_ofText (text : Text) : text? (ofText text) = some text := by
  induction text with
  | nil => rfl
  | cons c text ih =>
    change (text? (ofText text)).map (c :: ·) = _
    rw [ih]
    rfl

/-- The letters of a class that a script starts with. -/
def word (allowed : Char → Bool) : Script → Text
  | .letter c :: rest => if allowed c then c :: word allowed rest else []
  | _ => []

def after? : Text → Script → Option Script
  | [], s => some s
  | a :: lead, .letter b :: s => if a = b then after? lead s else none
  | _ :: _, _ => none

def cut? (mark : Text) : Script → Option (Script × Script)
  | [] => (after? mark []).map ([], ·)
  | x :: rest =>
    match after? mark (x :: rest) with
    | some tail => some ([], tail)
    | none => (cut? mark rest).map fun (before, tail) => (x :: before, tail)

def trimStart (s : Script) : Script := s.dropWhile (·.among Text.isBlank)
def trimEnd (s : Script) : Script := (s.reverse.dropWhile (·.among Text.isBlank)).reverse
def trim (s : Script) : Script := trimEnd (trimStart s)

abbrev Rule (α : Type) := Script → Option (α × Script)

def atOpener (rule : Rule α) : Rule α := fun s =>
  if (after? Markup.opener s).isSome then rule s else none

def word? (allowed : Char → Bool) (close : Text) : Rule Text := fun s =>
  match word allowed (trimStart s) with
  | [] => none
  | name =>
    (after? close (trimStart ((trimStart s).dropWhile (·.among allowed)))).map (name, ·)

def tag? (opening : Text) (allowed : Char → Bool) (close : Text) : Rule Text := fun s =>
  (after? opening s).bind (word? allowed close)

def spacedTag? (opening : Text) (allowed : Char → Bool) (close : Text) : Rule Text := fun s =>
  match after? opening s with
  | some (x :: rest) => if x.among Text.isBlank then word? allowed close rest else none
  | _ => none

open Markup in
def inclusion? : Rule Text := tag? (opener ++ ['>']) isFileChar closer

open Markup in
def each? : Rule Text := spacedTag? (opener ++ "#each".toList) (isPathChar .page) closer

open Markup in
def condition? (place : Place) : Rule Text :=
  spacedTag? (opener ++ "#if".toList) (isPathChar place) closer

open Markup in
def raw? (place : Place) : Rule Text := tag? ('{' :: opener) (isPathChar place) ('}' :: closer)

open Markup in
def escaped? (place : Place) : Rule Text := tag? opener (isPathChar place) closer

def variableTag? (place : Markup.Place) : Rule Markup.Variable := fun s =>
  ((raw? place s).map fun (path, rest) => (⟨true, path⟩, rest)).or
    ((escaped? place s).map fun (path, rest) => (⟨false, path⟩, rest))

/-- A call of a helper; the arguments have no blanks around them. -/
structure Call where
  name : Text
  arguments : Script

/-- All up to the next closing brace, chunks among it. -/
def inside (s : Script) : Script := s.takeWhile (!·.among (· = '}'))

/-- After a name there has to be a blank, and one symbol more. -/
def arguments? : Script → Option Script
  | x :: y :: rest => if x.among Text.isBlank then some (trim (x :: y :: rest)) else none
  | _ => none

def call? : Rule Call := fun s => do
  let inner ← after? Markup.opener s
  let inner := trimStart inner
  match word Markup.isNameChar inner with
  | [] => none
  | name =>
    let inner := inner.dropWhile (·.among Markup.isNameChar)
    let arguments ← arguments? (inside inner)
    let rest ← after? Markup.closer (inner.dropWhile (!·.among (· = '}')))
    return (⟨name, arguments⟩, rest)

structure Block where
  path : Text
  body : Script
  otherwise? : Option Script

def block? (opening : Rule Text) (closing : Text) (separator? : Option Text) : Rule Block :=
  fun s => do
    let (path, rest) ← opening s
    let (inside, tail) ← cut? closing rest
    match separator?.bind (cut? · inside) with
    | some (body, other) => return (⟨path, body, some other⟩, tail)
    | none => return (⟨path, inside, none⟩, tail)

def loop? : Rule Block := block? each? Markup.eachCloser none
def choice? (place : Markup.Place) : Rule Block :=
  block? (condition? place) Markup.conditionCloser (some Markup.otherwise)

/-- `skip` counts the symbols ahead that belong to the last match. -/
def rewriteFrom [Monad m] (rule : Rule α) (new : Script → α → m Script) : Nat → Script → m Script
  | _, [] => pure []
  | skip + 1, _ :: rest => rewriteFrom rule new skip rest
  | 0, x :: rest =>
    match rule (x :: rest) with
    | some (content, tail) =>
      let width := (x :: rest).length - tail.length
      new ((x :: rest).take width) content >>= fun front =>
        (front ++ ·) <$> rewriteFrom rule new (width - 1) rest
    | none => (x :: ·) <$> rewriteFrom rule new 0 rest

/-- The script with every match replaced, from left to right. -/
def rewrite [Monad m] (rule : Rule α) (new : Script → α → m Script) (s : Script) : m Script :=
  rewriteFrom rule new 0 s

end Script

/-- Why there is no page: a failure, or a call with finished output among its arguments. -/
inductive Refusal
  | failure (cause : Failure)
  | mixed

instance (x : Except Refusal α) : Decidable (x = .error .mixed) :=
  match x with
  | .error .mixed => isTrue rfl
  | .error (.failure _) => isFalse nofun
  | .ok _ => isFalse nofun

/-- A result, its failure as a reason to refuse. -/
def Refusal.of (x : Except Failure α) : Except Refusal α := x.mapError .failure

theorem Refusal.of_injective : Function.Injective (Refusal.of : Except Failure α → _) := by
  intro x y same
  cases x <;> cases y <;> cases same <;> rfl

section Of

variable {α β : Type}

@[simp] theorem Refusal.of_pure (a : α) : Refusal.of (pure a) = pure a := rfl

theorem Refusal.of_bind (x : Except Failure α) (f : α → Except Failure β) :
    Refusal.of (x >>= f) = Refusal.of x >>= fun a => Refusal.of (f a) := by
  cases x <;> rfl

def Refusal.results : Translation (Except Failure) (Except Refusal) :=
  ⟨Refusal.of, Refusal.of_pure, Refusal.of_bind⟩

theorem Refusal.of_map (x : Except Failure α) (f : α → β) :
    Refusal.of (f <$> x) = f <$> Refusal.of x := Refusal.results.map f x

theorem Refusal.of_mapM (l : List α) (f : α → Except Failure β) :
    Refusal.of (l.mapM f) = l.mapM fun a => Refusal.of (f a) := Refusal.results.mapM f l

end Of

namespace Script

section Stages

variable (catalog : Catalog) (context : Value)

def showVariable (v : Markup.Variable) : Except Refusal Script :=
  ofText <$> Refusal.of (Render.showVariable context v)

def fillVariables (place : Markup.Place) : Script → Except Refusal Script :=
  rewrite (atOpener (variableTag? place)) fun _ v => showVariable context v

def chooseBranch (b : Block) : Except Refusal Script := do
  let value ← Refusal.of (context.follow b.path)
  return if value.holds then b.body else b.otherwise?.getD []

def chooseBranches (place : Markup.Place) : Script → Except Refusal Script :=
  rewrite (atOpener (choice? place)) fun _ b => chooseBranch context b

def callHelper (lexeme : Script) (c : Call) : Except Refusal Script :=
  if c.arguments = [] ∨ ¬catalog.has c.name then .ok lexeme
  else match text? c.arguments with
    | some arguments =>
      hold <$> Refusal.of (catalog.call c.name arguments fun path => context.follow path)
    | none => .error .mixed

def callHelpers : Script → Except Refusal Script :=
  rewrite (atOpener call?) (callHelper catalog context)

def runRound (body : Script) : Except Refusal Script := do
  let s ← chooseBranches context .item body
  let s ← callHelpers catalog context s
  fillVariables context .item s

def runRounds (body : Script) (items : List Value) : Except Refusal Script :=
  List.flatten <$> items.zipIdx.mapM fun (item, index) => do
    runRound catalog (← Refusal.of (itemScope context item index items.length)) body

def runLoop (b : Block) : Except Refusal Script := do
  match ← Refusal.of (context.follow b.path) with
  | .sequence _ items => runRounds catalog context b.body items
  | _ => return []

def expandLoops : Script → Except Refusal Script :=
  rewrite (atOpener loop?) fun _ b => (hold ∘ flatten) <$> runLoop catalog context b

def finish (s : Script) : Except Refusal Text := do
  let s ← expandLoops catalog context s
  let s ← chooseBranches context .page s
  let s ← callHelpers catalog context s
  flatten <$> fillVariables context .page s

end Stages

/-- A computation that asks for files; the state holds the paths asked for so far. -/
abbrev Asking (α : Type) := ExceptT Refusal (StateM (List FilePath)) α

/-- A computation that reads, its failure as a reason to refuse. -/
def ofReading (x : Reading (List FilePath) α) : Asking α :=
  fun earlier => (x.outcome earlier).map Refusal.of id

theorem run_ofReading (x : Reading (List FilePath) α) (earlier : List FilePath) :
    (ofReading x).run earlier = (x.outcome earlier).map Refusal.of id := rfl

theorem ofReading_bind {β : Type} (x : Reading (List FilePath) α)
    (f : α → Reading (List FilePath) β) :
    ofReading (x >>= f) = ofReading x >>= fun a => ofReading (f a) := by
  funext earlier
  change (ofReading (x >>= f)).run earlier = (_ >>= _ : Asking _).run earlier
  rw [run_bind, run_ofReading, run_ofReading, Reading.outcome, run_bind, Reading.outcome]
  rcases x.run earlier with ⟨_ | a, later⟩ <;> rfl

def readings : Translation (Reading (List FilePath)) Asking :=
  ⟨ofReading, fun _ => rfl, ofReading_bind⟩

def expandInclusions (inclusion : Text → Asking Text) : Script → Asking Script :=
  rewrite (atOpener inclusion?) fun _ name => hold <$> inclusion name

def assemble (e : Engine) (context : Value) (inclusion : Text → Asking Text) (template : Text) :
    Asking Text := do
  let s ← expandInclusions inclusion (ofText template)
  match finish e.catalog context s with
  | .ok page => return page
  | .error refusal => throw refusal

def includeFile (e : Engine) (reader : Reader) (inner : Text → Asking Text) (name : Text) :
    Asking Text := do
  let earlier ← getThe (List FilePath)
  set (earlier ++ [e.views.inclusion name])
  match reader earlier (e.views.inclusion name) with
  | .ok content => inner content
  | .error (.failed cause) => throw (.failure cause)
  | .error _ => return []

def renderWithin (e : Engine) (reader : Reader) (context : Value) : Nat → Text → Asking Text
  | 0 => assemble e context fun _ => return []
  | depth + 1 => assemble e context (includeFile e reader (renderWithin e reader context depth))

/-- The page of a template, and the paths asked for, after `earlier` ones. -/
def render (e : Engine) (reader : Reader) (context : Value) (template : Text)
    (earlier : List FilePath) : Except Refusal Text × List FilePath :=
  (renderWithin e reader context e.maxDepth.toNat template).run earlier

end Script

end Stencil
