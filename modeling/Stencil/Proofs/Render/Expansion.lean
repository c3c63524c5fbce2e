import Mathlib.Data.List.Basic
import Stencil.Proofs.Lockstep
import Stencil.Proofs.Template.Tree

/-! What a render asks for. The texts alone tell it: the inclusions of the template in their
order, each followed by those of the file that it includes. What a page shows decides only
how far a render gets, since a failure ends it. -/
namespace Stencil

open Markup

/-- The names in the inclusion tags of a text, in order. -/
def includedNames (text : Text) : List Text :=
  (spans (atOpener inclusion?) text).map (·.content)

/-- A request for an included file. -/
structure Request where
  path : FilePath
  /-- The files that were being rendered around it, the innermost first. -/
  around : List FilePath

def Request.within (outer : FilePath) (r : Request) : Request :=
  { r with around := r.around ++ [outer] }

@[simp] theorem map_path_within (outer : FilePath) (asked : List Request) :
    (asked.map (Request.within outer)).map (·.path) = asked.map (·.path) := by
  simp [Request.within, Function.comp_def]

/-- The requests for several names, one name after another. What a name asks for may depend on the
requests before it. -/
def inTurn (ask : List FilePath → Text → List Request) : List FilePath → List Text → List Request
  | _, [] => []
  | earlier, name :: names =>
    ask earlier name ++ inTurn ask (earlier ++ (ask earlier name).map (·.path)) names

@[simp] theorem inTurn_quiet (earlier : List FilePath) (names : List Text) :
    inTurn (fun _ _ => []) earlier names = [] := by
  induction names generalizing earlier with
  | nil => rfl
  | cons name names ih => exact ih _

namespace Engine

/-- The requests for one name: its file and, if that can be read, what its text asks for. -/
def requestsFor (e : Engine) (reader : Reader) (inner : List FilePath → Text → List Request)
    (earlier : List FilePath) (name : Text) : List Request :=
  let path := e.views.inclusion name
  ⟨path, []⟩ :: match reader earlier path with
    | .ok content => (inner (earlier ++ [path]) content).map (Request.within path)
    | .error _ => []

section RequestsFor

variable {e : Engine} {reader : Reader} {inner : List FilePath → Text → List Request}
variable {earlier : List FilePath} {name : Text}

theorem requestsFor_ok {content : Text}
    (read : reader earlier (e.views.inclusion name) = .ok content) :
    e.requestsFor reader inner earlier name =
      ⟨e.views.inclusion name, []⟩ :: (inner (earlier ++ [e.views.inclusion name]) content).map
        (Request.within (e.views.inclusion name)) := by
  simp only [requestsFor, read]

theorem requestsFor_error {error : ReadError}
    (lost : reader earlier (e.views.inclusion name) = .error error) :
    e.requestsFor reader inner earlier name = [⟨e.views.inclusion name, []⟩] := by
  simp only [requestsFor, lost]

end RequestsFor

/-- The requests that a text leads to when inclusions are followed `depth` levels down. -/
def requestsWithin (e : Engine) (reader : Reader) : Nat → List FilePath → Text → List Request
  | 0, _, _ => []
  | depth + 1, earlier, text =>
    inTurn (e.requestsFor reader (e.requestsWithin reader depth)) earlier (includedNames text)

/-- The paths that a text leads to, in files that stay as they are: that of each inclusion in its
order, followed by those that its file leads to. -/
def expansion (e : Engine) (read : FilePath → Except ReadError Text) : Nat → Text → List FilePath
  | 0, _ => []
  | depth + 1, text => (includedNames text).flatMap fun name =>
      e.views.inclusion name :: match read (e.views.inclusion name) with
        | .ok content => e.expansion read depth content
        | .error _ => []

theorem map_path_inTurn {ask : List FilePath → Text → List Request} {paths : Text → List FilePath}
    (each : ∀ earlier name, (ask earlier name).map (·.path) = paths name)
    (earlier : List FilePath) (names : List Text) :
    (inTurn ask earlier names).map (·.path) = names.flatMap paths := by
  induction names generalizing earlier with
  | nil => rfl
  | cons name names ih => rw [inTurn, List.map_append, each, ih, List.flatMap_cons]

/-- A reader that gives a path the same answer each time is asked for the expansion. -/
theorem map_path_requestsWithin (e : Engine) (read : FilePath → Except ReadError Text) (depth : Nat)
    (earlier : List FilePath) (text : Text) :
    (e.requestsWithin (fun _ => read) depth earlier text).map (·.path) =
      e.expansion read depth text := by
  induction depth generalizing earlier text with
  | zero => rfl
  | succ depth ih =>
    refine map_path_inTurn (fun earlier name => ?_) earlier _
    cases answer : read (e.views.inclusion name) with
    | ok content => rw [requestsFor_ok answer, List.map_cons, map_path_within, ih]
    | error error => rw [requestsFor_error answer, List.map_singleton]

end Engine

section AsksFor

variable {α β : Type} {x : Reading (List FilePath) α} {f : α → Reading (List FilePath) β}
variable {asked first second : List FilePath → List Request}

/-- The computation makes these requests, given those before it, all of them unless it fails. -/
def AsksFor (x : Reading (List FilePath) α) (asked : List FilePath → List Request) : Prop :=
  ∀ earlier, ∃ now, now <+: asked earlier ∧ (x.run earlier).2 = earlier ++ now.map (·.path) ∧
    ∀ a, (x.run earlier).1 = .ok a → now = asked earlier

namespace AsksFor

theorem pure (a : α) : AsksFor (pure a : Reading (List FilePath) α) fun _ => [] :=
  fun earlier => ⟨[], List.prefix_rfl, (List.append_nil earlier).symm, fun _ _ => rfl⟩

theorem throw (failure : Failure) :
    AsksFor (throw failure : Reading (List FilePath) α) fun _ => [] :=
  fun earlier => ⟨[], List.prefix_rfl, (List.append_nil earlier).symm, nofun⟩

theorem bind (h : AsksFor x first) (next : ∀ a, AsksFor (f a) second) :
    AsksFor (x >>= f) fun earlier =>
      first earlier ++ second (earlier ++ (first earlier).map (·.path)) := by
  intro earlier
  obtain ⟨now, begins, log, whole⟩ := h earlier
  rw [run_bind]
  generalize x.run earlier = result at log whole
  obtain ⟨_ | a, later⟩ := result
  · refine ⟨now, begins.trans (List.prefix_append _ _), log, fun b done => ?_⟩
    contradiction
  · obtain rfl := whole a rfl
    obtain rfl : later = earlier ++ (first earlier).map (·.path) := log
    obtain ⟨more, begins', log', whole'⟩ := next a (earlier ++ (first earlier).map (·.path))
    refine ⟨first earlier ++ more, (List.prefix_append_right_inj _).mpr begins', ?_, ?_⟩
    · rw [log', List.map_append, List.append_assoc]
    · exact fun b done => congrArg (first earlier ++ ·) (whole' b done)

/-- A step that makes no request leaves the requests as they are. -/
theorem bind_quiet (h : AsksFor x asked) (next : ∀ a, AsksFor (f a) fun _ => []) :
    AsksFor (x >>= f) asked := by
  simpa using h.bind next

end AsksFor

/-- The same of a computation that holds output aside. -/
def AsksOnShelf (x : StateT Shelf (Reading (List FilePath)) α)
    (asked : List FilePath → List Request) : Prop :=
  ∀ shelf, AsksFor (x shelf) asked

namespace AsksOnShelf

variable {y : StateT Shelf (Reading (List FilePath)) α}
variable {g : α → StateT Shelf (Reading (List FilePath)) β}

theorem bind (h : AsksOnShelf y first) (next : ∀ a, AsksOnShelf (g a) second) :
    AsksOnShelf (y >>= g) fun earlier =>
      first earlier ++ second (earlier ++ (first earlier).map (·.path)) :=
  fun shelf => (h shelf).bind fun r => next r.1 r.2

theorem bind_quiet (h : AsksOnShelf y asked) (next : ∀ a, AsksOnShelf (g a) fun _ => []) :
    AsksOnShelf (y >>= g) asked :=
  fun shelf => (h shelf).bind_quiet fun r => next r.1 r.2

theorem map (h : AsksOnShelf y asked) (q : α → β) : AsksOnShelf (q <$> y) asked := by
  rw [map_eq_pure_bind]
  exact h.bind_quiet fun a shelf => .pure (q a, shelf)

theorem lift (h : AsksFor x asked) : AsksOnShelf (liftM x) asked :=
  fun shelf => h.bind_quiet fun a => .pure (a, shelf)

theorem setAside (text : Text) :
    AsksOnShelf (setAside text : StateT Shelf (Reading (List FilePath)) Text) fun _ => [] := by
  intro shelf
  unfold Stencil.setAside
  cases shelf.keep text with
  | ok kept => exact .pure kept
  | error failure => exact .throw failure

end AsksOnShelf

section Inclusion

variable {inclusion : Text → Reading (List FilePath) Text}
variable {ask : List FilePath → Text → List Request}
variable (each : ∀ name, AsksFor (inclusion name) fun earlier => ask earlier name)
include each

/-- The pieces of a text are replaced in turn, and only its tags ask for something. -/
theorem asksOnShelf_pieces (pieces : List (Piece Text)) (start : Nat) :
    AsksOnShelf (pieces.mapM (Piece.replace fun _ name => do setAside (← inclusion name)))
      fun earlier => inTurn ask earlier ((spansFrom start pieces).map (·.content)) := by
  induction pieces generalizing start with
  | nil => exact fun shelf => .pure ([], shelf)
  | cons piece rest ih =>
    rw [List.mapM_cons]
    cases piece with
    | copied c =>
      have later := (ih (start + 1)).map ([c] :: ·)
      simpa [Piece.replace, spansFrom] using later
    | found lexeme name =>
      have here := (AsksOnShelf.lift (each name)).bind_quiet AsksOnShelf.setAside
      exact here.bind fun front => (ih (start + lexeme.length)).map (front :: ·)

theorem asksOnShelf_expandInclusions (text : Text) :
    AsksOnShelf (Engine.expandInclusions inclusion text) fun earlier =>
      inTurn ask earlier (includedNames text) :=
  (asksOnShelf_pieces each (pieces (atOpener inclusion?) text) 0).map List.flatten

theorem asksFor_assemble {e : Engine} {tokens : Tokens} {context : Value} (text : Text) :
    AsksFor (e.assemble tokens context inclusion text) fun earlier =>
      inTurn ask earlier (includedNames text) := by
  intro earlier
  rw [Engine.run_assemble]
  have expanded := asksOnShelf_expandInclusions each text (.empty (tokens earlier.length))
  refine expanded.bind_quiet (fun r => ?_) earlier
  cases Render.finish e.catalog context r.1 r.2 with
  | ok page => exact .pure page
  | error failure => exact .throw failure

end Inclusion

end AsksFor

section Engine

variable {e : Engine} {reader : Reader} {tokens : Tokens} {context : Value}

theorem asksFor_includeFile {inner : Text → Reading (List FilePath) Text}
    {asked : List FilePath → Text → List Request}
    (each : ∀ content, AsksFor (inner content) fun earlier => asked earlier content)
    (name : Text) :
    AsksFor (e.includeFile reader inner name) fun earlier =>
      e.requestsFor reader asked earlier name := by
  intro earlier
  rw [Engine.run_includeFile]
  cases answer : reader earlier (e.views.inclusion name) with
  | ok content =>
    dsimp only
    rw [Engine.requestsFor_ok answer]
    generalize e.views.inclusion name = path
    obtain ⟨now, begins, log, whole⟩ := each content (earlier ++ [path])
    refine ⟨⟨path, []⟩ :: now.map (Request.within path), ?_, ?_, ?_⟩
    · exact List.cons_prefix_cons.mpr ⟨rfl, begins.map _⟩
    · rw [log, List.map_cons, map_path_within, List.append_assoc, List.singleton_append]
    · intro a done
      rw [whole a done]
  | error error =>
    dsimp only
    rw [Engine.requestsFor_error answer]
    refine ⟨_, List.prefix_rfl, ?_, fun _ _ => rfl⟩
    cases error <;> rfl

theorem asksFor_renderWithin (depth : Nat) (text : Text) :
    AsksFor (e.renderWithin reader tokens context depth text) fun earlier =>
      e.requestsWithin reader depth earlier text := by
  induction depth generalizing text with
  | zero =>
    have asked : AsksFor (e.assemble tokens context (fun _ => return []) text) fun earlier =>
        inTurn (fun _ _ => []) earlier (includedNames text) :=
      asksFor_assemble (fun _ => .pure []) text
    simp only [inTurn_quiet] at asked
    exact asked
  | succ depth ih => exact asksFor_assemble (asksFor_includeFile ih) text

theorem asksFor_render (e : Engine) (reader : Reader) (tokens : Tokens) (context : Value)
    (template : Text) :
    AsksFor (e.render reader tokens context template) fun earlier =>
      e.requestsWithin reader e.maxDepth.toNat earlier template :=
  asksFor_renderWithin e.maxDepth.toNat template

end Engine

/-- Which files are asked for does not depend on the data. They are those of the expansion: all of
them where there is a page, and the first ones where the render fails. -/
theorem reads_eq_expansion (e : Engine) (read : FilePath → Except ReadError Text) (tokens : Tokens)
    (context : Value) (template : Text) :
    let answer := (e.render (fun _ => read) tokens context template).outcome []
    let files := e.expansion read e.maxDepth.toNat template
    answer.2 <+: files ∧ (∀ page, answer.1 = .ok page → answer.2 = files) ∧
      ∀ (other : Value) (redrawn : Tokens) page page',
        let answer' := (e.render (fun _ => read) redrawn other template).outcome []
        answer.1 = .ok page → answer'.1 = .ok page' → answer.2 = answer'.2 := by
  have logged : ∀ (tokens : Tokens) (context : Value),
      let answer := (e.render (fun _ => read) tokens context template).outcome []
      answer.2 <+: e.expansion read e.maxDepth.toNat template ∧
        ∀ page, answer.1 = .ok page → answer.2 = e.expansion read e.maxDepth.toNat template := by
    intro tokens context
    obtain ⟨now, begins, log, whole⟩ :=
      asksFor_render e (fun _ => read) tokens context template []
    rw [List.nil_append] at log
    rw [← e.map_path_requestsWithin read e.maxDepth.toNat [] template]
    refine ⟨?_, fun page shown => ?_⟩
    · exact log ▸ begins.map _
    · exact log.trans (congrArg _ (whole page shown))
  obtain ⟨begins, whole⟩ := logged tokens context
  refine ⟨begins, whole, fun other redrawn page page' shown shown' => ?_⟩
  exact (whole page shown).trans ((logged redrawn other).2 page' shown').symm

def cycleEngine : Engine := ⟨⟨.ofText "/views".toList⟩, .seeded .builtin, 2⟩

def cycleRead (path : FilePath) : Except ReadError Text :=
  if path = cycleEngine.views.inclusion ['a'] then .ok "{{> b }}".toList
  else if path = cycleEngine.views.inclusion ['b'] then .ok "<{{> a }}>".toList
  else .error .unreadable

def cycleTemplate : Text :=
  Template.conditionTag ['x'] ++ Template.inclusionTag ['a'] ++ conditionCloser ++
    Template.eachTag ['y'] ++ Template.inclusionTag ['b'] ++ eachCloser

theorem reads_eq_expansion_sample :
    let asked (context : Value) :=
      ((cycleEngine.render (fun _ => cycleRead) Token.ofNat context cycleTemplate).outcome []).2
    let items := Value.sequence .list [.int 1, .int 2]
    asked (.mapping []) = ["a", "b", "b", "a"].map (cycleEngine.views.inclusion ·.toList) ∧
      asked (.mapping []) = asked (.mapping [(.text ['y'], items)]) := by
  have law := reads_eq_expansion cycleEngine cycleRead Token.ofNat (.mapping []) cycleTemplate
  have shown : ((cycleEngine.render (fun _ => cycleRead) Token.ofNat (.mapping [])
      cycleTemplate).outcome []).1 = .ok [] := ok_of_toOption (by decide +kernel)
  exact ⟨(law.2.1 [] shown).trans (by decide),
    law.2.2 _ Token.ofNat [] "<><>".toList shown (ok_of_toOption (by decide +kernel))⟩

end Stencil
