import Stencil.Proofs.Lockstep
import Stencil.Proofs.Script.Stages
import Stencil.Proofs.Template.Tree

/-! Rendering with held output is rendering with scripts: the same page or the same failure,
after asking for the same files, under every token. -/
namespace Stencil

open Stencil.Shelf Template

variable {shelf : Shelf} {s : Script} {t : Text} {α β γ δ : Type}

/-- As `Answers`, for computations that ask for files: from the same paths on, both have asked for
the same ones. -/
def Asks (tame : Prop) (P : β → α → Prop) (y : Script.Asking β)
    (x : Reading (List FilePath) α) : Prop :=
  ∀ earlier, Answers tame P (y.run earlier).1 (x.run earlier).1 ∧
    ((y.run earlier).1 ≠ .error .mixed → (y.run earlier).2 = (x.run earlier).2)

namespace Asks

variable {tame : Prop} {P : β → α → Prop} {Q : δ → γ → Prop} {y : Script.Asking β}
variable {x : Reading (List FilePath) α}

theorem of_pure {b : β} {a : α} (h : P b a) : Asks tame P (pure b) (pure a) :=
  fun _ => ⟨⟨a, rfl, h⟩, fun _ => rfl⟩

theorem bind {g : β → Script.Asking δ} {f : α → Reading (List FilePath) γ} (h : Asks tame P y x)
    (next : ∀ b a, P b a → Asks tame Q (g b) (f a)) : Asks tame Q (y >>= g) (x >>= f) := by
  intro earlier
  rw [run_bind, run_bind]
  obtain ⟨answers, asked⟩ := h earlier
  generalize y.run earlier = left at answers asked
  generalize x.run earlier = right at answers asked
  obtain ⟨result, log⟩ := left
  obtain ⟨result', log'⟩ := right
  dsimp only at answers asked
  cases result with
  | ok b =>
    obtain ⟨a, rfl, related⟩ := answers
    obtain rfl := asked (by simp)
    exact next b a related log
  | error refusal =>
    cases refusal with
    | failure cause =>
      obtain rfl : result' = .error cause := answers
      exact ⟨rfl, fun _ => asked (by simp)⟩
    | mixed =>
      refine ⟨fun tamed c later => ?_, fun settled => absurd rfl settled⟩
      cases result' with
      | error cause => cases later
      | ok a =>
        obtain ⟨b, related⟩ := answers tamed a rfl
        exact (next b a related log').1.related tamed later

theorem of_failure (cause : Failure) : Asks tame P (throw (.failure cause)) (throw cause) :=
  fun _ => ⟨rfl, fun _ => rfl⟩

end Asks

/-- Computations that ask for files, and may hold output aside. -/
def asking (tame : Prop) : Coupling Script.Asking (StateT Shelf (Reading (List FilePath))) where
  Related shelf R y x := Asks tame (Onward shelf R) y (x shelf)
  pure sound related := Asks.of_pure ⟨.refl _, sound, related⟩
  bind h next := h.bind fun _ _ here earlier =>
    have there := next _ _ _ here.more here.sound here.related earlier
    ⟨there.1.imp fun _ _ rest => rest.after here.more, there.2⟩

section Inclusion

variable {tame : Prop} {inclusion : Text → Script.Asking Text}
variable {inclusion' : Text → Reading (List FilePath) Text}

theorem asks_setAside {y : Script.Asking Text} {x : Reading (List FilePath) Text}
    (sound : shelf.Sound) (h : Asks tame SamePage y x) :
    (asking tame).Related shelf Shelf.Spells (Script.hold <$> y) (do setAside (← x)) := by
  have lifted : (do setAside (← x) : StateT Shelf (Reading (List FilePath)) Text) shelf =
      x >>= fun page => setAside page shelf := by
    change ((x >>= fun page => pure (page, shelf)) >>= fun r => setAside r.1 r.2) = _
    simp
  change Asks _ _ _ ((do setAside (← x) : StateT Shelf (Reading (List FilePath)) Text) shelf)
  rw [map_eq_pure_bind, lifted]
  refine h.bind ?_
  rintro page _ ⟨rfl, free⟩
  have held : Agree tame shelf _ _ (shelf.keep page) := agree_keep sound free
  obtain ⟨kept, same, onward⟩ := held
  rw [setAside, same]
  exact Asks.of_pure onward

theorem asks_expandInclusions
    (h : ∀ name, Asks tame SamePage (inclusion name) (inclusion' name))
    (sound : shelf.Sound) (spelled : shelf.Spells s t) :
    (asking tame).Related shelf Shelf.Spells (Script.expandInclusions inclusion s)
      (Engine.expandInclusions inclusion' t) := by
  refine (asking tame).rewrite inStep_inclusion Markup.consumes_inclusion ?_ sound spelled
  intro shelf lexeme lexeme' name name' sound _ same
  exact same ▸ asks_setAside sound (h name)

theorem asks_assemble {e : Engine} {tokens : Tokens} {context : Value} {template : Text}
    (clean : e.catalog.NulFree) (free : context.NulFree) (plain : Text.NulFree template)
    (h : ∀ name, Asks e.catalog.Tame SamePage (inclusion name) (inclusion' name)) :
    Asks e.catalog.Tame SamePage (Script.assemble e context inclusion template)
      (e.assemble tokens context inclusion' template) := by
  intro earlier
  rw [Engine.run_assemble]
  have start : (Shelf.empty (tokens earlier.length)).Sound := sound_empty _
  have expanded := asks_expandInclusions h start (.ofText plain)
  refine (Asks.bind expanded fun s r onward => ?_ : Asks _ SamePage _ _) earlier
  have finished := answers_finish clean free onward.sound onward.related
  cases result : Script.finish e.catalog context s with
  | ok page =>
    rw [result] at finished
    obtain ⟨page', same, related⟩ := finished
    rw [same]
    exact .of_pure related
  | error refusal =>
    rw [result] at finished
    cases refusal with
    | failure cause =>
      have same : Render.finish e.catalog context r.1 r.2 = .error cause := finished
      rw [same]
      exact .of_failure cause
    | mixed =>
      intro asked
      refine ⟨fun tamed page rendered => ?_, fun unmixed => absurd rfl unmixed⟩
      cases shape : Render.finish e.catalog context r.1 r.2 with
      | ok page' =>
        rw [shape] at rendered
        cases rendered
        exact finished tamed page shape
      | error cause =>
        rw [shape] at rendered
        cases rendered

theorem Script.run_includeFile (e : Engine) (reader : Reader) (inner : Text → Script.Asking Text)
    (name : Text) (earlier : List FilePath) :
    (Script.includeFile e reader inner name).run earlier =
      (match reader earlier (e.views.inclusion name) with
        | .ok content => inner content
        | .error (.failed cause) => throw (.failure cause)
        | .error _ => return [] : Script.Asking Text).run
      (earlier ++ [e.views.inclusion name]) := rfl

variable {e : Engine} {reader : Reader} {tokens : Tokens} {context : Value}

theorem asks_includeFile {tame : Prop} {inner : Text → Script.Asking Text}
    {inner' : Text → Reading (List FilePath) Text}
    (files : ∀ earlier path content, reader earlier path = .ok content → Text.NulFree content)
    (h : ∀ content, Text.NulFree content → Asks tame SamePage (inner content) (inner' content))
    (name : Text) :
    Asks tame SamePage (Script.includeFile e reader inner name)
      (e.includeFile reader inner' name) := by
  intro earlier
  rw [Script.run_includeFile, Engine.run_includeFile]
  cases read : reader earlier (e.views.inclusion name) with
  | ok content => exact h content (files _ _ _ read) _
  | error cause =>
    cases cause with
    | failed cause => exact Asks.of_failure cause _
    | unreadable | undecodable => exact Asks.of_pure ⟨rfl, Text.nulFree_nil⟩ _

theorem asks_renderWithin (clean : e.catalog.NulFree) (free : context.NulFree)
    (files : ∀ earlier path content, reader earlier path = .ok content → Text.NulFree content)
    (depth : Nat) {template : Text} (plain : Text.NulFree template) :
    Asks e.catalog.Tame SamePage (Script.renderWithin e reader context depth template)
      (e.renderWithin reader tokens context depth template) := by
  induction depth generalizing template with
  | zero =>
    exact asks_assemble clean free plain fun _ => Asks.of_pure ⟨rfl, Text.nulFree_nil⟩
  | succ depth ih =>
    exact asks_assemble clean free plain (asks_includeFile files fun _ plain => ih plain)

end Inclusion

/-- A page that is no mixed call's has no NUL. -/
theorem Answers.nulFree {tame : Prop} {y : Except Refusal Text} {x : Except Failure Text}
    {page : Text} (h : Answers tame SamePage y x) (unmixed : y ≠ .error .mixed)
    (rendered : x = .ok page) : Text.NulFree page := by
  subst rendered
  cases y with
  | ok page' =>
    obtain ⟨_, same, rfl, free⟩ := h
    cases same
    exact free
  | error refusal =>
    cases refusal with
    | failure cause => contradiction
    | mixed => exact absurd rfl unmixed

theorem eq_map_of_asks {tame : Prop} {y : Script.Asking Text} {x : Reading (List FilePath) Text}
    {earlier : List FilePath} (h : Asks tame SamePage y x)
    (unmixed : (y.run earlier).1 ≠ .error .mixed) :
    y.run earlier = (x.outcome earlier).map Refusal.of id := by
  obtain ⟨answers, asked⟩ := h earlier
  have same := asked unmixed
  change y.run earlier = (x.run earlier).map Refusal.of id
  generalize y.run earlier = left at answers same unmixed
  generalize x.run earlier = right at answers same
  obtain ⟨result, log⟩ := left
  obtain ⟨result', log'⟩ := right
  obtain rfl : log = log' := same
  cases result with
  | ok page =>
    obtain ⟨_, rfl, rfl, -⟩ := answers
    rfl
  | error refusal =>
    cases refusal with
    | failure cause =>
      obtain rfl : result' = .error cause := answers
      rfl
    | mixed => exact absurd rfl unmixed

theorem renderWithin_eq_script (e : Engine) (reader : Reader) (tokens : Tokens) (context : Value)
    (depth : Nat) (template : Text) (earlier : List FilePath) (clean : e.catalog.NulFree)
    (free : context.NulFree) (plain : Text.NulFree template)
    (files : ∀ earlier path content, reader earlier path = .ok content → Text.NulFree content)
    (unmixed : ((Script.renderWithin e reader context depth template).run earlier).1 ≠
      .error .mixed) :
    (Script.renderWithin e reader context depth template).run earlier =
      ((e.renderWithin reader tokens context depth template).outcome earlier).map Refusal.of id :=
  eq_map_of_asks (asks_renderWithin clean free files depth plain) unmixed

/-- Rendering with scripts tells the answer of a render: its page or its failure, and the files
asked for. Neither the token nor any placeholder shows. -/
theorem render_eq_script (e : Engine) (reader : Reader) (tokens : Tokens) (context : Value)
    (template : Text) (earlier : List FilePath) (clean : e.catalog.NulFree)
    (free : context.NulFree) (plain : Text.NulFree template)
    (files : ∀ earlier path content, reader earlier path = .ok content → Text.NulFree content)
    (unmixed : (Script.render e reader context template earlier).1 ≠ .error .mixed) :
    Script.render e reader context template earlier =
      ((e.render reader tokens context template).outcome earlier).map Refusal.of id :=
  renderWithin_eq_script e reader tokens context _ template earlier clean free plain files unmixed

def sampleEngine : Engine := ⟨⟨.ofText "/views".toList⟩, .seeded .builtin, 32⟩

def sampleReader : Reader := fun _ path =>
  if path = sampleEngine.views.inclusion ['p'] then .ok "<{{ a }}>".toList else .error .unreadable

def sampleNames : Mapping :=
  [(.text ['a'], .text "hi".toList),
    (.text "xs".toList, .sequence .list [.text ['b'], .text ['c']])]

def sampleContext : Value := .mapping sampleNames

def sampleTemplate : Text :=
  eachTag "xs".toList ++ inclusionTag ['p'] ++ callTag "upper".toList "this".toList ++
    Markup.eachCloser

theorem sampleReader_nulFree (earlier : List FilePath) (path : FilePath) (content : Text)
    (read : sampleReader earlier path = .ok content) : Text.NulFree content := by
  unfold sampleReader at read
  split at read <;> cases read
  decide

theorem sampleContext_nulFree : sampleContext.NulFree := by
  simp [sampleContext, sampleNames, Value.NulFree, Value.Every, Value.EveryItem, Value.Plain]

theorem render_eq_script_sample :
    Script.render sampleEngine sampleReader sampleContext sampleTemplate [] =
      ((sampleEngine.render sampleReader Token.ofNat sampleContext sampleTemplate).outcome []).map
        Refusal.of id :=
  render_eq_script sampleEngine sampleReader Token.ofNat sampleContext sampleTemplate []
    Catalog.nulFree_builtin sampleContext_nulFree (by decide) sampleReader_nulFree
    (by decide)

/-- With the built-in helpers alone the token is not observable, and no NUL reaches the page, as
long as no call that is made has held output among its arguments. -/
theorem render_unobservable (views : Views) (maxDepth : Int) (reader : Reader) (context : Value)
    (template : Text) (earlier : List FilePath) (free : context.NulFree)
    (plain : Text.NulFree template)
    (files : ∀ earlier path content, reader earlier path = .ok content → Text.NulFree content)
    (unmixed : (Script.render ⟨views, .seeded .builtin, maxDepth⟩ reader context template
      earlier).1 ≠ .error .mixed) (first second : Tokens) :
    let e : Engine := ⟨views, .seeded .builtin, maxDepth⟩
    (e.render reader first context template).outcome earlier =
        (e.render reader second context template).outcome earlier ∧
      ∀ page, ((e.render reader first context template).outcome earlier).1 = .ok page →
        Text.NulFree page := by
  intro e
  have clean : e.catalog.NulFree := Catalog.nulFree_builtin
  have asks : Asks _ SamePage (Script.renderWithin e reader context e.maxDepth.toNat template)
      (e.render reader first context template) := asks_renderWithin clean free files _ plain
  constructor
  · have left := renderWithin_eq_script e reader first context e.maxDepth.toNat template earlier
      clean free plain files unmixed
    have right := renderWithin_eq_script e reader second context e.maxDepth.toNat template earlier
      clean free plain files unmixed
    have same := left.symm.trans right
    exact Prod.map_injective.mpr ⟨Refusal.of_injective, Function.injective_id⟩ same
  · intro page rendered
    exact (asks earlier).1.nulFree unmixed rendered

theorem render_unobservable_sample :
    (Script.render sampleEngine sampleReader sampleContext sampleTemplate []).1 ≠ .error .mixed ∧
      (sampleEngine.render sampleReader Token.ofNat sampleContext sampleTemplate).outcome [] =
        (sampleEngine.render sampleReader (fun n => .ofNat (n + 1)) sampleContext
          sampleTemplate).outcome [] :=
  have unmixed : (Script.render sampleEngine sampleReader sampleContext sampleTemplate []).1 ≠
      .error .mixed := by decide
  ⟨unmixed, (render_unobservable sampleEngine.views 32 sampleReader sampleContext sampleTemplate []
    sampleContext_nulFree (by decide) sampleReader_nulFree unmixed _ _).1⟩

/-- A cut through a placeholder leaves a part of it on the page. -/
def cutTemplate : Text :=
  callTag "truncate".toList ('"' :: inclusionTag ['p'] ++ ['"', ' ', '1'])

theorem cut_placeholder_shows :
    Text.NulFree cutTemplate ∧
      ∃ page, ((sampleEngine.render sampleReader Token.ofNat sampleContext cutTemplate).outcome
        []).1 = .ok page ∧ ¬Text.NulFree page :=
  ⟨by decide, '\x00' :: "...".toList, ok_of_toOption (by decide +kernel), by decide⟩

end Stencil
