import Stencil.Proofs.Render.Loop
import Stencil.Proofs.Render.Unspoken
import Stencil.Proofs.Value.Reaching

/-! A loop over a list that is put together of two. If its body asks neither for the list
nor for the place of a round, a round does not depend on those before it, although all hold
their output on one shelf: the page is that of the first list and then that of the second,
and what fails first in the first list, or else in the second, fails here. -/
namespace Stencil

section Unmixed

open Text

variable {token : Token} {s : Script} {t : Text} {α : Type}

theorem Shelf.Spells.eq_ofText (h : (Shelf.empty token).Spells s t) : s = Script.ofText t := by
  induction h with
  | nil => rfl
  | @letter c s t _ _ ih => exact congrArg (Symbol.letter c :: ·) ih
  | chunk found => exact absurd (Array.getElem?_empty.symm.trans found) nofun

/-- Computations that come to a result or to a failure. -/
def unmixed : Guarantee (Except Refusal) where
  Holds x := x ≠ .error .mixed
  pure _ := nofun
  bind h next mixed := by
    rcases bind_eq_error_iff.mp mixed with here | ⟨a, -, later⟩
    · exact h here
    · exact next a later

theorem unmixed_of (x : Except Failure α) : unmixed.Holds (Refusal.of x) := by
  cases x <;> exact nofun

namespace Script

/-- A rewrite comes to something if every replacement does that may be asked for. -/
theorem unmixed_rewrite {rule : Rule α} {new : Script → α → Except Refusal Script}
    (each : ∀ rest lexeme content tail, rest <:+ s → rule rest = some (content, tail) →
      unmixed.Holds (new lexeme content)) : unmixed.Holds (rewrite rule new s) := by
  have from_skip : ∀ skip, unmixed.Holds (rewriteFrom rule new skip s) := by
    induction s with
    | nil => exact fun skip => by cases skip <;> exact unmixed.pure []
    | cons x rest ih =>
      have later := ih fun part lexeme content tail within =>
        each part lexeme content tail (within.trans (List.suffix_cons x rest))
      intro skip
      cases skip with
      | succ skip => exact later skip
      | zero =>
        unfold rewriteFrom
        split
        next content tail read =>
          exact unmixed.bind (each _ _ content tail List.suffix_rfl read)
            fun front => unmixed.map (later _)
        next => exact unmixed.map (later 0)
  exact from_skip 0

variable {catalog : Catalog} {context : Value}

theorem unmixed_fillVariables (place : Markup.Place) :
    unmixed.Holds (fillVariables context place s) :=
  unmixed_rewrite fun _ _ _ _ _ _ => unmixed.map (unmixed_of _)

theorem unmixed_chooseBranches (place : Markup.Place) :
    unmixed.Holds (chooseBranches context place s) :=
  unmixed_rewrite fun _ _ _ _ _ _ => unmixed.bind (unmixed_of _) fun _ => unmixed.pure _

/-- What is chosen in a text is text. -/
theorem chooseBranches_ofText {place : Markup.Place} (free : NulFree t)
    (chosen : chooseBranches context place (ofText t) = .ok s) :
    ∃ u, s = ofText u ∧ NulFree u := by
  have empty : (Shelf.empty (Token.ofNat 0)).Sound := Shelf.sound_empty _
  have agree : Answers True _ (chooseBranches context place (ofText t)) _ :=
    agree_chooseBranches place empty (.ofText free) empty
  rw [chosen] at agree
  obtain ⟨u, -, spelled⟩ := agree
  obtain rfl := spelled.eq_ofText
  exact ⟨u, rfl, (spelled.eq_of_text? (text?_ofText u)).2⟩

theorem suffix_ofText {rest : Script} (within : rest <:+ ofText t) :
    ∃ u, rest = ofText u ∧ u <:+ t := by
  obtain ⟨front, split⟩ := within
  obtain ⟨lead, u, rfl, -, same⟩ := List.map_eq_append_iff.mp split.symm
  exact ⟨u, same.symm, List.suffix_append lead u⟩

/-- The arguments of a call that stands in a text are text. -/
theorem unmixed_callHelpers (free : NulFree t) :
    unmixed.Holds (callHelpers catalog context (ofText t)) := by
  refine unmixed_rewrite fun rest lexeme c tail within read => ?_
  obtain ⟨u, rfl, inside⟩ := suffix_ofText within
  have spelled : (Shelf.empty (Token.ofNat 0)).Spells (ofText u) u :=
    .ofText (free.of_subset fun _ member => inside.mem member)
  have step := inStep_atOpener spelled (inStep_call spelled)
  rw [read] at step
  generalize Markup.atOpener Markup.call? u = found at step
  cases step with
  | some both =>
    obtain ⟨⟨-, arguments⟩, -⟩ := both
    unfold callHelper
    split
    next => exact nofun
    next =>
      rw [arguments.eq_ofText, text?_ofText]
      exact unmixed.map (unmixed_of _)

theorem unmixed_runRound (free : NulFree t) :
    unmixed.Holds (runRound catalog context (ofText t)) := by
  intro mixed
  rcases bind_eq_error_iff.mp mixed with here | ⟨s, chosen, later⟩
  · exact unmixed_chooseBranches .item here
  · obtain ⟨u, rfl, free'⟩ := chooseBranches_ofText free chosen
    exact unmixed.bind (unmixed_callHelpers free') (fun _ => unmixed_fillVariables .item) later

end Script

end Unmixed

open Markup Text

section Round

variable {catalog : Catalog} {m other : Mapping} {name body : Text}

theorem Mapping.AgreeBut.symm (h : AgreeBut name m other) : AgreeBut name other m :=
  fun part ne => (h part ne).symm

theorem Mapping.AgreeBut.trans {third : Mapping} (first : AgreeBut name m other)
    (last : AgreeBut name other third) : AgreeBut name m third :=
  fun part ne => (first part ne).trans (last part ne)

/-- Two values of one name make no difference elsewhere. -/
theorem Mapping.agreeBut_set_set (m : Mapping) (name : Text) (value value' : Value) :
    AgreeBut name (m.set name value) (m.set name value') :=
  (agreeBut_set m name value).trans (agreeBut_set m name value').symm

theorem runRound_unspoken (agree : Mapping.AgreeBut name m other) (free : NulFree name)
    (unspoken : ¬name.Sublist body) :
    Render.runRound catalog (.mapping m) body = Render.runRound catalog (.mapping other) body :=
  funext fun shelf => (alike_runRound agree free (.ofText unspoken) shelf trivial).1

/-- A round in a loop over one item. -/
def roundOf (catalog : Catalog) (m : Mapping) (body : Text) (item : Value) : Render.Holding Text :=
  Render.runRound catalog (.mapping (m.withItem item 0 1)) body

/-- What a round gives does not depend on its place. -/
theorem runRound_withItem (unmarked : '@' ∉ body) (item : Value) (index total : Int) :
    Render.runRound catalog (.mapping (m.withItem item index total)) body =
      roundOf catalog m body item := by
  have unspoken : ∀ name : Text, '@' ∈ name → ¬name.Sublist body :=
    fun name marked part => unmarked (part.mem marked)
  let placed (index : Int) (first last : Bool) : Value := .mapping
    ((((m.set "this".toList item).set "@index".toList (.int index)).set "@first".toList
      (.bool first)).set "@last".toList (.bool last))
  -- The three names of the place are changed one after another.
  calc Render.runRound catalog (placed index (index = 0) (index = total - 1)) body
    _ = Render.runRound catalog (placed index (index = 0) true) body :=
      runRound_unspoken (Mapping.agreeBut_set_set _ _ _ _) (by decide) (unspoken _ (by decide))
    _ = Render.runRound catalog (placed index true true) body :=
      runRound_unspoken ((Mapping.agreeBut_set_set _ _ _ _).set _ _) (by decide)
        (unspoken "@first".toList (by decide))
    _ = Render.runRound catalog (placed 0 true true) body :=
      runRound_unspoken (((Mapping.agreeBut_set_set _ _ _ _).set _ _).set _ _) (by decide)
        (unspoken "@index".toList (by decide))

end Round

section Rounds

variable {catalog : Catalog} {m : Mapping} {name body : Text} {value : Value} {items : List Value}

/-- The rounds of a loop whose body does not ask for the list. -/
theorem runRounds_unspoken (free : NulFree name) (unspoken : ¬name.Sublist body)
    (unmarked : '@' ∉ body) :
    Render.runRounds catalog (.mapping (m.set name value)) body items =
      List.flatten <$> items.mapM (roundOf catalog m body) :=
  runRounds_eq fun item index => by
    have agree := (Mapping.agreeBut_set m name value).withItem item index items.length
    rw [runRound_unspoken agree free unspoken, runRound_withItem unmarked]

/-- The answers of a round, without the shelf on which it holds its output. -/
def answerOf (catalog : Catalog) (m : Mapping) (body : Text) (item : Value) :
    Except Refusal Script :=
  Script.runRound catalog (.mapping (m.withItem item 0 1)) (Script.ofText body)

def answersOf (catalog : Catalog) (m : Mapping) (body : Text) (items : List Value) :
    Except Refusal Text :=
  (fun rounds => Script.flatten rounds.flatten) <$> items.mapM (answerOf catalog m body)

theorem answersOf_append (xs ys : List Value) :
    answersOf catalog m body (xs ++ ys) = do
      let front ← answersOf catalog m body xs
      let back ← answersOf catalog m body ys
      return front ++ back := by
  have joined (a b : List Script) : Script.flatten (a ++ b).flatten =
      Script.flatten a.flatten ++ Script.flatten b.flatten := by
    rw [List.flatten_append]
    exact List.flatMap_append
  simp only [answersOf, List.mapM_append, map_eq_pure_bind, bind_assoc, pure_bind, joined]

/-- What the rounds hold aside on one shelf is put back as if each round had a shelf of its own. -/
theorem rounds_restored (clean : catalog.NulFree) (free : (Value.mapping m).NulFree)
    (itemsFree : ∀ v ∈ items, v.NulFree) (plain : NulFree body) (token : Token) :
    Refusal.of ((List.flatten <$> items.mapM (roundOf catalog m body) : Render.Holding Text).run
        (.empty token) >>= fun looped => looped.2.restore looped.1) =
      answersOf catalog m body items := by
  have agree : (holding catalog.Tame).Related (.empty token) Shelf.Spells
      (List.flatten <$> items.mapM (answerOf catalog m body))
      (List.flatten <$> items.mapM (roundOf catalog m body)) := by
    refine (holding catalog.Tame).flatten_mapM (Shelf.sound_empty token)
      fun item member later _ sound => ?_
    have scope : (Value.mapping (m.withItem item 0 1)).NulFree :=
      free.itemScope (itemsFree item member) Nat.one_pos rfl
    exact agree_runRound clean scope sound (.ofText plain)
  have settled : unmixed.Holds (List.flatten <$> items.mapM (answerOf catalog m body)) :=
    unmixed.map (unmixed.mapM fun _ _ => Script.unmixed_runRound plain)
  have answers : answersOf catalog m body items =
      Script.flatten <$> List.flatten <$> items.mapM (answerOf catalog m body) := by
    simp only [answersOf, map_eq_pure_bind, bind_assoc, pure_bind]
  rw [answers]
  generalize (List.flatten <$> items.mapM (roundOf catalog m body) : Render.Holding Text) = x
    at agree
  generalize List.flatten <$> items.mapM (answerOf catalog m body) = y at agree settled
  change Answers _ _ y (x.run (.empty token)) at agree
  cases y with
  | ok s =>
    obtain ⟨looped, same, onward⟩ := agree
    rw [same]
    exact congrArg Refusal.of onward.related.restore
  | error refusal =>
    cases refusal with
    | failure cause =>
      have failed : x.run (.empty token) = .error cause := agree
      rw [failed]
      rfl
    | mixed => exact absurd rfl settled

end Rounds

/-- A loop over a name is a loop over the list under that name. -/
theorem runLoop_name {catalog : Catalog} {m : Mapping} {name body : Text} {kind : SequenceKind}
    {items : List Value} (single : '.' ∉ name) :
    Render.runLoop catalog (.mapping (m.set name (.sequence kind items))) ⟨name, body, none⟩ =
      Render.runRounds catalog (.mapping (m.set name (.sequence kind items))) body items := by
  have found : (Value.mapping (m.set name (.sequence kind items))).follow name =
      .ok (.sequence kind items) := by
    rw [Value.follow_part single, Value.child, Mapping.get?_set, if_pos rfl]
    rfl
  rw [Render.runLoop, found]
  rfl

/-- A loop over two lists, one after the other, shows what a loop over the first and then one over
the second show; if the first fails, or else the second, it fails alike. Its body asks neither for
the list nor for the place of a round, and may be anything else. -/
theorem render_append (e : Engine) (reader : Reader) (m : Mapping) (name : Template.Word isNameChar)
    (kind : SequenceKind) (xs ys : List Value) (body : Text) (earlier : List FilePath)
    (clean : e.catalog.NulFree) (free : (Value.mapping m).NulFree)
    (itemsFree : ∀ v ∈ xs ++ ys, v.NulFree) (plain : NulFree body)
    (unspoken : ¬name.text.Sublist body) (unmarked : '@' ∉ body)
    (unclosed : ¬eachCloser <:+: body) (includes : includedNames body = []) :
    let run := fun (tokens : Tokens) (items : List Value) =>
      ((e.render reader tokens (.mapping (m.set name.text (.sequence kind items)))
        (loopText name.text body)).outcome earlier).1
    ∀ tokens first last, run tokens (xs ++ ys) = do
      let front ← run first xs
      let back ← run last ys
      return front ++ back := by
  intro run tokens first last
  have all : ∀ c ∈ name.text, isPathChar .page c = true := fun c member => by
    simp [isPathChar, name.allows c member]
  have single : '.' ∉ name.text := fun member => absurd (name.allows _ member) (by decide)
  have nameFree : NulFree name.text := fun member => absurd (name.allows _ member) (by decide)
  have loop : LoopBody body := ⟨unclosed, inclusion?_eq_none includes⟩
  have answer : ∀ tokens items, (∀ v ∈ items, v.NulFree) →
      Refusal.of (run tokens items) = answersOf e.catalog m body items := by
    intro tokens items inside
    rw [← rounds_restored clean free inside plain (tokens earlier.length)]
    change Refusal.of ((e.render _ _ _ _).outcome earlier).1 = _
    rw [render_loopText name.nonempty all loop, runLoop_name single,
      runRounds_unspoken nameFree unspoken unmarked]
  have front := answer first xs fun v member => itemsFree v (List.mem_append_left ys member)
  have back := answer last ys fun v member => itemsFree v (List.mem_append_right xs member)
  apply Refusal.of_injective
  rw [answer tokens _ itemsFree, answersOf_append, ← front, ← back]
  simp only [Refusal.of_bind]
  rfl

/-- A condition, a call and a tag that is none in the body. -/
def askedBody : Text :=
  Template.conditionTag "this".toList ++ Template.callTag "upper".toList "this".toList ++
    conditionCloser ++ "\x7b\x7b a >".toList

theorem render_append_sample :
    let run := fun (tokens : Tokens) (items : List Value) =>
      ((sampleEngine.render sampleReader tokens (.mapping (sampleNames.set "q".toList
        (.sequence .list items))) (loopText "q".toList askedBody)).outcome []).1
    run Token.ofNat ([.text ['b'], .null] ++ [.text ['c']]) = (do
      let front ← run (fun n => .ofNat (n + 1)) [.text ['b'], .null]
      let back ← run (fun n => .ofNat (n + 2)) [.text ['c']]
      return front ++ back) ∧
    (run Token.ofNat [.text ['b'], .null, .text ['c']]).toOption =
      some "B\x7b\x7b a >\x7b\x7b a >C\x7b\x7b a >".toList := by
  intro run
  have whole := render_append sampleEngine sampleReader sampleNames ⟨['q'], by decide, by decide⟩
    .list [.text ['b'], .null] [.text ['c']] askedBody [] Catalog.nulFree_builtin
    sampleContext_nulFree
    (by simp [Value.NulFree, Value.Every, Value.Plain]) (by decide) (by decide) (by decide)
    (by decide) (by decide)
  exact ⟨whole _ _ _, by decide +kernel⟩

end Stencil
