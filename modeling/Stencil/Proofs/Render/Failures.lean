import Stencil.Proofs.Lockstep
import Stencil.Proofs.Value.Reaching

/-! How a render can fail. A helper call fails with its own failures; everything else that
may go wrong is a numeral of too many digits, or a number under which nothing is held. -/
namespace Stencil

/-- What a helper call raises: an argument that leads nowhere, or the helper's own failure. -/
def Failure.OfHelper : Failure → Prop
  | .undefinedArgument .. | .helperFailed .. => True
  | _ => False

/-- The failures that a render can have. -/
def Failure.OfRender (failure : Failure) : Prop :=
  failure.OfHelper ∨ failure = .overlong ∨ failure = Shelf.notHeld

namespace Value

theorem write_eq_error {z : Int} {failure : Failure} (failed : Numeral.write z = .error failure) :
    failure = .overlong := by
  unfold Numeral.write at failed
  split at failed <;> cases failed
  rfl

mutual

theorem written_eq_error {v : Value} {failure : Failure} (failed : v.written = .error failure) :
    failure = .overlong := by
  cases v with
  | int z => exact write_eq_error failed
  | sequence kind items =>
    rcases bind_eq_error_iff.mp failed with inner | ⟨_, -, rest⟩
    · exact writtenItems_eq_error inner
    · contradiction
  | mapping entries =>
    rcases bind_eq_error_iff.mp failed with inner | ⟨_, -, rest⟩
    · exact writtenEntries_eq_error inner
    · contradiction
  | _ => contradiction

theorem writtenItems_eq_error {items : List Value} {failure : Failure}
    (failed : writtenItems items = .error failure) : failure = .overlong := by
  cases items with
  | nil => contradiction
  | cons item rest =>
    rcases bind_eq_error_iff.mp failed with here | ⟨_, -, later⟩
    · exact written_eq_error here
    · rcases bind_eq_error_iff.mp later with there | ⟨_, -, done⟩
      · exact writtenItems_eq_error there
      · contradiction

theorem writtenEntries_eq_error {entries : List (Value × Value)} {failure : Failure}
    (failed : writtenEntries entries = .error failure) : failure = .overlong := by
  cases entries with
  | nil => contradiction
  | cons entry rest =>
    obtain ⟨key, value⟩ := entry
    rcases bind_eq_error_iff.mp failed with name | ⟨_, -, later⟩
    · exact written_eq_error name
    · rcases bind_eq_error_iff.mp later with here | ⟨_, -, last⟩
      · exact written_eq_error here
      · rcases bind_eq_error_iff.mp last with there | ⟨_, -, done⟩
        · exact writtenEntries_eq_error there
        · contradiction

end

mutual

theorem display_eq_error {v : Value} {failure : Failure} (failed : v.display = .error failure) :
    failure = .overlong := by
  cases v with
  | int z => exact write_eq_error failed
  | sequence kind items =>
    rcases bind_eq_error_iff.mp failed with inner | ⟨_, -, rest⟩
    · exact displayItems_eq_error inner
    · contradiction
  | mapping entries => exact written_eq_error failed
  | float x =>
    simp only [Value.display] at failed
    split at failed <;> contradiction
  | _ => contradiction

theorem displayItems_eq_error {items : List Value} {failure : Failure}
    (failed : displayItems items = .error failure) : failure = .overlong := by
  cases items with
  | nil => contradiction
  | cons item rest =>
    rcases bind_eq_error_iff.mp failed with here | ⟨_, -, later⟩
    · exact display_eq_error here
    · rcases bind_eq_error_iff.mp later with there | ⟨_, -, done⟩
      · exact displayItems_eq_error there
      · contradiction

end

end Value

section Guarantees

variable (P : Failure → Prop)

def failing : Guarantee (Except Failure) where
  Holds x := ∀ failure, x = .error failure → P failure
  pure a failure failed := nomatch failed
  bind h next failure failed := by
    rcases bind_eq_error_iff.mp failed with here | ⟨a, -, later⟩
    · exact h failure here
    · exact next a failure later

def holdingFailing : Guarantee Render.Holding where
  Holds x := ∀ shelf, (failing P).Holds (x shelf)
  pure a shelf := (failing P).pure (a, shelf)
  bind h next shelf := (failing P).bind (h shelf) fun r => next r.1 r.2

def readingFailing (σ : Type) : Guarantee (Reading σ) where
  Holds x := ∀ state, (failing P).Holds (x.run state).1
  pure a state := (failing P).pure a
  bind {_ _ x f} h next state := by
    rw [run_bind]
    have here := h state
    generalize x.run state = result at here ⊢
    obtain ⟨_ | a, later⟩ := result
    · exact fun failure failed => here failure (by cases failed; rfl)
    · exact next a later

def askingFailing : Guarantee (StateT Shelf (Reading (List FilePath))) where
  Holds x := ∀ shelf, (readingFailing P _).Holds (x shelf)
  pure a shelf := (readingFailing P _).pure (a, shelf)
  bind h next shelf := (readingFailing P _).bind (h shelf) fun r => next r.1 r.2

variable {P}

theorem failing_lift {α : Type} {x : Except Failure α} (h : (failing P).Holds x) :
    (holdingFailing P).Holds (liftM x) := by
  intro shelf
  cases x with
  | ok a => exact (failing P).pure (a, shelf)
  | error cause => exact fun failure failed => h failure (by cases failed; rfl)

end Guarantees

theorem ofWord_eq_error {word : Text} {failure : Failure}
    (failed : Helper.Argument.ofWord word = .error failure) : failure = .overlong := by
  unfold Helper.Argument.ofWord at failed
  split at failed
  · contradiction
  · split at failed
    · contradiction
    · cases failed
      rfl
    · split at failed <;> contradiction

section Stages

variable {catalog : Catalog} {context : Value}

/-- An argument cannot be read, or it leads nowhere. -/
theorem argument_eq_error {name word : Text} {failure : Failure}
    (failed : Helper.argument name (fun path => context.follow path) word = .error failure) :
    failure = .overlong ∨ ∃ path, failure = .undefinedArgument name path := by
  rcases bind_eq_error_iff.mp failed with wrong | ⟨kind, -, read⟩
  · exact .inl (ofWord_eq_error wrong)
  · cases kind with
    | literal v => contradiction
    | path path =>
      rcases bind_eq_error_iff.mp read with lost | ⟨value, -, last⟩
      · exact .inl (Value.follow_eq_error lost)
      · split at last
        · cases last
          exact .inr ⟨path, rfl⟩
        · contradiction

theorem fails_argument (name word : Text) :
    (failing Failure.OfRender).Holds
      (Helper.argument name (fun path => context.follow path) word) := by
  intro failure failed
  rcases argument_eq_error failed with overlong | ⟨path, rfl⟩
  · exact .inr (.inl overlong)
  · exact .inl trivial

theorem fails_call {name text : Text} (known : catalog.has name) :
    (failing Failure.OfRender).Holds
      (catalog.call name text fun path => context.follow path) := by
  rw [Catalog.call_eq]
  split
  next unknown => simp [Catalog.has, unknown] at known
  next helper _ =>
    refine (failing _).bind ((failing _).mapM fun word _ => fails_argument name word) ?_
    intro arguments
    cases helper.run arguments with
    | ok value => exact fun failure failed => .inr (.inl (Value.display_eq_error failed))
    | error cause =>
      intro failure failed
      cases failed
      exact .inl trivial

theorem look_eq_error {shelf : Shelf} {digits : Text} {failure : Failure}
    (failed : shelf.look digits = .error failure) :
    failure = .overlong ∨ failure = Shelf.notHeld := by
  unfold Shelf.look at failed
  split at failed
  · split at failed <;> cases failed
    exact .inl rfl
  · cases failed
    split
    · exact .inr rfl
    · exact .inl rfl

theorem fails_look (shelf : Shelf) (digits : Text) :
    (failing Failure.OfRender).Holds (shelf.look digits) :=
  fun _ failed => .inr (look_eq_error failed)

theorem fails_restore (shelf : Shelf) (text : Text) :
    (failing Failure.OfRender).Holds (shelf.restore text) :=
  (failing _).rewrite fun _ digits => fails_look shelf digits

theorem fails_keep (text : Text) (shelf : Shelf) :
    (failing Failure.OfRender).Holds (shelf.keep text) := by
  cases text with
  | nil => exact (failing _).pure ([], shelf)
  | cons c rest => exact (failing _).bind (fails_restore shelf _) fun kept => (failing _).pure _

theorem fails_setAside (text : Text) :
    (holdingFailing Failure.OfRender).Holds (setAside text : Render.Holding Text) := by
  intro shelf
  have kept := fails_keep text shelf
  unfold setAside
  cases result : shelf.keep text with
  | ok pair => exact (failing _).pure pair
  | error cause => exact fun failure failed => kept failure (by cases failed; exact result)

theorem fails_showVariable (v : Markup.Variable) :
    (failing Failure.OfRender).Holds (Render.showVariable context v) := by
  refine (failing _).bind (fun failure failed => .inr (.inl (Value.follow_eq_error failed))) ?_
  intro value
  refine (failing _).bind (fun failure failed => .inr (.inl (Value.display_eq_error failed))) ?_
  exact fun shown => (failing _).pure _

theorem fails_chooseBranch (b : Markup.Block) :
    (failing Failure.OfRender).Holds (Render.chooseBranch context b) :=
  (failing _).bind (fun _ failed => .inr (.inl (Value.follow_eq_error failed))) fun _ =>
    (failing _).pure _

theorem fails_callHelper (lexeme : Text) (c : Markup.Call) :
    (holdingFailing Failure.OfRender).Holds (Render.callHelper catalog context lexeme c) := by
  unfold Render.callHelper
  split
  · exact (holdingFailing _).pure lexeme
  · split
    next known =>
      exact (holdingFailing _).bind (failing_lift (fails_call known)) fun shown =>
        fails_setAside shown
    next => exact (holdingFailing _).pure lexeme

theorem fails_runRound (body : Text) :
    (holdingFailing Failure.OfRender).Holds (Render.runRound catalog context body) := by
  refine (holdingFailing _).bind
    (failing_lift ((failing _).rewrite fun _ b => fails_chooseBranch b)) fun text => ?_
  refine (holdingFailing _).bind ((holdingFailing _).rewrite fun l c => fails_callHelper l c) ?_
  exact fun text => failing_lift ((failing _).rewrite fun _ v => fails_showVariable v)

end Stages

/-- The names of a round are added to a mapping, so that there is a scope for each round. -/
theorem fails_runLoop {catalog : Catalog} {m : Mapping} (b : Markup.Block) :
    (holdingFailing Failure.OfRender).Holds (Render.runLoop catalog (.mapping m) b) := by
  refine (holdingFailing _).bind (failing_lift fun failure failed => ?_) fun value => ?_
  · exact .inr (.inl (Value.follow_eq_error failed))
  · split
    next kind items =>
      refine (holdingFailing _).map ((holdingFailing _).mapM fun item _ => ?_)
      exact fails_runRound b.body
    next => exact (holdingFailing _).pure []

theorem fails_finish {catalog : Catalog} {m : Mapping} (text : Text) (shelf : Shelf) :
    (failing Failure.OfRender).Holds (Render.finish catalog (.mapping m) text shelf) := by
  have loops : (holdingFailing Failure.OfRender).Holds
      (Render.expandLoops catalog (.mapping m) text) :=
    (holdingFailing _).rewrite fun _ b =>
      (holdingFailing _).bind (fails_runLoop b) fun shown => fails_setAside shown
  refine (failing _).bind (loops shelf) fun looped => ?_
  refine (failing _).bind ((failing _).rewrite fun _ b => fails_chooseBranch b) fun chosen => ?_
  have calls : (holdingFailing Failure.OfRender).Holds
      (Render.callHelpers catalog (.mapping m) chosen) :=
    (holdingFailing _).rewrite fun l c => fails_callHelper l c
  refine (failing _).bind (calls looped.2) fun called => ?_
  refine (failing _).bind ((failing _).rewrite fun _ v => fails_showVariable v) fun filled => ?_
  exact fails_restore called.2 filled

section Engine

variable {e : Engine} {reader : Reader} {tokens : Tokens} {m : Mapping}

theorem fails_askingSetAside (text : Text) :
    (askingFailing Failure.OfRender).Holds
      (setAside text : StateT Shelf (Reading (List FilePath)) Text) := by
  intro shelf earlier
  have kept := fails_keep text shelf
  unfold setAside
  cases result : shelf.keep text with
  | ok pair => exact (failing _).pure pair
  | error cause => exact fun failure failed => kept failure (by cases failed; exact result)

theorem fails_assemble {inclusion : Text → Reading (List FilePath) Text}
    (h : ∀ name, (readingFailing Failure.OfRender _).Holds (inclusion name)) (template : Text) :
    (readingFailing Failure.OfRender _).Holds
      (e.assemble tokens (.mapping m) inclusion template) := by
  intro earlier
  rw [Engine.run_assemble]
  have expanded : (askingFailing Failure.OfRender).Holds
      (Engine.expandInclusions inclusion template) := by
    refine (askingFailing _).rewrite fun _ name => ?_
    refine (askingFailing _).bind (fun shelf => ?_) fails_askingSetAside
    exact (readingFailing _ _).bind (h name) fun shown => (readingFailing _ _).pure (shown, shelf)
  refine (readingFailing Failure.OfRender _).bind (expanded _) (fun r => ?_) earlier
  have finished := @fails_finish e.catalog m r.1 r.2
  cases result : Render.finish e.catalog (.mapping m) r.1 r.2 with
  | ok page => exact (readingFailing _ _).pure page
  | error cause => exact fun _ failure failed => finished failure (by cases failed; exact result)

theorem fails_includeFile
    (loads : ∀ earlier path cause, reader earlier path ≠ .error (.failed cause))
    {inner : Text → Reading (List FilePath) Text}
    (h : ∀ content, (readingFailing Failure.OfRender _).Holds (inner content)) (name : Text) :
    (readingFailing Failure.OfRender _).Holds (e.includeFile reader inner name) := by
  intro earlier
  rw [Engine.run_includeFile]
  cases read : reader earlier (e.views.inclusion name) with
  | ok content => exact h content _
  | error cause =>
    cases cause with
    | failed cause => exact absurd read (loads _ _ cause)
    | unreadable | undecodable => exact (readingFailing _ _).pure [] _

theorem fails_renderWithin
    (loads : ∀ earlier path cause, reader earlier path ≠ .error (.failed cause)) (depth : Nat)
    (template : Text) :
    (readingFailing Failure.OfRender _).Holds
      (e.renderWithin reader tokens (.mapping m) depth template) := by
  induction depth generalizing template with
  | zero => exact fails_assemble (fun _ => (readingFailing _ _).pure []) template
  | succ depth ih => exact fails_assemble (fails_includeFile loads ih) template

/-- No reader that only finds files unreadable makes a render fail: the failures left are those of
helpers, a numeral of too many digits, and a number under which nothing is held. -/
theorem error_of_render (loads : ∀ earlier path cause, reader earlier path ≠ .error (.failed cause))
    {template : Text} {earlier : List FilePath} {failure : Failure}
    (failed : ((e.render reader tokens (.mapping m) template).outcome earlier).1 =
      .error failure) : failure.OfRender :=
  fails_renderWithin loads _ template earlier failure failed

end Engine

end Stencil
