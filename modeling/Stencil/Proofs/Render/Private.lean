import Stencil.Proofs.Render.Failures
import Stencil.Proofs.Render.HeldOutput
import Stencil.Proofs.Value.Agreement

/-! Private attributes in a render. A render from a context without them goes the same way:
it asks for the same files and comes to the same page, or it fails in the same way, where a
helper's failure reports its arguments without their private attributes. -/
namespace Stencil

/-- The failure with bare values for the arguments that it reports. -/
def Failure.bare : Failure → Failure
  | helperFailed name arguments cause => helperFailed name (arguments.map Value.bare) cause
  | failure => failure

theorem Failure.message?_bare (failure : Failure) : failure.bare.message? = failure.message? := by
  cases failure with
  | helperFailed name arguments cause => rw [bare, message?, message?]
  | _ => rfl

variable {α β : Type}

/-- The rewrite of a text goes along with every way to read computations as others. -/
theorem Translation.rewrite {m n : Type → Type} [Monad m] [LawfulMonad m] [Monad n] [LawfulMonad n]
    (T : Translation m n) (rule : Markup.Rule α) (new : Text → α → m Text) (text : Text) :
    T.read (Markup.rewrite rule new text) =
      Markup.rewrite rule (fun lexeme content => T.read (new lexeme content)) text := by
  rw [Markup.rewrite, Markup.rewrite, T.map, T.mapM]
  congr 2
  funext piece
  cases piece with
  | copied c => exact T.pure [c]
  | found lexeme content => rfl

/-- Computations with the failures that they would have from bare values. -/
def bareResults : Translation (Except Failure) (Except Failure) where
  read x := x.mapError Failure.bare
  pure _ := rfl
  bind x _ := by cases x <;> rfl

def bareHolding : Translation Render.Holding Render.Holding where
  read x shelf := bareResults.read (x shelf)
  pure _ := rfl
  bind x f := by
    funext shelf
    exact bareResults.bind (x shelf) fun r => f r.1 r.2

def bareReading (x : Reading (List FilePath) α) : Reading (List FilePath) α :=
  fun earlier => (x.run earlier).map bareResults.read id

theorem run_bareReading (x : Reading (List FilePath) α) (earlier : List FilePath) :
    (bareReading x).run earlier = (x.run earlier).map bareResults.read id := rfl

theorem bareReading_bind (x : Reading (List FilePath) α) (f : α → Reading (List FilePath) β) :
    bareReading (x >>= f) = bareReading x >>= fun a => bareReading (f a) := by
  funext earlier
  change (bareReading (x >>= f)).run earlier = (_ >>= _ : Reading (List FilePath) _).run earlier
  rw [run_bind, run_bareReading, run_bareReading, run_bind]
  rcases x.run earlier with ⟨_ | a, later⟩ <;> rfl

def bareReads : Translation (Reading (List FilePath)) (Reading (List FilePath)) :=
  ⟨bareReading, fun _ => rfl, bareReading_bind⟩

theorem run_bareReads (x : Reading (List FilePath) α) (earlier : List FilePath) :
    (bareReads.read x).run earlier = (x.run earlier).map bareResults.read id := rfl

def bareReadsHolding :
    Translation (StateT Shelf (Reading (List FilePath)))
      (StateT Shelf (Reading (List FilePath))) where
  read x shelf := bareReads.read (x shelf)
  pure _ := rfl
  bind x f := by
    funext shelf
    exact bareReads.bind (x shelf) fun r => f r.1 r.2

/-- A failure that reports no values. -/
def Failure.IsBare (failure : Failure) : Prop := failure.bare = failure

theorem bareResults_of_failing {x : Except Failure α} (h : (failing Failure.IsBare).Holds x) :
    bareResults.read x = x := by
  cases x with
  | ok a => rfl
  | error failure => exact congrArg Except.error (h failure rfl)

theorem isBare_of_overlong {failure : Failure} (h : failure = .overlong) : failure.IsBare :=
  h ▸ rfl

theorem bareResults_follow (context : Value) (path : Text) :
    bareResults.read (context.follow path) = context.follow path :=
  bareResults_of_failing fun _ failed => isBare_of_overlong (Value.follow_eq_error failed)

theorem bareResults_display (value : Value) : bareResults.read value.display = value.display :=
  bareResults_of_failing fun _ failed => isBare_of_overlong (Value.display_eq_error failed)

theorem bareResults_itemScope (context item : Value) (index total : Int) :
    bareResults.read (itemScope context item index total) = itemScope context item index total := by
  cases context <;> rfl

theorem bareResults_restore (shelf : Shelf) (text : Text) :
    bareResults.read (shelf.restore text) = shelf.restore text := by
  refine bareResults_of_failing ((failing _).rewrite fun _ digits failure failed => ?_)
  rcases look_eq_error failed with rfl | rfl <;> rfl

theorem bareResults_keep (shelf : Shelf) (text : Text) :
    bareResults.read (shelf.keep text) = shelf.keep text := by
  cases text with
  | nil => rfl
  | cons c rest =>
    change bareResults.read (shelf.restore (c :: rest) >>= _) = shelf.restore (c :: rest) >>= _
    rw [bareResults.bind, bareResults_restore]
    rfl

theorem bareHolding_setAside (text : Text) :
    bareHolding.read (setAside text) = (setAside text : Render.Holding Text) := by
  funext shelf
  have kept := bareResults_keep shelf text
  change bareResults.read (setAside text shelf) = _
  unfold setAside
  cases result : shelf.keep text with
  | ok pair => rfl
  | error failure =>
    rw [result] at kept
    exact kept

theorem bareReadsHolding_setAside (text : Text) :
    bareReadsHolding.read (setAside text) =
      (setAside text : StateT Shelf (Reading (List FilePath)) Text) := by
  funext shelf earlier
  have kept := bareResults_keep shelf text
  change ((setAside text shelf : Reading _ _).run earlier).map bareResults.read id = _
  unfold setAside
  cases result : shelf.keep text with
  | ok pair => rfl
  | error failure =>
    rw [result] at kept
    exact congrArg (·, earlier) kept

theorem bareHolding_lift (x : Except Failure α) :
    bareHolding.read (liftM x) = (liftM (bareResults.read x) : Render.Holding α) := by
  funext shelf
  cases x <;> rfl

theorem lift_bare_bind (x : Except Failure Value) (f : Value → Render.Holding β) :
    (liftM (Value.bare <$> x) >>= f) = liftM x >>= fun value => f value.bare := by
  funext shelf
  cases x <;> rfl

/-- What the helper makes of bare values is what it makes of the values, but for private
attributes. -/
def Helper.Blind (helper : Helper) : Prop :=
  ∀ arguments, helper.run (arguments.map Value.bare) = Value.bare <$> helper.run arguments

def Catalog.Blind (c : Catalog) : Prop := ∀ name helper, c.get? name = some helper → helper.Blind

namespace Helper

open Value

theorem toFloat_bare (v : Value) : toFloat v.bare = toFloat v := by
  cases v <;> rfl

theorem toInt_bare (v : Value) : toInt v.bare = toInt v := by
  cases v <;> rfl

theorem toMoment_bare (v : Value) : toMoment v.bare = toMoment v := by
  -- What is neither a moment nor a number nor a text is named in the failure.
  have named {x y : Except Failure Text} (same : x = y) :
      (x >>= fun shown => throw (.invalidDate shown) : Except Failure Moment) =
        (y >>= fun shown => throw (.invalidDate shown)) := same ▸ rfl
  cases v with
  | sequence kind items => exact named (written_bare (.sequence kind items))
  | mapping entries => exact named (written_bare (.mapping entries))
  | _ => rfl

theorem formatDate_bare (value format : Value) :
    formatDate value.bare format.bare = formatDate value format := by
  rw [formatDate, formatDate, toMoment_bare, isText_bare]

theorem formatAmount_bare (value : Value) : formatAmount value.bare = formatAmount value := by
  rw [formatAmount, formatAmount, toFloat_bare]

theorem truncate_bare (value length : Value) :
    truncate value.bare length.bare = truncate value length := by
  rw [truncate, truncate, display_bare, toInt_bare]

theorem Builtin.run_bare (b : Builtin) (arguments : List Value) :
    b.run (arguments.map Value.bare) = b.run arguments := by
  have cased (f : Text → Text) (value : Value) :
      f <$> value.bare.display = f <$> value.display := by rw [display_bare]
  match b, arguments with
  | .date, [value] => exact formatDate_bare value .null
  | .date, [value, format] => exact formatDate_bare value format
  | .currency, [value] => exact formatAmount_bare value
  | .upper, [value] => exact cased Text.upper value
  | .lower, [value] => exact cased Text.lower value
  | .truncate, [value] => exact truncate_bare value (.int defaultLength)
  | .truncate, [value, length] => exact truncate_bare value length
  | .currency, _ :: _ :: _ | .upper, _ :: _ :: _ | .lower, _ :: _ :: _ => rfl
  | .date, _ :: _ :: _ :: _ | .truncate, _ :: _ :: _ :: _ => rfl
  | b, [] => cases b <;> rfl

end Helper

theorem Catalog.blind_builtin : (Catalog.seeded .builtin).Blind := by
  intro name helper known arguments
  obtain ⟨b, rfl⟩ := eq_ofBuiltin known
  change Value.text <$> b.run _ = Value.bare <$> (Value.text <$> b.run arguments)
  rw [b.run_bare]
  cases b.run arguments <;> rfl

theorem argument_bare (context : Value) (name word : Text) :
    Helper.argument name (fun path => context.bare.follow path) word =
      Value.bare <$> Helper.argument name (fun path => context.follow path) word := by
  unfold Helper.argument
  cases read : Helper.Argument.ofWord word with
  | error failure => rfl
  | ok argument =>
    cases argument with
    | literal value =>
      have plain : value.bare = value := by
        rcases Helper.ofWord_eq_literal read with
          ⟨text, -, rfl⟩ | ⟨z, rfl⟩ | ⟨x, rfl⟩ | ⟨b, rfl⟩ | rfl <;> rfl
      exact congrArg Except.ok plain.symm
    | path path =>
      change (context.bare.follow path >>= _) = Value.bare <$> (context.follow path >>= _)
      rw [Value.follow_bare]
      cases context.follow path with
      | error failure => rfl
      | ok value => cases value <;> rfl

theorem arguments_bare (context : Value) (name text : Text) :
    Helper.arguments name (fun path => context.bare.follow path) text =
      List.map Value.bare <$> Helper.arguments name (fun path => context.follow path) text := by
  rw [Helper.arguments, Helper.arguments, ← mapM_map_result]
  exact congrArg (List.mapM · _) (funext (argument_bare context name))

theorem bareResults_arguments (context : Value) (name text : Text) :
    bareResults.read (Helper.arguments name (fun path => context.follow path) text) =
      Helper.arguments name (fun path => context.follow path) text := by
  refine bareResults_of_failing ((failing _).mapM fun word _ failure failed => ?_)
  rcases argument_eq_error failed with rfl | ⟨path, rfl⟩ <;> rfl

theorem bareResults_call {catalog : Catalog} (blind : catalog.Blind) (context : Value)
    (name text : Text) :
    bareResults.read (catalog.call name text fun path => context.follow path) =
      catalog.call name text fun path => context.bare.follow path := by
  rw [Catalog.call_eq, Catalog.call_eq]
  cases known : catalog.get? name with
  | none => rfl
  | some helper =>
    dsimp only
    rw [arguments_bare, bareResults.bind, bareResults_arguments, bind_map_left]
    refine congrArg _ (funext fun arguments => ?_)
    rw [blind name helper known arguments]
    cases helper.run arguments with
    | error cause => rfl
    | ok value => exact (bareResults_display value).trans (Value.display_bare value).symm

section Stages

variable {catalog : Catalog} (blind : catalog.Blind) (context : Value)

theorem bareResults_showVariable (v : Markup.Variable) :
    bareResults.read (Render.showVariable context v) = Render.showVariable context.bare v := by
  unfold Render.showVariable
  rw [bareResults.bind, bareResults_follow, Value.follow_bare, bind_map_left]
  refine congrArg _ (funext fun value => ?_)
  rw [bareResults.bind, bareResults_display, Value.display_bare]
  rfl

theorem bareResults_fillVariables (place : Markup.Place) (text : Text) :
    bareResults.read (Render.fillVariables place context text) =
      Render.fillVariables place context.bare text := by
  rw [Render.fillVariables, bareResults.rewrite]
  simp only [bareResults_showVariable]
  rfl

theorem bareResults_chooseBranch (b : Markup.Block) :
    bareResults.read (Render.chooseBranch context b) = Render.chooseBranch context.bare b := by
  unfold Render.chooseBranch
  rw [bareResults.bind, bareResults_follow, Value.follow_bare, bind_map_left]
  refine congrArg _ (funext fun value => ?_)
  rw [Value.holds_bare]
  rfl

theorem bareResults_chooseBranches (place : Markup.Place) (text : Text) :
    bareResults.read (Render.chooseBranches place context text) =
      Render.chooseBranches place context.bare text := by
  rw [Render.chooseBranches, bareResults.rewrite]
  simp only [bareResults_chooseBranch]
  rfl

include blind

theorem bareHolding_callHelper (lexeme : Text) (c : Markup.Call) :
    bareHolding.read (Render.callHelper catalog context lexeme c) =
      Render.callHelper catalog context.bare lexeme c := by
  unfold Render.callHelper
  cases Text.trim c.arguments with
  | nil => rfl
  | cons first more =>
    by_cases known : catalog.has c.name
    · simp only [if_pos known]
      rw [bareHolding.bind, bareHolding_lift, bareResults_call blind]
      simp only [bareHolding_setAside]
    · simp only [if_neg known]
      exact bareHolding.pure lexeme

theorem bareHolding_callHelpers (text : Text) :
    bareHolding.read (Render.callHelpers catalog context text) =
      Render.callHelpers catalog context.bare text := by
  rw [Render.callHelpers, bareHolding.rewrite]
  simp only [bareHolding_callHelper blind]
  rfl

theorem bareHolding_runRound (body : Text) :
    bareHolding.read (Render.runRound catalog context body) =
      Render.runRound catalog context.bare body := by
  unfold Render.runRound
  rw [bareHolding.bind, bareHolding_lift, bareResults_chooseBranches]
  refine congrArg _ (funext fun chosen => ?_)
  rw [bareHolding.bind, bareHolding_callHelpers blind]
  refine congrArg _ (funext fun called => ?_)
  rw [bareHolding_lift, bareResults_fillVariables]

theorem bareHolding_runRounds (body : Text) (items : List Value) :
    bareHolding.read (Render.runRounds catalog context body items) =
      Render.runRounds catalog context.bare body (items.map Value.bare) := by
  unfold Render.runRounds
  rw [bareHolding.map, bareHolding.mapM, List.zipIdx_map, List.mapM_map, List.length_map]
  refine congrArg _ (congrArg (List.mapM · _) (funext fun (item, index) => ?_))
  change bareHolding.read (liftM (itemScope context item index items.length) >>= _) =
    liftM (itemScope context.bare item.bare index items.length) >>= _
  rw [bareHolding.bind, bareHolding_lift, bareResults_itemScope, Value.itemScope_bare,
    lift_bare_bind]
  exact congrArg _ (funext fun scope => bareHolding_runRound blind scope body)

theorem bareHolding_runLoop (b : Markup.Block) :
    bareHolding.read (Render.runLoop catalog context b) =
      Render.runLoop catalog context.bare b := by
  unfold Render.runLoop
  rw [bareHolding.bind, bareHolding_lift, bareResults_follow, Value.follow_bare, lift_bare_bind]
  refine congrArg _ (funext fun value => ?_)
  cases value with
  | sequence kind items =>
    rw [Value.bare_sequence]
    exact bareHolding_runRounds blind context b.body items
  | _ => rfl

theorem bareHolding_expandLoops (text : Text) :
    bareHolding.read (Render.expandLoops catalog context text) =
      Render.expandLoops catalog context.bare text := by
  rw [Render.expandLoops, bareHolding.rewrite]
  simp only [bareHolding.bind, bareHolding_runLoop blind, bareHolding_setAside]
  rfl

/-- All stages after the inclusions come to the same from bare values. -/
theorem bareResults_finish (text : Text) (shelf : Shelf) :
    bareResults.read (Render.finish catalog context text shelf) =
      Render.finish catalog context.bare text shelf := by
  have loops : bareResults.read ((Render.expandLoops catalog context text).run shelf) =
      (Render.expandLoops catalog context.bare text).run shelf :=
    congrFun (bareHolding_expandLoops blind context text) shelf
  have calls (chosen : Text) (shelf : Shelf) :
      bareResults.read ((Render.callHelpers catalog context chosen).run shelf) =
        (Render.callHelpers catalog context.bare chosen).run shelf :=
    congrFun (bareHolding_callHelpers blind context chosen) shelf
  unfold Render.finish
  rw [bareResults.bind, loops]
  refine congrArg _ (funext fun looped => ?_)
  rw [bareResults.bind, bareResults_chooseBranches]
  refine congrArg _ (funext fun chosen => ?_)
  rw [bareResults.bind, calls]
  refine congrArg _ (funext fun called => ?_)
  rw [bareResults.bind, bareResults_fillVariables]
  exact congrArg _ (funext fun filled => bareResults_restore called.2 filled)

end Stages

section Engine

variable {e : Engine} {reader : Reader} {tokens : Tokens} {context other : Value}
variable {inner inner' : Text → Reading (List FilePath) Text}

theorem bareReads_expandInclusions (inclusion : Text → Reading (List FilePath) Text) (text : Text) :
    bareReadsHolding.read (Engine.expandInclusions inclusion text) =
      Engine.expandInclusions (fun name => bareReads.read (inclusion name)) text := by
  have lifted (x : Reading (List FilePath) Text) :
      bareReadsHolding.read (liftM x) =
        (liftM (bareReads.read x) : StateT Shelf (Reading (List FilePath)) Text) := by
    funext shelf
    exact bareReads.bind x fun a => pure (a, shelf)
  rw [Engine.expandInclusions, bareReadsHolding.rewrite]
  simp only [bareReadsHolding.bind, lifted, bareReadsHolding_setAside]
  rfl

theorem bareReads_assemble (blind : e.catalog.Blind) (template : Text) :
    bareReads.read (e.assemble tokens context inner template) =
      e.assemble tokens context.bare (fun name => bareReads.read (inner name)) template := by
  have expanded (shelf : Shelf) :
      bareReads.read ((Engine.expandInclusions inner template).run shelf) =
        (Engine.expandInclusions (fun name => bareReads.read (inner name)) template).run shelf :=
    congrFun (bareReads_expandInclusions inner template) shelf
  funext earlier
  change (bareReads.read (e.assemble tokens context inner template)).run earlier =
    (e.assemble tokens context.bare (fun name => bareReads.read (inner name)) template).run earlier
  rw [run_bareReads, Engine.run_assemble, Engine.run_assemble, ← run_bareReads, bareReads.bind,
    expanded]
  refine congrArg (fun next => (_ >>= next : Reading (List FilePath) Text).run earlier)
    (funext fun r => ?_)
  rw [← bareResults_finish blind]
  cases Render.finish e.catalog context r.1 r.2 <;> rfl

/-- Included files are the same for two renders, also where the reader fails by itself. -/
theorem bareReads_includeFile
    (each : ∀ content, bareReads.read (inner content) = bareReads.read (inner' content))
    (name : Text) :
    bareReads.read (e.includeFile reader inner name) =
      bareReads.read (e.includeFile reader inner' name) := by
  funext earlier
  change (bareReads.read (e.includeFile reader inner name)).run earlier =
    (bareReads.read (e.includeFile reader inner' name)).run earlier
  rw [run_bareReads, run_bareReads, Engine.run_includeFile, Engine.run_includeFile]
  cases reader earlier (e.views.inclusion name) with
  | ok content => exact congrFun (each content) _
  | error cause => cases cause <;> rfl

theorem bareReads_renderWithin (blind : e.catalog.Blind) (same : context.bare = other.bare)
    (depth : Nat) (template : Text) :
    bareReads.read (e.renderWithin reader tokens context depth template) =
      bareReads.read (e.renderWithin reader tokens other depth template) := by
  have step {inner inner' : Text → Reading (List FilePath) Text} (template : Text)
      (each : ∀ name, bareReads.read (inner name) = bareReads.read (inner' name)) :
      bareReads.read (e.assemble tokens context inner template) =
        bareReads.read (e.assemble tokens other inner' template) := by
    rw [bareReads_assemble blind, bareReads_assemble blind, same, funext each]
  induction depth generalizing template with
  | zero => exact step template fun _ => rfl
  | succ depth ih => exact step template (bareReads_includeFile ih)

end Engine

/-- A user with a key of one's own, whose name is on a page that asks for the key as well. -/
def keyedContext (key : Text) : Value :=
  .mapping [(.text ['a'], .text "hi".toList),
    (.text "user".toList,
      .object [("_key".toList, .text key), ("name".toList, .text "Ann".toList)]
        "Ann".toList "User('Ann')".toList)]

def keyedTemplate : Text := "{{ user._key }}{{ user.name }}{{> p }}{{ upper user }}".toList

end Stencil
