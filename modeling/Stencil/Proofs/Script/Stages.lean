import Stencil.Proofs.Helper.NulFree
import Stencil.Proofs.Script.Coupling

/-! The stages of a render on a script and on a text that spells it: they show, choose, call
and repeat the same, and fail alike. What is held aside comes back, since a numeral that was
given out for a placeholder is always found again, however long. -/
namespace Stencil

section Holding

open Text Stencil.Shelf

variable {shelf : Shelf} {s : Script} {t : Text} {α β γ δ : Type}

theorem Shelf.look_ofNat {number : Nat} {finished : Text}
    (found : shelf.held[number]? = some finished) :
    shelf.look (Numeral.ofNat number) = .ok finished := by
  simp [look, value_ofNat, found]

theorem placeholder?_cons {token : Token} {c : Char} (ne : c ≠ '\x00') (t : Text) :
    placeholder? token (c :: t) = none := by
  simp [placeholder?, lead, after?, ne.symm]

theorem placeholder?_placeholder (token : Token) (number : Nat) (t : Text) :
    placeholder? token (placeholder token number ++ t) = some (Numeral.ofNat number, t) := by
  have split : placeholder token number ++ t =
      lead token ++ (Numeral.ofNat number ++ '\x00' :: t) := by simp [placeholder]
  have digits : ∀ c ∈ Numeral.ofNat number, isDigit c = true := fun c member =>
    isDigit_of_char_isDigit (isDigit_of_mem_ofNat member)
  have stop : isDigit '\x00' = false := by decide
  obtain ⟨c, rest, shape⟩ := List.exists_cons_of_ne_nil
    (show Numeral.ofNat number ≠ [] from Nat.toDigits_ne_nil)
  rw [placeholder?, split, after?_eq_some_iff.mpr rfl, Option.bind_some,
    List.takeWhile_append_of_pos digits, List.dropWhile_append_of_pos digits,
    List.takeWhile_cons_of_neg (by simp [stop]), List.dropWhile_cons_of_neg (by simp [stop]),
    shape, List.append_nil]
  rfl

/-- A text is restored to what its script ends as. -/
theorem Shelf.Spells.restore (h : shelf.Spells s t) : shelf.restore t = .ok s.flatten := by
  unfold Shelf.restore
  induction h with
  | nil => exact Markup.rewrite_nil
  | letter ne _ ih =>
    rw [Markup.rewrite_copied (placeholder?_cons ne _), ih]
    rfl
  | @chunk number finished s t found _ ih =>
    have nonempty : placeholder shelf.token number ≠ [] := by simp [placeholder_eq]
    rw [Markup.rewrite_found nonempty (placeholder?_placeholder _ _ _), look_ofNat found, ih]
    rfl

theorem Shelf.restore_of_nulFree (free : NulFree t) (shelf : Shelf) : shelf.restore t = .ok t :=
  (Shelf.Spells.ofText free).restore.trans (congrArg Except.ok (Script.flatten_ofText t))

/-- No script over a sound shelf ends as a text with a NUL. -/
theorem Shelf.Spells.nulFree_flatten (sound : shelf.Sound) (h : shelf.Spells s t) :
    NulFree s.flatten := by
  induction h with
  | nil => exact nulFree_nil
  | letter ne _ ih => exact nulFree_cons.mpr ⟨ne, ih⟩
  | chunk found _ ih =>
    exact nulFree_append.mpr ⟨(sound _ (Array.mem_of_getElem? found)).2, ih⟩

theorem Shelf.Spells.flatten_eq_nil_iff (sound : shelf.Sound) (h : shelf.Spells s t) :
    s.flatten = [] ↔ t = [] := by
  cases h with
  | nil => simp [Script.flatten]
  | letter => simp [Script.flatten, Symbol.source]
  | chunk found =>
    have full := (sound _ (Array.mem_of_getElem? found)).1
    simp [Script.flatten, Symbol.source, full, placeholder_eq]

/-- Keeping a text is holding what its script ends as. -/
theorem Shelf.Spells.keep {tame : Prop} (sound : shelf.Sound) (h : shelf.Spells s t) :
    Agree tame shelf Shelf.Spells (.ok (Script.hold s.flatten)) (shelf.keep t) := by
  cases t with
  | nil =>
    have empty := (h.flatten_eq_nil_iff sound).mpr rfl
    rw [empty]
    exact ⟨_, rfl, .refl shelf, sound, .nil⟩
  | cons c t =>
    have full : s.flatten ≠ [] := fun empty => by simpa using (h.flatten_eq_nil_iff sound).mp empty
    have free := h.nulFree_flatten sound
    have held : Script.hold s.flatten = [.chunk s.flatten] := by
      cases shape : s.flatten with
      | nil => exact absurd shape full
      | cons => rfl
    let later : Shelf := ⟨shelf.token, shelf.held.push s.flatten⟩
    have kept : shelf.keep (c :: t) =
        .ok (placeholder shelf.token shelf.held.size, later) := by
      rw [Shelf.keep, h.restore]
      · rfl
      · simp
    rw [held, kept]
    have more : shelf.Later later := by
      refine ⟨rfl, fun number finished found => ?_⟩
      have inside : number < shelf.held.size := (Array.getElem?_eq_some_iff.mp found).1
      rw [← found]
      exact Array.getElem?_push_lt inside ▸ (Array.getElem?_eq_getElem inside).symm
    refine ⟨_, rfl, more, ?_, ?_⟩
    · intro finished member
      rcases Array.mem_push.mp member with old | rfl
      · exact sound finished old
      · exact ⟨full, free⟩
    · have last : later.held[shelf.held.size]? = some s.flatten := Array.getElem?_push_size
      have single := Shelf.Spells.nil.chunk last
      simpa using single

theorem Shelf.agree_keep {tame : Prop} {text : Text} (sound : shelf.Sound) (free : NulFree text) :
    Agree tame shelf Shelf.Spells (.ok (Script.hold text)) (shelf.keep text) := by
  have spelled : shelf.Spells (Script.ofText text) text := .ofText free
  have kept : Agree tame shelf _ _ (shelf.keep text) := spelled.keep sound
  rw [Script.flatten_ofText] at kept
  exact kept

end Holding

open Stencil.Shelf

variable {shelf : Shelf} {s : Script} {t : Text} {α β : Type}

/-- Computations that leave the shelf alone. -/
def quiet (tame : Prop) : Coupling (Except Refusal) (Except Failure) where
  Related shelf R y x := shelf.Sound → Answers tame (R shelf) y x
  pure _ related _ := ⟨_, rfl, related⟩
  bind h next sound := (h sound).bind fun b a related =>
    next _ b a (.refl _) sound related sound

/-- Computations that may hold output aside. -/
def holding (tame : Prop) : Coupling (Except Refusal) Render.Holding where
  Related shelf R y x := Agree tame shelf R y (x shelf)
  pure sound related := ⟨_, rfl, .refl _, sound, related⟩
  bind h next := Agree.bind h next

variable {tame : Prop} {catalog : Catalog} {context : Value}

section Quiet

theorem Text.NulFree.escape {text : Text} (free : Text.NulFree text) :
    Text.NulFree (Markup.escape text) := by
  refine Text.nulFree_flatMap fun c member => ?_
  have ne : c ≠ '\x00' := fun same => free (same ▸ member)
  unfold Markup.entity
  split_ifs <;> simp [ne]

theorem agree_showVariable (free : context.NulFree) (v : Markup.Variable) :
    (quiet tame).Related shelf Shelf.Spells (Script.showVariable context v)
      (Render.showVariable context v) := by
  refine fun _ => Answers.of_map fun text shown => .ofText ?_
  obtain ⟨value, followed, shown⟩ := bind_eq_ok_iff.mp shown
  obtain ⟨plain, displayed, shown⟩ := bind_eq_ok_iff.mp shown
  cases shown
  have plainFree := (free.follow followed).display displayed
  exact Text.nulFree_ite plainFree plainFree.escape

theorem agree_fillVariables (free : context.NulFree) (place : Markup.Place) (sound : shelf.Sound)
    (h : shelf.Spells s t) :
    (quiet tame).Related shelf Shelf.Spells (Script.fillVariables context place s)
      (Render.fillVariables place context t) := by
  refine (quiet tame).rewrite (fun spelled => inStep_variable place spelled)
    (Markup.consumes_variable place) ?_ sound h
  intro shelf lexeme lexeme' v v' sound spelled same
  exact same ▸ agree_showVariable free v

theorem agree_chooseBranch {b : Script.Block} {b' : Markup.Block}
    (same : shelf.SameBlock b b') :
    (quiet tame).Related shelf Shelf.Spells (Script.chooseBranch context b)
      (Render.chooseBranch context b') := by
  intro _
  unfold Script.chooseBranch Render.chooseBranch
  rw [same.path]
  cases context.follow b'.path with
  | error cause => rfl
  | ok value =>
    refine ⟨_, rfl, ?_⟩
    cases value.holds with
    | true => exact same.body
    | false =>
      have other := same.otherwise
      generalize b.otherwise? = x at other
      generalize b'.otherwise? = y at other
      cases other with
      | none => exact .nil
      | some spelled => exact spelled

theorem agree_chooseBranches (place : Markup.Place) (sound : shelf.Sound)
    (h : shelf.Spells s t) :
    (quiet tame).Related shelf Shelf.Spells (Script.chooseBranches context place s)
      (Render.chooseBranches place context t) :=
  (quiet tame).rewrite (fun spelled => inStep_choice place spelled) (Markup.consumes_choice place)
    (fun _ _ same => agree_chooseBranch same) sound h

end Quiet

theorem setAside_holding (text : Text) (shelf : Shelf) :
    (setAside text : Render.Holding Text) shelf = shelf.keep text := by
  unfold setAside
  cases result : shelf.keep text <;> rfl

theorem agree_setAside (sound : shelf.Sound) (h : shelf.Spells s t) :
    (holding tame).Related shelf Shelf.Spells (pure (Script.hold s.flatten)) (setAside t) := by
  change Agree tame shelf Shelf.Spells (.ok (Script.hold s.flatten)) (setAside t shelf)
  rw [setAside_holding]
  exact h.keep sound

theorem callHelper_idle {lexeme : Text} {c : Markup.Call}
    (idle : Text.trim c.arguments = [] ∨ ¬catalog.has c.name) :
    Render.callHelper catalog context lexeme c = pure lexeme := by
  unfold Render.callHelper
  cases shape : Text.trim c.arguments with
  | nil => rfl
  | cons a rest =>
    have unknown : ¬catalog.has c.name := idle.resolve_left (by simp [shape])
    dsimp only
    rw [if_neg unknown]

theorem callHelper_called {lexeme : Text} {c : Markup.Call} (full : Text.trim c.arguments ≠ [])
    (known : catalog.has c.name) (shelf : Shelf) :
    Render.callHelper catalog context lexeme c shelf =
      catalog.call c.name (Text.trim c.arguments) (fun path => context.follow path) >>=
        fun text => shelf.keep text := by
  unfold Render.callHelper
  cases shape : Text.trim c.arguments with
  | nil => contradiction
  | cons a rest =>
    dsimp only
    rw [if_pos known]
    cases called : catalog.call c.name (a :: rest) fun path => context.follow path with
    | error cause => rfl
    | ok text => exact setAside_holding text shelf

theorem agree_callHelper (clean : catalog.NulFree) (free : context.NulFree) {c : Script.Call}
    {c' : Markup.Call} (sound : shelf.Sound) (h : shelf.Spells s t) (same : shelf.SameCall c c') :
    (holding catalog.Tame).Related shelf Shelf.Spells (Script.callHelper catalog context s c)
      (Render.callHelper catalog context t c') := by
  obtain ⟨named, spelled⟩ := same
  unfold Script.callHelper
  rw [named]
  split
  next idle =>
    rw [spelled.eq_nil_iff] at idle
    rw [callHelper_idle idle]
    exact (holding catalog.Tame).pure sound h
  next busy =>
    rw [spelled.eq_nil_iff, not_or, not_not] at busy
    split
    next arguments plain =>
      obtain ⟨same, argumentsFree⟩ := spelled.eq_of_text? plain
      change Agree _ shelf _ _ (Render.callHelper catalog context t c' shelf)
      rw [callHelper_called busy.1 busy.2, same]
      cases called : catalog.call c'.name arguments fun path => context.follow path with
      | error cause => rfl
      | ok text =>
        have shownFree : Text.NulFree text :=
          clean.call argumentsFree (fun _ _ followed => free.follow followed) called
        exact agree_keep sound shownFree
    next =>
      -- What the helper sees is not known here, so only the lack of NULs in its result is used.
      intro tamed result called
      change Render.callHelper catalog context t c' shelf = .ok result at called
      rw [callHelper_called busy.1 busy.2] at called
      obtain ⟨text, shown, called⟩ := bind_eq_ok_iff.mp called
      have kept : Agree catalog.Tame shelf _ _ (shelf.keep text) :=
        agree_keep sound (tamed.call shown)
      exact kept.related tamed called

theorem agree_callHelpers (clean : catalog.NulFree) (free : context.NulFree)
    (sound : shelf.Sound) (h : shelf.Spells s t) :
    (holding catalog.Tame).Related shelf Shelf.Spells (Script.callHelpers catalog context s)
      (Render.callHelpers catalog context t) :=
  (holding catalog.Tame).rewrite inStep_call Markup.consumes_call
    (fun sound spelled same => agree_callHelper clean free sound spelled same) sound h

theorem holding_of_quiet {R : Shelf → β → α → Prop} {y : Except Refusal β} {x : Except Failure α}
    (sound : shelf.Sound) (h : (quiet tame).Related shelf R y x) :
    (holding tame).Related shelf R y (liftM x) := by
  have last : (holding tame).Related shelf R (y >>= .ok) (liftM x) :=
    (h sound).bind fun b a related => ⟨_, rfl, .refl shelf, sound, related⟩
  cases y <;> exact last

theorem agree_runRound (clean : catalog.NulFree) (free : context.NulFree) (sound : shelf.Sound)
    (h : shelf.Spells s t) :
    (holding catalog.Tame).Related shelf Shelf.Spells (Script.runRound catalog context s)
      (Render.runRound catalog context t) := by
  refine (holding catalog.Tame).bind
    (holding_of_quiet sound (agree_chooseBranches .item sound h)) fun _ _ _ _ sound h => ?_
  refine (holding catalog.Tame).bind (agree_callHelpers clean free sound h)
    fun _ _ _ _ sound h => ?_
  exact holding_of_quiet sound (agree_fillVariables free .item sound h)

theorem agree_runRounds (clean : catalog.NulFree) (free : context.NulFree) (sound : shelf.Sound)
    (h : shelf.Spells s t) {items : List Value} (itemsFree : ∀ v ∈ items, v.NulFree) :
    (holding catalog.Tame).Related shelf Shelf.Spells (Script.runRounds catalog context s items)
      (Render.runRounds catalog context t items) := by
  refine (holding catalog.Tame).flatten_mapM sound ?_
  rintro ⟨item, index⟩ member later more sound
  obtain ⟨inside, same⟩ := List.mem_zipIdx' member
  have itemFree : item.NulFree := same ▸ itemsFree _ (List.getElem_mem inside)
  have here := h.mono more
  dsimp only
  cases made : itemScope context item index items.length with
  | error cause => rfl
  | ok scope =>
    exact agree_runRound clean (free.itemScope itemFree inside made) sound here

theorem agree_runLoop (clean : catalog.NulFree) (free : context.NulFree) (sound : shelf.Sound)
    {b : Script.Block} {b' : Markup.Block} (same : shelf.SameBlock b b') :
    (holding catalog.Tame).Related shelf Shelf.Spells (Script.runLoop catalog context b)
      (Render.runLoop catalog context b') := by
  unfold Script.runLoop Render.runLoop
  rw [same.path]
  cases followed : context.follow b'.path with
  | error cause => rfl
  | ok value =>
    cases value with
    | sequence kind items =>
      have itemsFree := (Value.every_sequence.mp (free.follow followed)).2
      exact agree_runRounds clean free sound same.body itemsFree
    | _ => exact (holding catalog.Tame).pure sound .nil

theorem agree_expandLoops (clean : catalog.NulFree) (free : context.NulFree)
    (sound : shelf.Sound) (h : shelf.Spells s t) :
    (holding catalog.Tame).Related shelf Shelf.Spells (Script.expandLoops catalog context s)
      (Render.expandLoops catalog context t) := by
  refine (holding catalog.Tame).rewrite inStep_loop Markup.consumes_loop ?_ sound h
  intro shelf lexeme lexeme' b b' sound _ same
  rw [map_eq_pure_bind]
  refine (holding catalog.Tame).bind (agree_runLoop clean free sound same)
    fun later u v _ sound' spelled => ?_
  exact agree_setAside sound' spelled

/-- The same page, without a NUL. -/
def SamePage (page page' : Text) : Prop := page = page' ∧ Text.NulFree page

theorem answers_finish (clean : catalog.NulFree) (free : context.NulFree) (sound : shelf.Sound)
    (h : shelf.Spells s t) :
    Answers catalog.Tame SamePage (Script.finish catalog context s)
      (Render.finish catalog context t shelf) := by
  refine Answers.bind (agree_expandLoops clean free sound h) fun s₁ r₁ looped => ?_
  refine (agree_chooseBranches .page looped.sound looped.related looped.sound).bind
    fun s₂ t₂ chosen => ?_
  refine Answers.bind (agree_callHelpers clean free looped.sound chosen) fun s₃ r₃ called => ?_
  rw [map_eq_pure_bind]
  refine (agree_fillVariables free .page called.sound called.related called.sound).bind
    fun s₄ t₄ filled => ?_
  exact ⟨_, filled.restore, rfl, filled.nulFree_flatten called.sound⟩

end Stencil
