import Stencil.Proofs.Template.Stages

/-! The stages take the parts of a tree in an order of their own, all loops first, then all
calls. What the tree means is the same: the order only decides which of several failures is
met first. -/
namespace Stencil.Template

open Markup

variable {catalog : Catalog} {place : Place} {α β : Type} (scope : Value)

section Filled

variable {scope} {f : α → Except Failure β} {g : β → Except Failure Text}

theorem Conditional.fill_choice_eq_ok_iff {path : Path place} {yes : List α} {no? : Option (List α)}
    {filled : Conditional place β} :
    (Conditional.choice path yes no?).fill f = .ok filled ↔
      ∃ yes' no'?, yes.mapM f = .ok yes' ∧ (no?.getD []).mapM f = .ok (no'?.getD []) ∧
        no'?.isSome = no?.isSome ∧ filled = .choice path yes' no'? := by
  cases no? with
  | none =>
    constructor
    · intro h
      obtain ⟨yes', here, h⟩ := bind_eq_ok_iff.mp h
      exact ⟨yes', none, here, rfl, rfl, (pure_eq_ok_iff.mp h).symm⟩
    · rintro ⟨yes', no'?, here, -, absent, rfl⟩
      obtain rfl : no'? = none := by simpa using absent
      exact bind_eq_ok_iff.mpr ⟨yes', here, rfl⟩
  | some no =>
    constructor
    · intro h
      obtain ⟨yes', here, h⟩ := bind_eq_ok_iff.mp h
      obtain ⟨no', there, h⟩ := bind_eq_ok_iff.mp h
      exact ⟨yes', some no', here, there, rfl, (pure_eq_ok_iff.mp h).symm⟩
    · rintro ⟨yes', no'?, here, there, present, rfl⟩
      obtain ⟨no', rfl⟩ := Option.isSome_iff_exists.mp present
      exact bind_eq_ok_iff.mpr ⟨yes', here, bind_eq_ok_iff.mpr ⟨no', there, rfl⟩⟩

theorem Conditional.fill_succeeds_iff {c : Conditional place α} :
    (∃ filled, c.fill f = .ok filled) ↔ ∀ a ∈ c.parts, ∃ b, f a = .ok b := by
  cases c with
  | plain a =>
    have single : (∃ filled, (plain a : Conditional place α).fill f = .ok filled) ↔
        ∃ b, f a = .ok b := by
      simp [fill, map_eq_ok_iff]
    rw [single]
    simp [parts]
  | choice path yes no? =>
    rw [parts, List.forall_mem_append, ← mapM_succeeds_iff, ← mapM_succeeds_iff]
    constructor
    · rintro ⟨filled, h⟩
      obtain ⟨yes', no'?, here, there, -⟩ := fill_choice_eq_ok_iff.mp h
      exact ⟨⟨yes', here⟩, no'?.getD [], there⟩
    · rintro ⟨⟨yes', here⟩, no', there⟩
      cases no? with
      | none =>
        exact ⟨_, fill_choice_eq_ok_iff.mpr ⟨yes', none, here, rfl, rfl, rfl⟩⟩
      | some no =>
        exact ⟨_, fill_choice_eq_ok_iff.mpr ⟨yes', some no', here, there, rfl, rfl⟩⟩

/-- What is taken of the filled parts is what the taken parts are filled to. -/
theorem Conditional.chosen_of_fill {c : Conditional place α} {filled : Conditional place β}
    (h : c.fill f = .ok filled) :
    SameResult (c.chosen scope >>= fun taken => taken.mapM f) (filled.chosen scope) := by
  cases c with
  | plain a =>
    obtain ⟨b, here, rfl⟩ := map_eq_ok_iff.mp h
    have only : [a].mapM f = .ok [b] := mapM_cons_eq_ok_iff.mpr ⟨b, [], here, rfl, rfl⟩
    simp only [chosen, pure_bind, only]
    exact .refl _
  | choice path yes no? =>
    obtain ⟨yes', no'?, here, there, -, rfl⟩ := fill_choice_eq_ok_iff.mp h
    simp only [chosen, bind_assoc, pure_bind]
    refine (SameResult.refl _).bind fun value _ => ?_
    cases value.holds with
    | true =>
      simp only [if_true, here]
      exact .refl _
    | false =>
      simp only [Bool.false_eq_true, if_false, there]
      exact .refl _

theorem Conditional.meaning_of_fill {c : Conditional place α} {filled : Conditional place β}
    (h : c.fill f = .ok filled) :
    SameResult (filled.meaning scope g) (c.meaning scope fun a => f a >>= g) := by
  have taken : SameResult (filled.chosen scope >>= fun taken => taken.mapM g)
      (c.chosen scope >>= fun taken => taken.mapM fun a => f a >>= g) := by
    refine ((chosen_of_fill h).symm.bind fun _ _ => .refl _).trans ?_
    rw [bind_assoc]
    exact (SameResult.refl _).bind fun taken _ => .mapM_bind_mapM taken f g
  simpa [meaning] using taken.map List.flatten

theorem Conditional.meaning_same {part part' : α → Except Failure Text}
    (each : ∀ a, SameResult (part a) (part' a)) (c : Conditional place α) :
    SameResult (c.meaning scope part) (c.meaning scope part') :=
  (SameResult.refl _).bind fun _ _ => (SameResult.mapM each _).bind fun _ _ => .refl _

end Filled

theorem Leaf.called_bind_meaning (l : Leaf catalog place Text) :
    l.called scope >>= Leaf.meaning scope = l.meaning scope := by
  cases l with
  | call c =>
    simp only [called, meaning, bind_map_left]
    exact bind_pure _
  | _ => rfl

theorem staged_same_parts (flat : List (Conditional place (Leaf catalog place Text))) :
    SameResult (stagedParts scope flat)
      (List.flatten <$> flat.mapM (Conditional.meaning scope (Leaf.meaning scope))) := by
  -- Calls and what is shown, leaf by leaf.
  have leaves (taken : List (List (Leaf catalog place Text))) :
      SameResult (taken.flatten.mapM (Leaf.called scope) >>= fun leaves =>
        List.flatten <$> leaves.mapM (Leaf.meaning scope))
      ((List.flatten ∘ List.flatten) <$> taken.mapM fun l => l.mapM (Leaf.meaning scope)) := by
    have both := SameResult.mapM_bind_mapM taken.flatten (Leaf.called scope) (Leaf.meaning scope)
    have same : (taken.flatten.mapM fun l => l.called scope >>= Leaf.meaning scope) =
        List.flatten <$> taken.mapM fun l => l.mapM (Leaf.meaning scope) := by
      rw [← mapM_flatten]
      exact congrArg (List.mapM · _) (funext (Leaf.called_bind_meaning scope))
    rw [same] at both
    simpa [Function.comp_def] using both.map List.flatten
  -- Conditions with them, part by part.
  have parts := (SameResult.mapM_bind_mapM flat (Conditional.chosen scope)
    fun l => l.mapM (Leaf.meaning scope)).map (List.flatten ∘ List.flatten)
  have staged : SameResult (stagedParts scope flat) _ :=
    (SameResult.refl _).bind fun taken _ => leaves taken
  have meanings : flat.mapM (Conditional.meaning scope (Leaf.meaning scope)) =
      List.map List.flatten <$> flat.mapM fun c =>
        c.chosen scope >>= fun l => l.mapM (Leaf.meaning scope) := by
    rw [← mapM_map_result]
    refine congrArg (List.mapM · _) (funext fun c => ?_)
    simp [Conditional.meaning]
  rw [meanings]
  refine staged.trans ?_
  simpa [List.flatten_flatten, Function.comp_def] using parts

theorem Loop.staged_same (l : Loop catalog Text) :
    SameResult (l.staged scope) (l.meaning scope) := by
  refine (SameResult.refl _).bind fun value _ => ?_
  cases value with
  | sequence kind items =>
    have round (r : Value × Nat) : SameResult (stagedRound scope l items.length r) (do
        let inner ← itemScope scope r.1 r.2 items.length
        List.flatten <$> l.body.mapM (Conditional.meaning inner (Leaf.meaning inner))) :=
      (SameResult.refl _).bind fun inner _ => staged_same_parts inner l.body
    have rounds := (SameResult.mapM round items.zipIdx).map List.flatten
    rw [map_eq_pure_bind, map_eq_pure_bind] at rounds
    exact rounds
  | _ => exact .refl _

theorem Item.settled_bind_meaning (item : Item catalog Text) :
    SameResult (item.settled scope >>= Leaf.meaning scope) (item.meaning scope) := by
  cases item with
  | leaf l => exact .refl _
  | loop l =>
    simp only [settled, bind_map_left]
    exact (bind_pure (l.staged scope)).symm ▸ l.staged_same scope

theorem Item.settled_succeeds_iff (item : Item catalog Text) :
    (∃ l, item.settled scope = .ok l) ↔ ∀ l ∈ item.loop?, ∃ text, l.meaning scope = .ok text := by
  cases item with
  | leaf l => simp [settled, loop?, pure, Except.pure]
  | loop l => simp [settled, loop?, map_eq_ok_iff, l.staged_same scope _]

theorem Conditional.forall_loops {p : Loop catalog Text → Prop}
    (c : Conditional .page (Item catalog Text)) :
    (∀ l ∈ c.loops, p l) ↔ ∀ item ∈ c.parts, ∀ l ∈ item.loop?, p l := by
  simp only [loops, List.mem_filterMap, Option.mem_def]
  constructor
  · intro h item member l found
    exact h l ⟨item, member, found⟩
  · rintro h l ⟨item, member, found⟩
    exact h item member l found

theorem settled_same_part (c : Conditional .page (Item catalog Text)) :
    SameResult (c.fill (Item.settled scope) >>= fun filled =>
      filled.meaning scope (Leaf.meaning scope)) (partMeaning scope c) := by
  have filled : (∃ filled, c.fill (Item.settled scope) = .ok filled) ↔
      ∃ results, c.loops.mapM (Loop.meaning scope) = .ok results := by
    rw [Conditional.fill_succeeds_iff, mapM_succeeds_iff, Conditional.forall_loops]
    simp only [Item.settled_succeeds_iff]
  have meanings {result : Conditional .page (Leaf catalog .page Text)}
      (h : c.fill (Item.settled scope) = .ok result) :
      SameResult (result.meaning scope (Leaf.meaning scope))
        (c.meaning scope (Item.meaning scope)) :=
    (Conditional.meaning_of_fill h).trans
      (Conditional.meaning_same (Item.settled_bind_meaning scope) c)
  intro text
  rw [partMeaning, bind_eq_ok_iff, bind_eq_ok_iff]
  constructor
  · rintro ⟨result, here, later⟩
    obtain ⟨results, looped⟩ := filled.mp ⟨result, here⟩
    exact ⟨(), by rw [looped]; rfl, (meanings here text).mp later⟩
  · rintro ⟨_, looped, later⟩
    obtain ⟨results, looped, -⟩ := map_eq_ok_iff.mp looped
    obtain ⟨result, here⟩ := filled.mpr ⟨results, looped⟩
    exact ⟨result, here, (meanings here text).mpr later⟩

/-- The order of the stages does not change what a page means. -/
theorem Page.staged_same (page : Page catalog Text) :
    SameResult (page.staged scope) (page.meaning scope) := by
  have flat := (SameResult.refl (page.mapM (Conditional.fill (Item.settled scope)))).bind
    fun flat _ => staged_same_parts scope flat
  have parts := (SameResult.mapM_bind_mapM page (Conditional.fill (Item.settled scope))
    (Conditional.meaning scope (Leaf.meaning scope))).map List.flatten
  have meanings := (SameResult.mapM (settled_same_part scope) page).map List.flatten
  rw [map_bind] at parts
  exact flat.trans (parts.trans meanings)

end Stencil.Template
