import Stencil.Proofs.Text.Parts
import Stencil.Proofs.Value.NulFree

/-! Helper calls without a NUL: the words of an argument text, the values that they stand
for and what the call shows. -/
namespace Stencil

open Text

namespace Helper

theorem nulFree_wordsFrom {quoted escaped : Bool} {current text : Text} (held : NulFree current)
    (h : NulFree text) : ∀ word ∈ wordsFrom quoted escaped current text, NulFree word := by
  induction text generalizing quoted escaped current with
  | nil =>
    have bare : NulFree (trimEnd current.reverse) := by
      refine held.of_subset fun c member => ?_
      have kept := (List.dropWhile_suffix _).subset (List.mem_reverse.mp member)
      simpa using kept
    intro word member
    simp only [wordsFrom] at member
    split at member
    · contradiction
    · obtain rfl := List.mem_singleton.mp member
      exact bare
  | cons c rest ih =>
    obtain ⟨ne, later⟩ := nulFree_cons.mp h
    have longer : NulFree (c :: current) := nulFree_cons.mpr ⟨ne, held⟩
    intro word member
    rw [wordsFrom.eq_def] at member
    dsimp only at member
    split at member
    · exact ih longer later word member
    · split at member
      · split at member
        · exact ih nulFree_nil later word member
        · rcases List.mem_cons.mp member with rfl | more
          · exact held.of_subset fun c member => List.mem_reverse.mp member
          · exact ih nulFree_nil later word more
      · exact ih longer later word member

/-- What a word can stand for, if it is a literal. -/
theorem ofWord_eq_literal {word : Text} {value : Value}
    (read : Argument.ofWord word = .ok (.literal value)) :
    (∃ text, quotation? word = some text ∧ value = .text text) ∨ (∃ z, value = .int z) ∨
      (∃ x, value = .float x) ∨ (∃ b, value = .bool b) ∨ value = .null := by
  unfold Argument.ofWord at read
  split at read
  next text quoted =>
    cases read
    exact .inl ⟨text, quoted, rfl⟩
  next =>
    split at read
    next z _ =>
      cases read
      exact .inr (.inl ⟨z, rfl⟩)
    next => contradiction
    next =>
      split at read
      next value chosen =>
        cases read
        rcases Option.or_eq_some_iff.mp chosen with number | ⟨-, keyword⟩
        · obtain ⟨x, -, finite⟩ := Option.bind_eq_some_iff.mp number
          split at finite <;> cases finite
          exact .inr (.inr (.inl ⟨x, rfl⟩))
        · unfold keyword? at keyword
          split_ifs at keyword <;> cases keyword
          · exact .inr (.inr (.inr (.inl ⟨true, rfl⟩)))
          · exact .inr (.inr (.inr (.inl ⟨false, rfl⟩)))
          · exact .inr (.inr (.inr (.inr rfl)))
      next => cases read

theorem nulFree_ofWord {word : Text} {value : Value} (h : NulFree word)
    (read : Argument.ofWord word = .ok (.literal value)) : value.NulFree := by
  rcases ofWord_eq_literal read with
    ⟨text, quoted, rfl⟩ | ⟨z, rfl⟩ | ⟨x, rfl⟩ | ⟨b, rfl⟩ | rfl
  · unfold quotation? at quoted
    split at quoted
    · cases quoted
      exact h.of_subset fun c member => List.mem_of_mem_drop (List.dropLast_subset _ member)
    · contradiction
  all_goals trivial

theorem nulFree_argument {name word : Text} {lookup : Lookup} {value : Value} (h : NulFree word)
    (found : ∀ path v, lookup path = .ok v → v.NulFree)
    (read : argument name lookup word = .ok value) : value.NulFree := by
  obtain ⟨kind, ofWord, read⟩ := bind_eq_ok_iff.mp read
  cases kind with
  | literal v =>
    cases read
    exact nulFree_ofWord h ofWord
  | path path =>
    obtain ⟨v, followed, read⟩ := bind_eq_ok_iff.mp read
    split at read
    · contradiction
    · cases read
      exact found path _ followed

theorem nulFree_arguments {name text : Text} {lookup : Lookup} {values : List Value}
    (h : NulFree text) (found : ∀ path v, lookup path = .ok v → v.NulFree)
    (read : arguments name lookup text = .ok values) : ∀ value ∈ values, value.NulFree := by
  intro value member
  obtain ⟨word, inside, ofWord⟩ := mem_of_mapM_eq_ok read value member
  exact nulFree_argument (nulFree_wordsFrom nulFree_nil h word inside) found ofWord

end Helper

/-- Called with values without a NUL, no helper gives a result that shows one. -/
def Catalog.NulFree (c : Catalog) : Prop :=
  ∀ ⦃name helper⦄, c.get? name = some helper → ∀ ⦃arguments : List Value⦄ ⦃value text⦄,
    (∀ a ∈ arguments, a.NulFree) → helper.run arguments = .ok value → value.display = .ok text →
    Text.NulFree text

/-- A call that gives a text shows the result of a known helper. -/
theorem Catalog.call_eq_ok {c : Catalog} {name text shown : Text} {lookup : Helper.Lookup}
    (called : c.call name text lookup = .ok shown) :
    ∃ helper arguments value, c.get? name = some helper ∧
      Helper.arguments name lookup text = .ok arguments ∧ helper.run arguments = .ok value ∧
      value.display = .ok shown := by
  rw [Catalog.call_eq] at called
  split at called
  next => contradiction
  next helper known =>
    obtain ⟨arguments, read, ran⟩ := bind_eq_ok_iff.mp called
    cases result : helper.run arguments with
    | ok value =>
      rw [result] at ran
      exact ⟨helper, arguments, value, known, read, result, ran⟩
    | error cause =>
      rw [result] at ran
      contradiction

theorem Catalog.NulFree.call {c : Catalog} {name text shown : Text} {lookup : Helper.Lookup}
    (clean : c.NulFree) (h : Text.NulFree text)
    (found : ∀ path v, lookup path = .ok v → v.NulFree)
    (called : c.call name text lookup = .ok shown) : Text.NulFree shown := by
  obtain ⟨helper, arguments, value, known, read, result, displayed⟩ := Catalog.call_eq_ok called
  exact clean known (Helper.nulFree_arguments h found read) result displayed

namespace Helper

theorem nulFree_cutTo (length : Int) {text : Text} (h : NulFree text) :
    NulFree (cutTo length text) := by
  unfold cutTo
  split <;> exact nulFree_take _ h

theorem nulFree_truncate {value length : Value} {shown : Text} (h : value.NulFree)
    (ran : truncate value length = .ok shown) : NulFree shown := by
  obtain ⟨text, displayed, ran⟩ := bind_eq_ok_iff.mp ran
  obtain ⟨count, -, ran⟩ := bind_eq_ok_iff.mp ran
  have free := h.display displayed
  cases ran
  split
  · exact nulFree_append.mpr ⟨nulFree_cutTo _ free, by decide⟩
  · exact free

theorem nulFree_formatDate {value format : Value} {shown : Text}
    (ran : formatDate value format = .ok shown) : NulFree shown := by
  obtain ⟨moment, -, same⟩ := bind_eq_ok_iff.mp ran
  cases same
  split
  · exact nulFree_short moment
  · exact nulFree_long moment

theorem Builtin.nulFree_run {b : Builtin} {arguments : List Value} {shown : Text}
    (h : ∀ a ∈ arguments, a.NulFree) (ran : b.run arguments = .ok shown) : NulFree shown := by
  unfold Builtin.run at ran
  split at ran
  next => exact nulFree_formatDate ran
  next => exact nulFree_formatDate ran
  next value =>
    obtain ⟨x, -, same⟩ := bind_eq_ok_iff.mp ran
    cases same
    simp [nulFree_fixed]
  next value =>
    obtain ⟨text, displayed, same⟩ := bind_eq_ok_iff.mp ran
    cases same
    exact nulFree_upper ((h value (by simp)).display displayed)
  next value =>
    obtain ⟨text, displayed, same⟩ := bind_eq_ok_iff.mp ran
    cases same
    exact nulFree_lower ((h value (by simp)).display displayed)
  next value => exact nulFree_truncate (h value (by simp)) ran
  next value length => exact nulFree_truncate (h value (by simp)) ran
  next => contradiction

end Helper

theorem Catalog.eq_ofBuiltin {name : Text} {helper : Helper}
    (known : (Catalog.seeded .builtin).get? name = some helper) :
    ∃ b, helper = .ofBuiltin b := by
  obtain ⟨⟨n, d⟩, declared, same⟩ := List.mem_map.mp (Ledger.mem_of_get? known)
  obtain ⟨b, -, named⟩ := List.mem_map.mp declared
  cases named
  cases same
  exact ⟨b, rfl⟩

theorem Catalog.nulFree_builtin : (Catalog.seeded .builtin).NulFree := by
  intro name helper known arguments value text free ran displayed
  obtain ⟨b, rfl⟩ := eq_ofBuiltin known
  obtain ⟨shown, result, rfl⟩ := map_eq_ok_iff.mp ran
  cases displayed
  exact Helper.Builtin.nulFree_run free result

/-- A helper that shows no NUL, whatever it is called with. -/
def Helper.Tame (h : Helper) : Prop :=
  ∀ ⦃arguments value text⦄, h.run arguments = .ok value → value.display = .ok text →
    Text.NulFree text

def Catalog.Tame (c : Catalog) : Prop := ∀ entry ∈ c.helpers, entry.2.Tame

theorem Catalog.Tame.nulFree {c : Catalog} (tame : c.Tame) : c.NulFree :=
  fun _ _ known _ _ _ _ result displayed =>
    tame _ (Ledger.mem_of_get? known) result displayed

theorem Catalog.Tame.call {c : Catalog} {name text shown : Text} {lookup : Helper.Lookup}
    (tame : c.Tame) (called : c.call name text lookup = .ok shown) : Text.NulFree shown := by
  obtain ⟨helper, arguments, value, known, -, result, displayed⟩ := Catalog.call_eq_ok called
  exact tame _ (Ledger.mem_of_get? known) result displayed

def showsNul : Failure := .raised "ValueError".toList "NUL in the result".toList

/-- A value, unless it shows a NUL. -/
def Helper.check (value : Value) : Except Failure Value :=
  match value.display with
  | .ok text => if '\x00' ∈ text then throw showsNul else return value
  | .error _ => return value

theorem Helper.check_eq_ok_iff {value checked : Value} :
    check value = .ok checked ↔
      value = checked ∧ ∀ text, value.display = .ok text → Text.NulFree text := by
  unfold check
  cases value.display with
  | error cause => simp [pure_eq_ok_iff]
  | ok text =>
    by_cases shown : '\x00' ∈ text
    · simp [shown, Text.NulFree, throw, throwThe, MonadExceptOf.throw]
    · simp [shown, Text.NulFree, pure_eq_ok_iff]

/-- The helper, but a failure in place of a result that shows a NUL. -/
def Helper.checked (h : Helper) : Helper :=
  ⟨h.identity, fun arguments => h.run arguments >>= check⟩

theorem Helper.tame_checked (h : Helper) : h.checked.Tame := by
  intro arguments value text result displayed
  obtain ⟨_, -, checked⟩ := bind_eq_ok_iff.mp result
  obtain ⟨rfl, free⟩ := check_eq_ok_iff.mp checked
  exact free text displayed

theorem Helper.Tame.checked {h : Helper} (tame : h.Tame) : h.checked = h := by
  have same (arguments : List Value) : (h.run arguments >>= check) = h.run arguments := by
    cases result : h.run arguments with
    | error cause => rfl
    | ok value => exact check_eq_ok_iff.mpr ⟨rfl, fun _ displayed => tame result displayed⟩
  rw [Helper.checked, funext same]

def Catalog.checked (c : Catalog) : Catalog :=
  ⟨c.helpers.map fun (name, helper) => (name, helper.checked)⟩

theorem Catalog.tame_checked (c : Catalog) : c.checked.Tame := by
  intro entry member
  obtain ⟨⟨name, helper⟩, -, rfl⟩ := List.mem_map.mp member
  exact helper.tame_checked

theorem Catalog.Tame.checked {c : Catalog} (tame : c.Tame) : c.checked = c := by
  have same : c.helpers.map (fun entry => (entry.1, entry.2.checked)) = c.helpers := by
    rw [List.map_congr_left fun entry member => by rw [(tame entry member).checked]]
    exact List.map_id _
  exact congrArg Catalog.mk same

end Stencil
