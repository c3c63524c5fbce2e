import Stencil.Proofs.Number.Numerals
import Stencil.Proofs.Outcome
import Stencil.Proofs.Text.NulFree
import Stencil.Proofs.Value.Every

/-! Values without a NUL in any of their texts, and values in which no number is too long to
be written: what a page shows of them. -/
namespace Stencil

open Text

namespace Value

/-- No text of the value itself holds a NUL. -/
def Plain : Value → Prop
  | text t => NulFree t
  | object _ shown explicit => NulFree shown ∧ NulFree explicit
  | _ => True

/-- No text inside the value holds a NUL. -/
def NulFree (v : Value) : Prop := v.Every Plain

theorem plain_inherited : Inherited Plain := by
  constructor <;> intros <;> trivial

theorem NulFree.follow {v w : Value} {path : Text} (h : v.NulFree)
    (found : v.follow path = .ok w) : w.NulFree :=
  Every.follow plain_inherited h found

theorem NulFree.itemScope {context item scope : Value} {index total : Nat} (h : context.NulFree)
    (inner : item.NulFree) (inside : index < total)
    (found : Stencil.itemScope context item index total = .ok scope) : scope.NulFree := by
  refine Every.itemScope plain_inherited h inner trivial inside ?_ found
  simp [Plain]

theorem nulFree_enclosed (kind : SequenceKind) {texts : List Text}
    (h : ∀ t ∈ texts, Text.NulFree t) : Text.NulFree (enclosed kind texts) := by
  have joined := nulFree_intercalate [',', ' '] (by simp) h
  unfold enclosed
  split
  · simp [joined]
  · simp [h]
  · simp [joined]

mutual

theorem NulFree.written {v : Value} {t : Text} (h : v.NulFree) (found : v.written = .ok t) :
    Text.NulFree t := by
  cases v with
  | sequence kind items =>
    obtain ⟨texts, inner, same⟩ := bind_eq_ok_iff.mp found
    cases same
    exact nulFree_enclosed kind (nulFree_writtenItems (every_sequence.mp h).2 inner)
  | mapping entries =>
    obtain ⟨texts, inner, same⟩ := bind_eq_ok_iff.mp found
    cases same
    have free := nulFree_writtenEntries (every_mapping.mp h).2 inner
    simp [nulFree_intercalate [',', ' '] (by simp) free]
  | int z =>
    simp only [Value.written, Numeral.write] at found
    split at found <;> cases found
    exact nulFree_ofInt z
  | bool b => cases b <;> cases found <;> simp
  | float x => cases found; exact nulFree_float x
  | text t => cases found; exact nulFree_quoted t
  | bytes octets => cases found; exact nulFree_quotedBytes octets
  | date d => cases found; exact nulFree_writtenDate d
  | moment m => cases found; exact nulFree_writtenMoment m
  | zone offset => cases found; exact nulFree_writtenZone offset
  | span s => cases found; exact nulFree_writtenSpan s.micros
  | object attributes shown explicit => cases found; exact h.here.2
  | absent => cases found; simp
  | null => cases found; simp

theorem nulFree_writtenItems {items : List Value} {texts : List Text}
    (h : ∀ v ∈ items, v.NulFree) (found : writtenItems items = .ok texts) :
    ∀ t ∈ texts, Text.NulFree t := by
  cases items with
  | nil => cases found; simp
  | cons item rest =>
    obtain ⟨t, front, found⟩ := bind_eq_ok_iff.mp found
    obtain ⟨more, later, same⟩ := bind_eq_ok_iff.mp found
    cases same
    have here := NulFree.written (h item (by simp)) front
    have there := nulFree_writtenItems (fun v member => h v (by simp [member])) later
    simpa [here] using there

theorem nulFree_writtenEntries {entries : List (Value × Value)} {texts : List Text}
    (h : ∀ e ∈ entries, e.1.NulFree ∧ e.2.NulFree) (found : writtenEntries entries = .ok texts) :
    ∀ t ∈ texts, Text.NulFree t := by
  cases entries with
  | nil => cases found; simp
  | cons entry rest =>
    obtain ⟨key, value⟩ := entry
    obtain ⟨k, name, found⟩ := bind_eq_ok_iff.mp found
    obtain ⟨t, front, found⟩ := bind_eq_ok_iff.mp found
    obtain ⟨more, later, same⟩ := bind_eq_ok_iff.mp found
    cases same
    have parts := h (key, value) (by simp)
    have here := NulFree.written parts.1 name
    have there := NulFree.written parts.2 front
    have rest := nulFree_writtenEntries (fun e member => h e (by simp [member])) later
    simpa [here, there] using rest

end

mutual

/-- What is shown of a value holds a NUL only if a text inside the value does. -/
theorem NulFree.display {v : Value} {t : Text} (h : v.NulFree) (found : v.display = .ok t) :
    Text.NulFree t := by
  cases v with
  | sequence kind items =>
    obtain ⟨texts, inner, same⟩ := bind_eq_ok_iff.mp found
    cases same
    exact nulFree_intercalate _ (by simp) (nulFree_displayItems (every_sequence.mp h).2 inner)
  | mapping entries => exact NulFree.written h found
  | int z =>
    simp only [Value.display, Numeral.write] at found
    split at found <;> cases found
    exact nulFree_ofInt z
  | float x =>
    simp only [Value.display] at found
    split at found
    · cases found
      exact nulFree_ite (nulFree_ofInt _) (nulFree_float x)
    · cases found
      exact nulFree_float x
  | bool b => cases b <;> cases found <;> simp
  | text t => cases found; exact h.here
  | bytes octets => cases found; exact nulFree_quotedBytes octets
  | date d => cases found; exact nulFree_iso d
  | moment m => cases found; exact nulFree_moment m
  | zone offset => cases found; exact nulFree_shownZone offset
  | span s => cases found; exact nulFree_shownSpan s
  | object attributes shown explicit => cases found; exact h.here.1
  | absent => cases found; simp
  | null => cases found; simp

theorem nulFree_displayItems {items : List Value} {texts : List Text}
    (h : ∀ v ∈ items, v.NulFree) (found : displayItems items = .ok texts) :
    ∀ t ∈ texts, Text.NulFree t := by
  cases items with
  | nil => cases found; simp
  | cons item rest =>
    obtain ⟨t, front, found⟩ := bind_eq_ok_iff.mp found
    obtain ⟨more, later, same⟩ := bind_eq_ok_iff.mp found
    cases same
    have here := NulFree.display (h item (by simp)) front
    have there := nulFree_displayItems (fun v member => h v (by simp [member])) later
    simpa [here] using there

end

/-- The numeral of the value itself, or of how many items it has, can be written. -/
def Short : Value → Prop
  | int z => Numeral.Writable z
  | sequence _ items => Numeral.Writable items.length
  | bytes octets => Numeral.Writable octets.length
  | _ => True

/-- All numerals inside the value can be written. -/
def Writable (v : Value) : Prop := v.Every Short

theorem short_inherited : Inherited Short where
  absent := trivial
  null := trivial
  bool _ := trivial
  float _ := trivial
  date _ := trivial
  moment _ := trivial
  zone _ := trivial
  span _ := trivial
  mapping _ := trivial
  small z few := by
    have digits : z.natAbs < 10 ^ Numeral.maxDigits := by
      calc z.natAbs < 10 ^ 9 := few
        _ ≤ 10 ^ Numeral.maxDigits := Nat.pow_le_pow_right (by decide) (by decide)
    exact Numeral.writable_iff.mpr digits
  below m n le counted := by
    have digits : n < 10 ^ Numeral.maxDigits := Numeral.writable_iff.mp counted
    exact Numeral.writable_iff.mpr (Nat.lt_of_le_of_lt le digits)
  items _ _ counted := counted
  octets _ counted := counted

theorem Writable.follow {v w : Value} {path : Text} (h : v.Writable)
    (found : v.follow path = .ok w) : w.Writable :=
  Every.follow short_inherited h found

theorem Writable.items {kind : SequenceKind} {items : List Value}
    (h : (sequence kind items).Writable) : ∀ v ∈ items, v.Writable :=
  (every_sequence.mp h).2

theorem write_succeeds {z : Int} (h : Numeral.Writable z) : ∃ t, Numeral.write z = .ok t :=
  ⟨_, if_pos h⟩

mutual

theorem Writable.written {v : Value} (h : v.Writable) : ∃ t, v.written = .ok t := by
  cases v with
  | int z => exact write_succeeds h
  | sequence kind items =>
    obtain ⟨texts, inner⟩ := writtenItems_succeeds h.items
    exact ⟨_, bind_eq_ok_iff.mpr ⟨texts, inner, rfl⟩⟩
  | mapping entries =>
    obtain ⟨texts, inner⟩ := writtenEntries_succeeds (every_mapping.mp h).2
    exact ⟨_, bind_eq_ok_iff.mpr ⟨texts, inner, rfl⟩⟩
  | _ => exact ⟨_, rfl⟩

theorem writtenItems_succeeds {items : List Value} (h : ∀ v ∈ items, v.Writable) :
    ∃ texts, writtenItems items = .ok texts := by
  cases items with
  | nil => exact ⟨_, rfl⟩
  | cons item rest =>
    obtain ⟨first, others⟩ := List.forall_mem_cons.mp h
    obtain ⟨text, here⟩ := first.written
    obtain ⟨texts, later⟩ := writtenItems_succeeds others
    exact ⟨_, bind_eq_ok_iff.mpr ⟨text, here, bind_eq_ok_iff.mpr ⟨texts, later, rfl⟩⟩⟩

theorem writtenEntries_succeeds {entries : List (Value × Value)}
    (h : ∀ e ∈ entries, e.1.Writable ∧ e.2.Writable) :
    ∃ texts, writtenEntries entries = .ok texts := by
  cases entries with
  | nil => exact ⟨_, rfl⟩
  | cons entry rest =>
    obtain ⟨key, value⟩ := entry
    obtain ⟨⟨first, second⟩, others⟩ := List.forall_mem_cons.mp h
    obtain ⟨name, named⟩ := first.written
    obtain ⟨text, here⟩ := second.written
    obtain ⟨texts, later⟩ := writtenEntries_succeeds others
    exact ⟨_, bind_eq_ok_iff.mpr ⟨name, named, bind_eq_ok_iff.mpr
      ⟨text, here, bind_eq_ok_iff.mpr ⟨texts, later, rfl⟩⟩⟩⟩

end

mutual

theorem Writable.display {v : Value} (h : v.Writable) : ∃ t, v.display = .ok t := by
  cases v with
  | int z => exact write_succeeds h
  | float x =>
    unfold Value.display
    split <;> exact ⟨_, rfl⟩
  | sequence kind items =>
    obtain ⟨texts, inner⟩ := displayItems_succeeds h.items
    exact ⟨_, bind_eq_ok_iff.mpr ⟨texts, inner, rfl⟩⟩
  | mapping entries => exact h.written
  | _ => exact ⟨_, rfl⟩

theorem displayItems_succeeds {items : List Value} (h : ∀ v ∈ items, v.Writable) :
    ∃ texts, displayItems items = .ok texts := by
  cases items with
  | nil => exact ⟨_, rfl⟩
  | cons item rest =>
    obtain ⟨first, others⟩ := List.forall_mem_cons.mp h
    obtain ⟨text, here⟩ := first.display
    obtain ⟨texts, later⟩ := displayItems_succeeds others
    exact ⟨_, bind_eq_ok_iff.mpr ⟨text, here, bind_eq_ok_iff.mpr ⟨texts, later, rfl⟩⟩⟩

end

end Value

end Stencil
