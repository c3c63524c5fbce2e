import Mathlib.Tactic.IntervalCases
import Mathlib.Tactic.SplitIfs
import Stencil.Render.Engine

/-! Properties of a value and of all values inside it. What a path leads to and what a round
of a loop adds are such parts, or values that were made on the way: numbers, truth values,
zones. -/
namespace Stencil

namespace Value

mutual

/-- Holds when a value and all values inside it, keys and attributes among them, have a property. -/
def Every (p : Value → Prop) : Value → Prop
  | sequence kind items => p (sequence kind items) ∧ EveryItem p items
  | mapping entries => p (mapping entries) ∧ EveryEntry p entries
  | object attributes shown explicit =>
    p (object attributes shown explicit) ∧ EveryAttribute p attributes
  | absent => p absent
  | null => p null
  | bool b => p (bool b)
  | int z => p (int z)
  | float x => p (float x)
  | text t => p (text t)
  | bytes octets => p (bytes octets)
  | date d => p (date d)
  | moment m => p (moment m)
  | zone offset => p (zone offset)
  | span s => p (span s)

def EveryItem (p : Value → Prop) : List Value → Prop
  | [] => True
  | item :: rest => Every p item ∧ EveryItem p rest

def EveryEntry (p : Value → Prop) : List (Value × Value) → Prop
  | [] => True
  | (key, value) :: rest => (Every p key ∧ Every p value) ∧ EveryEntry p rest

def EveryAttribute (p : Value → Prop) : List (Text × Value) → Prop
  | [] => True
  | (_, value) :: rest => Every p value ∧ EveryAttribute p rest

end

variable {p : Value → Prop}

theorem everyItem_iff {items : List Value} : EveryItem p items ↔ ∀ v ∈ items, Every p v := by
  induction items with
  | nil => simp [EveryItem]
  | cons item rest ih => simp [EveryItem, ih]

theorem everyEntry_iff {entries : List (Value × Value)} :
    EveryEntry p entries ↔ ∀ e ∈ entries, Every p e.1 ∧ Every p e.2 := by
  induction entries with
  | nil => simp [EveryEntry]
  | cons entry rest ih => simp [EveryEntry, ih]

theorem everyAttribute_iff {attributes : List (Text × Value)} :
    EveryAttribute p attributes ↔ ∀ e ∈ attributes, Every p e.2 := by
  induction attributes with
  | nil => simp [EveryAttribute]
  | cons pair rest ih => simp [EveryAttribute, ih]

@[simp] theorem every_sequence {kind : SequenceKind} {items : List Value} :
    Every p (sequence kind items) ↔ p (sequence kind items) ∧ ∀ v ∈ items, Every p v := by
  simp [Every, everyItem_iff]

@[simp] theorem every_mapping {entries : List (Value × Value)} :
    Every p (mapping entries) ↔
      p (mapping entries) ∧ ∀ e ∈ entries, Every p e.1 ∧ Every p e.2 := by
  simp [Every, everyEntry_iff]

@[simp] theorem every_object {attributes : List (Text × Value)} {shown explicit : Text} :
    Every p (object attributes shown explicit) ↔
      p (object attributes shown explicit) ∧ ∀ e ∈ attributes, Every p e.2 := by
  simp [Every, everyAttribute_iff]

theorem Every.here {v : Value} (h : v.Every p) : p v := by
  cases v
  case sequence => exact (every_sequence.mp h).1
  case mapping => exact (every_mapping.mp h).1
  case object => exact (every_object.mp h).1
  all_goals simpa [Every] using h

/-- A property that the values made on a path or by a loop have of themselves. -/
structure Inherited (p : Value → Prop) : Prop where
  absent : p absent
  null : p null
  bool : ∀ b, p (bool b)
  float : ∀ x, p (float x)
  date : ∀ d, p (date d)
  moment : ∀ m, p (moment m)
  zone : ∀ offset, p (zone offset)
  span : ∀ s, p (span s)
  mapping : ∀ entries, p (mapping entries)
  small : ∀ z : Int, z.natAbs < 1000000000 → p (int z)
  below : ∀ m n : Nat, m ≤ n → p (int n) → p (int m)
  items : ∀ kind items, p (sequence kind items) → p (int items.length)
  octets : ∀ octets, p (bytes octets) → p (int octets.length)

section Steps

variable (made : Inherited p)
include made

theorem every_numberAttributes {z : Int} (here : p (int z)) :
    ∀ e ∈ numberAttributes z, Every p e.2 := by
  have zero : p (int 0) := made.small 0 (by decide)
  have one : p (int 1) := made.small 1 (by decide)
  simp [numberAttributes, Every, here, zero, one]

theorem every_dateAttributes (d : Date) : ∀ e ∈ dateAttributes d, Every p e.2 := by
  obtain ⟨_, lastYear, _, lastMonth, _, lastDay⟩ := d.valid
  have lengths : Calendar.daysInMonth d.year d.month ≤ 31 := by
    unfold Calendar.daysInMonth Calendar.monthLengths
    have : d.month - 1 < 12 := by omega
    interval_cases d.month - 1 <;> cases Calendar.isLeap d.year <;> decide
  have : Calendar.lastYear = 9999 := rfl
  have year : p (int d.year) := made.small _ (by omega)
  have month : p (int d.month) := made.small _ (by omega)
  have day : p (int d.day) := made.small _ (by omega)
  simp [dateAttributes, Every, year, month, day, made.date, made.span]

theorem every_momentAttributes (m : Moment) : ∀ e ∈ momentAttributes m, Every p e.2 := by
  obtain ⟨_, _, _, _⟩ := m.time.valid
  have hour : p (int m.time.hour) := made.small _ (by omega)
  have minute : p (int m.time.minute) := made.small _ (by omega)
  have second : p (int m.time.second) := made.small _ (by omega)
  have microsecond : p (int m.time.microsecond) := made.small _ (by omega)
  have fold : p (int 0) := made.small 0 (by decide)
  have offset : Every p ((m.offset?.map zone).getD null) := by
    cases m.offset? with
    | none => simpa [Every] using made.null
    | some offset => simpa [Every] using made.zone offset
  refine List.forall_mem_append.mpr ⟨?_, every_dateAttributes made m.date⟩
  simp [Every, hour, minute, second, microsecond, fold, offset, made.moment, made.span]

theorem every_spanAttributes (s : Span) : ∀ e ∈ spanAttributes s, Every p e.2 := by
  obtain ⟨_, _⟩ := s.valid
  have days : p (int s.days) :=
    made.small _ (by unfold Span.days Moment.microsecondsPerDay; omega)
  have seconds : p (int s.seconds) :=
    made.small _ (by unfold Span.seconds Moment.microsecondsPerDay; omega)
  have microseconds : p (int s.microseconds) :=
    made.small _ (by unfold Span.microseconds; omega)
  simp [spanAttributes, Every, days, seconds, microseconds, made.span]

theorem Every.attributes {v : Value} (h : v.Every p) : ∀ e ∈ v.attributes, Every p e.2 := by
  cases v with
  | bool b => exact every_numberAttributes made (made.small _ (by cases b <;> decide))
  | int z => exact every_numberAttributes made h.here
  | float x => simp [Value.attributes, floatAttributes, Every, made.float]
  | date d => exact every_dateAttributes made d
  | moment m => exact every_momentAttributes made m
  | zone offset => simp [Value.attributes, zoneAttributes, Every, made.zone]
  | span s => exact every_spanAttributes made s
  | object attributes shown explicit => exact (every_object.mp h).2
  | _ => exact List.forall_mem_nil _

theorem every_attribute {v w : Value} {name : Text} (h : v.Every p)
    (found : v.attribute? name = some w) : w.Every p := by
  obtain ⟨before, after, split, -⟩ := List.lookup_eq_some_iff.mp found
  exact h.attributes made (name, w) (split ▸ List.mem_append_cons_self)

theorem every_element {items : List Value} {part : Text} {v : Value}
    (length : p (int items.length)) (h : ∀ item ∈ items, item.Every p)
    (found : element items part = .ok v) : v.Every p := by
  unfold element at found
  split_ifs at found
  · cases found
    simpa [Every] using length
  · split at found
    next index _ =>
      cases found
      rw [List.getD_eq_getElem?_getD]
      cases inside : items[index.toNat]? with
      | none => simpa [Every] using made.absent
      | some item => exact h _ (List.mem_of_getElem? inside)
    next => contradiction
  · cases found
    simpa [Every] using made.absent

/-- A step of a path keeps a property that is inherited. -/
theorem Every.child {v w : Value} {part : Text} (h : v.Every p) (found : v.child part = .ok w) :
    w.Every p := by
  have none : Every p Value.absent := by simpa [Every] using made.absent
  have attributed : ∀ v : Value, v.Every p →
      ((if part.head? = some '_' then Value.absent else
        (v.attribute? part).getD .absent)).Every p := by
    intro v h
    split
    · exact none
    · cases inside : v.attribute? part with
      | none => exact none
      | some w => exact every_attribute made h inside
  cases v with
  | absent | null | text => cases found; exact none
  | mapping entries =>
    cases found
    cases inside : Mapping.get? entries part with
    | none => exact none
    | some w =>
      obtain ⟨entry, first, rfl⟩ := Option.map_eq_some_iff.mp inside
      exact ((every_mapping.mp h).2 _ (List.mem_of_find?_eq_some first)).2
  | sequence kind items =>
    obtain ⟨here, inner⟩ := every_sequence.mp h
    exact every_element made (made.items _ _ here) inner found
  | bytes octets =>
    refine every_element made (by simpa using made.octets _ h.here) ?_ found
    intro item member
    obtain ⟨octet, -, rfl⟩ := List.mem_map.mp member
    have small := octet.toNat_lt
    exact made.small _ (by omega)
  | _ => cases found; exact attributed _ h

theorem Every.follow {v w : Value} {path : Text} (h : v.Every p) (found : v.follow path = .ok w) :
    w.Every p := by
  unfold Value.follow at found
  generalize Text.parts '.' path = parts at found
  induction parts generalizing v with
  | nil => cases found; exact h
  | cons part rest ih =>
    rw [List.foldlM_cons] at found
    cases step : v.child part with
    | error failure => rw [step] at found; contradiction
    | ok next =>
      rw [step] at found
      exact ih (h.child made step) found

end Steps

theorem every_insert {m : Mapping} {key value : Value} (old : ∀ e ∈ m, Every p e.1 ∧ Every p e.2)
    (newKey : Every p key) (new : Every p value) :
    ∀ e ∈ Mapping.insert key value m, Every p e.1 ∧ Every p e.2 := by
  induction m with
  | nil => simpa [Mapping.insert] using ⟨newKey, new⟩
  | cons entry rest ih =>
    obtain ⟨k, v⟩ := entry
    have front := old (k, v) (by simp)
    have later := ih fun e member => old e (by simp [member])
    intro e member
    unfold Mapping.insert at member
    split at member
    · rcases List.mem_cons.mp member with rfl | inside
      · exact ⟨front.1, new⟩
      · exact old e (by simp [inside])
    · rcases List.mem_cons.mp member with rfl | inside
      · exact front
      · exact later e inside

/-- What a round of a loop sees has the property, if its item has it and so have the names that
the loop adds. -/
theorem Every.itemScope {context item scope : Value} {index total : Nat} (made : Inherited p)
    (h : context.Every p) (inner : item.Every p) (counted : p (int total)) (inside : index < total)
    (names : ∀ name ∈ ["this", "@index", "@first", "@last"], p (.text name.toList))
    (found : Stencil.itemScope context item index total = .ok scope) : scope.Every p := by
  have key : ∀ name ∈ ["this", "@index", "@first", "@last"], Every p (.text name.toList) :=
    fun name member => by simpa [Every] using names name member
  have position : Every p (int index) := by
    simpa [Every] using made.below index total (Nat.le_of_lt inside) counted
  have truth : ∀ b, Every p (bool b) := fun b => by simpa [Every] using made.bool b
  cases context with
  | mapping m =>
    cases found
    refine every_mapping.mpr ⟨made.mapping _, ?_⟩
    have base := (every_mapping.mp h).2
    exact every_insert (every_insert (every_insert (every_insert base
      (key "this" (by simp)) inner) (key "@index" (by simp)) position)
      (key "@first" (by simp)) (truth _)) (key "@last" (by simp)) (truth _)
  | _ => contradiction

end Value

end Stencil
