import Stencil.Proofs.Markup.Plain

/-! Patterns: a form of tag as a row of fixed texts and of stretches of characters of a
class. A pattern is read with backtracking. A stretch is tried at every length that it can
have, the longest first or, if it is lazy, the shortest first, until the rest of the pattern
can be read behind it. Where the rest cannot start with a character of the class, one length
is left. -/
namespace Stencil.Markup

open Text

/-- Characters of a class, so many of them at least. -/
structure Stretch where
  allowed : Char → Bool
  least : Nat
  lazy : Bool
  captured : Bool

inductive Pattern.Item
  | fixed (lead : Text)
  | stretch (s : Stretch)

abbrev Pattern := List Pattern.Item

/-- The ways to take characters of a class from the start of a text, each with what it leaves: all
of them first, then one less, and so on. -/
def takings (allowed : Char → Bool) : Text → List (Text × Text)
  | [] => [([], [])]
  | c :: rest =>
    if allowed c then
      (takings allowed rest).map (fun way => (c :: way.1, way.2)) ++ [([], c :: rest)]
    else [([], c :: rest)]

namespace Stretch

def longEnough (s : Stretch) (way : Text × Text) : Bool := s.least ≤ way.1.length

/-- The ways in which a stretch is tried, in their order. -/
def ways (s : Stretch) (text : Text) : List (Text × Text) :=
  let longestFirst := (takings s.allowed text).filter s.longEnough
  if s.lazy then longestFirst.reverse else longestFirst

def record (s : Stretch) (part : Text) (found : List Text × Text) : List Text × Text :=
  (if s.captured then part :: found.1 else found.1, found.2)

end Stretch

/-- The captured parts of the first way to read a pattern, and what follows. -/
def Pattern.read? : Pattern → Rule (List Text)
  | [], text => some ([], text)
  | .fixed lead :: more, text => (Text.after? lead text).bind (Pattern.read? more)
  | .stretch s :: more, text =>
    (s.ways text).findSome? fun way => (Pattern.read? more way.2).map (s.record way.1)

/-- Nothing that starts with a character of the class can be read. -/
def Pattern.Refuses (p : Pattern) (allowed : Char → Bool) : Prop :=
  ∀ c rest, allowed c = true → p.read? (c :: rest) = none

variable {allowed : Char → Bool} {s : Stretch} {more : Pattern} {front rest text : Text}
variable {way : Text × Text}

theorem takings_stop (stop : ∀ c ∈ text.head?, allowed c = false) :
    takings allowed text = [([], text)] := by
  cases text with
  | nil => rfl
  | cons c rest => simp [takings, stop c rfl]

theorem parts_of_taking (member : way ∈ takings allowed text) :
    text = way.1 ++ way.2 ∧ ∀ c ∈ way.1, allowed c = true := by
  induction text generalizing way with
  | nil =>
    obtain rfl := List.mem_singleton.mp member
    exact ⟨rfl, List.forall_mem_nil _⟩
  | cons c text ih =>
    unfold takings at member
    split at member
    next allows =>
      rcases List.mem_append.mp member with longer | shortest
      · obtain ⟨inner, inside, rfl⟩ := List.mem_map.mp longer
        obtain ⟨split, all⟩ := ih inside
        exact ⟨congrArg (c :: ·) split, List.forall_mem_cons.mpr ⟨allows, all⟩⟩
      · obtain rfl := List.mem_singleton.mp shortest
        exact ⟨rfl, List.forall_mem_nil _⟩
    next =>
      obtain rfl := List.mem_singleton.mp member
      exact ⟨rfl, List.forall_mem_nil _⟩

/-- The last way is to take nothing. -/
theorem takings_last (allowed : Char → Bool) (text : Text) :
    ∃ longer, takings allowed text = longer ++ [([], text)] ∧ ∀ way ∈ longer, way.1 ≠ [] := by
  cases text with
  | nil => exact ⟨[], rfl, List.forall_mem_nil _⟩
  | cons c rest =>
    unfold takings
    split
    · refine ⟨_, rfl, fun way member => ?_⟩
      obtain ⟨inner, -, rfl⟩ := List.mem_map.mp member
      exact List.cons_ne_nil c inner.1
    · exact ⟨[], rfl, List.forall_mem_nil _⟩

/-- Of characters of the class, all are taken before what comes next is left to choose; the other
ways leave some of them. -/
theorem takings_append (all : ∀ c ∈ front, allowed c = true) (rest : Text) :
    ∃ short, takings allowed (front ++ rest) =
        (takings allowed rest).map (fun way => (front ++ way.1, way.2)) ++ short ∧
      ∀ way ∈ short, ∃ back, front = way.1 ++ back ∧ back ≠ [] ∧ way.2 = back ++ rest := by
  induction front with
  | nil => exact ⟨[], by simp, List.forall_mem_nil _⟩
  | cons c front ih =>
    obtain ⟨here, later⟩ := List.forall_mem_cons.mp all
    obtain ⟨short, same, leave⟩ := ih later
    refine ⟨short.map (fun way => (c :: way.1, way.2)) ++ [([], c :: (front ++ rest))], ?_, ?_⟩
    · simp [takings, here, same]
    · intro way member
      rcases List.mem_append.mp member with longer | shortest
      · obtain ⟨inner, inside, rfl⟩ := List.mem_map.mp longer
        obtain ⟨back, split, nonempty, left⟩ := leave inner inside
        exact ⟨back, by simp [split], nonempty, left⟩
      · obtain rfl := List.mem_singleton.mp shortest
        exact ⟨c :: front, rfl, List.cons_ne_nil c front, rfl⟩

/-- The first way takes all characters of the class; every other leaves one of them. -/
theorem takings_full (allowed : Char → Bool) (text : Text) :
    ∃ short, takings allowed text = (text.takeWhile allowed, text.dropWhile allowed) :: short ∧
      ∀ way ∈ short, ∃ c rest, way.2 = c :: rest ∧ allowed c = true := by
  have all : ∀ c ∈ text.takeWhile allowed, allowed c = true := fun _ => List.mem_takeWhile_imp
  have stop : ∀ c ∈ (text.dropWhile allowed).head?, allowed c = false := by
    intro c first
    have other := List.head?_dropWhile_not allowed text
    rw [first] at other
    simpa using other
  obtain ⟨short, same, leave⟩ := takings_append all (text.dropWhile allowed)
  rw [List.takeWhile_append_dropWhile, takings_stop stop] at same
  refine ⟨short, by simpa using same, fun way member => ?_⟩
  obtain ⟨back, split, nonempty, left⟩ := leave way member
  obtain ⟨c, back, rfl⟩ := List.exists_cons_of_ne_nil nonempty
  exact ⟨c, back ++ _, left, all c (by simp [split])⟩

/-- What is tried before and after one of the ways. -/
theorem takings_around (all : ∀ c ∈ front, allowed c = true) (rest : Text) :
    ∃ longer short, takings allowed (front ++ rest) = longer ++ (front, rest) :: short ∧
      (∀ way ∈ longer, ∃ more ∈ takings allowed rest, more.1 ≠ [] ∧ way.2 = more.2) ∧
      ∀ way ∈ short, ∃ back, front = way.1 ++ back ∧ back ≠ [] ∧ way.2 = back ++ rest := by
  obtain ⟨short, same, leave⟩ := takings_append all rest
  obtain ⟨longer, last, taken⟩ := takings_last allowed rest
  rw [last, List.map_append] at same
  refine ⟨longer.map fun way => (front ++ way.1, way.2), short, by simpa using same, ?_, leave⟩
  intro way member
  obtain ⟨more, inside, rfl⟩ := List.mem_map.mp member
  exact ⟨more, last ▸ List.mem_append_left _ inside, taken more inside, rfl⟩

theorem mem_ways_iff :
    way ∈ s.ways text ↔ way ∈ takings s.allowed text ∧ s.least ≤ way.1.length := by
  unfold Stretch.ways
  split <;> simp [Stretch.longEnough]

theorem findSome?_only {α β : Type} {l : List α} {f : α → Option β} {a : α} (member : a ∈ l)
    (others : ∀ b ∈ l, b ≠ a → f b = none) : l.findSome? f = f a := by
  cases result : l.findSome? f with
  | none => exact (List.findSome?_eq_none_iff.mp result a member).symm
  | some x =>
    obtain ⟨b, inside, found⟩ := List.exists_of_findSome?_eq_some result
    by_cases same : b = a
    · rw [← same, found]
    · rw [others b inside same] at found
      contradiction

/-- It takes all characters of the class that there are. -/
theorem read?_stretch (refuses : Pattern.Refuses more s.allowed) (text : Text) :
    Pattern.read? (.stretch s :: more) text =
      if s.least ≤ (text.takeWhile s.allowed).length then
        (Pattern.read? more (text.dropWhile s.allowed)).map (s.record (text.takeWhile s.allowed))
      else none := by
  obtain ⟨short, same, leave⟩ := takings_full s.allowed text
  have unread : ∀ way ∈ short, (Pattern.read? more way.2).map (s.record way.1) = none := by
    intro way member
    obtain ⟨c, rest, left, allows⟩ := leave way member
    rw [left, refuses c rest allows, Option.map_none]
  rw [Pattern.read?]
  split
  next enough =>
    refine findSome?_only (a := (text.takeWhile s.allowed, text.dropWhile s.allowed)) ?_ ?_
    · exact mem_ways_iff.mpr ⟨same ▸ List.mem_cons_self, enough⟩
    · intro way member other
      have inside := (mem_ways_iff.mp member).1
      rw [same] at inside
      exact unread way ((List.mem_cons.mp inside).resolve_left other)
  next few =>
    refine List.findSome?_eq_none_iff.mpr fun way member => ?_
    obtain ⟨inside, enough⟩ := mem_ways_iff.mp member
    rw [same] at inside
    rcases List.mem_cons.mp inside with rfl | later
    · exact absurd enough few
    · exact unread way later

theorem refuses_fixed {a : Char} {lead : Text} (other : allowed a = false) :
    Pattern.Refuses (.fixed (a :: lead) :: more) allowed := by
  intro c rest allows
  have ne : a ≠ c := by
    rintro rfl
    rw [allows] at other
    contradiction
  simp [Pattern.read?, Text.after?, ne]

/-- A stretch of another class refuses, if it cannot be empty or what follows it refuses. -/
theorem refuses_stretch (apart : ∀ c, allowed c = true → s.allowed c = false)
    (onward : s.least = 0 → Pattern.Refuses more allowed) :
    Pattern.Refuses (.stretch s :: more) allowed := by
  intro c rest allows
  have one : takings s.allowed (c :: rest) = [([], c :: rest)] :=
    takings_stop fun d first => by
      obtain rfl := Option.some.inj first
      exact apart _ allows
  refine List.findSome?_eq_none_iff.mpr fun way member => ?_
  obtain ⟨inside, enough⟩ := mem_ways_iff.mp member
  rw [one] at inside
  obtain rfl := List.mem_singleton.mp inside
  rw [onward (Nat.le_zero.mp enough) c rest allows, Option.map_none]

section Ways

variable (all : ∀ c ∈ front, s.allowed c = true) (enough : s.least ≤ front.length)
include all enough

theorem ways_around (rest : Text) :
    ∃ longer short, s.ways (front ++ rest) =
        (if s.lazy then short ++ (front, rest) :: longer else longer ++ (front, rest) :: short) ∧
      (∀ way ∈ longer, ∃ more ∈ takings s.allowed rest, more.1 ≠ [] ∧ way.2 = more.2) ∧
      ∀ way ∈ short, s.least ≤ way.1.length ∧
        ∃ back, front = way.1 ++ back ∧ back ≠ [] ∧ way.2 = back ++ rest := by
  obtain ⟨longer, short, same, taken, leave⟩ := takings_around all rest
  have here : s.longEnough (front, rest) = true := decide_eq_true enough
  have tried : (takings s.allowed (front ++ rest)).filter s.longEnough =
      longer.filter s.longEnough ++ (front, rest) :: short.filter s.longEnough := by
    rw [same, List.filter_append, List.filter_cons_of_pos here]
  have inside (way : Text × Text) (member : way ∈ short.filter s.longEnough) :
      s.least ≤ way.1.length ∧
        ∃ back, front = way.1 ++ back ∧ back ≠ [] ∧ way.2 = back ++ rest := by
    obtain ⟨member, long⟩ := List.mem_filter.mp member
    exact ⟨of_decide_eq_true long, leave way member⟩
  by_cases lazy : s.lazy = true
  · refine ⟨(longer.filter s.longEnough).reverse, (short.filter s.longEnough).reverse, ?_,
      fun way member => ?_, fun way member => inside way (List.mem_reverse.mp member)⟩
    · simp [Stretch.ways, tried, lazy]
    · exact taken way (List.mem_filter.mp (List.mem_reverse.mp member)).1
  · refine ⟨longer.filter s.longEnough, short.filter s.longEnough, ?_, fun way member => ?_,
      inside⟩
    · simp [Stretch.ways, tried, lazy]
    · exact taken way (List.mem_filter.mp member).1

variable {found : List Text × Text} (read : Pattern.read? more rest = some found)
include read

/-- As much as lets the rest be read. -/
theorem read?_greedy (greedy : s.lazy = false)
    (unread : ∀ way ∈ takings s.allowed rest, way.1 ≠ [] → Pattern.read? more way.2 = none) :
    Pattern.read? (.stretch s :: more) (front ++ rest) = some (s.record front found) := by
  obtain ⟨longer, short, same, taken, -⟩ := ways_around all enough rest
  rw [greedy] at same
  refine List.findSome?_eq_some_iff.mpr ⟨longer, (front, rest), short, same, by simp [read], ?_⟩
  intro way member
  obtain ⟨further, inside, full, left⟩ := taken way member
  rw [left, unread further inside full, Option.map_none]

/-- As little as lets the rest be read. -/
theorem read?_lazy (lazy : s.lazy = true)
    (unread : ∀ part back, front = part ++ back → s.least ≤ part.length → back ≠ [] →
      Pattern.read? more (back ++ rest) = none) :
    Pattern.read? (.stretch s :: more) (front ++ rest) = some (s.record front found) := by
  obtain ⟨longer, short, same, -, leave⟩ := ways_around all enough rest
  rw [lazy] at same
  refine List.findSome?_eq_some_iff.mpr ⟨short, (front, rest), longer, same, by simp [read], ?_⟩
  intro way member
  obtain ⟨long, back, split, full, left⟩ := leave way member
  rw [left, unread way.1 back split long full, Option.map_none]

end Ways

end Stencil.Markup
