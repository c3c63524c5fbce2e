import Mathlib.Data.List.Forall2
import Stencil.Failure

/-! How a computation that may fail comes to its result: by the results of its parts, in
order. -/
namespace Stencil

variable {ε α β : Type} {x : Except ε α}

theorem bind_eq_ok_iff {f : α → Except ε β} {b : β} :
    x >>= f = .ok b ↔ ∃ a, x = .ok a ∧ f a = .ok b := by
  cases x with
  | error e => simp [bind, Except.bind]
  | ok a => simp [bind, Except.bind]

theorem bind_eq_error_iff {f : α → Except ε β} {e : ε} :
    x >>= f = .error e ↔ x = .error e ∨ ∃ a, x = .ok a ∧ f a = .error e := by
  cases x with
  | error e => simp [bind, Except.bind]
  | ok a => simp [bind, Except.bind]

theorem map_eq_ok_iff {f : α → β} {b : β} : f <$> x = .ok b ↔ ∃ a, x = .ok a ∧ f a = b := by
  cases x with
  | error e => simp [Functor.map, Except.map]
  | ok a => simp [Functor.map, Except.map]

theorem pure_eq_ok_iff {a b : α} : (pure a : Except ε α) = .ok b ↔ a = b := by
  simp [pure, Except.pure]

theorem ok_of_toOption {a : α} (h : x.toOption = some a) : x = .ok a := by
  cases x with
  | error e => cases h
  | ok b =>
    cases h
    rfl

/-- One computation after another, from a state on: a failure keeps the state that it came in. -/
theorem run_bind {σ : Type} {α β : Type} (x : ExceptT ε (StateM σ) α)
    (f : α → ExceptT ε (StateM σ) β) (state : σ) :
    (x >>= f).run state = match x.run state with
      | (.ok a, later) => (f a).run later
      | (.error e, later) => (.error e, later) := by
  change (match x.run state with | (result, later) => ExceptT.bindCont f result later) = _
  rcases x.run state with ⟨_ | a, later⟩ <;> rfl

theorem mapM_cons_eq_ok_iff {f : α → Except ε β} {a : α} {l : List α} {results : List β} :
    (a :: l).mapM f = .ok results ↔
      ∃ b more, f a = .ok b ∧ l.mapM f = .ok more ∧ results = b :: more := by
  rw [List.mapM_cons]
  constructor
  · intro h
    obtain ⟨b, here, h⟩ := bind_eq_ok_iff.mp h
    obtain ⟨more, later, h⟩ := bind_eq_ok_iff.mp h
    exact ⟨b, more, here, later, (pure_eq_ok_iff.mp h).symm⟩
  · rintro ⟨b, more, here, later, rfl⟩
    rw [here, later]
    rfl

theorem mapM_eq_ok_iff {f : α → Except ε β} {l : List α} {results : List β} :
    l.mapM f = .ok results ↔ List.Forall₂ (fun a b => f a = .ok b) l results := by
  induction l generalizing results with
  | nil => rw [List.mapM_nil, pure_eq_ok_iff, List.forall₂_nil_left_iff, eq_comm]
  | cons a l ih =>
    rw [mapM_cons_eq_ok_iff, List.forall₂_cons_left_iff]
    constructor
    · rintro ⟨b, more, here, later, rfl⟩
      exact ⟨b, more, here, ih.mp later, rfl⟩
    · rintro ⟨b, more, here, later, rfl⟩
      exact ⟨b, more, here, ih.mpr later, rfl⟩

/-- A list of computations fails as the first one does that fails. -/
theorem mapM_eq_error_iff {f : α → Except ε β} {l : List α} {e : ε} :
    l.mapM f = .error e ↔ ∃ before a after, l = before ++ a :: after ∧
      (∀ a ∈ before, ∃ b, f a = .ok b) ∧ f a = .error e := by
  induction l with
  | nil => simp [pure, Except.pure]
  | cons first l ih =>
    rw [List.mapM_cons, bind_eq_error_iff]
    constructor
    · rintro (here | ⟨b, here, later⟩)
      · exact ⟨[], first, l, rfl, by simp, here⟩
      · rcases bind_eq_error_iff.mp later with later | ⟨more, -, last⟩
        · obtain ⟨before, a, after, rfl, succeed, failed⟩ := ih.mp later
          exact ⟨first :: before, a, after, rfl, List.forall_mem_cons.mpr ⟨⟨b, here⟩, succeed⟩,
            failed⟩
        · contradiction
    · rintro ⟨_ | ⟨_, before⟩, a, after, split, succeed, failed⟩
      · obtain ⟨rfl, rfl⟩ := List.cons.inj split
        exact .inl failed
      · obtain ⟨rfl, rfl⟩ := List.cons.inj split
        obtain ⟨⟨b, here⟩, succeed⟩ := List.forall_mem_cons.mp succeed
        refine .inr ⟨b, here, bind_eq_error_iff.mpr (.inl ?_)⟩
        exact ih.mpr ⟨before, a, after, rfl, succeed, failed⟩

/-- Each result of a list of computations is that of one of them. -/
theorem mem_of_mapM_eq_ok {f : α → Except ε β} {l : List α} {results : List β}
    (h : l.mapM f = .ok results) : ∀ b ∈ results, ∃ a ∈ l, f a = .ok b := by
  induction l generalizing results with
  | nil =>
    cases h
    simp
  | cons a rest ih =>
    obtain ⟨first, more, here, later, rfl⟩ := mapM_cons_eq_ok_iff.mp h
    intro b member
    rcases List.mem_cons.mp member with rfl | inside
    · exact ⟨a, by simp, here⟩
    · obtain ⟨a', inside', found⟩ := ih later b inside
      exact ⟨a', by simp [inside'], found⟩

/-- A list of computations comes to results if each of them does. -/
theorem mapM_succeeds_iff {f : α → Except ε β} {l : List α} :
    (∃ results, l.mapM f = .ok results) ↔ ∀ a ∈ l, ∃ b, f a = .ok b := by
  induction l with
  | nil => simp [pure, Except.pure]
  | cons a l ih =>
    rw [List.forall_mem_cons, ← ih]
    constructor
    · rintro ⟨results, h⟩
      obtain ⟨b, more, here, later, -⟩ := mapM_cons_eq_ok_iff.mp h
      exact ⟨⟨b, here⟩, more, later⟩
    · rintro ⟨⟨b, here⟩, more, later⟩
      exact ⟨b :: more, mapM_cons_eq_ok_iff.mpr ⟨b, more, here, later, rfl⟩⟩

theorem mapM_map_result {m : Type → Type} [Monad m] [LawfulMonad m] {γ : Type} (f : α → m β)
    (q : β → γ) (l : List α) : (l.mapM fun a => q <$> f a) = List.map q <$> l.mapM f := by
  induction l with
  | nil => simp
  | cons a l ih => simp [ih]

theorem mapM_flatten {m : Type → Type} [Monad m] [LawfulMonad m] (f : α → m β)
    (lists : List (List α)) :
    lists.flatten.mapM f = List.flatten <$> lists.mapM fun l => l.mapM f := by
  induction lists with
  | nil => simp
  | cons l lists ih => simp [ih]

/-- A way to take computations of one kind as computations of another, step by step. -/
structure Translation (m n : Type → Type) [Monad m] [Monad n] where
  read : ∀ {α : Type}, m α → n α
  pure : ∀ {α : Type} (a : α), read (pure a) = pure a
  bind : ∀ {α β : Type} (x : m α) (f : α → m β), read (x >>= f) = read x >>= fun a => read (f a)

namespace Translation

variable {m n : Type → Type} [Monad m] [LawfulMonad m] [Monad n] [LawfulMonad n]
variable (T : Translation m n)

theorem map (q : α → β) (x : m α) : T.read (q <$> x) = q <$> T.read x := by
  rw [map_eq_pure_bind, T.bind, map_eq_pure_bind]
  simp only [T.pure]

theorem mapM (f : α → m β) (l : List α) : T.read (l.mapM f) = l.mapM fun a => T.read (f a) := by
  induction l with
  | nil => exact T.pure []
  | cons a l ih => simp only [List.mapM_cons, T.bind, T.pure, ih]

end Translation

/-- Two computations come to the same results, though they may fail for other reasons. -/
def SameResult (x y : Except ε α) : Prop := ∀ a, x = .ok a ↔ y = .ok a

namespace SameResult

variable {γ : Type} {y z : Except ε α} {f g : α → Except ε β}

theorem refl (x : Except ε α) : SameResult x x := fun _ => Iff.rfl

theorem symm (h : SameResult x y) : SameResult y x := fun a => (h a).symm

theorem trans (first : SameResult x y) (last : SameResult y z) : SameResult x z :=
  fun a => (first a).trans (last a)

theorem bind (h : SameResult x y) (next : ∀ a, x = .ok a → SameResult (f a) (g a)) :
    SameResult (x >>= f) (y >>= g) := by
  intro b
  rw [bind_eq_ok_iff, bind_eq_ok_iff]
  constructor
  · rintro ⟨a, here, later⟩
    exact ⟨a, (h a).mp here, (next a here b).mp later⟩
  · rintro ⟨a, here, later⟩
    have here' := (h a).mpr here
    exact ⟨a, here', (next a here' b).mpr later⟩

theorem map (h : SameResult x y) (q : α → β) : SameResult (q <$> x) (q <$> y) := by
  rw [map_eq_pure_bind, map_eq_pure_bind]
  exact h.bind fun a _ => refl _

theorem mapM (each : ∀ a, SameResult (f a) (g a)) (l : List α) :
    SameResult (l.mapM f) (l.mapM g) := by
  induction l with
  | nil => exact refl _
  | cons a l ih =>
    rw [List.mapM_cons, List.mapM_cons]
    exact (each a).bind fun b _ => ih.bind fun more _ => refl _

/-- Two passes over a list come to what one pass does that takes both steps at each place. -/
theorem mapM_bind_mapM (l : List α) (f : α → Except ε β) (g : β → Except ε γ) :
    SameResult (l.mapM f >>= fun results => results.mapM g) (l.mapM fun a => f a >>= g) := by
  induction l with
  | nil => exact refl _
  | cons a l ih =>
    intro results
    rw [bind_eq_ok_iff, mapM_cons_eq_ok_iff]
    constructor
    · rintro ⟨middle, before, after⟩
      obtain ⟨b, more, here, later, rfl⟩ := mapM_cons_eq_ok_iff.mp before
      obtain ⟨c, rest, here', later', rfl⟩ := mapM_cons_eq_ok_iff.mp after
      exact ⟨c, rest, bind_eq_ok_iff.mpr ⟨b, here, here'⟩,
        (ih rest).mp (bind_eq_ok_iff.mpr ⟨more, later, later'⟩), rfl⟩
    · rintro ⟨c, rest, here, later, rfl⟩
      obtain ⟨b, first, second⟩ := bind_eq_ok_iff.mp here
      obtain ⟨more, first', second'⟩ := bind_eq_ok_iff.mp ((ih rest).mpr later)
      exact ⟨b :: more, mapM_cons_eq_ok_iff.mpr ⟨b, more, first, first', rfl⟩,
        mapM_cons_eq_ok_iff.mpr ⟨c, rest, second, second', rfl⟩⟩

end SameResult

end Stencil
