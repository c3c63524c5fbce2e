import Stencil.Proofs.Script.Reading

/-! Computations with scripts and with texts side by side. A coupling says when two of them
agree; it holds from a shelf on, for every shelf that holds more. What is coupled step by
step is coupled as a whole, in particular a rewrite. -/
namespace Stencil

open Stencil.Shelf

variable {shelf : Shelf} {α β γ δ : Type}

/-- A result with scripts and one with texts: related, or the same failure. A mixed call has no
result with scripts; where helpers are `tame`, what comes of it is still related to something. -/
def Answers (tame : Prop) (P : β → α → Prop) : Except Refusal β → Except Failure α → Prop
  | .ok b, x => ∃ a, x = .ok a ∧ P b a
  | .error (.failure cause), x => x = .error cause
  | .error .mixed, x => tame → ∀ a, x = .ok a → ∃ b, P b a

namespace Answers

variable {tame : Prop} {P P' : β → α → Prop} {Q : δ → γ → Prop} {y : Except Refusal β}
variable {x : Except Failure α}

theorem related (h : Answers tame P y x) (tamed : tame) {a : α} (result : x = .ok a) :
    ∃ b, P b a := by
  cases y with
  | ok b =>
    obtain ⟨a', same, related⟩ := h
    obtain rfl : a' = a := Except.ok.inj (same.symm.trans result)
    exact ⟨b, related⟩
  | error refusal =>
    cases refusal with
    | failure cause => cases h.symm.trans result
    | mixed => exact h tamed a result

theorem imp (h : Answers tame P y x) (next : ∀ b a, P b a → P' b a) : Answers tame P' y x := by
  cases y with
  | ok b =>
    obtain ⟨a, same, related⟩ := h
    exact ⟨a, same, next b a related⟩
  | error refusal =>
    cases refusal with
    | failure cause => exact h
    | mixed =>
      intro tamed a result
      obtain ⟨b, related⟩ := h tamed a result
      exact ⟨b, next b a related⟩

theorem bind {g : β → Except Refusal δ} {f : α → Except Failure γ} (h : Answers tame P y x)
    (next : ∀ b a, P b a → Answers tame Q (g b) (f a)) :
    Answers tame Q (y >>= g) (x >>= f) := by
  cases y with
  | ok b =>
    obtain ⟨a, rfl, related⟩ := h
    exact next b a related
  | error refusal =>
    cases refusal with
    | failure cause =>
      cases h
      rfl
    | mixed =>
      intro tamed c result
      obtain ⟨a, here, later⟩ := bind_eq_ok_iff.mp result
      obtain ⟨b, related⟩ := h tamed a here
      exact (next b a related).related tamed later

/-- A computation of both kinds, of which only the failure is named differently. -/
theorem of_map {f : α → β} (related : ∀ a, x = .ok a → P (f a) a) :
    Answers tame P (f <$> Refusal.of x) x := by
  cases x with
  | ok a => exact ⟨a, rfl, related a rfl⟩
  | error cause => rfl

end Answers

/-- Related results on a shelf that holds no less than `shelf`. -/
structure Onward (shelf : Shelf) (related : Shelf → β → α → Prop) (b : β) (result : α × Shelf) :
    Prop where
  more : shelf.Later result.2
  sound : result.2.Sound
  related : related result.2 b result.1

/-- As `Answers`, for a result that comes with a shelf. -/
abbrev Agree (tame : Prop) (shelf : Shelf) (related : Shelf → β → α → Prop) :
    Except Refusal β → Except Failure (α × Shelf) → Prop :=
  Answers tame (Onward shelf related)

theorem Onward.after {related : Shelf → β → α → Prop} {later : Shelf} {b : β} {result : α × Shelf}
    (first : shelf.Later later) (h : Onward later related b result) :
    Onward shelf related b result :=
  ⟨first.trans h.more, h.sound, h.related⟩

theorem Agree.bind {tame : Prop} {R : Shelf → β → α → Prop} {S : Shelf → δ → γ → Prop}
    {y : Except Refusal β} {x : Except Failure (α × Shelf)} {g : β → Except Refusal δ}
    {f : α × Shelf → Except Failure (γ × Shelf)} (h : Agree tame shelf R y x)
    (next : ∀ later b a, shelf.Later later → later.Sound → R later b a →
      Agree tame later S (g b) (f (a, later))) :
    Agree tame shelf S (y >>= g) (x >>= f) :=
  Answers.bind h fun b result onward =>
    (next _ b result.1 onward.more onward.sound onward.related).imp fun _ _ rest =>
      rest.after onward.more

/-- When a computation with scripts and one with texts do the same. -/
structure Coupling (n m : Type → Type) [Monad n] [Monad m] where
  Related : ∀ {β α : Type}, Shelf → (Shelf → β → α → Prop) → n β → m α → Prop
  pure : ∀ {β α : Type} {shelf : Shelf} {R : Shelf → β → α → Prop} {b : β} {a : α},
    shelf.Sound → R shelf b a → Related shelf R (pure b) (pure a)
  bind : ∀ {β α δ γ : Type} {shelf : Shelf} {R : Shelf → β → α → Prop} {S : Shelf → δ → γ → Prop}
    {y : n β} {x : m α} {g : β → n δ} {f : α → m γ}, Related shelf R y x →
    (∀ later b a, shelf.Later later → later.Sound → R later b a → Related later S (g b) (f a)) →
    Related shelf S (y >>= g) (x >>= f)

namespace Coupling

variable {n m : Type → Type} [Monad n] [LawfulMonad n] [Monad m] [LawfulMonad m]

theorem map (C : Coupling n m) {R : Shelf → β → α → Prop} {S : Shelf → δ → γ → Prop} {y : n β}
    {x : m α} {g : β → δ} {f : α → γ} (h : C.Related shelf R y x)
    (next : ∀ later b a, shelf.Later later → R later b a → S later (g b) (f a)) :
    C.Related shelf S (g <$> y) (f <$> x) := by
  rw [map_eq_pure_bind, map_eq_pure_bind]
  exact C.bind h fun later b a more sound related => C.pure sound (next later b a more related)

theorem flatten_mapM_cons {ι : Type} {i : ι} {rest : List ι} {g : ι → n (List β)} :
    List.flatten <$> (i :: rest).mapM g =
      g i >>= fun front => (front ++ ·) <$> (List.flatten <$> rest.mapM g) := by
  simp

/-- What is done for each item, joined in order. -/
theorem flatten_mapM (C : Coupling n m) {ι : Type} {items : List ι} {g : ι → n Script}
    {f : ι → m Text} (sound : shelf.Sound)
    (each : ∀ i ∈ items, ∀ later, shelf.Later later → later.Sound →
      C.Related later Shelf.Spells (g i) (f i)) :
    C.Related shelf Shelf.Spells (List.flatten <$> items.mapM g)
      (List.flatten <$> items.mapM f) := by
  induction items generalizing shelf with
  | nil => simpa using C.pure sound .nil
  | cons i rest ih =>
    rw [flatten_mapM_cons, flatten_mapM_cons]
    refine C.bind (each i (by simp) shelf (.refl shelf) sound) fun later u v more sound' here => ?_
    refine C.map (ih sound' fun j member last more' => ?_) fun last _ _ more' there => ?_
    · exact each j (by simp [member]) last (more.trans more')
    · exact (here.mono more').append there

end Coupling

namespace Script

variable {m : Type → Type} [Monad m] {rule : Rule α} {new : Script → α → m Script}

theorem rewriteFrom_skip (skip : Nat) (s : Script) :
    rewriteFrom rule new skip s = rewrite rule new (s.drop skip) := by
  induction s generalizing skip with
  | nil => cases skip <;> rfl
  | cons x rest ih =>
    cases skip with
    | zero => rfl
    | succ skip => exact ih skip

theorem rewrite_nil : rewrite rule new [] = pure [] := rfl

theorem rewrite_copied {x : Symbol} {rest : Script} (h : rule (x :: rest) = none) :
    rewrite rule new (x :: rest) = (x :: ·) <$> rewrite rule new rest := by
  simp [rewrite, rewriteFrom, h]

theorem rewrite_found [LawfulMonad m] {lexeme tail : Script} {content : α} (nonempty : lexeme ≠ [])
    (h : rule (lexeme ++ tail) = some (content, tail)) :
    rewrite rule new (lexeme ++ tail) =
      new lexeme content >>= fun front => (front ++ ·) <$> rewrite rule new tail := by
  obtain ⟨x, rest, rfl⟩ := List.exists_cons_of_ne_nil nonempty
  have width : (x :: rest ++ tail).length - tail.length = rest.length + 1 := by
    simp only [List.length_append, List.length_cons]
    omega
  simp only [List.cons_append] at h width
  simp only [rewrite, List.cons_append, rewriteFrom, h, width]
  rw [rewriteFrom_skip]
  simp [rewrite]

end Script

theorem isPrefixOf_opener (t : Text) :
    Markup.opener.isPrefixOf t = (Text.after? Markup.opener t).isSome := by
  rw [Bool.eq_iff_iff, List.isPrefixOf_iff_prefix, Option.isSome_iff_exists]
  constructor
  · rintro ⟨rest, rfl⟩
    exact ⟨rest, Text.after?_eq_some_iff.mpr rfl⟩
  · rintro ⟨rest, found⟩
    exact ⟨rest, (Text.after?_eq_some_iff.mp found).symm⟩

theorem inStep_atOpener {related : β → α → Prop} {s : Script} {t : Text} {rule : Script.Rule β}
    {rule' : Markup.Rule α} (h : shelf.Spells s t)
    (reads : InStep shelf related s t (rule s) (rule' t)) :
    InStep shelf related s t (Script.atOpener rule s) (Markup.atOpener rule' t) := by
  have free : Text.NulFree Markup.opener := by decide
  have opened := h.after? free
  unfold Script.atOpener Markup.atOpener
  rw [isPrefixOf_opener]
  generalize Script.after? Markup.opener s = y at opened
  generalize Text.after? Markup.opener t = x at opened
  cases opened with
  | some => exact reads
  | none => exact .none

section Rewrite

variable {n m : Type → Type} [Monad n] [LawfulMonad n] [Monad m] [LawfulMonad m]
variable {same : Shelf → β → α → Prop} {rule : Script.Rule β} {rule' : Markup.Rule α}
variable {new : Script → β → n Script} {new' : Text → α → m Text}

/-- Rewrites agree when their rules read in step and what they put in for a match agrees. -/
theorem Coupling.rewrite (C : Coupling n m)
    (reads : ∀ {shelf s t}, Shelf.Spells shelf s t →
      InStep shelf (same shelf) s t (rule s) (rule' t))
    (consumes : rule'.Consumes)
    (replaces : ∀ {shelf lexeme lexeme' b a}, Shelf.Sound shelf → shelf.Spells lexeme lexeme' →
      same shelf b a → C.Related shelf Shelf.Spells (new lexeme b) (new' lexeme' a))
    {s : Script} {t : Text} (sound : shelf.Sound) (h : shelf.Spells s t) :
    C.Related shelf Shelf.Spells (Script.rewrite (Script.atOpener rule) new s)
      (Markup.rewrite (Markup.atOpener rule') new' t) := by
  -- By the length of the script: after a match the rest is not the next tail but a later one.
  induction size : s.length using Nat.strong_induction_on generalizing shelf s t with
  | h size ih =>
  subst size
  cases h with
  | nil =>
    rw [Script.rewrite_nil, Markup.rewrite_nil]
    exact C.pure sound .nil
  | @chunk number finished s t found rest =>
    rw [Markup.rewrite_braceless t (braceless_placeholder _ _).1, Script.rewrite_copied rfl]
    refine C.map (ih _ (by simp) sound rest rfl) fun later u v more spelled => ?_
    rw [← more.token]
    exact .chunk (more.held _ _ found) spelled
  | @letter c s t ne rest =>
    have whole := rest.letter ne
    have here := inStep_atOpener whole (reads whole)
    generalize read : Script.atOpener rule (.letter c :: s) = found at here
    generalize read' : Markup.atOpener rule' (c :: t) = found' at here
    cases here with
    | none =>
      rw [Script.rewrite_copied read, Markup.rewrite_copied read']
      exact C.map (ih _ (by simp) sound rest rfl) fun _ _ _ _ spelled => spelled.letter ne
    | @some found found' both =>
      obtain ⟨b, s'⟩ := found
      obtain ⟨a, t'⟩ := found'
      obtain ⟨agree, front, lead, split, split', spelled, rest'⟩ := both
      dsimp only at split split' rest'
      obtain ⟨lexeme, nonempty', split''⟩ := consumes.atOpener read'
      obtain rfl : lexeme = lead := List.append_cancel_right (split''.symm.trans split')
      have nonempty : front ≠ [] := mt spelled.eq_nil_iff.mp nonempty'
      have shorter : s'.length < (Symbol.letter c :: s).length := by
        have := List.length_pos_iff.mpr nonempty
        rw [split, List.length_append]
        omega
      rw [split] at read
      rw [split'] at read'
      rw [split, split', Script.rewrite_found nonempty read, Markup.rewrite_found nonempty' read']
      refine C.bind (replaces sound spelled agree) fun later u v more sound' spelled' => ?_
      refine C.map (ih _ shorter sound' (rest'.mono more) rfl) fun last _ _ more' later' => ?_
      exact (spelled'.mono more').append later'

end Rewrite

end Stencil
