import Stencil.Proofs.Markup.Rewriting
import Stencil.Proofs.Outcome
import Stencil.Render.Engine

/-! Two computations that do the same, as long as what they pass on has the properties that
the steps after it rely on; and properties of one computation that hold of the whole when
they hold of the steps. -/
namespace Stencil

/-- A property that every result has as such, and that goes through steps in sequence. -/
structure Guarantee (m : Type → Type) [Monad m] where
  Holds : ∀ {α : Type}, m α → Prop
  pure : ∀ {α : Type} (a : α), Holds (pure a)
  bind : ∀ {α β : Type} {x : m α} {f : α → m β}, Holds x → (∀ a, Holds (f a)) → Holds (x >>= f)

namespace Guarantee

variable {m : Type → Type} [Monad m] [LawfulMonad m] (G : Guarantee m) {α β : Type}

theorem map {x : m α} {f : α → β} (h : G.Holds x) : G.Holds (f <$> x) := by
  rw [map_eq_pure_bind]
  exact G.bind h fun a => G.pure (f a)

theorem mapM {f : α → m β} {l : List α} (each : ∀ a ∈ l, G.Holds (f a)) :
    G.Holds (l.mapM f) := by
  induction l with
  | nil => exact G.pure []
  | cons a rest ih =>
    rw [List.mapM_cons]
    refine G.bind (each a (by simp)) fun first => ?_
    refine G.bind (ih fun b member => each b (by simp [member])) fun more => ?_
    exact G.pure (first :: more)

/-- A rewrite has what every replacement has. -/
theorem rewrite {rule : Markup.Rule α} {new : Text → α → m Text} {text : Text}
    (replaces : ∀ lexeme content, G.Holds (new lexeme content)) :
    G.Holds (Markup.rewrite rule new text) := by
  refine G.map (G.mapM fun piece _ => ?_)
  cases piece with
  | copied c => exact G.pure [c]
  | found lexeme content => exact replaces lexeme content

end Guarantee

/-- A way to say that two computations do the same and that their result has a property. -/
structure Lockstep (m : Type → Type) [Monad m] where
  Related : ∀ {α : Type}, m α → m α → (α → Prop) → Prop
  pure : ∀ {α : Type} {P : α → Prop} {a : α}, P a → Related (pure a) (pure a) P
  bind : ∀ {α β : Type} {P : α → Prop} {Q : β → Prop} {x y : m α} {f g : α → m β},
    Related x y P → (∀ a, P a → Related (f a) (g a) Q) → Related (x >>= f) (y >>= g) Q

namespace Lockstep

variable {m : Type → Type} [Monad m] [LawfulMonad m] (L : Lockstep m) {α β ι : Type}

theorem map {P : α → Prop} {Q : β → Prop} {x y : m α} {f : α → β} (h : L.Related x y P)
    (next : ∀ a, P a → Q (f a)) : L.Related (f <$> x) (f <$> y) Q := by
  rw [map_eq_pure_bind, map_eq_pure_bind]
  exact L.bind h fun a known => L.pure (next a known)

theorem imp {P Q : α → Prop} {x y : m α} (h : L.Related x y P) (next : ∀ a, P a → Q a) :
    L.Related x y Q := by
  rw [← id_map x, ← id_map y]
  exact L.map h next

/-- What is done for each item, joined in order, for properties that texts end to end keep. -/
theorem flatten_mapM {P : Text → Prop} (empty : P []) (joined : ∀ s t, P s → P t → P (s ++ t))
    {items : List ι} {f g : ι → m Text} (each : ∀ i ∈ items, L.Related (f i) (g i) P) :
    L.Related (List.flatten <$> items.mapM f) (List.flatten <$> items.mapM g) P := by
  refine L.map (P := fun texts => P texts.flatten) ?_ fun _ known => known
  induction items with
  | nil => exact L.pure empty
  | cons i rest ih =>
    rw [List.mapM_cons, List.mapM_cons]
    refine L.bind (each i (by simp)) fun front here => ?_
    refine L.bind (ih fun j member => each j (by simp [member])) fun more there => ?_
    exact L.pure (joined front more.flatten here there)

/-- Rewrites do the same if what they put in for a match does. The property relates the text and
what it is rewritten to; it has to go through a character that is copied and through a match. -/
theorem rewrite {rule : Markup.Rule α} {new other : Text → α → m Text} {P : Text → Text → Prop}
    (consumes : rule.Consumes) (empty : P [] [])
    (copied : ∀ c rest result, P rest result → P (c :: rest) (c :: result))
    {text : Text}
    (found : ∀ passed lexeme content tail, text = passed ++ lexeme ++ tail →
      rule (lexeme ++ tail) = some (content, tail) →
      L.Related (new lexeme content) (other lexeme content) fun front =>
        ∀ result, P tail result → P (lexeme ++ tail) (front ++ result)) :
    L.Related (Markup.rewrite rule new text) (Markup.rewrite rule other text) (P text) := by
  -- By the length of the text: after a match the rest is not the next tail but a later one.
  induction size : text.length using Nat.strongRecOn generalizing text with
  | ind size ih =>
  subst size
  cases text with
  | nil =>
    rw [Markup.rewrite_nil, Markup.rewrite_nil]
    exact L.pure empty
  | cons c rest =>
    cases read : rule (c :: rest) with
    | none =>
      rw [Markup.rewrite_copied read, Markup.rewrite_copied read]
      refine L.map (ih rest.length (by simp) (fun passed lexeme content tail split => ?_) rfl)
        fun result known => copied c rest result known
      exact found (c :: passed) lexeme content tail (by simp [split])
    | some match_ =>
      obtain ⟨content, tail⟩ := match_
      obtain ⟨lexeme, nonempty, split⟩ := consumes read
      have shorter : tail.length < (c :: rest).length := by
        have := List.length_pos_iff.mpr nonempty
        rw [split, List.length_append]
        omega
      have later := ih tail.length shorter
        (fun passed inner content' tail' split' => found (lexeme ++ passed) inner content' tail'
          (by simp [split, split'])) rfl
      rw [split] at read ⊢
      rw [Markup.rewrite_found nonempty read, Markup.rewrite_found nonempty read]
      refine L.bind (found [] lexeme content tail split read) fun front here => ?_
      exact L.map later fun result known => here result known

end Lockstep

/-- The same result, and where there is one, the property. -/
def results : Lockstep (Except Failure) where
  Related x y P := x = y ∧ ∀ a, x = .ok a → P a
  pure known := ⟨rfl, fun _ same => by cases same; exact known⟩
  bind {_ _ _ _ x _ _ _} h next := by
    obtain ⟨rfl, known⟩ := h
    cases x with
    | error failure => exact ⟨rfl, nofun⟩
    | ok a => exact next a (known a rfl)

/-- Nothing need be known of the result. -/
theorem results_of_eq {α : Type} {x y : Except Failure α} (same : x = y) :
    results.Related x y fun _ => True := ⟨same, fun _ _ => trivial⟩

def onShelf (Sound : Shelf → Prop) : Lockstep Render.Holding where
  Related x y P := ∀ shelf, Sound shelf →
    results.Related (x shelf) (y shelf) fun r => P r.1 ∧ Sound r.2
  pure known _ sound := results.pure ⟨known, sound⟩
  bind h next shelf sound :=
    results.bind (h shelf sound) fun r known => next r.1 known.1 r.2 known.2

def reads : Lockstep (Reading (List FilePath)) where
  Related x y P := ∀ earlier, x.run earlier = y.run earlier ∧
    ∀ a, (x.run earlier).1 = .ok a → P a
  pure known _ := ⟨rfl, fun _ same => by cases same; exact known⟩
  bind {_ _ _ _ x y _ _} h next earlier := by
    obtain ⟨same, known⟩ := h earlier
    rw [run_bind, run_bind, ← same]
    generalize x.run earlier = result at known
    obtain ⟨_ | a, later⟩ := result
    · exact ⟨rfl, nofun⟩
    · exact next a (known a rfl) later

def readsOnShelf (Sound : Shelf → Prop) : Lockstep (StateT Shelf (Reading (List FilePath))) where
  Related x y P := ∀ shelf, Sound shelf →
    reads.Related (x shelf) (y shelf) fun r => P r.1 ∧ Sound r.2
  pure known _ sound := reads.pure ⟨known, sound⟩
  bind h next shelf sound := reads.bind (h shelf sound) fun r known => next r.1 known.1 r.2 known.2

/-- Any shelf will do. -/
abbrev onAnyShelf : Lockstep Render.Holding := onShelf fun _ => True

abbrev readsOnAnyShelf : Lockstep (StateT Shelf (Reading (List FilePath))) :=
  readsOnShelf fun _ => True

section Parts

variable {Sound : Shelf → Prop} {α : Type} {P : α → Prop}

theorem onShelf_lift {x y : Except Failure α} (h : results.Related x y P) :
    (onShelf Sound).Related (liftM x) (liftM y) P := by
  obtain ⟨rfl, known⟩ := h
  intro shelf sound
  cases x with
  | error failure => exact ⟨rfl, nofun⟩
  | ok a => exact results.pure ⟨known a rfl, sound⟩

theorem readsOnShelf_lift {x y : Reading (List FilePath) α} (h : reads.Related x y P) :
    (readsOnShelf Sound).Related (liftM x) (liftM y) P := fun _ sound =>
  reads.bind h fun _ known => reads.pure ⟨known, sound⟩

theorem reads_throw (failure : Failure) : reads.Related (throw failure) (throw failure) P :=
  fun _ => ⟨rfl, nofun⟩

variable {text : Text} {P : Text → Prop}

theorem onShelf_setAside (h : ∀ shelf, Sound shelf → ∀ front later,
    shelf.keep text = .ok (front, later) → P front ∧ Sound later) :
    (onShelf Sound).Related (setAside text) (setAside text) P := by
  intro shelf sound
  unfold setAside
  cases kept : shelf.keep text with
  | ok pair => exact results.pure (h shelf sound _ _ kept)
  | error failure => exact ⟨rfl, nofun⟩

theorem readsOnShelf_setAside (h : ∀ shelf, Sound shelf → ∀ front later,
    shelf.keep text = .ok (front, later) → P front ∧ Sound later) :
    (readsOnShelf Sound).Related (setAside text) (setAside text) P := by
  intro shelf sound
  unfold setAside
  cases kept : shelf.keep text with
  | ok pair => exact reads.pure (h shelf sound _ _ kept)
  | error failure => exact reads_throw failure

end Parts

namespace Engine

variable (e : Engine) (earlier : List FilePath)

theorem run_assemble (tokens : Tokens) (context : Value)
    (inclusion : Text → Reading (List FilePath) Text) (template : Text) :
    (e.assemble tokens context inclusion template).run earlier =
      ((expandInclusions inclusion template).run (.empty (tokens earlier.length)) >>= fun r =>
        match Render.finish e.catalog context r.1 r.2 with
        | .ok page => return page
        | .error failure => throw failure).run earlier := rfl

theorem run_includeFile (reader : Reader) (inner : Text → Reading (List FilePath) Text)
    (name : Text) :
    (e.includeFile reader inner name).run earlier =
      (match reader earlier (e.views.inclusion name) with
        | .ok content => inner content
        | .error (.failed cause) => throw cause
        | .error _ => return [] : Reading (List FilePath) Text).run
      (earlier ++ [e.views.inclusion name]) := rfl

end Engine

end Stencil
