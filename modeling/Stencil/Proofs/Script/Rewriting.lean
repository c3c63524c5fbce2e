import Stencil.Proofs.Script.Coupling

/-! The rewriting of a script piece by piece, whatever follows. Tags and marks start with
two braces, so that all a piece without them can do is to pass. -/
namespace Stencil.Script

variable {α β : Type}

/-- Nowhere in `x` does what is looked for start, whatever follows. -/
def Skips (starts : Script → Prop) (x : Script) : Prop :=
  ∀ a y b rest, x = a ++ y :: b → ¬starts (y :: b ++ rest)

/-- What is looked for starts with two braces. -/
def Braced (starts : Script → Prop) : Prop :=
  ∀ ⦃s⦄, starts s → ∃ rest, s = .letter '{' :: .letter '{' :: rest

/-- Where a rule finds a match. -/
def Found (rule : Rule α) (s : Script) : Prop := (atOpener rule s).isSome

/-- Where a mark stands. -/
def Marked (mark : Text) (s : Script) : Prop := (after? mark s).isSome

theorem after?_eq_some {lead : Text} {s rest : Script} (found : after? lead s = some rest) :
    s = ofText lead ++ rest := by
  induction lead generalizing s with
  | nil =>
    cases found
    rfl
  | cons a lead ih =>
    cases s with
    | nil => contradiction
    | cons x s =>
      cases x with
      | chunk => contradiction
      | letter b =>
        simp only [after?] at found
        split at found
        next same =>
          rw [ih found, same]
          rfl
        next => contradiction

theorem after?_ofText (lead : Text) (rest : Script) :
    after? lead (ofText lead ++ rest) = some rest := by
  induction lead with
  | nil => rfl
  | cons a lead ih => simpa [after?, ofText] using ih

theorem braced_found (rule : Rule α) : Braced (Found rule) := by
  intro s found
  unfold Found atOpener at found
  split at found
  next opened =>
    obtain ⟨rest, opened⟩ := Option.isSome_iff_exists.mp opened
    exact ⟨rest, after?_eq_some opened⟩
  next => contradiction

section Skips

variable {starts : Script → Prop} {x x' : Script} {t : Text}

theorem skips_nil : Skips starts [] := by
  intro a y b rest split
  simp at split

theorem Skips.append (first : Skips starts x) (last : Skips starts x') :
    Skips starts (x ++ x') := by
  intro a y b rest split
  rcases List.append_eq_append_iff.mp split with ⟨more, -, split'⟩ | ⟨more, split', here⟩
  · exact last more y b rest split'
  · cases more with
    | nil => exact last [] y b rest (by simpa using here.symm)
    | cons z more =>
      obtain ⟨rfl, rfl⟩ : z = y ∧ more ++ x' = b := by simpa using here.symm
      simpa using first a z more (x' ++ rest) split'

theorem Skips.cons {y : Symbol} (first : ∀ rest, ¬starts (y :: x ++ rest)) (last : Skips starts x) :
    Skips starts (y :: x) := by
  intro a z b rest split
  cases a with
  | nil =>
    obtain ⟨rfl, rfl⟩ : y = z ∧ x = b := by simpa using split
    exact first rest
  | cons w a => exact last a z b rest (List.cons.inj split).2

theorem skips_flatMap {f : β → Script} {l : List β} (each : ∀ a ∈ l, Skips starts (f a)) :
    Skips starts (l.flatMap f) := by
  induction l with
  | nil => exact skips_nil
  | cons a l ih =>
    rw [List.flatMap_cons]
    exact (each a (by simp)).append (ih fun b member => each b (by simp [member]))

variable (braced : Braced starts)
include braced

theorem skips_hold (finished : Text) : Skips starts (hold finished) := by
  cases finished with
  | nil => exact skips_nil
  | cons =>
    refine Skips.cons (fun rest found => ?_) skips_nil
    obtain ⟨more, same⟩ := braced found
    cases same

theorem skips_braceless (free : '{' ∉ t) : Skips starts (ofText t) := by
  induction t with
  | nil => exact skips_nil
  | cons c t ih =>
    obtain ⟨ne, later⟩ := List.ne_and_not_mem_of_not_mem_cons free
    refine Skips.cons (fun rest found => ?_) (ih later)
    obtain ⟨more, same⟩ := braced found
    injection same with same
    injection same with same
    exact ne same.symm

/-- In a tag a match can only start where the tag does. -/
theorem skips_tag {inside : Text} (free : '{' ∉ inside)
    (here : ∀ rest, ¬starts (ofText (Markup.opener ++ inside ++ Markup.closer) ++ rest)) :
    Skips starts (ofText (Markup.opener ++ inside ++ Markup.closer)) := by
  have inner : '{' ∉ inside ++ Markup.closer := by simpa [Markup.closer] using free
  refine Skips.cons here (Skips.cons (fun rest found => ?_) (skips_braceless braced inner))
  obtain ⟨more, same⟩ := braced found
  cases inside with
  | nil => cases same
  | cons c inside =>
    obtain ⟨ne, -⟩ := List.ne_and_not_mem_of_not_mem_cons free
    have third : some (Symbol.letter c) = some (.letter '{') := congrArg (·[1]?) same
    injection third with third
    injection third with third
    exact ne third.symm

end Skips

theorem cut?_append {mark : Text} {x : Script} (skips : Skips (Marked mark) x) (rest : Script) :
    cut? mark (x ++ rest) = (cut? mark rest).map fun (before, tail) => (x ++ before, tail) := by
  induction x with
  | nil => simp
  | cons y x ih =>
    have here : after? mark (y :: x ++ rest) = none := by
      simpa [Marked] using skips [] y x rest rfl
    have later : Skips (Marked mark) x := fun a z b rest split =>
      skips (y :: a) z b rest (by simp [split])
    rw [List.cons_append] at here ⊢
    rw [cut?, here, ih later]
    simp [Function.comp_def]

theorem cut?_mark {mark : Text} (nonempty : mark ≠ []) {x : Script} (skips : Skips (Marked mark) x)
    (rest : Script) : cut? mark (x ++ (ofText mark ++ rest)) = some (x, rest) := by
  obtain ⟨c, more, rfl⟩ := List.exists_cons_of_ne_nil nonempty
  have here := after?_ofText (c :: more) rest
  rw [cut?_append skips]
  simp only [ofText, List.map_cons, List.cons_append] at here ⊢
  simp [cut?, here]

theorem cut?_none {mark : Text} (nonempty : mark ≠ []) {x : Script}
    (skips : Skips (Marked mark) x) : cut? mark x = none := by
  obtain ⟨c, more, rfl⟩ := List.exists_cons_of_ne_nil nonempty
  have whole := cut?_append skips []
  simpa [cut?, after?] using whole

section Rewrites

variable {m : Type → Type} [Monad m] [LawfulMonad m] {rule : Rule α} {new : Script → α → m Script}
variable {x x' : Script} {y y' : m Script}

/-- The rewriting of `x` is `y`, and then the rewriting of what follows. -/
def Rewrites (rule : Rule α) (new : Script → α → m Script) (x : Script) (y : m Script) : Prop :=
  ∀ rest, rewrite (atOpener rule) new (x ++ rest) =
    y >>= fun front => (front ++ ·) <$> rewrite (atOpener rule) new rest

theorem Rewrites.whole (h : Rewrites rule new x y) : rewrite (atOpener rule) new x = y := by
  have := h []
  rw [rewrite_nil] at this
  simpa using this

theorem rewrites_skipped (skips : Skips (Found rule) x) : Rewrites rule new x (pure x) := by
  intro rest
  induction x with
  | nil => simp
  | cons z x ih =>
    have here : atOpener rule (z :: x ++ rest) = none := by
      simpa [Found] using skips [] z x rest rfl
    have later := ih fun a w b rest split => skips (z :: a) w b rest (by simp [split])
    rw [List.cons_append] at here ⊢
    rw [rewrite_copied here, later]
    simp

theorem rewrites_found {content : α}
    (shape : ∃ more, x = ofText Markup.opener ++ more)
    (found : ∀ rest, rule (x ++ rest) = some (content, rest)) :
    Rewrites rule new x (new x content) := by
  intro rest
  obtain ⟨more, rfl⟩ := shape
  have opened :
      after? Markup.opener (ofText Markup.opener ++ more ++ rest) = some (more ++ rest) := by
    rw [List.append_assoc]
    exact after?_ofText _ _
  refine rewrite_found (by simp [ofText, Markup.opener]) ?_
  rw [atOpener, opened]
  exact found rest

theorem Rewrites.append (first : Rewrites rule new x y) (last : Rewrites rule new x' y') :
    Rewrites rule new (x ++ x') (y >>= fun front => (front ++ ·) <$> y') := by
  intro rest
  rw [List.append_assoc, first, last]
  simp

theorem rewrites_flatMap {f : β → Script} {g : β → m Script} {l : List β}
    (each : ∀ a ∈ l, Rewrites rule new (f a) (g a)) :
    Rewrites rule new (l.flatMap f) (List.flatten <$> l.mapM g) := by
  induction l with
  | nil =>
    intro rest
    simp
  | cons a l ih =>
    have step := (each a (by simp)).append (ih fun b member => each b (by simp [member]))
    rw [List.flatMap_cons]
    convert step using 1
    simp

end Rewrites

end Stencil.Script
