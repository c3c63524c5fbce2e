import Mathlib.Data.List.DropRight
import Stencil.Proofs.Script.Spelling

/-! The forms of tags read the same in a script and in a text that spells it. Every class of
letters leaves NUL out, so reading stops before a placeholder as before a chunk; only the
arguments of a call run over both. -/
namespace Stencil

open Text Stencil.Shelf

variable {shelf : Shelf} {s s' : Script} {t t' : Text} {α β γ δ : Type}

theorem rel_bind {P : α → β → Prop} {Q : γ → δ → Prop} {x : Option α} {y : Option β}
    {f : α → Option γ} {g : β → Option δ} (h : Option.Rel P x y)
    (each : ∀ a b, P a b → Option.Rel Q (f a) (g b)) : Option.Rel Q (x.bind f) (y.bind g) := by
  cases h with
  | some related => exact each _ _ related
  | none => exact .none

theorem rel_map {P : α → β → Prop} {Q : γ → δ → Prop} {x : Option α} {y : Option β}
    {f : α → γ} {g : β → δ} (h : Option.Rel P x y) (each : ∀ a b, P a b → Q (f a) (g b)) :
    Option.Rel Q (x.map f) (y.map g) := by
  cases h with
  | some related => exact .some (each _ _ related)
  | none => exact .none

theorem rel_or {P : α → β → Prop} {x x' : Option α} {y y' : Option β}
    (first : Option.Rel P x y) (second : Option.Rel P x' y') :
    Option.Rel P (x.or x') (y.or y') := by
  cases first with
  | some related => exact .some related
  | none => simpa using second

theorem rel_imp {P Q : α → β → Prop} {x : Option α} {y : Option β} (h : Option.Rel P x y)
    (each : ∀ a b, P a b → Q a b) : Option.Rel Q x y := by
  cases h with
  | some related => exact .some (each _ _ related)
  | none => exact .none

/-- Two readings in step: both fail, or both give related contents and pass over the same. -/
def InStep (shelf : Shelf) (related : α → β → Prop) (s : Script) (t : Text) :
    Option (α × Script) → Option (β × Text) → Prop :=
  Option.Rel fun a b => related a.1 b.1 ∧ shelf.Passes s t a.2 b.2

theorem InStep.after {related : α → β → Prop} {x : Option (α × Script)} {y : Option (β × Text)}
    (passed : shelf.Passes s t s' t') (h : InStep shelf related s' t' x y) :
    InStep shelf related s t x y := by
  cases h with
  | some both => exact .some ⟨both.1, passed.trans both.2⟩
  | none => exact .none

theorem Shelf.Spells.word_eq {allowed : Char → Bool} (stops : allowed '\x00' = false)
    (h : shelf.Spells s t) : s.word allowed = t.takeWhile allowed := by
  induction h with
  | nil => rfl
  | @letter c s t ne _ ih => cases ok : allowed c <;> simp [Script.word, ok, ih]
  | chunk => simp [Script.word, placeholder_eq, stops]

theorem Shelf.Spells.dropWhile {allowed : Char → Bool} (stops : allowed '\x00' = false)
    (h : shelf.Spells s t) :
    shelf.Passes s t (s.dropWhile (·.among allowed)) (t.dropWhile allowed) := by
  induction h with
  | nil => exact .refl .nil
  | @letter c s t ne rest ih =>
    cases ok : allowed c with
    | true => simpa [List.dropWhile_cons, ok] using ih.letter ne
    | false =>
      simpa [List.dropWhile_cons, ok] using Passes.refl (rest.letter ne)
  | @chunk number finished s t found rest ih =>
    have whole := Passes.refl (rest.chunk found)
    simpa [List.dropWhile_cons, placeholder_eq, stops] using whole

theorem isBlank_nul : isBlank '\x00' = false := by decide

theorem Shelf.Spells.trimStart (h : shelf.Spells s t) :
    shelf.Passes s t s.trimStart (Text.trimStart t) := h.dropWhile isBlank_nul

theorem Shelf.Spells.after? {lead : Text} (free : NulFree lead) (h : shelf.Spells s t) :
    Option.Rel (shelf.Passes s t) (Script.after? lead s) (Text.after? lead t) := by
  induction lead generalizing s t with
  | nil => exact .some (.refl h)
  | cons a lead ih =>
    obtain ⟨ne, free⟩ := nulFree_cons.mp free
    cases h with
    | nil => exact .none
    | @letter b s t neb rest =>
      by_cases same : a = b
      · simp only [Script.after?, Text.after?, same, if_true]
        exact rel_imp (ih free rest) fun _ _ passed => passed.letter neb
      · simp only [Script.after?, Text.after?, same, if_false]
        exact .none
    | chunk =>
      simp only [Script.after?, Text.after?, placeholder_eq, List.cons_append, ne, if_false]
      exact .none

theorem after?_cons_of_ne {a c : Char} {lead rest : Text} (ne : a ≠ c) :
    Text.after? (a :: lead) (c :: rest) = none := by
  simp [Text.after?, ne]

theorem cut?_braceless {mark lead : Text} (rest : Text) (braceless : '{' ∉ lead) :
    Text.cut? ('{' :: mark) (lead ++ rest) =
      (Text.cut? ('{' :: mark) rest).map fun (before, tail) => (lead ++ before, tail) := by
  induction lead with
  | nil => simp
  | cons c lead ih =>
    obtain ⟨ne, later⟩ := List.ne_and_not_mem_of_not_mem_cons braceless
    rw [List.cons_append, Text.cut?, after?_cons_of_ne ne, ih later]
    simp [Function.comp_def]

/-- A mark that starts with a brace is found at the same place. -/
theorem Shelf.Spells.cut? {mark : Text} (free : NulFree mark) (h : shelf.Spells s t) :
    InStep shelf shelf.Spells s t (Script.cut? ('{' :: mark) s) (Text.cut? ('{' :: mark) t) := by
  have markFree : NulFree ('{' :: mark) := nulFree_cons.mpr ⟨by decide, free⟩
  induction h with
  | nil => exact .none
  | @letter c s t ne rest ih =>
    rw [Script.cut?, Text.cut?]
    have here := (rest.letter ne).after? markFree
    generalize Script.after? ('{' :: mark) (.letter c :: s) = x at here
    generalize Text.after? ('{' :: mark) (c :: t) = y at here
    cases here with
    | some passed => exact .some ⟨.nil, passed⟩
    | none =>
      refine rel_map ih ?_
      rintro ⟨before, tail⟩ ⟨before', tail'⟩ ⟨spelled, passed⟩
      exact ⟨.letter ne spelled, passed.letter ne⟩
  | @chunk number finished s t found rest ih =>
    rw [cut?_braceless _ (braceless_placeholder _ _).1, Script.cut?]
    refine rel_map ih ?_
    rintro ⟨before, tail⟩ ⟨before', tail'⟩ ⟨spelled, passed⟩
    exact ⟨.chunk found spelled, passed.chunk found⟩

theorem inStep_word {allowed : Char → Bool} {close : Text} (stops : allowed '\x00' = false)
    (free : NulFree close) (h : shelf.Spells s t) :
    InStep shelf Eq s t (Script.word? allowed close s) (Markup.word? allowed close t) := by
  have trimmed := h.trimStart
  unfold Script.word? Markup.word?
  simp only [trimmed.rest.word_eq stops]
  cases (Text.trimStart t).takeWhile allowed with
  | nil => exact .none
  | cons c word =>
    have dropped := trimmed.rest.dropWhile stops
    have again := dropped.rest.trimStart
    refine rel_map (again.rest.after? free) fun s' t' passed => ⟨rfl, ?_⟩
    exact ((trimmed.trans dropped).trans again).trans passed

theorem inStep_tag {opening close : Text} {allowed : Char → Bool} (start : NulFree opening)
    (stops : allowed '\x00' = false) (free : NulFree close) (h : shelf.Spells s t) :
    InStep shelf Eq s t (Script.tag? opening allowed close s)
      (Markup.tag? opening allowed close t) :=
  rel_bind (h.after? start) fun _ _ passed => (inStep_word stops free passed.rest).after passed

theorem inStep_spacedTag {opening close : Text} {allowed : Char → Bool} (start : NulFree opening)
    (stops : allowed '\x00' = false) (free : NulFree close) (h : shelf.Spells s t) :
    InStep shelf Eq s t (Script.spacedTag? opening allowed close s)
      (Markup.spacedTag? opening allowed close t) := by
  have opened := h.after? start
  unfold Script.spacedTag? Markup.spacedTag?
  generalize Script.after? opening s = x at opened
  generalize Text.after? opening t = y at opened
  cases opened with
  | none => exact .none
  | some passed =>
    obtain ⟨front, lead, same, same', spelled, rest⟩ := passed
    cases rest with
    | nil => exact .none
    | @letter c s' t' ne rest =>
      cases blank : isBlank c with
      | false =>
        simp only [Symbol.among_letter, blank]
        exact .none
      | true =>
        have passed : shelf.Passes s t s' t' := by
          refine ⟨front ++ [.letter c], lead ++ [c], by simp [same], by simp [same'], ?_, rest⟩
          exact spelled.append (.letter ne .nil)
        simpa [blank] using (inStep_word stops free rest).after passed
    | chunk =>
      simp only [placeholder_eq, List.cons_append, isBlank_nul]
      exact .none

theorem isPathChar_nul (place : Markup.Place) : Markup.isPathChar place '\x00' = false := by
  cases place <;> decide

theorem inStep_inclusion (h : shelf.Spells s t) :
    InStep shelf Eq s t (Script.inclusion? s) (Markup.inclusion? t) :=
  inStep_tag (by decide) (by decide) (by decide) h

theorem inStep_each (h : shelf.Spells s t) :
    InStep shelf Eq s t (Script.each? s) (Markup.each? t) :=
  inStep_spacedTag (by decide) (isPathChar_nul _) (by decide) h

theorem inStep_condition (place : Markup.Place) (h : shelf.Spells s t) :
    InStep shelf Eq s t (Script.condition? place s) (Markup.condition? place t) :=
  inStep_spacedTag (by decide) (isPathChar_nul _) (by decide) h

theorem inStep_variable (place : Markup.Place) (h : shelf.Spells s t) :
    InStep shelf Eq s t (Script.variableTag? place s) (Markup.variableTag? place t) := by
  have raw : InStep shelf Eq s t (Script.raw? place s) (Markup.raw? place t) :=
    inStep_tag (by decide) (isPathChar_nul _) (by decide) h
  have escaped : InStep shelf Eq s t (Script.escaped? place s) (Markup.escaped? place t) :=
    inStep_tag (by decide) (isPathChar_nul _) (by decide) h
  refine rel_or (rel_map raw ?_) (rel_map escaped ?_) <;>
    rintro ⟨path, s'⟩ ⟨_, t'⟩ ⟨rfl, passed⟩ <;> exact ⟨rfl, passed⟩

theorem reverse_dropWhile_reverse_cons {p : α → Bool} (x : α) (l : List α) :
    ((x :: l).reverse.dropWhile p).reverse =
      if (l.reverse.dropWhile p).reverse = [] then if p x then [] else [x]
      else x :: (l.reverse.dropWhile p).reverse := by
  rw [List.reverse_cons, List.dropWhile_append]
  cases l.reverse.dropWhile p with
  | nil => cases ok : p x <;> simp [ok]
  | cons y rest => simp

theorem trimEnd_cons (c : Char) (t : Text) :
    Text.trimEnd (c :: t) =
      if Text.trimEnd t = [] then if isBlank c then [] else [c] else c :: Text.trimEnd t :=
  reverse_dropWhile_reverse_cons c t

theorem Script.trimEnd_cons (x : Symbol) (s : Script) :
    Script.trimEnd (x :: s) =
      if s.trimEnd = [] then if x.among isBlank then [] else [x] else x :: s.trimEnd :=
  reverse_dropWhile_reverse_cons x s

theorem trimEnd_append_of_mark (u t : Text) :
    Text.trimEnd (u ++ '\x00' :: t) = u ++ '\x00' :: Text.trimEnd t := by
  have split : (u ++ '\x00' :: t).reverse = t.reverse ++ '\x00' :: u.reverse := by simp
  rw [Text.trimEnd, split, List.dropWhile_append, Text.trimEnd]
  cases t.reverse.dropWhile isBlank with
  | nil => simp [isBlank_nul]
  | cons c rest => simp

theorem Shelf.Spells.trimEnd (h : shelf.Spells s t) :
    shelf.Spells s.trimEnd (Text.trimEnd t) := by
  induction h with
  | nil => exact .nil
  | @letter c s t ne _ ih =>
    rw [Script.trimEnd_cons, trimEnd_cons]
    by_cases bare : Text.trimEnd t = []
    · cases blank : isBlank c with
      | true => simpa [ih.eq_nil_iff, bare, blank] using Shelf.Spells.nil
      | false => simpa [ih.eq_nil_iff, bare, blank] using Shelf.Spells.nil.letter ne
    · simpa [ih.eq_nil_iff, bare] using ih.letter ne
  | @chunk number finished s t found _ ih =>
    have mark : Text.trimEnd (placeholder shelf.token number ++ t) =
        placeholder shelf.token number ++ Text.trimEnd t := by
      have shape : placeholder shelf.token number =
          lead shelf.token ++ Numeral.ofNat number ++ ['\x00'] := rfl
      rw [shape, List.append_assoc, List.singleton_append, trimEnd_append_of_mark]
      simp
    have whole : Script.trimEnd (.chunk finished :: s) = .chunk finished :: s.trimEnd := by
      rw [Script.trimEnd_cons]
      split <;> simp_all
    rw [mark, whole]
    exact .chunk found ih

theorem Shelf.Spells.trim (h : shelf.Spells s t) : shelf.Spells s.trim (Text.trim t) :=
  h.trimStart.rest.trimEnd

/-- What is left of a trimmed text neither starts nor ends with a blank. -/
theorem trim_trim (t : Text) : Text.trim (Text.trim t) = Text.trim t := by
  have start : Text.trimStart (Text.trimEnd (Text.trimStart t)) =
      Text.trimEnd (Text.trimStart t) := by
    cases left : Text.trimStart t with
    | nil => rfl
    | cons c rest =>
      have solid : isBlank c = false := by
        have := List.head?_dropWhile_not isBlank t
        rw [← Text.trimStart, left] at this
        simpa using this
      rw [trimEnd_cons]
      split <;> simp [Text.trimStart, solid]
  simp only [Text.trim] at start ⊢
  rw [start]
  simp [Text.trimEnd, List.dropWhile_idempotent]

theorem trim_blank {c : Char} (blank : isBlank c = true) : Text.trim [c] = [] := by
  simp [Text.trim, Text.trimStart, Text.trimEnd, blank]

/-- Only blanks are trimmed away altogether. -/
theorem all_blank_of_trim {t : Text} (h : Text.trim t = []) : ∀ c ∈ t, isBlank c = true := by
  have start : Text.trimStart t = [] := by
    cases left : Text.trimStart t with
    | nil => rfl
    | cons c rest =>
      have := List.head?_dropWhile_not isBlank t
      rw [← Text.trimStart, left] at this
      rw [Text.trim, left, trimEnd_cons] at h
      split at h <;> simp_all
  simpa [Text.trimStart, List.dropWhile_eq_nil_iff] using start

theorem Shelf.Spells.inside (h : shelf.Spells s t) :
    shelf.Spells s.inside (t.takeWhile (· ≠ '}')) ∧
      shelf.Passes s t (s.dropWhile (!·.among (· = '}'))) (t.dropWhile (· ≠ '}')) := by
  induction h with
  | nil => exact ⟨.nil, .refl .nil⟩
  | @letter c s t ne rest ih =>
    by_cases brace : c = '}'
    · have whole := Passes.refl (rest.letter ne)
      subst brace
      exact ⟨.nil, whole⟩
    · obtain ⟨spelled, passed⟩ := ih
      simp only [Script.inside] at spelled
      simpa [Script.inside, List.takeWhile_cons, List.dropWhile_cons, brace] using
        And.intro (spelled.letter ne) (passed.letter ne)
  | @chunk number finished s t found rest ih =>
    obtain ⟨spelled, passed⟩ := ih
    have free : ∀ c ∈ placeholder shelf.token number, decide (c ≠ '}') = true := by
      intro c member
      have closed := (braceless_placeholder shelf.token number).2
      simpa using fun same : c = '}' => closed (same ▸ member)
    rw [List.takeWhile_append_of_pos free, List.dropWhile_append_of_pos free]
    exact ⟨spelled.chunk found, passed.chunk found⟩

/-- Two calls agree when their names do and their arguments, without blanks around them, are the
same script and its spelling. -/
def Shelf.SameCall (shelf : Shelf) (a : Script.Call) (b : Markup.Call) : Prop :=
  a.name = b.name ∧ shelf.Spells a.arguments (Text.trim b.arguments)

/-- Arguments that are all blank have the last blank as their text, which is trimmed away. -/
theorem trim_arguments {c : Char} (d : Char) (rest : Text) (blank : isBlank c = true) :
    ∃ a, Markup.arguments? (c :: d :: rest) = some a ∧
      Text.trim a = Text.trim (c :: d :: rest) := by
  simp only [Markup.arguments?, blank, if_true]
  split
  next bare =>
    obtain ⟨last, found⟩ : ∃ last, (d :: rest).getLast? = some last :=
      ⟨_, List.getLast?_eq_some_getLast (by simp)⟩
    have member : last ∈ c :: d :: rest := List.mem_cons_of_mem _ (List.mem_of_getLast? found)
    refine ⟨[last], by rw [found]; rfl, ?_⟩
    rw [bare, trim_blank (all_blank_of_trim bare last member)]
  next => exact ⟨_, rfl, trim_trim _⟩

theorem Shelf.Spells.arguments (h : shelf.Spells s t) :
    Option.Rel (fun a b => shelf.Spells a (Text.trim b)) (Script.arguments? s)
      (Markup.arguments? t) := by
  have trimmed := h.trim
  cases h with
  | nil => exact .none
  | @letter c s t ne rest =>
    obtain same | ⟨x, s', rfl, d, t', rfl⟩ : (s = [] ∧ t = []) ∨ ∃ x s', s = x :: s' ∧
        ∃ d t', t = d :: t' := by
      cases rest with
      | nil => exact .inl ⟨rfl, rfl⟩
      | letter => exact .inr ⟨_, _, rfl, _, _, rfl⟩
      | chunk => exact .inr ⟨_, _, rfl, _, _, by rw [placeholder_eq]; rfl⟩
    · rw [same.1, same.2]
      exact .none
    · cases blank : isBlank c with
      | false =>
        simp only [Script.arguments?, Markup.arguments?, Symbol.among_letter, blank]
        exact .none
      | true =>
        obtain ⟨a, found, same⟩ := trim_arguments d t' blank
        rw [found]
        simp only [Script.arguments?, Symbol.among_letter, blank, if_true]
        exact .some (same ▸ trimmed)
  | @chunk number finished s t found rest =>
    have left : Script.arguments? (.chunk finished :: s) = none := by cases s <;> rfl
    have right : Markup.arguments? (placeholder shelf.token number ++ t) = none := by
      rw [placeholder_eq]
      unfold Markup.arguments?
      split
      next c d rest shape =>
        obtain ⟨rfl, -⟩ := List.cons.inj shape
        simp [isBlank_nul]
      next => rfl
    rw [left, right]
    exact .none

theorem inStep_call (h : shelf.Spells s t) :
    InStep shelf shelf.SameCall s t (Script.call? s) (Markup.call? t) := by
  refine rel_bind (h.after? (by decide)) fun s₁ t₁ opened => ?_
  have trimmed := opened.trans opened.rest.trimStart
  have stops : Markup.isNameChar '\x00' = false := by decide
  simp only [trimmed.rest.word_eq stops]
  cases (Text.trimStart t₁).takeWhile Markup.isNameChar with
  | nil => exact .none
  | cons c name =>
    have named := trimmed.trans (trimmed.rest.dropWhile stops)
    obtain ⟨spelled, passed⟩ := named.rest.inside
    refine rel_bind spelled.arguments fun a b same => ?_
    refine rel_bind (passed.rest.after? (by decide)) fun s₂ t₂ closed => ?_
    exact .some ⟨⟨rfl, same⟩, (named.trans passed).trans closed⟩

/-- Two blocks agree when they have the same path and what they hold is spelled. -/
structure Shelf.SameBlock (shelf : Shelf) (a : Script.Block) (b : Markup.Block) : Prop where
  path : a.path = b.path
  body : shelf.Spells a.body b.body
  otherwise : Option.Rel shelf.Spells a.otherwise? b.otherwise?

theorem inStep_block {opening : Script.Rule Text} {opening' : Markup.Rule Text}
    {closing : Text} {separator? : Option Text}
    (opened : InStep shelf Eq s t (opening s) (opening' t)) (closes : NulFree closing)
    (separates : ∀ separator ∈ separator?, ∃ more, separator = '{' :: more ∧ NulFree more) :
    InStep shelf shelf.SameBlock s t (Script.block? opening ('{' :: closing) separator? s)
      (Markup.block? opening' ('{' :: closing) separator? t) := by
  refine rel_bind opened ?_
  rintro ⟨path, s₁⟩ ⟨_, t₁⟩ ⟨rfl, first⟩
  refine rel_bind (first.rest.cut? closes) ?_
  rintro ⟨inside, s₂⟩ ⟨inside', t₂⟩ ⟨held, last⟩
  have whole := first.trans last
  cases separator? with
  | none => exact .some ⟨⟨rfl, held, .none⟩, whole⟩
  | some separator =>
    obtain ⟨more, rfl, free⟩ := separates separator rfl
    have parted := held.cut? free
    simp only [Option.bind_some]
    generalize Script.cut? ('{' :: more) inside = x at parted
    generalize Text.cut? ('{' :: more) inside' = y at parted
    cases parted with
    | none => exact .some ⟨⟨rfl, held, .none⟩, whole⟩
    | some both => exact .some ⟨⟨rfl, both.1, .some both.2.rest⟩, whole⟩

theorem inStep_loop (h : shelf.Spells s t) :
    InStep shelf shelf.SameBlock s t (Script.loop? s) (Markup.loop? t) :=
  inStep_block (inStep_each h) (by decide) (by simp)

theorem inStep_choice (place : Markup.Place) (h : shelf.Spells s t) :
    InStep shelf shelf.SameBlock s t (Script.choice? place s) (Markup.choice? place t) := by
  refine inStep_block (inStep_condition place h) (by decide) ?_
  intro separator same
  cases same
  exact ⟨_, rfl, by decide⟩

end Stencil
