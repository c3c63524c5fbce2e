import Mathlib.Data.List.Basic
import Stencil.Proofs.Lockstep
import Stencil.Proofs.Markup.Shape

/-! Where a character with a meaning in HTML may stand in a finished text: only where an
entity begins. Escaping loses nothing: what has come out of an entity is not read again, so
a text that spells entities itself comes back too. No stage makes three braces meet that did
not: the text before a tag does not end with a brace unless three braces stand there. -/
namespace Stencil.Markup

section Entities

open Text

/-- The characters that have a meaning in HTML. -/
def reserved : Text := ['&', '<', '>', '"', '\'']

theorem forall_reserved {P : Char → Prop} :
    (∀ c ∈ reserved, P c) ↔ P '&' ∧ P '<' ∧ P '>' ∧ P '"' ∧ P '\'' := by
  simp [reserved]

/-- Wherever the character stands in the text, an entity begins. -/
def OnlyEntities (c : Char) (text : Text) : Prop :=
  ∀ rest, c :: rest <:+ text → ∃ d ∈ reserved, entity d <+: c :: rest

/-- An entity has nothing reserved in it after its first character. -/
theorem entity_of_reserved : ∀ d ∈ reserved,
    ∃ name, entity d = '&' :: name ∧ NulFree name ∧ ∀ c ∈ reserved, c ∉ name := by
  refine forall_reserved.mpr ⟨?_, ?_, ?_, ?_, ?_⟩ <;>
    exact ⟨_, rfl, by decide, forall_reserved.mpr (by decide)⟩

theorem nulFree_entity {d : Char} (known : d ∈ reserved) : NulFree (entity d) := by
  obtain ⟨name, shape, free, -⟩ := entity_of_reserved d known
  rw [shape]
  exact nulFree_cons.mpr ⟨by decide, free⟩

theorem entity_of_not_reserved {d : Char} (other : d ∉ reserved) : entity d = [d] := by
  simp only [reserved, List.mem_cons, List.not_mem_nil, or_false, not_or] at other
  simp [entity, other]

namespace OnlyEntities

variable {c : Char} {s t : Text}

theorem of_not_mem (lacks : c ∉ t) : OnlyEntities c t :=
  fun _ ending => absurd (ending.mem List.mem_cons_self) lacks

theorem of_suffix (h : OnlyEntities c t) (ending : s <:+ t) : OnlyEntities c s :=
  fun rest found => h rest (found.trans ending)

theorem cons {d : Char} (h : OnlyEntities c t)
    (begins : d = c → ∃ e ∈ reserved, entity e <+: d :: t) : OnlyEntities c (d :: t) := by
  intro rest ending
  rcases List.suffix_cons_iff.mp ending with same | later
  · cases same
    exact begins rfl
  · exact h rest later

theorem append (first : OnlyEntities c s) (last : OnlyEntities c t) : OnlyEntities c (s ++ t) := by
  induction s with
  | nil => exact last
  | cons d s ih =>
    refine (ih (first.of_suffix (List.suffix_cons d s))).cons fun same => ?_
    subst same
    obtain ⟨e, known, begins⟩ := first s (List.suffix_refl _)
    exact ⟨e, known, begins.trans (List.prefix_append _ t)⟩

theorem entity (known : c ∈ reserved) (d : Char) : OnlyEntities c (entity d) := by
  by_cases member : d ∈ reserved
  · obtain ⟨name, shape, -, lacks⟩ := entity_of_reserved d member
    rw [shape]
    exact (of_not_mem (lacks c known)).cons fun _ => ⟨d, member, shape ▸ List.prefix_refl _⟩
  · rw [entity_of_not_reserved member]
    apply of_not_mem
    rintro same
    rw [List.mem_singleton] at same
    exact member (same ▸ known)

theorem escape (known : c ∈ reserved) (t : Text) : OnlyEntities c (escape t) := by
  induction t with
  | nil => exact of_not_mem List.not_mem_nil
  | cons d t ih => exact (entity known d).append ih

/-- No entity begins with any but the one character. -/
theorem not_mem (h : OnlyEntities c t) (ne : c ≠ '&') : c ∉ t := by
  intro member
  obtain ⟨before, rest, rfl⟩ := List.mem_iff_append.mp member
  obtain ⟨d, known, begins⟩ := h rest (List.suffix_append before _)
  obtain ⟨name, shape, -⟩ := entity_of_reserved d known
  rw [shape, List.cons_prefix_cons] at begins
  exact ne begins.1.symm

end OnlyEntities

end Entities

section Unescaping

variable {c : Char} {text rest : Text}

/-- The characters with a meaning in HTML, and how each is written where it shall have none. -/
def entities : List (Char × Text) :=
  [('&', "&amp;".toList), ('<', "&lt;".toList), ('>', "&gt;".toList), ('"', "&quot;".toList),
   ('\'', "&#039;".toList)]

/-- Reads the entity that a text starts with. -/
def entity? : Rule Char := fun text =>
  entities.findSome? fun (c, name) => (Text.after? name text).map (c, ·)

/-- Puts its character in the place of each entity, from left to right. -/
def unescape (text : Text) : Text := Id.run (rewrite entity? (fun _ c => pure [c]) text)

@[simp] theorem unescape_nil : unescape [] = [] := by simp [unescape]

theorem entity_mem_entities : ∀ d ∈ reserved, (d, entity d) ∈ entities :=
  forall_reserved.mpr (by decide)

theorem entity?_entity (rest : Text) :
    ∀ c ∈ reserved, entity? (entity c ++ rest) = some (c, rest) := by
  refine forall_reserved.mpr ⟨?_, ?_, ?_, ?_, ?_⟩ <;>
    simp [entity?, entities, entity, Text.after?]

/-- Every entity starts with an ampersand. -/
theorem entity?_cons (other : c ≠ '&') (rest : Text) : entity? (c :: rest) = none := by
  simp [entity?, entities, Text.after?, other.symm]

theorem unescape_entity_append (c : Char) (rest : Text) :
    unescape (entity c ++ rest) = c :: unescape rest := by
  by_cases known : c ∈ reserved
  · obtain ⟨name, shape, -⟩ := entity_of_reserved c known
    have nonempty : entity c ≠ [] := by simp [shape]
    rw [unescape, rewrite_found nonempty (entity?_entity rest c known)]
    rfl
  · have other : c ≠ '&' := by
      rintro rfl
      exact known List.mem_cons_self
    rw [entity_of_not_reserved known, List.singleton_append, unescape,
      rewrite_copied (entity?_cons other rest)]
    rfl

/-- What follows an escaped text has no part in how it is read back. -/
theorem unescape_escape_append (s t : Text) : unescape (escape s ++ t) = s ++ unescape t := by
  induction s with
  | nil => rfl
  | cons c s ih =>
    rw [escape_cons, List.append_assoc, unescape_entity_append, ih, List.cons_append]

theorem unescape_escape (s : Text) : unescape (escape s) = s := by
  simpa using unescape_escape_append s []

/-- In an escaped text nothing has a meaning in HTML but the ampersands that entities start with;
reading the entities back once gives the text, so different texts are escaped differently; and
texts are escaped part by part. -/
theorem escape_lossless :
    (∀ s : Text, (∀ c ∈ ['<', '>', '"', '\''], c ∉ escape s) ∧
      (∀ rest, '&' :: rest <:+ escape s → ∃ e ∈ entities, e.2 <+: '&' :: rest) ∧
      unescape (escape s) = s) ∧
    Function.Injective escape ∧
    ∀ s t : Text, escape (s ++ t) = escape s ++ escape t := by
  refine ⟨fun s => ⟨fun c other => ?_, fun rest ending => ?_, unescape_escape s⟩,
    Function.LeftInverse.injective unescape_escape, escape_append⟩
  · have known : c ∈ reserved := List.mem_cons_of_mem '&' other
    have ne : c ≠ '&' := by
      rintro rfl
      simp at other
    exact (OnlyEntities.escape known s).not_mem ne
  · obtain ⟨d, known, begins⟩ := OnlyEntities.escape List.mem_cons_self s rest ending
    exact ⟨(d, entity d), entity_mem_entities d known, begins⟩

/-- A second pass would read what the first has given. -/
example : unescape (unescape (escape "&lt;".toList)) = "<".toList := by decide

end Unescaping

open Text

variable {c : Char} {s t front lexeme tail result : Text}

def rawOpener : Text := '{' :: opener

/-- A text that lacks the character and in which no three braces open. -/
structure Bare (c : Char) (text : Text) : Prop where
  lacks : c ∉ text
  rawless : ¬rawOpener <:+: text

theorem Bare.part (h : Bare c t) (inner : s <:+: t) : Bare c s :=
  ⟨fun member => h.lacks (inner.mem member), fun raw => h.rawless (raw.trans inner)⟩

theorem bare_of_braceless (lacks : c ∉ t) (braceless : '{' ∉ t) : Bare c t :=
  ⟨lacks, fun raw => braceless (raw.mem List.mem_cons_self)⟩

/-- Texts may follow each other unless the first ends with a brace. -/
theorem Bare.append (first : Bare c s) (ends : s.getLast? ≠ some '{') (last : Bare c t) :
    Bare c (s ++ t) := by
  refine ⟨fun member => ?_, fun raw => ?_⟩
  · rcases List.mem_append.mp member with here | there
    · exact first.lacks here
    · exact last.lacks there
  · rcases List.infix_append_iff_ne_nil.mp raw with here | there | ⟨a, b, full, -, shape, ending, -⟩
    · exact first.rawless here
    · exact last.rawless there
    -- Three braces over the seam: the first text ends with one of them.
    · have braces : ∀ d ∈ a, d = '{' := fun d member => by
        have : d ∈ rawOpener := shape ▸ List.mem_append_left b member
        simpa [rawOpener, opener] using this
      obtain ⟨before, rfl⟩ := ending
      apply ends
      rw [List.getLast?_append_of_ne_nil _ full, List.getLast?_eq_some_getLast full,
        braces _ (List.getLast_mem full)]

/-- What may take the place of a tag. -/
structure Fits (c : Char) (front : Text) : Prop extends Bare c front where
  ends : front.getLast? ≠ some '{'

theorem fits_of_braceless (lacks : c ∉ t) (braceless : '{' ∉ t) : Fits c t :=
  ⟨bare_of_braceless lacks braceless, fun ends => braceless (List.mem_of_getLast? ends)⟩

theorem fits_nil : Fits c [] := fits_of_braceless List.not_mem_nil List.not_mem_nil

/-- A text before a tag fits: if it ended with a brace, three would meet. -/
theorem Bare.fits (before after : Text) (bare : Bare c (before ++ front ++ opener ++ after)) :
    Fits c front := by
  refine ⟨bare.part ⟨before, opener ++ after, by simp⟩, fun ends => ?_⟩
  obtain ⟨more, rfl⟩ := List.getLast?_eq_some_iff.mp ends
  apply bare.rawless
  exact ⟨before ++ more, after, by simp [rawOpener]⟩

/-- What a stage leaves of a text: no raw tag opens in it, and none opens where it is put after a
brace, unless that is so of the text. -/
structure Leaves (c : Char) (s t : Text) : Prop where
  bare : Bare c t
  one : ['{'] <+: t → ['{'] <+: s
  two : opener <+: t → opener <+: s

theorem leaves_nil : Leaves c [] [] := ⟨fits_nil.toBare, id, id⟩

theorem leaves_copied (d : Char) (h : Bare c s → Leaves c s t) (bare : Bare c (d :: s)) :
    Leaves c (d :: s) (d :: t) := by
  have rest := h (bare.part (List.suffix_cons d s).isInfix)
  refine ⟨⟨fun member => ?_, fun raw => ?_⟩, fun found => ?_, fun found => ?_⟩
  · rcases List.mem_cons.mp member with rfl | later
    · exact bare.lacks List.mem_cons_self
    · exact rest.bare.lacks later
  · rcases List.infix_cons_iff.mp raw with starts | inner
    -- A brace that is copied before two others stood before two in the text as well.
    · obtain ⟨rfl, opens⟩ := List.cons_prefix_cons.mp starts
      apply bare.rawless
      exact (List.cons_prefix_cons.mpr ⟨rfl, rest.two opens⟩).isInfix
    · exact rest.bare.rawless inner
  · obtain ⟨rfl, -⟩ := List.cons_prefix_cons.mp found
    simp
  · obtain ⟨rfl, opens⟩ := List.cons_prefix_cons.mp found
    exact List.cons_prefix_cons.mpr ⟨rfl, rest.one opens⟩

theorem leaves_found (opens : opener <+: lexeme ++ tail) (new : Fits c front)
    (h : Bare c tail → Leaves c tail result) (bare : Bare c (lexeme ++ tail)) :
    Leaves c (lexeme ++ tail) (front ++ result) := by
  have rest := h (bare.part (List.suffix_append lexeme tail).isInfix)
  have opens' : ['{'] <+: lexeme ++ tail := .trans ⟨['{'], rfl⟩ opens
  exact ⟨new.append new.ends rest.bare, fun _ => opens', fun _ => opens⟩

/-- A stage leaves such a text if what it puts in fits. -/
theorem bare_rewrite {α : Type} {m : Type → Type} [Monad m] [LawfulMonad m] (L : Lockstep m)
    {rule : Rule α} {new : Text → α → m Text} {Shape : α → Text → Prop} (reads : rule.Reads Shape)
    (consumes : rule.Consumes) (bare : Bare c s)
    (each : ∀ lexeme content, Bare c lexeme → Shape content lexeme →
      L.Related (new lexeme content) (new lexeme content) (Fits c)) :
    L.Related (rewrite (atOpener rule) new s) (rewrite (atOpener rule) new s) (Bare c) := by
  refine L.imp (P := fun result => Bare c s → Leaves c s result) ?_ fun _ left => (left bare).bare
  refine L.rewrite (P := fun s t => Bare c s → Leaves c s t) consumes.atOpener (fun _ => leaves_nil)
    (fun d _ _ h => leaves_copied d h) fun passed lexeme content tail split found => ?_
  have shape := reads.atOpener.shape found
  have fits := each lexeme content (bare.part ⟨passed, tail, split.symm⟩) shape
  exact L.imp fits fun front new result h => leaves_found (atOpener_eq_some found).1 new h

theorem VariableShape.escaped {place : Place} {v : Variable} (h : VariableShape place v lexeme)
    (bare : Bare c lexeme) : v.raw = false := by
  by_contra raw
  rw [VariableShape, if_pos (Bool.not_eq_false _ ▸ raw)] at h
  obtain ⟨⟨before, after, rfl, -⟩, -⟩ := h
  exact bare.rawless (List.prefix_append rawOpener _).isInfix

/-- A tag follows on both branches of a block, so both fit. -/
theorem BlockShape.fits {o : Text} {place : Place} {separator? : Option Text} {b : Block}
    (close : Text) (h : BlockShape o place (opener ++ close) separator? b lexeme)
    (separates : ∀ separator ∈ separator?, opener <+: separator) (bare : Bare c lexeme) :
    Fits c b.body ∧ ∀ other ∈ b.otherwise?, Fits c other := by
  obtain ⟨head, inside, rfl, -, held⟩ := h.parts
  rw [← List.append_assoc] at bare
  rcases held with ⟨none, rfl⟩ | ⟨separator, other, same, some, rfl⟩
  · exact ⟨bare.fits head close, by simp [none]⟩
  · obtain ⟨more, rfl⟩ := separates separator same
    refine ⟨?_, fun found is => ?_⟩
    · apply Bare.fits head (more ++ other ++ (opener ++ close))
      simpa using bare
    · obtain rfl : other = found := Option.some.inj (some.symm.trans is)
      apply Bare.fits (head ++ b.body ++ (opener ++ more)) close
      simpa using bare

end Stencil.Markup
