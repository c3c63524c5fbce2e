import Stencil.Proofs.Lockstep
import Stencil.Proofs.Markup.Shape

/-! Texts woven from the letters of a template and placeholders. Neither a brace nor a blank
is part of a placeholder, and no tag has a NUL in it, so a tag is spelled by letters alone:
a stage that takes parts of its text away or puts placeholders in finds no word that the
letters do not spell, one after another. -/
namespace Stencil

open Text Markup

/-- What stands between the NULs of a placeholder. -/
def Shelf.isMark (c : Char) : Bool := c = ':' || isHexDigit c

/-- `Woven inside letters text`: the text consists of the letters, in order, and placeholders
between them; `inside` tells whether it starts in the middle of one. -/
inductive Woven : Bool → Text → Text → Prop
  | nil : Woven false [] []
  | letter {u t : Text} (c : Char) : Woven false u t → Woven false (c :: u) (c :: t)
  | enter {u t : Text} : Woven true u t → Woven false u ('\x00' :: t)
  | mark {c : Char} {u t : Text} : Shelf.isMark c = true → Woven true u t → Woven true u (c :: t)
  | leave {u t : Text} : Woven false u t → Woven true u ('\x00' :: t)

/-- Characters that no placeholder has. -/
def Outer (c : Char) : Prop := c ≠ '\x00' ∧ Shelf.isMark c = false

theorem outer_open : Outer '{' := by simp [Outer, Shelf.isMark, isHexDigit]
theorem outer_close : Outer '}' := by simp [Outer, Shelf.isMark, isHexDigit]

theorem isBlank_of_isMark {c : Char} (mark : Shelf.isMark c = true) : isBlank c = false := by
  simp only [Shelf.isMark, isHexDigit, Bool.or_eq_true, Bool.and_eq_true, decide_eq_true_eq] at mark
  rcases mark with rfl | digit
  · decide
  · have range : 48 ≤ c.toNat ∧ c.toNat ≤ 102 := by
      simp only [Char.le_def, UInt32.le_iff_toNat_le] at digit
      change (48 ≤ c.toNat ∧ c.toNat ≤ 57) ∨ (97 ≤ c.toNat ∧ c.toNat ≤ 102) at digit
      omega
    have low : ¬c.toNat < 9 ∧ ¬c.toNat ≤ 13 ∧ ¬c.toNat < 28 ∧ ¬c.toNat ≤ 32 := by omega
    have high : c.toNat < 133 := by omega
    simp [isBlank, blanks, within, low, high]

theorem outer_of_isBlank {c : Char} (blank : isBlank c = true) : Outer c := by
  constructor
  · rintro rfl
    simp [isBlank_nul] at blank
  · by_contra mark
    have solid := isBlank_of_isMark (Bool.not_eq_false _ ▸ mark)
    simp [solid] at blank

namespace Woven

variable {inside : Bool} {u v s t a : Text} {c : Char}

theorem ofText (t : Text) : Woven false t t := by
  induction t with
  | nil => exact .nil
  | cons c t ih => exact .letter c ih

theorem append (first : Woven inside u s) (last : Woven false v t) :
    Woven inside (u ++ v) (s ++ t) := by
  induction first with
  | nil => exact last
  | letter c _ ih => exact .letter c ih
  | enter _ ih => exact .enter ih
  | mark known _ ih => exact .mark known ih
  | leave _ ih => exact .leave ih

theorem placeholder (token : Token) (number : Nat) :
    Woven false [] (Shelf.placeholder token number) := by
  have within : ∀ marks : Text, (∀ c ∈ marks, Shelf.isMark c = true) →
      Woven true [] (marks ++ ['\x00']) := by
    intro marks known
    induction marks with
    | nil => exact .leave .nil
    | cons c marks ih =>
      obtain ⟨here, later⟩ := List.forall_mem_cons.mp known
      exact .mark here (ih later)
  have marks : ∀ c ∈ token.digits ++ ':' :: Numeral.ofNat number, Shelf.isMark c = true := by
    intro c member
    rcases List.mem_append.mp member with digit | rest
    · simp [Shelf.isMark, token.hex c digit]
    · rcases List.mem_cons.mp rest with rfl | digit
      · rfl
      · have decimal := Nat.isDigit_of_mem_toDigits (by decide) (by decide) digit
        simp only [Char.isDigit, Bool.and_eq_true, decide_eq_true_eq, ge_iff_le] at decimal
        have range : '0' ≤ c ∧ c ≤ '9' := decimal
        simp [Shelf.isMark, isHexDigit, range]
  have whole := Woven.enter (within _ marks)
  rwa [Shelf.placeholder_eq, show token.digits ++ ':' :: (Numeral.ofNat number ++ ['\x00']) =
    token.digits ++ ':' :: Numeral.ofNat number ++ ['\x00'] by simp]

/-- Around a character that no placeholder has, both sides are woven. -/
theorem split (outer : Outer c) (h : Woven inside u (s ++ c :: t)) :
    ∃ v w, u = v ++ c :: w ∧ Woven inside v s ∧ Woven false w t := by
  induction s generalizing inside u with
  | nil =>
    cases h with
    | letter _ rest => exact ⟨[], _, rfl, .nil, rest⟩
    | enter => exact absurd rfl outer.1
    | mark known =>
      rw [outer.2] at known
      contradiction
    | leave => exact absurd rfl outer.1
  | cons d s ih =>
    cases h with
    | letter _ rest =>
      obtain ⟨v, w, rfl, front, back⟩ := ih rest
      exact ⟨d :: v, w, rfl, .letter d front, back⟩
    | enter rest =>
      obtain ⟨v, w, rfl, front, back⟩ := ih rest
      exact ⟨v, w, rfl, .enter front, back⟩
    | mark known rest =>
      obtain ⟨v, w, rfl, front, back⟩ := ih rest
      exact ⟨v, w, rfl, .mark known front, back⟩
    | leave rest =>
      obtain ⟨v, w, rfl, front, back⟩ := ih rest
      exact ⟨v, w, rfl, .leave front, back⟩

/-- What has no NUL consists of letters. -/
theorem letters (free : NulFree a) (h : Woven false u (a ++ t)) :
    ∃ v, u = a ++ v ∧ Woven false v t := by
  induction a generalizing u with
  | nil => exact ⟨u, rfl, h⟩
  | cons c a ih =>
    obtain ⟨ne, free⟩ := nulFree_cons.mp free
    cases h with
    | letter _ rest =>
      obtain ⟨v, rfl, back⟩ := ih free rest
      exact ⟨v, rfl, back⟩
    | enter => exact absurd rfl ne

theorem eq_of_nulFree (free : NulFree t) (h : Woven false u t) : u = t := by
  rw [← List.append_nil t] at h
  obtain ⟨v, rfl, rest⟩ := h.letters free
  cases rest
  simp

/-- A lexeme between braces does not cut a placeholder. -/
theorem cut {lexeme tail : Text} (braced : Braced lexeme) (h : Woven inside u (lexeme ++ tail)) :
    inside = false ∧ ∃ v w, u = v ++ w ∧ Woven false v lexeme ∧ Woven false w tail := by
  obtain ⟨inner, rfl⟩ := braced
  have shape : '{' :: (inner ++ ['}']) ++ tail = [] ++ '{' :: (inner ++ '}' :: tail) := by simp
  rw [shape] at h
  obtain ⟨v, w, rfl, front, back⟩ := h.split outer_open
  cases front
  obtain ⟨x, y, rfl, middle, last⟩ := back.split outer_close
  refine ⟨rfl, '{' :: (x ++ ['}']), y, by simp, ?_, last⟩
  exact .letter '{' (middle.append (.letter '}' .nil))

end Woven

/-- The second text is what a stage leaves of the first: letters are dropped, placeholders come
and go. -/
def Thins (s t : Text) : Prop :=
  ∀ ⦃inside u⦄, Woven inside u s → ∃ v, v.Sublist u ∧ Woven inside v t

theorem thins_nil : Thins [] [] := fun _ u h => ⟨u, .refl u, h⟩

theorem Thins.cons {s t : Text} (c : Char) (h : Thins s t) : Thins (c :: s) (c :: t) := by
  intro inside u woven
  cases woven with
  | letter _ rest =>
    obtain ⟨v, thinner, woven⟩ := h rest
    exact ⟨c :: v, thinner.cons_cons c, .letter c woven⟩
  | enter rest =>
    obtain ⟨v, thinner, woven⟩ := h rest
    exact ⟨v, thinner, .enter woven⟩
  | mark known rest =>
    obtain ⟨v, thinner, woven⟩ := h rest
    exact ⟨v, thinner, .mark known woven⟩
  | leave rest =>
    obtain ⟨v, thinner, woven⟩ := h rest
    exact ⟨v, thinner, .leave woven⟩

/-- What a match may be replaced by: letters of it, and placeholders. -/
def Shrinks (lexeme front : Text) : Prop :=
  ∀ ⦃u⦄, Woven false u lexeme → ∃ v, v.Sublist u ∧ Woven false v front

theorem Shrinks.thins {lexeme front tail result : Text} (h : Shrinks lexeme front)
    (braced : Braced lexeme) (rest : Thins tail result) :
    Thins (lexeme ++ tail) (front ++ result) := by
  intro inside u woven
  obtain ⟨rfl, v, w, rfl, here, there⟩ := woven.cut braced
  obtain ⟨v', thinner, first⟩ := h here
  obtain ⟨w', thinner', last⟩ := rest there
  exact ⟨v' ++ w', thinner.append thinner', first.append last⟩

theorem shrinks_refl (lexeme : Text) : Shrinks lexeme lexeme := fun u h => ⟨u, .refl u, h⟩

theorem shrinks_nil (lexeme : Text) : Shrinks lexeme [] := fun u _ => ⟨[], List.nil_sublist u, .nil⟩

theorem shrinks_placeholder (lexeme : Text) (token : Token) (number : Nat) :
    Shrinks lexeme (Shelf.placeholder token number) :=
  fun u _ => ⟨[], List.nil_sublist u, .placeholder token number⟩

/-- What is kept aside leaves a placeholder, or nothing. -/
theorem shrinks_of_keep {lexeme text front : Text} {shelf later : Shelf}
    (kept : shelf.keep text = .ok (front, later)) : Shrinks lexeme front := by
  cases text with
  | nil =>
    cases kept
    exact shrinks_nil lexeme
  | cons c text =>
    obtain ⟨held, -, same⟩ := bind_eq_ok_iff.mp kept
    cases same
    exact shrinks_placeholder lexeme _ _

/-- No row of letters in the text spells the word. -/
def Unspoken (word text : Text) : Prop := ∃ u, Woven false u text ∧ ¬word.Sublist u

namespace Unspoken

variable {word s t : Text}

theorem ofText (h : ¬word.Sublist t) : Unspoken word t := ⟨t, .ofText t, h⟩

theorem thins (h : Unspoken word s) (thinner : Thins s t) : Unspoken word t := by
  obtain ⟨u, woven, lacks⟩ := h
  obtain ⟨v, fewer, woven⟩ := thinner woven
  exact ⟨v, woven, fun spelled => lacks (spelled.trans fewer)⟩

theorem shrinks (h : Unspoken word s) (smaller : Shrinks s t) : Unspoken word t := by
  obtain ⟨u, woven, lacks⟩ := h
  obtain ⟨v, fewer, woven⟩ := smaller woven
  exact ⟨v, woven, fun spelled => lacks (spelled.trans fewer)⟩

theorem lexeme {passed lexeme tail : Text} (braced : Braced lexeme)
    (h : Unspoken word (passed ++ lexeme ++ tail)) :
    Unspoken word lexeme := by
  obtain ⟨u, woven, lacks⟩ := h
  obtain ⟨inner, rfl⟩ := braced
  have shape : passed ++ '{' :: (inner ++ ['}']) ++ tail =
      passed ++ '{' :: (inner ++ '}' :: tail) := by simp
  rw [shape] at woven
  obtain ⟨v, w, rfl, -, back⟩ := woven.split outer_open
  obtain ⟨x, y, rfl, middle, -⟩ := back.split outer_close
  refine ⟨'{' :: (x ++ ['}']), .letter '{' (middle.append (.letter '}' .nil)), fun spelled => ?_⟩
  refine lacks (spelled.trans (List.IsInfix.sublist ⟨v, y, ?_⟩))
  simp

/-- A text does not start with a word that it does not speak. -/
theorem not_prefix (h : Unspoken word t) (free : NulFree word) : ¬word <+: t := by
  rintro ⟨rest, rfl⟩
  obtain ⟨u, woven, lacks⟩ := h
  obtain ⟨v, rfl, -⟩ := woven.letters free
  exact lacks (List.sublist_append_left word v)

end Unspoken

/-- A stage does the same to a text that does not speak the word, whether it may see what the word
names or not, if that is so of every match; and its result does not speak the word either. -/
theorem unspoken_rewrite {α : Type} {m : Type → Type} [Monad m] [LawfulMonad m] (L : Lockstep m)
    {rule : Rule α} {new other : Text → α → m Text} {Shape : α → Text → Prop}
    (reads : rule.Reads Shape) (braced : ∀ content lexeme, Shape content lexeme → Braced lexeme)
    {word text : Text} (h : Unspoken word text)
    (each : ∀ lexeme content, Unspoken word lexeme → Shape content lexeme →
      L.Related (new lexeme content) (other lexeme content) (Shrinks lexeme)) :
    L.Related (rewrite (atOpener rule) new text) (rewrite (atOpener rule) other text)
      (Unspoken word) := by
  refine L.imp (P := Thins text) ?_ fun _ thinner => h.thins thinner
  refine L.rewrite (reads.consumes braced).atOpener thins_nil (fun c _ _ rest => rest.cons c)
    fun passed lexeme content tail split found => ?_
  have shape := reads.atOpener.shape found
  have around := braced content lexeme shape
  exact L.imp (each lexeme content (.lexeme around (split ▸ h)) shape) fun _ smaller _ rest =>
    smaller.thins around rest

theorem Shrinks.trans {r s t : Text} (first : Shrinks r s) (last : Shrinks s t) : Shrinks r t := by
  intro u woven
  obtain ⟨v, fewer, woven⟩ := first woven
  obtain ⟨w, fewer', woven⟩ := last woven
  exact ⟨w, fewer'.trans fewer, woven⟩

theorem shrinks_part {s t : Text} (free : NulFree t) (inner : s <:+: t) : Shrinks t s := by
  intro u woven
  obtain rfl := woven.eq_of_nulFree free
  exact ⟨s, inner.sublist, .ofText s⟩

theorem shrinks_head {head : Text} (rest : Text) (free : NulFree head) :
    Shrinks (head ++ rest) head := by
  intro u woven
  obtain ⟨v, rfl, -⟩ := woven.letters free
  exact ⟨head, List.sublist_append_left head v, .ofText head⟩

theorem shrinks_tail {head : Text} (rest : Text) (free : NulFree head) :
    Shrinks (head ++ rest) rest := by
  intro u woven
  obtain ⟨v, rfl, there⟩ := woven.letters free
  exact ⟨v, List.sublist_append_right head v, there⟩

theorem shrinks_before {c : Char} (outer : Outer c) (front back : Text) :
    Shrinks (front ++ c :: back) front := by
  intro u woven
  obtain ⟨v, w, rfl, here, -⟩ := woven.split outer
  exact ⟨v, List.sublist_append_left v _, here⟩

theorem shrinks_after {c : Char} (outer : Outer c) (front back : Text) :
    Shrinks (front ++ c :: back) back := by
  intro u woven
  obtain ⟨v, w, rfl, -, there⟩ := woven.split outer
  exact ⟨w, (List.sublist_cons_self c w).trans (List.sublist_append_right v _), there⟩

theorem shrinks_before_braced {mark : Text} (braced : Braced mark) (front back : Text) :
    Shrinks (front ++ mark ++ back) front := by
  obtain ⟨inner, rfl⟩ := braced
  rw [List.append_assoc]
  exact shrinks_before outer_open front _

theorem shrinks_after_braced {mark : Text} (braced : Braced mark) (front back : Text) :
    Shrinks (front ++ mark ++ back) back := by
  obtain ⟨inner, rfl⟩ := braced
  have shape : front ++ '{' :: (inner ++ ['}']) ++ back =
      (front ++ '{' :: inner) ++ '}' :: back := by simp
  rw [shape]
  exact shrinks_after outer_close _ back

section Tags

variable {place : Place} {lexeme : Text}

theorem Markup.VariableShape.shrinks {v : Variable} (h : VariableShape place v lexeme) :
    Shrinks lexeme v.path := shrinks_part h.nulFree h.path_part

variable {opening closing : Text} {separator? : Option Text} {b : Block}

theorem Markup.BlockShape.shrinks_path (opens : NulFree opening)
    (h : BlockShape opening place closing separator? b lexeme) : Shrinks lexeme b.path := by
  obtain ⟨head, inside, rfl, named, -⟩ := h.parts
  have free : NulFree head := named.nulFree opens (by decide) (isPathChar_nul place)
  rw [List.append_assoc]
  exact (shrinks_head _ free).trans (shrinks_part free named.word_part)

/-- Both branches of a block are parts of it. -/
theorem Markup.BlockShape.shrinks_branches (opens : NulFree opening) (closes : Braced closing)
    (separates : ∀ separator ∈ separator?, Braced separator)
    (h : BlockShape opening place closing separator? b lexeme) :
    Shrinks lexeme b.body ∧ ∀ other ∈ b.otherwise?, Shrinks lexeme other := by
  obtain ⟨head, inside, rfl, named, held⟩ := h.parts
  have free : NulFree head := named.nulFree opens (by decide) (isPathChar_nul place)
  have inner : Shrinks (head ++ inside ++ closing) inside := by
    have before := shrinks_before_braced closes (head ++ inside) []
    rw [List.append_nil] at before
    exact before.trans (shrinks_tail inside free)
  rcases held with ⟨none, rfl⟩ | ⟨separator, other, same, some, rfl⟩
  · exact ⟨inner, by simp [none]⟩
  · have braced := separates separator same
    refine ⟨inner.trans (shrinks_before_braced braced b.body other), fun found is => ?_⟩
    obtain rfl : other = found := Option.some.inj (some.symm.trans is)
    exact inner.trans (shrinks_after_braced braced b.body other)

end Tags

theorem shrinks_trimStart (t : Text) : Shrinks t (trimStart t) := by
  obtain ⟨blanks, start, blank⟩ := exists_blanks t
  have skipped := shrinks_tail (trimStart t) (nulFree_of_all isBlank_nul blank)
  rwa [← start] at skipped

theorem shrinks_trimEnd (t : Text) : Shrinks t (trimEnd t) := by
  obtain ⟨blanks, start, blank⟩ := exists_blanks t.reverse
  have ending : t = trimEnd t ++ blanks.reverse := by
    have := congrArg List.reverse start
    simpa [Text.trimStart, Text.trimEnd] using this
  cases shape : blanks.reverse with
  | nil =>
    rw [shape, List.append_nil] at ending
    rw [← ending]
    exact shrinks_refl t
  | cons c rest =>
    have member : c ∈ blanks := by
      rw [← List.mem_reverse, shape]
      exact List.mem_cons_self
    have cut := shrinks_before (outer_of_isBlank (blank c member)) (trimEnd t) rest
    rwa [← shape, ← ending] at cut

theorem shrinks_trim (t : Text) : Shrinks t (trim t) :=
  (shrinks_trimStart t).trans (shrinks_trimEnd _)

theorem trim_of_arguments {inside a : Text} (found : arguments? inside = some a) :
    trim a = trim inside := by
  match inside with
  | [] => contradiction
  | [_] => contradiction
  | c :: d :: rest =>
    by_cases blank : isBlank c = true
    · obtain ⟨a', same, trimmed⟩ := trim_arguments d rest blank
      obtain rfl : a' = a := Option.some.inj (same.symm.trans found)
      exact trimmed
    · simp [arguments?, blank] at found

theorem Markup.CallShape.shrinks {c : Call} {lexeme : Text} (h : CallShape c lexeme) :
    Shrinks lexeme (trim c.arguments) := by
  obtain ⟨before, inside, rfl, blanks, -, given⟩ := h.parts
  have name : NulFree c.name := nulFree_of_all (by decide) h.named
  have lead : NulFree (opener ++ before ++ c.name) := by
    have opens : NulFree opener := by decide
    simp [opens, name, nulFree_of_all isBlank_nul blanks]
  have shape : opener ++ (before ++ (c.name ++ (inside ++ closer))) =
      (opener ++ before ++ c.name) ++ (inside ++ closer) := by simp
  rw [shape, trim_of_arguments given]
  exact ((shrinks_tail _ lead).trans (shrinks_before outer_close inside ['}'])).trans
    (shrinks_trim inside)

/-- Words are cut out at blanks, so none of them starts within a placeholder. -/
theorem shrinks_words {quoted escaped : Bool} {current rest word : Text}
    (member : word ∈ Helper.wordsFrom quoted escaped current rest) :
    Shrinks (current.reverse ++ rest) word := by
  induction rest generalizing quoted escaped current with
  | nil =>
    rw [List.append_nil]
    unfold Helper.wordsFrom at member
    split at member
    · contradiction
    · rw [List.mem_singleton] at member
      subst member
      exact shrinks_trimEnd _
  | cons c rest ih =>
    unfold Helper.wordsFrom at member
    split at member
    · simpa using ih member
    · split at member
      next blank =>
        have outer : Outer c := outer_of_isBlank blank.1
        have after := shrinks_after outer current.reverse rest
        split at member
        · exact after.trans (ih member)
        · rcases List.mem_cons.mp member with rfl | later
          · exact shrinks_before outer _ rest
          · exact after.trans (ih later)
      next => simpa using ih member

end Stencil
