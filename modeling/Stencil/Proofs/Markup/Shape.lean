import Stencil.Proofs.Script.Reading

/-! The texts that the rules read, part by part. A tag is its opening, a word between blanks
and its end; a block is its opening tag, what it holds and its closing; a call is a name,
then all up to the next closing brace. -/
namespace Stencil.Markup

open Text

variable {α β : Type} {text tail lexeme : Text} {opening close word : Text}
variable {allowed : Char → Bool}

/-- Whatever the rule reads at the start of a text is a lexeme of the given shape. -/
def Rule.Reads (rule : Rule α) (Shape : α → Text → Prop) : Prop :=
  ∀ ⦃text content tail⦄, rule text = some (content, tail) →
    ∃ lexeme, text = lexeme ++ tail ∧ Shape content lexeme

namespace Rule.Reads

variable {rule : Rule α} {Shape : α → Text → Prop}

theorem shape (h : rule.Reads Shape) {content : α}
    (found : rule (lexeme ++ tail) = some (content, tail)) : Shape content lexeme := by
  obtain ⟨read, split, shape⟩ := h found
  obtain rfl : lexeme = read := List.append_cancel_right split
  exact shape

theorem atOpener (h : rule.Reads Shape) : (atOpener rule).Reads Shape :=
  fun _ _ _ found => h (atOpener_eq_some found).2

end Rule.Reads

/-- A text that starts with an opening brace and ends with a closing one. -/
def Braced (lexeme : Text) : Prop := ∃ inner, lexeme = '{' :: (inner ++ ['}'])

theorem Rule.Reads.consumes {rule : Rule α} {Shape : α → Text → Prop} (h : rule.Reads Shape)
    (braced : ∀ content lexeme, Shape content lexeme → Braced lexeme) : rule.Consumes := by
  intro text content tail found
  obtain ⟨lexeme, split, shape⟩ := h found
  obtain ⟨inner, rfl⟩ := braced content lexeme shape
  exact ⟨_, List.cons_ne_nil _ _, split⟩

theorem Braced.append {first last : Text} (opens : Braced first) (middle : Text)
    (closes : Braced last) : Braced (first ++ middle ++ last) := by
  obtain ⟨a, rfl⟩ := opens
  obtain ⟨b, rfl⟩ := closes
  exact ⟨a ++ '}' :: (middle ++ '{' :: b), by simp⟩

/-- A tag that names a word. -/
structure Names (opening : Text) (allowed : Char → Bool) (close word lexeme : Text) : Prop where
  parts : ∃ before after, lexeme = opening ++ (before ++ (word ++ (after ++ close))) ∧
    (∀ c ∈ before, isBlank c = true) ∧ ∀ c ∈ after, isBlank c = true
  allows : ∀ c ∈ word, allowed c = true

/-- What is skipped before a trimmed text. -/
theorem exists_blanks (t : Text) :
    ∃ blanks, t = blanks ++ Text.trimStart t ∧ ∀ c ∈ blanks, isBlank c = true :=
  ⟨t.takeWhile isBlank, List.takeWhile_append_dropWhile.symm, fun _ => List.mem_takeWhile_imp⟩

theorem reads_word : (word? allowed close).Reads (Names [] allowed close) := by
  intro text word tail found
  obtain ⟨before, start, blanks⟩ := exists_blanks text
  simp only [word?] at found
  split at found
  next => contradiction
  next =>
    obtain ⟨rest, closed, same⟩ := Option.map_eq_some_iff.mp found
    cases same
    have named := (Text.trimStart text).takeWhile_append_dropWhile (p := allowed)
    generalize (Text.trimStart text).dropWhile allowed = more at closed named
    obtain ⟨after, ending, trail⟩ := exists_blanks more
    rw [Text.after?_eq_some_iff.mp closed] at ending
    refine ⟨_, ?_, ⟨before, after, rfl, blanks, trail⟩, fun _ => List.mem_takeWhile_imp⟩
    calc text = before ++ Text.trimStart text := start
      _ = before ++ ((Text.trimStart text).takeWhile allowed ++ more) := by rw [named]
      _ = _ := by rw [ending]; simp

theorem full_of_word? (read : word? allowed close text = some (word, tail)) : word ≠ [] := by
  unfold word? at read
  dsimp only at read
  split at read
  next => contradiction
  next named =>
    obtain ⟨_, -, same⟩ := Option.map_eq_some_iff.mp read
    cases same
    exact named

theorem word_of_tag (read : tag? opening allowed close text = some (word, tail)) : word ≠ [] := by
  obtain ⟨rest, -, read⟩ := Option.bind_eq_some_iff.mp read
  exact full_of_word? read

theorem Names.opened (h : Names [] allowed close word lexeme) :
    Names opening allowed close word (opening ++ lexeme) := by
  obtain ⟨⟨before, after, rfl, blanks⟩, allows⟩ := h
  exact ⟨⟨before, after, by simp, blanks⟩, allows⟩

theorem reads_tag : (tag? opening allowed close).Reads (Names opening allowed close) := by
  intro text word tail found
  obtain ⟨rest, opened, read⟩ := Option.bind_eq_some_iff.mp found
  obtain ⟨lexeme, rfl, shape⟩ := reads_word read
  exact ⟨opening ++ lexeme, by simp [Text.after?_eq_some_iff.mp opened], shape.opened⟩

theorem reads_spacedTag :
    (spacedTag? opening allowed close).Reads (Names opening allowed close) := by
  intro text word tail found
  unfold spacedTag? at found
  split at found
  next c rest opened =>
    split at found
    next blank =>
      obtain ⟨lexeme, rfl, ⟨before, after, rfl, blanks, trail⟩, allows⟩ := reads_word found
      refine ⟨opening ++ c :: (before ++ (word ++ (after ++ close))),
        by simp [Text.after?_eq_some_iff.mp opened],
        ⟨c :: before, after, by simp, ?_, trail⟩, allows⟩
      exact List.forall_mem_cons.mpr ⟨blank, blanks⟩
    next => contradiction
  next => contradiction

theorem Names.braced {o e : Text} (h : Names ('{' :: o) allowed (e ++ ['}']) word lexeme) :
    Braced lexeme := by
  obtain ⟨⟨before, after, rfl, -⟩, -⟩ := h
  exact ⟨o ++ (before ++ (word ++ (after ++ e))), by simp⟩

theorem nulFree_of_all {t : Text} (stops : allowed '\x00' = false)
    (all : ∀ c ∈ t, allowed c = true) : NulFree t := by
  intro member
  have := all _ member
  simp [stops] at this

theorem Names.nulFree (h : Names opening allowed close word lexeme) (opens : NulFree opening)
    (closes : NulFree close) (stops : allowed '\x00' = false) : NulFree lexeme := by
  obtain ⟨⟨before, after, rfl, blanks, trail⟩, allows⟩ := h
  simp [opens, closes, nulFree_of_all stops allows, nulFree_of_all isBlank_nul blanks,
    nulFree_of_all isBlank_nul trail]

theorem Names.word_part (h : Names opening allowed close word lexeme) : word <:+: lexeme := by
  obtain ⟨⟨before, after, rfl, -⟩, -⟩ := h
  exact ⟨opening ++ before, after ++ close, by simp⟩

/-- A variable tag between two or, if it is raw, three braces. -/
def VariableShape (place : Place) (v : Variable) (lexeme : Text) : Prop :=
  if v.raw then Names ('{' :: opener) (isPathChar place) ('}' :: closer) v.path lexeme
  else Names opener (isPathChar place) closer v.path lexeme

theorem reads_variable (place : Place) : (variableTag? place).Reads (VariableShape place) := by
  intro text v tail found
  rcases Option.or_eq_some_iff.mp found with raw | ⟨-, escaped⟩
  · obtain ⟨⟨path, rest⟩, read, same⟩ := Option.map_eq_some_iff.mp raw
    cases same
    exact reads_tag read
  · obtain ⟨⟨path, rest⟩, read, same⟩ := Option.map_eq_some_iff.mp escaped
    cases same
    exact reads_tag read

theorem VariableShape.nulFree {place : Place} {v : Variable} (h : VariableShape place v lexeme) :
    NulFree lexeme := by
  unfold VariableShape at h
  split at h
  · exact h.nulFree (by decide) (by decide) (isPathChar_nul place)
  · exact h.nulFree (by decide) (by decide) (isPathChar_nul place)

theorem VariableShape.path_part {place : Place} {v : Variable} (h : VariableShape place v lexeme) :
    v.path <:+: lexeme := by
  unfold VariableShape at h
  split at h
  · exact h.word_part
  · exact h.word_part

/-- What stands between the opening tag and the closing: the body, or the body, the separator and
what stands for it otherwise. -/
def Block.Holds (separator? : Option Text) (b : Block) (inside : Text) : Prop :=
  (b.otherwise? = none ∧ inside = b.body) ∨
    ∃ separator other, separator? = some separator ∧ b.otherwise? = some other ∧
      inside = b.body ++ separator ++ other

structure BlockShape (opening : Text) (place : Place) (closing : Text) (separator? : Option Text)
    (b : Block) (lexeme : Text) : Prop where
  parts : ∃ head inside, lexeme = head ++ inside ++ closing ∧
    Names opening (isPathChar place) closer b.path head ∧ b.Holds separator? inside

theorem holds_of_branches {separator? : Option Text} {b : Block} {inside : Text}
    (h : branches separator? inside = (b.body, b.otherwise?)) : b.Holds separator? inside := by
  unfold branches at h
  split at h
  next body other divided =>
    obtain ⟨rfl, given⟩ := Prod.mk.inj h
    obtain ⟨separator, same, cut⟩ := Option.bind_eq_some_iff.mp divided
    exact .inr ⟨separator, other, same, given.symm, Text.eq_of_cut? cut⟩
  next =>
    obtain ⟨whole, given⟩ := Prod.mk.inj h
    exact .inl ⟨given.symm, whole⟩

theorem reads_block {place : Place} {closing : Text} {separator? : Option Text} :
    (block? (spacedTag? opening (isPathChar place) closer) closing separator?).Reads
      (BlockShape opening place closing separator?) := by
  intro text b tail found
  obtain ⟨inside, opened, -, divided⟩ := block?_eq_some_iff.mp found
  obtain ⟨head, rfl, named⟩ := reads_spacedTag opened
  exact ⟨_, by simp, head, inside, rfl, named, holds_of_branches divided⟩

theorem reads_loop :
    loop?.Reads (BlockShape (opener ++ "#each".toList) .page eachCloser none) := reads_block

theorem reads_choice (place : Place) :
    (choice? place).Reads
      (BlockShape (opener ++ "#if".toList) place conditionCloser (some otherwise)) := reads_block

/-- What follows the name of a call is all up to the first closing brace. -/
structure CallShape (c : Call) (lexeme : Text) : Prop where
  parts : ∃ before inside, lexeme = opener ++ (before ++ (c.name ++ (inside ++ closer))) ∧
    (∀ c ∈ before, isBlank c = true) ∧ '}' ∉ inside ∧ arguments? inside = some c.arguments
  named : ∀ d ∈ c.name, isNameChar d = true

theorem reads_call : call?.Reads CallShape := by
  intro text c tail found
  obtain ⟨inner, opened, read⟩ := Option.bind_eq_some_iff.mp found
  obtain ⟨before, start, blanks⟩ := exists_blanks inner
  dsimp only at read
  split at read
  next => contradiction
  next =>
    obtain ⟨arguments, given, read⟩ := Option.bind_eq_some_iff.mp read
    obtain ⟨rest, closed, same⟩ := Option.bind_eq_some_iff.mp read
    cases same
    have named := (Text.trimStart inner).takeWhile_append_dropWhile (p := isNameChar)
    generalize (Text.trimStart inner).dropWhile isNameChar = more at given closed named
    have ending := more.takeWhile_append_dropWhile (p := (decide <| · ≠ '}'))
    rw [Text.after?_eq_some_iff.mp closed] at ending
    have braceless : '}' ∉ more.takeWhile (· ≠ '}') := fun member => by
      simpa using List.mem_takeWhile_imp member
    generalize more.takeWhile (· ≠ '}') = inside at given ending braceless
    refine ⟨_, ?_, ⟨before, inside, rfl, blanks, braceless, given⟩,
      fun _ => List.mem_takeWhile_imp⟩
    calc text = opener ++ (before ++ Text.trimStart inner) := by
          rw [← start]; exact Text.after?_eq_some_iff.mp opened
      _ = opener ++ (before ++ ((Text.trimStart inner).takeWhile isNameChar ++ more)) := by
          rw [named]
      _ = _ := by rw [← ending]; simp

theorem VariableShape.braced {place : Place} {v : Variable} (h : VariableShape place v lexeme) :
    Braced lexeme := by
  unfold VariableShape at h
  split at h
  · exact h.braced (e := closer)
  · exact h.braced (e := ['}'])

theorem braced_inclusion {name : Text}
    (h : Names (opener ++ ['>']) isFileChar closer name lexeme) : Braced lexeme :=
  h.braced (e := ['}'])

theorem BlockShape.braced {o closing : Text} {place : Place} {separator? : Option Text} {b : Block}
    (h : BlockShape ('{' :: o) place closing separator? b lexeme) (closes : Braced closing) :
    Braced lexeme := by
  obtain ⟨head, inside, rfl, named, -⟩ := h.parts
  exact Braced.append (named.braced (e := ['}'])) inside closes

theorem braced_eachCloser : Braced eachCloser := ⟨"{/each}".toList, rfl⟩
theorem braced_conditionCloser : Braced conditionCloser := ⟨"{/if}".toList, rfl⟩
theorem braced_otherwise : Braced otherwise := ⟨"{else}".toList, rfl⟩

theorem CallShape.braced {c : Call} (h : CallShape c lexeme) : Braced lexeme := by
  obtain ⟨before, inside, rfl, -⟩ := h.parts
  exact ⟨'{' :: (before ++ (c.name ++ (inside ++ ['}']))), by simp [opener, closer]⟩

end Stencil.Markup
