import Mathlib.Data.List.Basic
import Stencil.Markup.Tag

/-! How a rewrite goes through a text, one equation for each step: a character that no match
starts at is copied, a match is replaced as a whole, and the rest is rewritten after it.
Every form of tag and of block takes a part of the text, its opening at least, and hands
back what follows. -/
namespace Stencil

namespace Markup

variable {α β : Type} {rule : Rule α}

/-- A rule that hands back the end of its text and takes one character at least. -/
def Rule.Consumes (rule : Rule α) : Prop :=
  ∀ ⦃text content tail⦄, rule text = some (content, tail) →
    ∃ lexeme, lexeme ≠ [] ∧ text = lexeme ++ tail

theorem piecesFrom_skip (rule : Rule α) (skip : Nat) (text : Text) :
    piecesFrom rule skip text = pieces rule (text.drop skip) := by
  induction text generalizing skip with
  | nil => cases skip <;> rfl
  | cons c rest ih =>
    cases skip with
    | zero => rfl
    | succ skip => exact ih skip

@[simp] theorem pieces_nil (rule : Rule α) : pieces rule [] = [] := rfl

theorem pieces_copied {c : Char} {rest : Text} (h : rule (c :: rest) = none) :
    pieces rule (c :: rest) = .copied c :: pieces rule rest := by
  simp [pieces, piecesFrom, h]

theorem pieces_found {lexeme tail : Text} {content : α} (nonempty : lexeme ≠ [])
    (h : rule (lexeme ++ tail) = some (content, tail)) :
    pieces rule (lexeme ++ tail) = .found lexeme content :: pieces rule tail := by
  obtain ⟨c, rest, rfl⟩ := List.exists_cons_of_ne_nil nonempty
  have width : (c :: rest ++ tail).length - tail.length = rest.length + 1 := by
    simp only [List.length_append, List.length_cons]
    omega
  simp only [List.cons_append] at h width
  simp only [pieces, List.cons_append, piecesFrom, h, width]
  rw [piecesFrom_skip]
  simp [pieces]

/-- A match among the pieces was read somewhere in the text. -/
theorem exists_of_mem_piecesFrom {lexeme text : Text} {content : α} {skip : Nat}
    (member : .found lexeme content ∈ piecesFrom rule skip text) :
    ∃ rest tail, rule rest = some (content, tail) := by
  induction text generalizing skip with
  | nil => cases skip <;> contradiction
  | cons c text ih =>
    cases skip with
    | succ skip => exact ih member
    | zero =>
      unfold piecesFrom at member
      split at member
      next found tail read =>
        rcases List.mem_cons.mp member with same | later
        · cases same
          exact ⟨c :: text, tail, read⟩
        · exact ih later
      next =>
        rcases List.mem_cons.mp member with same | later
        · contradiction
        · exact ih later

/-- The spans hold what the pieces that are found hold. -/
theorem mem_spansFrom {start : Nat} {pieces : List (Piece α)} {content : α} :
    content ∈ (spansFrom start pieces).map (·.content) ↔
      ∃ lexeme, .found lexeme content ∈ pieces := by
  induction pieces generalizing start with
  | nil => simp [spansFrom]
  | cons piece rest ih =>
    cases piece with
    | copied c => simpa [spansFrom] using ih
    | found text name =>
      rw [spansFrom, List.map_cons, List.mem_cons, ih]
      simp [exists_or, eq_comm]

section Rewrite

variable {m : Type → Type} [Monad m] [LawfulMonad m] {new : Text → α → m Text}

@[simp] theorem rewrite_nil : rewrite rule new [] = pure [] := by
  simp [rewrite]

theorem rewrite_copied {c : Char} {rest : Text} (h : rule (c :: rest) = none) :
    rewrite rule new (c :: rest) = (c :: ·) <$> rewrite rule new rest := by
  simp [rewrite, pieces_copied h, Piece.replace]

theorem rewrite_found {lexeme tail : Text} {content : α} (nonempty : lexeme ≠ [])
    (h : rule (lexeme ++ tail) = some (content, tail)) :
    rewrite rule new (lexeme ++ tail) =
      new lexeme content >>= fun front => (front ++ ·) <$> rewrite rule new tail := by
  simp [rewrite, pieces_found nonempty h, Piece.replace]

/-- A stretch in which no match starts is copied. -/
theorem rewrite_passed {lead rest : Text}
    (none_starts : ∀ a c b, lead = a ++ c :: b → rule (c :: b ++ rest) = none) :
    rewrite rule new (lead ++ rest) = (lead ++ ·) <$> rewrite rule new rest := by
  induction lead with
  | nil => simp
  | cons c lead ih =>
    have here := none_starts [] c lead rfl
    have later := ih fun a d b h => none_starts (c :: a) d b (by simp [h])
    rw [List.cons_append, rewrite_copied (by simpa using here), later]
    simp

/-- Where every match is put back as it is, so is the text. -/
theorem rewrite_idle (consumes : rule.Consumes) {text : Text}
    (idle : ∀ lexeme content tail, lexeme ++ tail <:+ text →
      rule (lexeme ++ tail) = some (content, tail) → new lexeme content = pure lexeme) :
    rewrite rule new text = pure text := by
  -- By the length of the text: after a match the rest is not the next tail but a later one.
  induction size : text.length using Nat.strongRecOn generalizing text with
  | ind size ih =>
  subst size
  cases text with
  | nil => exact rewrite_nil
  | cons c rest =>
    cases read : rule (c :: rest) with
    | none =>
      have later : rewrite rule new rest = pure rest :=
        ih rest.length (Nat.lt_succ_self _) (fun lexeme content tail part =>
          idle lexeme content tail (part.trans (List.suffix_cons c rest))) rfl
      rw [rewrite_copied read, later, map_pure]
    | some match_ =>
      obtain ⟨content, tail⟩ := match_
      obtain ⟨lexeme, nonempty, split⟩ := consumes read
      rw [split] at read idle ⊢
      have shorter : tail.length < (c :: rest).length := by
        have := List.length_pos_iff.mpr nonempty
        rw [split, List.length_append]
        omega
      have later : rewrite rule new tail = pure tail :=
        ih tail.length shorter (fun inner content' tail' part =>
          idle inner content' tail' (part.trans (List.suffix_append lexeme tail))) rfl
      have here := idle lexeme content tail List.suffix_rfl read
      rw [rewrite_found nonempty read, here, pure_bind, later, map_pure]

end Rewrite

theorem atOpener_of_opens {text : Text} (opens : opener <+: text) :
    atOpener rule text = rule text :=
  if_pos (List.isPrefixOf_iff_prefix.mpr opens)

theorem atOpener_eq_none {text : Text} (h : ¬ opener <+: text) : atOpener rule text = none := by
  simp [atOpener, h]

theorem atOpener_cons {c : Char} {rest : Text} (h : c ≠ '{') :
    atOpener rule (c :: rest) = none := by
  apply atOpener_eq_none
  simp only [opener, List.cons_prefix_cons, not_and]
  exact fun same => absurd same.symm h

theorem atOpener_eq_some {text : Text} {result : α × Text} (h : atOpener rule text = some result) :
    opener <+: text ∧ rule text = some result := by
  unfold atOpener at h
  split at h
  next found => exact ⟨List.isPrefixOf_iff_prefix.mp found, h⟩
  next => contradiction

theorem Rule.Consumes.atOpener (h : rule.Consumes) : (atOpener rule).Consumes :=
  fun _ _ _ found => h (atOpener_eq_some found).2

/-- Text without an opening brace holds no tag. -/
theorem rewrite_braceless {m : Type → Type} [Monad m] [LawfulMonad m] {new : Text → α → m Text}
    {lead : Text} (rest : Text) (braceless : '{' ∉ lead) :
    rewrite (atOpener rule) new (lead ++ rest) =
      (lead ++ ·) <$> rewrite (atOpener rule) new rest := by
  apply rewrite_passed
  intro a c b split
  have member : c ∈ lead := by simp [split]
  exact atOpener_cons fun same => braceless (same ▸ member)

theorem rewrite_literal {m : Type → Type} [Monad m] [LawfulMonad m] {new : Text → α → m Text}
    {text : Text} (braceless : '{' ∉ text) : rewrite (atOpener rule) new text = pure text := by
  have whole : rewrite (atOpener rule) new (text ++ []) =
      (text ++ ·) <$> rewrite (atOpener rule) new [] := rewrite_braceless [] braceless
  rwa [List.append_nil, rewrite_nil, map_pure, List.append_nil] at whole

variable {α : Type} {text tail opening close : Text} {allowed : Char → Bool}

/-- What is left after an opening is shorter than the text. -/
theorem consumes_of_suffix (opening : Text) {rule : Rule α} (nonempty : opening ≠ [])
    (opens : ∀ ⦃text content tail⦄, rule text = some (content, tail) →
      ∃ rest, text = opening ++ rest ∧ tail <:+ rest) : rule.Consumes := by
  intro text content tail found
  obtain ⟨rest, rfl, passed, rfl⟩ := opens found
  exact ⟨opening ++ passed, by simp [nonempty], by simp⟩

theorem suffix_of_word? {word : Text} (found : word? allowed close text = some (word, tail)) :
    tail <:+ text := by
  simp only [word?] at found
  split at found
  next => contradiction
  next =>
    obtain ⟨rest, closed, same⟩ := Option.map_eq_some_iff.mp found
    cases same
    have ending : tail <:+ Text.trimStart ((Text.trimStart text).dropWhile allowed) :=
      ⟨close, (Text.after?_eq_some_iff.mp closed).symm⟩
    have blanks := List.dropWhile_suffix Text.isBlank (l := text)
    have word := List.dropWhile_suffix allowed (l := Text.trimStart text)
    exact ((ending.trans (List.dropWhile_suffix _)).trans word).trans blanks

theorem consumes_tag (nonempty : opening ≠ []) : (tag? opening allowed close).Consumes := by
  refine consumes_of_suffix opening nonempty fun text word tail found => ?_
  obtain ⟨rest, opened, read⟩ := Option.bind_eq_some_iff.mp found
  exact ⟨rest, Text.after?_eq_some_iff.mp opened, suffix_of_word? read⟩

theorem consumes_spacedTag (nonempty : opening ≠ []) :
    (spacedTag? opening allowed close).Consumes := by
  refine consumes_of_suffix opening nonempty fun text word tail found => ?_
  unfold spacedTag? at found
  split at found
  next c rest opened =>
    split at found
    · exact ⟨c :: rest, Text.after?_eq_some_iff.mp opened,
        (suffix_of_word? found).trans (List.suffix_cons c rest)⟩
    · contradiction
  next => contradiction

theorem consumes_inclusion : inclusion?.Consumes := consumes_tag (by decide)
theorem consumes_each : each?.Consumes := consumes_spacedTag (by decide)
theorem consumes_condition (place : Place) : (condition? place).Consumes :=
  consumes_spacedTag (by decide)

theorem consumes_variable (place : Place) : (variableTag? place).Consumes := by
  intro text v tail found
  rcases Option.or_eq_some_iff.mp found with raw | ⟨-, escaped⟩
  · obtain ⟨⟨path, rest⟩, read, same⟩ := Option.map_eq_some_iff.mp raw
    cases same
    exact consumes_tag (by decide) read
  · obtain ⟨⟨path, rest⟩, read, same⟩ := Option.map_eq_some_iff.mp escaped
    cases same
    exact consumes_tag (by decide) read

theorem consumes_call : call?.Consumes := by
  refine consumes_of_suffix opener (by decide) fun text c tail found => ?_
  obtain ⟨inner, opened, read⟩ := Option.bind_eq_some_iff.mp found
  refine ⟨inner, Text.after?_eq_some_iff.mp opened, ?_⟩
  dsimp only at read
  split at read
  next => contradiction
  next =>
    obtain ⟨arguments, -, read⟩ := Option.bind_eq_some_iff.mp read
    obtain ⟨rest, closed, same⟩ := Option.bind_eq_some_iff.mp read
    cases same
    have ending : tail <:+ ((Text.trimStart inner).dropWhile isNameChar).dropWhile (· ≠ '}') :=
      ⟨closer, (Text.after?_eq_some_iff.mp closed).symm⟩
    have named := (ending.trans (List.dropWhile_suffix _)).trans (List.dropWhile_suffix isNameChar)
    exact named.trans (List.dropWhile_suffix Text.isBlank)

/-- The branches of a block that holds `inside`. -/
def branches (separator? : Option Text) (inside : Text) : Text × Option Text :=
  match separator?.bind (Text.cut? · inside) with
  | some (body, other) => (body, some other)
  | none => (inside, none)

/-- All that a block tells of the text it is read from. -/
theorem block?_eq_some_iff {opens : Rule Text} {separator? : Option Text} {b : Block} :
    block? opens close separator? text = some (b, tail) ↔
      ∃ inside, opens text = some (b.path, inside ++ close ++ tail) ∧
        Text.cut? close (inside ++ close ++ tail) = some (inside, tail) ∧
        branches separator? inside = (b.body, b.otherwise?) := by
  constructor
  · intro read
    obtain ⟨⟨path, rest⟩, opened, read⟩ := Option.bind_eq_some_iff.mp read
    obtain ⟨⟨inside, after⟩, parted, chosen⟩ := Option.bind_eq_some_iff.mp read
    obtain rfl := Text.eq_of_cut? parted
    dsimp only at parted chosen
    have told : b.path = path ∧ after = tail ∧
        branches separator? inside = (b.body, b.otherwise?) := by
      unfold branches
      generalize separator?.bind (Text.cut? · inside) = divided at chosen ⊢
      cases divided <;> cases chosen <;> exact ⟨rfl, rfl, rfl⟩
    obtain ⟨rfl, rfl, divided⟩ := told
    exact ⟨inside, opened, parted, divided⟩
  · rintro ⟨inside, opened, parted, divided⟩
    obtain ⟨path, body, otherwise?⟩ := b
    unfold branches at divided
    rw [block?, opened]
    dsimp only [Option.bind_eq_bind, Option.bind_some]
    rw [parted]
    dsimp only [Option.bind_some]
    generalize separator?.bind (Text.cut? · inside) = parts at divided ⊢
    cases parts <;> cases divided <;> rfl

theorem consumes_block {opens : Rule Text} {separator? : Option Text} (h : opens.Consumes) :
    (block? opens close separator?).Consumes := by
  intro text block tail found
  obtain ⟨inside, opened, -⟩ := block?_eq_some_iff.mp found
  obtain ⟨lexeme, nonempty, rfl⟩ := h opened
  exact ⟨lexeme ++ (inside ++ close), by simp [nonempty], by simp⟩

theorem consumes_loop : loop?.Consumes := consumes_block consumes_each
theorem consumes_choice (place : Place) : (choice? place).Consumes :=
  consumes_block (consumes_condition place)

end Markup

open Markup Text

theorem isBlank_of_isAlphanum {c : Char} (h : c.isAlphanum = true) : isBlank c = false := by
  delta Char.isAlphanum Char.isAlpha Char.isUpper Char.isLower Char.isDigit at h
  simp only [Bool.or_eq_true, Bool.and_eq_true, decide_eq_true_eq, ge_iff_le,
    UInt32.le_iff_toNat_le] at h
  change ((65 ≤ c.toNat ∧ c.toNat ≤ 90) ∨ (97 ≤ c.toNat ∧ c.toNat ≤ 122)) ∨
    (48 ≤ c.toNat ∧ c.toNat ≤ 57) at h
  have low : ¬c.toNat < 0x09 ∧ ¬c.toNat ≤ 0x0d ∧ ¬c.toNat < 0x1c ∧ ¬c.toNat ≤ 0x20 := by omega
  have high : c.toNat < 0x85 := by omega
  simp [isBlank, blanks, within, low, high]

theorem isBlank_of_isDigit {c : Char} (h : c.isDigit = true) : isBlank c = false :=
  isBlank_of_isAlphanum (by simp [Char.isAlphanum, h])

theorem isBlank_of_isNameChar {c : Char} (h : isNameChar c = true) : isBlank c = false := by
  simp only [isNameChar, Bool.or_eq_true, decide_eq_true_eq] at h
  rcases h with letter | rfl
  · exact isBlank_of_isAlphanum letter
  · decide

theorem isBlank_of_isPathChar {place : Place} {c : Char} (h : isPathChar place c = true) :
    isBlank c = false := by
  simp only [isPathChar, Bool.or_eq_true, Bool.and_eq_true, decide_eq_true_eq] at h
  rcases h with (letter | rfl) | ⟨-, rfl⟩
  · exact isBlank_of_isNameChar letter
  · decide
  · decide

theorem isBlank_of_isFileChar {c : Char} (h : isFileChar c = true) : isBlank c = false := by
  simp only [isFileChar, Bool.or_eq_true, decide_eq_true_eq] at h
  rcases h with ((letter | rfl) | rfl) | rfl
  · exact isBlank_of_isAlphanum letter
  all_goals decide

theorem isPathChar_brace (place : Place) : isPathChar place '{' = false := by
  cases place <;> decide

theorem isPathChar_closing (place : Place) : isPathChar place '}' = false := by
  cases place <;> decide

end Stencil
