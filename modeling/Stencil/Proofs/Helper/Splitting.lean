import Mathlib.Data.List.Induction
import Stencil.Proofs.Helper.Literals

/-! Where an argument text comes apart: at the blanks outside quotations, and only there. A
place in the text is in a quotation if an odd number of quotes before it open or close one. -/
namespace Stencil.Helper

open Text

/-- A quote opens or closes a quotation unless it comes right after a backslash. -/
def turns (raw : Text) (i : Nat) : Bool :=
  raw[i]? = some '"' && (i = 0 || raw[i - 1]? ≠ some '\\')

/-- The place comes after an opening quote that is not closed before it. -/
def quotedAt (raw : Text) : Nat → Bool
  | 0 => false
  | i + 1 => quotedAt raw i ^^ turns raw i

/-- A blank outside quotations. -/
def separates (raw : Text) (i : Nat) : Bool := raw[i]?.any isBlank && !quotedAt raw i

/-- A place that is part of a word. The blanks at the end of a quotation that is never closed are
not. -/
def keeps (raw : Text) (i : Nat) : Bool :=
  !separates raw i && !(quotedAt raw raw.length && (raw.drop i).all isBlank)

def kept (raw : Text) : List Nat := (List.range raw.length).filter (keeps raw)

def lettersAt (raw : Text) (places : List Nat) : Text := places.filterMap (raw[·]?)

variable {raw front rest : Text} {c : Char} {i : Nat}

/-- A place is in the same state whatever comes after it. -/
theorem turns_append (front rest : Text) (inside : i < front.length) :
    turns (front ++ rest) i = turns front i := by
  have before : i - 1 < front.length := by omega
  rw [turns, turns, List.getElem?_append_left inside, List.getElem?_append_left before]

theorem quotedAt_append (front rest : Text) (inside : i ≤ front.length) :
    quotedAt (front ++ rest) i = quotedAt front i := by
  induction i with
  | zero => rfl
  | succ i ih => rw [quotedAt, quotedAt, ih (by omega), turns_append front rest (by omega)]

theorem separates_append (front rest : Text) (inside : i < front.length) :
    separates (front ++ rest) i = separates front i := by
  rw [separates, separates, quotedAt_append front rest (Nat.le_of_lt inside),
    List.getElem?_append_left inside]

theorem turns_end : turns (front ++ c :: rest) front.length =
    (c = '"' && front.getLast? ≠ some '\\') := by
  cases front using List.reverseRecOn with
  | nil => simp [turns]
  | append_singleton front d => simp [turns]

theorem separates_end :
    separates (front ++ c :: rest) front.length = (isBlank c && !quotedAt front front.length) := by
  rw [separates, quotedAt_append front _ (Nat.le_refl _)]
  simp

theorem quotedAt_concat :
    quotedAt (front ++ [c]) (front ++ [c]).length =
      (quotedAt front front.length ^^ (c = '"' && front.getLast? ≠ some '\\')) := by
  rw [List.length_append, List.length_singleton, quotedAt,
    quotedAt_append front _ (Nat.le_refl _), turns_end]

/-- Text after which no quotation is open and a quote counts. -/
structure Level (front : Text) : Prop where
  closed : quotedAt front front.length = false
  counts : front.getLast? ≠ some '\\'

section Level

variable (level : Level front)
include level

theorem Level.turns (i : Nat) : turns (front ++ rest) (front.length + i) = turns rest i := by
  cases i with
  | succ i =>
    have here : front.length + (i + 1) - 1 = front.length + i := by omega
    simp only [Helper.turns, here, List.getElem?_append_right (Nat.le_add_right _ _),
      Nat.add_sub_cancel_left]
    simp
  | zero =>
    cases rest with
    | nil => simp [Helper.turns]
    | cons c rest =>
      rw [Nat.add_zero, turns_end]
      simp [Helper.turns, level.counts]

theorem Level.quotedAt (i : Nat) :
    quotedAt (front ++ rest) (front.length + i) = quotedAt rest i := by
  induction i with
  | zero => rw [Nat.add_zero, quotedAt_append front rest (Nat.le_refl _), level.closed]; rfl
  | succ i ih => rw [← Nat.add_assoc, Helper.quotedAt, Helper.quotedAt, ih, level.turns]

theorem Level.separates (i : Nat) :
    separates (front ++ rest) (front.length + i) = separates rest i := by
  rw [Helper.separates, Helper.separates, level.quotedAt,
    List.getElem?_append_right (Nat.le_add_right _ _), Nat.add_sub_cancel_left]

/-- Between two places of the rest, the same places separate. -/
theorem Level.apart_iff {i j : Nat} :
    (∀ k, front.length + i < k → k < front.length + j → Helper.separates (front ++ rest) k = false) ↔
      ∀ k, i < k → k < j → Helper.separates rest k = false := by
  constructor
  · intro apart k after before
    rw [← level.separates]
    exact apart _ (Nat.add_lt_add_left after _) (Nat.add_lt_add_left before _)
  · intro apart k after before
    obtain ⟨k, rfl⟩ := Nat.exists_eq_add_of_le (Nat.le_trans (Nat.le_add_right _ i)
      (Nat.le_of_lt after))
    rw [level.separates]
    exact apart k (Nat.lt_of_add_lt_add_left after) (Nat.lt_of_add_lt_add_left before)

theorem Level.keeps (i : Nat) : keeps (front ++ rest) (front.length + i) = keeps rest i := by
  rw [Helper.keeps, Helper.keeps, level.separates, List.length_append, level.quotedAt,
    List.drop_length_add_append]

end Level

theorem level_concat (closed : quotedAt front front.length = false) (blank : isBlank c = true) :
    Level (front ++ [c]) where
  closed := by
    have other : c ≠ '"' := fun same => absurd (same ▸ blank) (by decide)
    rw [quotedAt_concat, closed]
    simp [other]
  counts := by
    have other : c ≠ '\\' := fun same => absurd (same ▸ blank) (by decide)
    simp [other]

/-- Text in which nothing separates. -/
def Unbroken (t : Text) : Prop := ∀ i, separates t i = false

theorem separates_lt (here : separates raw i = true) : i < raw.length := by
  by_contra outside
  simp [separates, List.getElem?_eq_none (Nat.le_of_not_lt outside)] at here

theorem unbroken_append_iff : Unbroken (front ++ rest) ↔
    Unbroken front ∧ ∀ i, front.length ≤ i → separates (front ++ rest) i = false := by
  constructor
  · refine fun unbroken => ⟨fun i => ?_, fun i _ => unbroken i⟩
    by_contra here
    have inside := separates_lt (Bool.not_eq_false _ ▸ here)
    exact here (separates_append front rest inside ▸ unbroken i)
  · rintro ⟨unbroken, later⟩ i
    rcases Nat.lt_or_ge i front.length with inside | outside
    · rw [separates_append front rest inside]
      exact unbroken i
    · exact later i outside

theorem unbroken_concat_iff : Unbroken (front ++ [c]) ↔
    Unbroken front ∧ ¬(isBlank c ∧ ¬quotedAt front front.length) := by
  rw [unbroken_append_iff]
  refine and_congr_right fun _ => ?_
  constructor
  · intro later outside
    have here := later front.length (Nat.le_refl _)
    rw [separates_end] at here
    simp [outside] at here
  · intro held i outside
    by_contra here
    have inside := separates_lt (Bool.not_eq_false _ ▸ here)
    obtain rfl : i = front.length := by
      rw [List.length_append, List.length_singleton] at inside
      omega
    rw [separates_end] at here
    simp at here held
    exact absurd (held here.1) (by simp [here.2])

/-- Outside a quotation, what nothing separates does not end with a blank. -/
theorem Unbroken.trimEnd (unbroken : Unbroken front)
    (closed : quotedAt front front.length = false) : trimEnd front = front := by
  cases front using List.reverseRecOn with
  | nil => rfl
  | append_singleton front c =>
    obtain ⟨-, held⟩ := unbroken_concat_iff.mp unbroken
    have solid : isBlank c = false := by
      by_contra blank
      have other : c ≠ '"' := fun same => absurd (same ▸ Bool.not_eq_false _ ▸ blank) (by decide)
      rw [quotedAt_concat] at closed
      simp [other] at closed
      exact held ⟨by simpa using blank, by simp [closed]⟩
    simp [Text.trimEnd, solid]

theorem unbroken_nil : Unbroken [] := fun i => by simp [separates]

/-- An argument text is cut at its first separating blank, then at the next one after it, and so
on. -/
theorem cut_induction {P : Text → Prop} (last : ∀ front, Unbroken front → P front)
    (cut : ∀ front c rest, Unbroken front → quotedAt front front.length = false →
      isBlank c = true → P rest → P (front ++ c :: rest)) (raw : Text) : P raw := by
  have from_front : ∀ rest front, Unbroken front → P (front ++ rest) := by
    intro rest
    induction rest with
    | nil => exact fun front unbroken => (List.append_nil front).symm ▸ last front unbroken
    | cons c rest ih =>
      intro front unbroken
      by_cases ends : isBlank c ∧ ¬quotedAt front front.length
      · have closed : quotedAt front front.length = false := by simpa using ends.2
        exact cut front c rest unbroken closed ends.1 (ih [] unbroken_nil)
      · have later := ih (front ++ [c]) (unbroken_concat_iff.mpr ⟨unbroken, ends⟩)
        rwa [List.append_assoc] at later
  exact from_front raw [] unbroken_nil

/-- A list as the only one, if there is anything in it. -/
def unlessEmpty {α : Type} (l : List α) : List (List α) := if l = [] then [] else [l]

theorem words_append (unbroken : Unbroken front) (rest : Text) :
    words (front ++ rest) =
      wordsFrom (quotedAt front front.length) (front.getLast? = some '\\') front.reverse rest := by
  induction front using List.reverseRecOn generalizing rest with
  | nil => rfl
  | append_singleton front c ih =>
    obtain ⟨unbroken, held⟩ := unbroken_concat_iff.mp unbroken
    rw [List.append_assoc, ih unbroken, quotedAt_concat, List.reverse_append]
    by_cases quote : c = '"' ∧ ¬front.getLast? = some '\\'
    · obtain ⟨rfl, counts⟩ := quote
      simp [counts, wordsFrom_quote]
    · rw [List.singleton_append, wordsFrom_letter (by simpa using quote) held]
      have same : (decide (c = '"') && decide (front.getLast? ≠ some '\\')) = false := by
        simpa using quote
      rw [same, Bool.xor_false]
      simp

theorem words_unbroken (unbroken : Unbroken front) :
    words front = unlessEmpty (trimEnd front) := by
  have whole := words_append unbroken []
  rw [List.append_nil, wordsFrom.eq_def] at whole
  rw [whole, unlessEmpty]
  dsimp only
  rw [List.reverse_reverse]
  cases trimEnd front <;> rfl

theorem words_cut (unbroken : Unbroken front) (closed : quotedAt front front.length = false)
    (blank : isBlank c = true) (rest : Text) :
    words (front ++ c :: rest) = unlessEmpty front ++ words rest := by
  rw [words_append unbroken, closed, wordsFrom_blank blank, unlessEmpty]
  by_cases empty : front = [] <;> simp [empty]

theorem mem_unlessEmpty {α : Type} {l m : List α} : m ∈ unlessEmpty l ↔ m = l ∧ l ≠ [] := by
  unfold unlessEmpty
  split <;> simp [*]

theorem flatten_unlessEmpty {α : Type} (l : List α) : (unlessEmpty l).flatten = l := by
  unfold unlessEmpty
  split <;> simp [*]

/-- A word that has no blank at its ends, and none outside its own quotations. -/
structure Word (word : Text) : Prop where
  nonempty : word ≠ []
  starts : ∀ c ∈ word.head?, isBlank c = false
  ends : ∀ c ∈ word.getLast?, isBlank c = false
  unbroken : Unbroken word

theorem Unbroken.starts (unbroken : Unbroken front) : ∀ c ∈ front.head?, isBlank c = false := by
  intro c first
  cases front with
  | nil => contradiction
  | cons d rest =>
    obtain rfl := Option.some.inj first
    simpa [separates, quotedAt] using unbroken 0

/-- The text is what is left of it and blanks. -/
theorem exists_blanks_after (t : Text) :
    ∃ blanks, t = trimEnd t ++ blanks ∧ blanks.all isBlank = true := by
  refine ⟨(t.reverse.takeWhile isBlank).reverse, ?_, by simp [List.all_takeWhile]⟩
  rw [trimEnd, ← List.reverse_append, List.takeWhile_append_dropWhile, List.reverse_reverse]

theorem isBlank_of_getLast?_trimEnd {t : Text} : ∀ c ∈ (trimEnd t).getLast?, isBlank c = false := by
  intro c last
  rw [trimEnd, List.getLast?_reverse] at last
  have stop := List.head?_dropWhile_not isBlank t.reverse
  rw [last] at stop
  simpa using stop

theorem word_trimEnd (unbroken : Unbroken front) (full : trimEnd front ≠ []) :
    Word (trimEnd front) := by
  obtain ⟨blanks, split, -⟩ := exists_blanks_after front
  have within : Unbroken (trimEnd front) := (unbroken_append_iff.mp (split ▸ unbroken)).1
  exact ⟨full, within.starts, isBlank_of_getLast?_trimEnd, within⟩

theorem word_of_mem_words : ∀ word ∈ words raw, Word word := by
  induction raw using cut_induction with
  | last front unbroken =>
    intro word member
    obtain ⟨rfl, full⟩ := mem_unlessEmpty.mp (words_unbroken unbroken ▸ member)
    exact word_trimEnd unbroken full
  | cut front c rest unbroken closed blank ih =>
    intro word member
    rw [words_cut unbroken closed blank] at member
    rcases List.mem_append.mp member with here | later
    · obtain ⟨rfl, full⟩ := mem_unlessEmpty.mp here
      rw [← unbroken.trimEnd closed] at full ⊢
      exact word_trimEnd unbroken full
    · exact ih word later

theorem words_intercalate : words (List.intercalate [' '] (words raw)) = words raw := by
  induction raw using cut_induction with
  | last front unbroken =>
    have single : List.intercalate [' '] (unlessEmpty (trimEnd front)) = trimEnd front := by
      unfold unlessEmpty
      split <;> simp [*]
    rw [words_unbroken unbroken, single, words_trimEnd, words_unbroken unbroken]
  | cut front c rest unbroken closed blank ih =>
    rw [words_cut unbroken closed blank]
    by_cases empty : front = []
    · rw [empty]
      exact ih
    have alone : unlessEmpty front = [front] := if_neg empty
    cases more : words rest with
    | nil =>
      rw [alone, List.append_nil, List.intercalate_singleton, words_unbroken unbroken,
        unbroken.trimEnd closed, alone]
    | cons word others =>
      rw [alone, List.singleton_append, List.intercalate_cons_cons, List.append_assoc, ← more]
      have joined := words_cut unbroken closed (c := ' ') rfl (List.intercalate [' '] (words rest))
      rw [ih, alone] at joined
      exact joined

theorem lettersAt_shifted (places : List Nat) :
    lettersAt (front ++ rest) (places.map (front.length + ·)) = lettersAt rest places := by
  rw [lettersAt, lettersAt, List.filterMap_map]
  refine congrArg (List.filterMap · places) (funext fun i => ?_)
  simp [List.getElem?_append_right]

theorem lettersAt_range (raw : Text) (n : Nat) : lettersAt raw (List.range n) = raw.take n := by
  induction n with
  | zero => rfl
  | succ n ih =>
    have last : lettersAt raw [n] = raw[n]?.toList := by
      rw [lettersAt, List.filterMap_cons]
      cases raw[n]? <;> rfl
    rw [List.take_add_one, ← ih, ← last, List.range_succ, lettersAt, List.filterMap_append]
    rfl

theorem map_lettersAt_unlessEmpty (word rest : Text) :
    (unlessEmpty (List.range word.length)).map (lettersAt (word ++ rest)) = unlessEmpty word := by
  have letters : lettersAt (word ++ rest) (List.range word.length) = word := by
    rw [lettersAt_range, List.take_left]
  unfold unlessEmpty
  by_cases empty : word = []
  · simp [empty]
  · simp [empty, letters]

/-- Between blanks alone no quotation is open. -/
theorem quotedAt_blanks {t : Text} (blanks : t.all isBlank = true) (i : Nat) :
    quotedAt t i = false := by
  induction i with
  | zero => rfl
  | succ i ih =>
    have none : t[i]? ≠ some '"' := fun quote =>
      absurd (List.all_eq_true.mp blanks _ (List.mem_of_getElem? quote)) (by decide)
    rw [quotedAt, ih, turns]
    simp [none]

theorem kept_of_unbroken (unbroken : Unbroken front) :
    kept front = List.range (trimEnd front).length := by
  obtain ⟨blanks, split, all⟩ := exists_blanks_after front
  have word : ∀ i ∈ List.range (trimEnd front).length, keeps front i = true := by
    intro i inside
    obtain ⟨c, last⟩ : ∃ c, (trimEnd front).getLast? = some c := by
      cases shape : (trimEnd front).getLast? with
      | none => simp [List.getLast?_eq_none_iff.mp shape] at inside
      | some c => exact ⟨c, rfl⟩
    have short : i < (trimEnd front).length := List.mem_range.mp inside
    have later : c ∈ (front.drop i) := by
      have last' : ((trimEnd front).drop i).getLast? = some c := by
        rw [List.getLast?_drop, if_neg (Nat.not_le_of_lt short), last]
      rw [split, List.drop_append_of_le_length (Nat.le_of_lt short)]
      exact List.mem_append_left blanks (List.mem_of_getLast? last')
    have solid : (front.drop i).all isBlank = false := by
      rw [List.all_eq_false]
      exact ⟨c, later, by simp [isBlank_of_getLast?_trimEnd c last]⟩
    simp [keeps, unbroken i, solid]
  have blank : ∀ i ∈ (List.range blanks.length).map ((trimEnd front).length + ·),
      ¬keeps front i = true := by
    intro i outside
    obtain ⟨j, inside, rfl⟩ := List.mem_map.mp outside
    have opened : quotedAt front front.length = true := by
      by_contra closed
      rw [unbroken.trimEnd (by simpa using closed), List.self_eq_append_right] at split
      simp [split] at inside
    have ending : front.drop ((trimEnd front).length + j) = blanks.drop j :=
      (congrArg (List.drop _) split).trans (List.drop_length_add_append _)
    have rest : (front.drop ((trimEnd front).length + j)).all isBlank = true := by
      rw [ending]
      exact List.all_eq_true.mpr fun c member =>
        List.all_eq_true.mp all c (List.mem_of_mem_drop member)
    simp [keeps, opened, rest]
  have length : front.length = (trimEnd front).length + blanks.length := by
    rw [← List.length_append, ← split]
  rw [kept, length, List.range_add, List.filter_append, List.filter_eq_self.mpr word,
    List.filter_eq_nil_iff.mpr blank, List.append_nil]

theorem kept_cut (unbroken : Unbroken front) (closed : quotedAt front front.length = false)
    (blank : isBlank c = true) (rest : Text) :
    kept (front ++ c :: rest) =
      List.range front.length ++ (kept rest).map ((front ++ [c]).length + ·) := by
  have level := level_concat closed blank
  have split : front ++ c :: rest = front ++ [c] ++ rest := by simp
  have word : ∀ i ∈ List.range front.length, keeps (front ++ c :: rest) i = true := by
    intro i inside
    have short : i < front.length := List.mem_range.mp inside
    have held : separates (front ++ c :: rest) i = false := by
      rw [separates_append front _ short]
      exact unbroken i
    -- If a quotation is never closed, the rest has its opening quote.
    have trails : (quotedAt (front ++ c :: rest) (front ++ c :: rest).length &&
        ((front ++ c :: rest).drop i).all isBlank) = false := by
      rw [Bool.and_eq_false_iff, or_iff_not_imp_right, Bool.not_eq_false]
      intro blanks
      have later : rest.all isBlank = true := List.all_eq_true.mpr fun d member =>
        List.all_eq_true.mp blanks d (by
          rw [List.drop_append_of_le_length (Nat.le_of_lt short)]
          exact List.mem_append_right _ (List.mem_cons_of_mem c member))
      rw [split, List.length_append, level.quotedAt]
      exact quotedAt_blanks later _
    rw [keeps, held, trails]
    rfl
  have cut : keeps (front ++ c :: rest) front.length = false := by
    simp [keeps, separates_end, blank, closed]
  have length : (front ++ c :: rest).length = (front ++ [c]).length + rest.length := by
    rw [split, List.length_append]
  have shifted : (keeps (front ++ c :: rest) ∘ ((front ++ [c]).length + ·)) = keeps rest := by
    rw [split]
    exact funext level.keeps
  rw [kept, length, List.range_add, List.filter_append, List.filter_map, shifted,
    List.length_append, List.length_singleton, List.range_succ, List.filter_append,
    List.filter_eq_self.mpr word, kept]
  simp [cut]

/-- Two places in one group. -/
def Together (groups : List (List Nat)) (i j : Nat) : Prop := ∃ g ∈ groups, i ∈ g ∧ j ∈ g

theorem together_append {groups others : List (List Nat)} {i j : Nat} :
    Together (groups ++ others) i j ↔ Together groups i j ∨ Together others i j := by
  simp only [Together, List.mem_append, or_and_right, exists_or]

theorem together_range {n i j : Nat} :
    Together (unlessEmpty (List.range n)) i j ↔ i < n ∧ j < n := by
  constructor
  · rintro ⟨g, member, first, last⟩
    obtain ⟨rfl, -⟩ := mem_unlessEmpty.mp member
    exact ⟨List.mem_range.mp first, List.mem_range.mp last⟩
  · rintro ⟨first, last⟩
    have full : List.range n ≠ [] := List.ne_nil_of_mem (List.mem_range.mpr first)
    exact ⟨_, mem_unlessEmpty.mpr ⟨rfl, full⟩, List.mem_range.mpr first, List.mem_range.mpr last⟩

theorem together_shifted {groups : List (List Nat)} {n i j : Nat} :
    Together (groups.map (List.map (n + ·))) i j ↔
      ∃ i' j', i = n + i' ∧ j = n + j' ∧ Together groups i' j' := by
  constructor
  · rintro ⟨_, member, first, last⟩
    obtain ⟨g, inside, rfl⟩ := List.mem_map.mp member
    obtain ⟨i', first', rfl⟩ := List.mem_map.mp first
    obtain ⟨j', last', rfl⟩ := List.mem_map.mp last
    exact ⟨i', j', rfl, rfl, g, inside, first', last'⟩
  · rintro ⟨i', j', rfl, rfl, g, inside, first, last⟩
    exact ⟨_, List.mem_map_of_mem inside, List.mem_map_of_mem first, List.mem_map_of_mem last⟩

/-- The places that are kept, in one group for each word. -/
structure Grouped (raw : Text) (groups : List (List Nat)) : Prop where
  spelled : words raw = groups.map (lettersAt raw)
  whole : groups.flatten = kept raw
  together : ∀ i ∈ kept raw, ∀ j ∈ kept raw, i ≤ j →
    (Together groups i j ↔ ∀ k, i < k → k < j → separates raw k = false)

theorem grouped_unbroken (unbroken : Unbroken front) :
    Grouped front (unlessEmpty (List.range (trimEnd front).length)) where
  spelled := by
    obtain ⟨blanks, split, -⟩ := exists_blanks_after front
    have letters := map_lettersAt_unlessEmpty (trimEnd front) blanks
    rw [← split] at letters
    rw [words_unbroken unbroken, letters]
  whole := by rw [flatten_unlessEmpty, kept_of_unbroken unbroken]
  together i first j last _ := by
    rw [kept_of_unbroken unbroken] at first last
    have both := together_range.mpr ⟨List.mem_range.mp first, List.mem_range.mp last⟩
    exact iff_of_true both fun k _ _ => unbroken k

/-- Places before a blank that separates are in one group, those after it are as they were, and
none before it is with one after it. -/
theorem together_cut {groups : List (List Nat)} (h : Grouped rest groups)
    (unbroken : Unbroken front) (closed : quotedAt front front.length = false)
    (blank : isBlank c = true) {i j : Nat} (first : i ∈ kept (front ++ c :: rest))
    (last : j ∈ kept (front ++ c :: rest)) (le : i ≤ j) :
    Together (unlessEmpty (List.range front.length) ++
        groups.map (List.map ((front ++ [c]).length + ·))) i j ↔
      ∀ k, i < k → k < j → separates (front ++ c :: rest) k = false := by
  have length : (front ++ [c]).length = front.length + 1 := by simp
  rw [kept_cut unbroken closed blank] at first last
  rw [together_append, together_range, together_shifted]
  rcases List.mem_append.mp first with first | first
  · have first := List.mem_range.mp first
    rcases List.mem_append.mp last with last | last
    · -- Both in the first word.
      have last := List.mem_range.mp last
      refine iff_of_true (.inl ⟨first, last⟩) fun k _ before => ?_
      rw [separates_append front _ (by omega)]
      exact unbroken k
    · -- The blank is between them.
      obtain ⟨j', -, rfl⟩ := List.mem_map.mp last
      refine iff_of_false (fun together => ?_) fun apart => ?_
      · rcases together with ⟨-, last⟩ | ⟨i', -, same, -⟩ <;> omega
      · have between := apart front.length first (by omega)
        rw [separates_end] at between
        simp [blank, closed] at between
  · obtain ⟨i', first', rfl⟩ := List.mem_map.mp first
    rcases List.mem_append.mp last with last | last
    · have := List.mem_range.mp last
      omega
    · -- Both in the rest.
      obtain ⟨j', last', rfl⟩ := List.mem_map.mp last
      have split : front ++ c :: rest = front ++ [c] ++ rest := by simp
      rw [split, (level_concat closed blank).apart_iff,
        ← h.together i' first' j' last' (by omega)]
      constructor
      · rintro (⟨first, -⟩ | ⟨i'', j'', same, same', together⟩)
        · omega
        · rwa [Nat.add_left_cancel same, Nat.add_left_cancel same']
      · exact fun together => .inr ⟨i', j', rfl, rfl, together⟩

theorem Grouped.cut {groups : List (List Nat)} (h : Grouped rest groups)
    (unbroken : Unbroken front) (closed : quotedAt front front.length = false)
    (blank : isBlank c = true) :
    Grouped (front ++ c :: rest) (unlessEmpty (List.range front.length) ++
      groups.map (List.map ((front ++ [c]).length + ·))) where
  spelled := by
    have later : (groups.map (List.map ((front ++ [c]).length + ·))).map
        (lettersAt (front ++ c :: rest)) = words rest := by
      have split : front ++ c :: rest = front ++ [c] ++ rest := by simp
      rw [split, List.map_map, h.spelled]
      exact List.map_congr_left fun g _ => lettersAt_shifted g
    rw [words_cut unbroken closed blank, List.map_append, map_lettersAt_unlessEmpty, later]
  whole := by
    rw [List.flatten_append, flatten_unlessEmpty, kept_cut unbroken closed blank, ← h.whole,
      List.map_flatten]
  together i first j last le := together_cut h unbroken closed blank first last le

theorem exists_grouped (raw : Text) : ∃ groups, Grouped raw groups := by
  induction raw using cut_induction with
  | last front unbroken => exact ⟨_, grouped_unbroken unbroken⟩
  | cut front c rest unbroken closed blank ih =>
    obtain ⟨groups, grouped⟩ := ih
    exact ⟨_, grouped.cut unbroken closed blank⟩

/-- The words of an argument text are what is kept of it, apart where a blank outside quotations
stands between two places and only there. Each has its own quotations as it had them in the text,
so the words with a space between each two have the same words again. -/
theorem words_between_blanks (raw : Text) :
    (∀ word ∈ words raw, Word word) ∧
      (words raw).flatten = lettersAt raw (kept raw) ∧
      (∃ groups, Grouped raw groups) ∧
      words (List.intercalate [' '] (words raw)) = words raw := by
  obtain ⟨groups, grouped⟩ := exists_grouped raw
  have joined : (words raw).flatten = lettersAt raw (kept raw) := by
    rw [grouped.spelled, ← grouped.whole, lettersAt, List.filterMap_flatten]
    rfl
  exact ⟨word_of_mem_words, joined, ⟨groups, grouped⟩, words_intercalate⟩

/-- A quotation that is never closed keeps its blanks, but for those at the end. -/
example : words "a \"b c ".toList = ["a".toList, "\"b c".toList] ∧
    kept "a \"b c ".toList = [0, 2, 3, 4, 5] := by decide

end Stencil.Helper
