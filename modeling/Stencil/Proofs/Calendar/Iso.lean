import Mathlib.Data.List.Basic
import Mathlib.Data.List.TakeWhile
import Stencil.Proofs.Markup.Plain
import Stencil.Proofs.Number.Numerals

/-! The ISO texts of dates, and of moments without an offset, are read back as what they
were written for. From the long form of a moment the day is found again, and the hour, the
minute and the second. -/
namespace Stencil

open Text

namespace Numeral

/-- The number of a digit. -/
def ofDigit (c : Char) : Nat := c.toNat - 48

theorem foldl_digits (start : Nat) (digits : List Nat) :
    digits.foldl (fun n d => 10 * n + d) start = start * 10 ^ digits.length + value digits := by
  induction digits generalizing start with
  | nil => simp [value]
  | cons d digits ih =>
    rw [value, List.foldl_cons, List.foldl_cons, ih, ih (10 * 0 + d), List.length_cons,
      Nat.pow_succ]
    ring

theorem value_cons (d : Nat) (digits : List Nat) :
    value (d :: digits) = d * 10 ^ digits.length + value digits := by
  rw [value, List.foldl_cons, foldl_digits, Nat.mul_zero, Nat.zero_add]

variable {n width : Nat}

theorem isDigit_padZero {c : Char} (member : c ∈ padZero width (ofNat n)) : c.isDigit = true := by
  rcases List.mem_append.mp member with zero | digit
  · rw [List.eq_of_mem_replicate zero]
    rfl
  · exact isDigit_of_mem_ofNat digit

theorem value_padZero (width n : Nat) : value ((padZero width (ofNat n)).map ofDigit) = n := by
  rw [padZero, List.map_append, List.map_replicate]
  induction width - (ofNat n).length with
  | zero =>
    have back := value_ofNat n
    rw [filterMap_digit? fun _ => isDigit_of_mem_ofNat] at back
    exact back
  | succ zeros ih =>
    rw [List.replicate_succ, List.cons_append, value_cons, ih]
    exact (Nat.zero_mul _).symm ▸ Nat.zero_add n

theorem length_padZero (positive : 0 < width) (short : n < 10 ^ width) :
    (padZero width (ofNat n)).length = width := by
  have fits : (ofNat n).length ≤ width :=
    (Nat.length_toDigits_le_iff (by decide) positive).mpr short
  rw [padZero, List.length_append, List.length_replicate, Nat.sub_add_cancel fits]

end Numeral

namespace Iso

open Numeral

variable {n width count : Nat} {last : Bool}

theorem number?_digits {digits : Text} (all : ∀ c ∈ digits, c.isDigit = true) (rest : Text) :
    number? digits.length (digits ++ rest) = some (value (digits.map ofDigit), rest) := by
  induction digits with
  | nil => rfl
  | cons c digits ih =>
    obtain ⟨here, later⟩ := List.forall_mem_cons.mp all
    rw [List.cons_append, List.length_cons, number?, if_pos here, ih later, List.map_cons,
      value_cons, List.length_map]
    rfl

/-- A number that was filled up to its width is read back from it. -/
theorem number?_padZero (positive : 0 < width) (short : n < 10 ^ width) (rest : Text) :
    number? width (padZero width (ofNat n) ++ rest) = some (n, rest) := by
  have digits : ∀ c ∈ padZero width (ofNat n), c.isDigit = true := fun _ => isDigit_padZero
  have read := number?_digits digits rest
  rwa [length_padZero positive short, value_padZero] at read

/-- Two digits. -/
theorem two_eq (short : n < 100) :
    ∃ a b, two n = [a, b] ∧ a.isDigit = true ∧ b.isDigit = true := by
  obtain ⟨a, b, shape⟩ := List.length_eq_two.mp (length_padZero (by decide) short)
  have digits (c : Char) (member : c ∈ two n) : c.isDigit = true := isDigit_padZero member
  exact ⟨a, b, shape, digits a (by simp [two, shape]), digits b (by simp [two, shape])⟩

theorem number?_two (short : n < 100) (rest : Text) :
    number? 2 (two n ++ rest) = some (n, rest) :=
  number?_padZero (by decide) short rest

theorem number?_two_end (short : n < 100) : number? 2 (two n) = some (n, []) := by
  have read := number?_two short []
  rwa [List.append_nil] at read

theorem year_lt (date : Date) : date.year < 10 ^ 4 := Nat.lt_succ_of_le date.valid.2.1

theorem month_lt (date : Date) : date.month < 100 := by
  obtain ⟨-, -, -, _, -⟩ := date.valid
  omega

theorem day_lt (date : Date) : date.day < 100 := by
  obtain ⟨-, -, _, _, _, within⟩ := date.valid
  have most : ∀ leap, ∀ m < 12, (Calendar.monthLengths leap).getD m 0 ≤ 31 := by decide
  have := most (Calendar.isLeap date.year) (date.month - 1) (by omega)
  unfold Calendar.daysInMonth at within
  omega

theorem iso_eq (date : Date) : date.iso =
    padZero 4 (ofNat date.year) ++ '-' :: (two date.month ++ '-' :: two date.day) := by
  simp [Date.iso, two]

theorem readDate?_iso (date : Date) : readDate? date.iso = some date := by
  obtain ⟨a, b, shape, digit, -⟩ := two_eq (month_lt date)
  have plain : a ≠ 'W' := by
    rintro rfl
    exact absurd digit (by decide)
  have year := number?_padZero (by decide) (year_lt date) ('-' :: a :: b :: '-' :: two date.day)
  have month : number? 2 (a :: b :: '-' :: two date.day) =
      some (date.month, '-' :: two date.day) := by
    have read := number?_two (month_lt date) ('-' :: two date.day)
    rw [shape] at read
    exact read
  have day := number?_two_end (day_lt date)
  have hyphen (rest : Text) : hyphenIf true ('-' :: rest) = some rest := rfl
  have valid : Date.of? date.year date.month date.day = some date := dif_pos date.valid
  rw [iso_eq, shape, List.cons_append, List.cons_append, List.nil_append, readDate?, year]
  simp [plain, month, hyphen, day, valid]

theorem length_iso (date : Date) : date.iso.length = 10 := by
  have year := length_padZero (by decide) (year_lt date)
  have month : (two date.month).length = 2 := length_padZero (by decide) (month_lt date)
  have day : (two date.day).length = 2 := length_padZero (by decide) (day_lt date)
  simp [iso_eq, year, month, day]

/-- The date is the first ten characters, whatever follows. -/
theorem dateWidth_iso (date : Date) (rest : Text) : dateWidth (date.iso ++ rest) = 10 := by
  obtain ⟨a, b, shape, digit, -⟩ := two_eq (month_lt date)
  have plain : a ≠ 'W' := by
    rintro rfl
    exact absurd digit (by decide)
  have year := length_padZero (by decide) (year_lt date)
  have long : (date.iso ++ rest).length ≠ 7 := by
    rw [List.length_append, length_iso]
    omega
  have fifth : (date.iso ++ rest)[4]? = some '-' := by simp [iso_eq, year]
  have sixth : (date.iso ++ rest)[5]? ≠ some 'W' := by
    simp [iso_eq, List.getElem?_append_right, year, shape, plain]
  rw [dateWidth, if_neg long, if_pos fifth, if_neg sixth]

theorem readNumbers?_two {colons? : Option Bool} (colon : colons?.getD true = true)
    (short : n < 100) {rest : Text} (more : rest ≠ []) :
    readNumbers? last (count + 1) colons? (two n ++ ':' :: rest) =
      (readNumbers? last count (some true) rest).map (.cons n) := by
  obtain ⟨c, rest, rfl⟩ := List.exists_cons_of_ne_nil more
  rw [readNumbers?, number?_two short]
  simp [colon]

/-- The last number of a time, with the fraction after it. -/
theorem readNumbers?_end {microsecond : Nat} (short : n < 100) (part : microsecond < 10 ^ 6) :
    readNumbers? last (count + 1) (some true) (two n ++ fraction microsecond) =
      some ⟨[n], microsecond, last⟩ := by
  rw [readNumbers?, number?_two short, fraction]
  by_cases whole : microsecond = 0
  · simp [whole]
  · have six := length_padZero (by decide) part
    have read : readFraction? last (padZero 6 (ofNat microsecond)) =
        some ⟨[], microsecond, last⟩ := by
      have number := number?_padZero (by decide) part []
      rw [List.append_nil] at number
      simp [readFraction?, six, number]
    rw [if_neg whole]
    obtain ⟨c, rest, shape⟩ := List.exists_cons_of_length_eq_add_one six
    rw [shape] at read ⊢
    simp [read, Numbers.cons]

theorem writeTime_eq (t : TimeOfDay) : writeTime t =
    two t.hour ++ ':' :: (two t.minute ++ ':' :: (two t.second ++ fraction t.microsecond)) := by
  simp [writeTime]

theorem isOffsetMark_of_isDigit {c : Char} (digit : c.isDigit = true) : isOffsetMark c = false := by
  simp only [isOffsetMark, Bool.or_eq_false_iff, decide_eq_false_iff_not]
  refine ⟨⟨?_, ?_⟩, ?_⟩ <;> rintro rfl <;> exact absurd digit (by decide)

/-- The characters of a time are digits, colons and a point. -/
theorem forall_mem_writeTime {p : Char → Prop} (digit : ∀ c : Char, c.isDigit = true → p c)
    (colon : p ':') (point : p '.') (t : TimeOfDay) : ∀ c ∈ writeTime t, p c := by
  have number (width n : Nat) : ∀ c ∈ padZero width (ofNat n), p c :=
    fun c member => digit c (isDigit_padZero member)
  have part : ∀ c ∈ fraction t.microsecond, p c := by
    unfold fraction
    split
    · simp
    · exact List.forall_mem_cons.mpr ⟨point, number 6 _⟩
  simp only [writeTime_eq, List.forall_mem_append, List.forall_mem_cons]
  exact ⟨number 2 _, colon, number 2 _, colon, number 2 _, part⟩

theorem readTime?_writeTime (t : TimeOfDay) : readTime? (writeTime t) = some (t, none) := by
  obtain ⟨hour, minute, second, part⟩ := t.valid
  have full (n : Nat) (rest : Text) : two n ++ rest ≠ [] := by simp [two, padZero, ofNat_ne_nil]
  have numbers : readNumbers? true 3 none (writeTime t) =
      some ⟨[t.hour, t.minute, t.second], t.microsecond, true⟩ := by
    rw [writeTime_eq, readNumbers?_two rfl (by omega) (full _ _),
      readNumbers?_two rfl (by omega) (full _ _), readNumbers?_end (by omega) part]
    rfl
  have unmarked : ∀ c ∈ writeTime t, isOffsetMark c = false :=
    forall_mem_writeTime (p := (isOffsetMark · = false)) (fun _ => isOffsetMark_of_isDigit)
      rfl rfl t
  have clock : (writeTime t).takeWhile (!isOffsetMark ·) = writeTime t :=
    List.takeWhile_eq_self_iff.mpr fun c member => by simp [unmarked c member]
  have rest : (writeTime t).dropWhile (!isOffsetMark ·) = [] :=
    List.dropWhile_eq_nil_iff.mpr fun c member => by simp [unmarked c member]
  have valid : TimeOfDay.of? t.hour t.minute t.second t.microsecond = some t := dif_pos t.valid
  simp [readTime?, clock, rest, numbers, Numbers.get, valid]

theorem read?_iso (date : Date) : read? date.iso = some ⟨date, .midnight, none⟩ := by
  have width := dateWidth_iso date []
  rw [List.append_nil] at width
  have whole : date.iso.take 10 = date.iso := List.take_of_length_le (length_iso date).le
  simp [read?, width, whole, readDate?_iso, length_iso]

theorem read?_write {m : Moment} (naive : m.offset? = none) (separator : Char) :
    read? (write separator m) = some m := by
  obtain ⟨date, time, offset?⟩ := m
  obtain rfl : offset? = none := naive
  have shape : write separator ⟨date, time, none⟩ = date.iso ++ separator :: writeTime time := by
    simp [write]
  have date' : (date.iso ++ separator :: writeTime time).take 10 = date.iso := by
    rw [← length_iso date, List.take_left]
  have time' : (date.iso ++ separator :: writeTime time).drop 11 = writeTime time := by
    simp [List.drop_append, length_iso]
  rw [shape]
  simp [read?, dateWidth_iso, date', time', readDate?_iso, readTime?_writeTime, length_iso]

end Iso

namespace Numeral

theorem ofNat_inj {m n : Nat} (same : ofNat m = ofNat n) : m = n := by
  rw [← value_ofNat m, same, value_ofNat]

/-- A numeral ends before the first character that is no digit. -/
theorem ofNat_append_inj {m n : Nat} {c : Char} {s t : Text} (stop : c.isDigit = false)
    (same : ofNat m ++ c :: s = ofNat n ++ c :: t) : m = n ∧ s = t := by
  have taken (n : Nat) (t : Text) : (ofNat n ++ c :: t).takeWhile Char.isDigit = ofNat n :=
    Markup.takeWhile_word (fun _ => isDigit_of_mem_ofNat) stop t
  have rest (n : Nat) (t : Text) : (ofNat n ++ c :: t).dropWhile Char.isDigit = c :: t :=
    Markup.dropWhile_word (fun _ => isDigit_of_mem_ofNat) stop t
  constructor
  · apply ofNat_inj
    rw [← taken m s, same, taken]
  · have left : c :: s = c :: t := by rw [← rest m s, same, rest]
    exact (List.cons.inj left).2

end Numeral

namespace Iso

theorem two_append_inj {m n : Nat} {s t : Text} (short : m < 100) (short' : n < 100)
    (same : two m ++ s = two n ++ t) : m = n ∧ s = t := by
  have read := number?_two short s
  rw [same, number?_two short'] at read
  obtain ⟨rfl, rfl⟩ := Prod.mk.inj (Option.some.inj read)
  exact ⟨rfl, rfl⟩

end Iso

namespace Moment

open Numeral

/-- An hour is its place on the dial and the half of the day. -/
theorem hourOnDial_inj {a b : Nat} (day : a < 24) (day' : b < 24)
    (same : hourOnDial a = hourOnDial b) (half : a < 12 ↔ b < 12) : a = b := by
  unfold hourOnDial at same
  split at same <;> split at same <;> omega

theorem dial_eq (t : TimeOfDay) : dial t = ofNat (hourOnDial t.hour) ++ ':' ::
    (Iso.two t.minute ++ ':' :: (Iso.two t.second ++
      [' ', if t.hour < 12 then 'A' else 'P', 'M'])) := by
  simp [dial, Iso.two]

theorem dial_inj {t u : TimeOfDay} (same : dial t = dial u) :
    t.hour = u.hour ∧ t.minute = u.minute ∧ t.second = u.second := by
  obtain ⟨_, _, _, -⟩ := t.valid
  obtain ⟨_, _, _, -⟩ := u.valid
  rw [dial_eq, dial_eq] at same
  obtain ⟨onDial, rest⟩ := ofNat_append_inj rfl same
  obtain ⟨minute, rest⟩ := Iso.two_append_inj (by omega) (by omega) rest
  obtain ⟨second, rest⟩ := Iso.two_append_inj (by omega) (by omega) (List.cons.inj rest).2
  have half : t.hour < 12 ↔ u.hour < 12 := by
    by_cases early : t.hour < 12 <;> by_cases early' : u.hour < 12 <;>
      simp [early, early'] at rest ⊢
  exact ⟨hourOnDial_inj (by omega) (by omega) onDial half, minute, second⟩

theorem long_eq (m : Moment) : m.long = ofNat m.date.month ++ '/' ::
    (ofNat m.date.day ++ '/' :: (ofNat m.date.year ++ ',' :: ' ' :: dial m.time)) := by
  simp [long, short]

theorem long_inj {m n : Moment} (same : m.long = n.long) :
    m.date = n.date ∧ dial m.time = dial n.time := by
  rw [long_eq, long_eq] at same
  obtain ⟨month, rest⟩ := ofNat_append_inj rfl same
  obtain ⟨day, rest⟩ := ofNat_append_inj rfl rest
  obtain ⟨year, rest⟩ := ofNat_append_inj rfl rest
  refine ⟨?_, (List.cons.inj rest).2⟩
  obtain ⟨⟨_, _, _, _⟩, _, _⟩ := m
  obtain ⟨⟨_, _, _, _⟩, _, _⟩ := n
  exact (Date.mk.injEq ..).mpr ⟨year, month, day⟩

end Moment

end Stencil
