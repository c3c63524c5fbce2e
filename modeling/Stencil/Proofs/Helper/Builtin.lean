import Mathlib.Data.List.Infix
import Stencil.Proofs.Calendar.Days
import Stencil.Proofs.Calendar.Iso

/-! What two built-in helpers show. Each way to give a date to the date helper shows the
same text. Truncation counts a length from the start of the text if it is not negative; a
negative one counts from the end, which leaves too much unless nothing is left. -/
namespace Stencil

namespace Text

variable {text padded blanks : Text}

/-- Holds for a text with blanks around it, or with none. -/
def Padded (text padded : Text) : Prop :=
  ∃ before after, (∀ c ∈ before, isBlank c = true) ∧ (∀ c ∈ after, isBlank c = true) ∧
    padded = before ++ text ++ after

theorem dropWhile_blanks (all : ∀ c ∈ blanks, isBlank c = true)
    (solid : ∀ c ∈ text, isBlank c = false) : (blanks ++ text).dropWhile isBlank = text := by
  rw [List.dropWhile_append_of_pos all]
  cases text with
  | nil => rfl
  | cons c text => exact Markup.trimStart_solid (solid c List.mem_cons_self) text

theorem Padded.trim_eq (h : text.Padded padded) (solid : ∀ c ∈ text, isBlank c = false) :
    trim padded = text := by
  obtain ⟨before, after, leads, trails, rfl⟩ := h
  rw [trim, List.append_assoc, Markup.trimStart_blanks leads]
  cases text with
  | nil =>
    have none : trimStart after = [] := List.dropWhile_eq_nil_iff.mpr trails
    rw [List.nil_append, none]
    rfl
  | cons c rest =>
    have ends : ∀ d ∈ after.reverse, isBlank d = true := fun d member =>
      trails d (List.mem_reverse.mp member)
    have inside : ∀ d ∈ (c :: rest).reverse, isBlank d = false := fun d member =>
      solid d (List.mem_reverse.mp member)
    rw [List.cons_append, Markup.trimStart_solid (solid c List.mem_cons_self), ← List.cons_append,
      trimEnd, List.reverse_append, dropWhile_blanks ends inside, List.reverse_reverse]

end Text

namespace Iso

open Text

theorem solid_iso (date : Date) : ∀ c ∈ date.iso, isBlank c = false := by
  have number (width n : Nat) : ∀ c ∈ padZero width (Numeral.ofNat n), isBlank c = false :=
    fun _ member => isBlank_of_isDigit (Numeral.isDigit_padZero member)
  simp only [Date.iso, List.append_assoc, List.cons_append, List.forall_mem_append,
    List.forall_mem_cons]
  exact ⟨number 4 _, by decide, number 2 _, by decide, number 2 _⟩

theorem solid_write {m : Moment} (naive : m.offset? = none) :
    ∀ c ∈ write 'T' m, isBlank c = false := by
  simp only [write, naive, Option.map_none, Option.getD_none, List.append_nil,
    List.forall_mem_append, List.forall_mem_cons]
  exact ⟨solid_iso m.date, by decide,
    forall_mem_writeTime (fun _ => isBlank_of_isDigit) (by decide) (by decide) m.time⟩

end Iso

namespace Helper

open Text

variable {value : Value} {m : Moment}

/-- The ways to give a moment: as it is, a day for its midnight, the ISO text of either with blanks
around it, and the milliseconds from the start of 1970. -/
inductive Gives : Value → Moment → Prop
  | moment (m : Moment) : Gives (.moment m) m
  | date (date : Date) : Gives (.date date) ⟨date, .midnight, none⟩
  | dateText {date : Date} {text : Text} (padded : date.iso.Padded text) :
      Gives (.text text) ⟨date, .midnight, none⟩
  | momentText {m : Moment} {text : Text} (naive : m.offset? = none)
      (padded : (Iso.write 'T' m).Padded text) : Gives (.text text) m
  | milliseconds {m : Moment} (naive : m.offset? = none) (whole : m.time.microsecond = 0)
      (later : 2 ≤ m.date.year) : Gives (.int (m.seconds * 1000)) m

theorem Gives.toMoment_eq (given : Gives value m) : toMoment value = .ok m := by
  cases given with
  | moment => rfl
  | date => rfl
  | dateText padded => rw [toMoment, padded.trim_eq (Iso.solid_iso _), Iso.read?_iso]
  | momentText naive padded =>
    rw [toMoment, padded.trim_eq (Iso.solid_write naive), Iso.read?_write naive]
  | milliseconds naive whole later => exact toMoment_seconds naive whole later

/-- The two forms in which a moment is shown. -/
def shownAs (format : Value) (m : Moment) : Text :=
  if format.isText "short".toList then m.short else m.long

theorem formatDate_eq (value format : Value) :
    formatDate value format = (toMoment value).map (shownAs format) := by
  rw [formatDate]
  cases toMoment value <;> rfl

theorem date_run_eq (value : Value) {formats : List Value} (few : formats.length ≤ 1) :
    Builtin.date.run (value :: formats) = (toMoment value).map (shownAs (formats.headD .null)) := by
  match formats, few with
  | [], _ => exact formatDate_eq value .null
  | [format], _ => exact formatDate_eq value format

/-- A value for which any call of the date helper succeeds is a moment. -/
theorem toMoment_of_run {arguments : List Value} {text : Text}
    (shown : Builtin.date.run (value :: arguments) = .ok text) : ∃ m, toMoment value = .ok m := by
  have few : arguments.length ≤ 1 := by
    match arguments, shown with
    | [], _ | [_], _ => simp
    | _ :: _ :: _, shown => contradiction
  rw [date_run_eq value few] at shown
  cases moment : toMoment value with
  | ok m => exact ⟨m, rfl⟩
  | error e =>
    rw [moment] at shown
    contradiction

/-- All ways to give a moment lead to the same texts. The longer text has the shorter one in front
of the time on a dial, and nothing but fractions of a second and the offset is lost in it. -/
theorem date_texts_agree :
    (∀ value m, Gives value m → ∀ formats : List Value, formats.length ≤ 1 → ∃ text,
      Builtin.date.run (.moment m :: formats) = .ok text ∧
      Builtin.date.run (value :: formats) = .ok text) ∧
    (∀ value arguments text, Builtin.date.run (value :: arguments) = .ok text →
      ∃ m : Moment, toMoment value = .ok m ∧
        Builtin.date.run [value, .text "short".toList] = .ok m.short ∧
        Builtin.date.run [value] = .ok (m.short ++ ", ".toList ++ Moment.dial m.time) ∧
        ∀ format : Value, format.isText "short".toList = false →
          Builtin.date.run [value, format] = .ok (m.short ++ ", ".toList ++ Moment.dial m.time)) ∧
    (∀ m n : Moment, m.short ++ ", ".toList ++ Moment.dial m.time =
        n.short ++ ", ".toList ++ Moment.dial n.time →
      m.date = n.date ∧ Moment.dial m.time = Moment.dial n.time) ∧
    ∀ t u : TimeOfDay, Moment.dial t = Moment.dial u →
      t.hour = u.hour ∧ t.minute = u.minute ∧ t.second = u.second := by
  have long (m : Moment) : m.short ++ ", ".toList ++ Moment.dial m.time = m.long := by
    rw [Moment.long, List.append_assoc]
    rfl
  refine ⟨fun value m given formats few => ?_, fun value arguments text shown => ?_,
    fun m n same => ?_, fun t u => Moment.dial_inj⟩
  · refine ⟨shownAs (formats.headD .null) m, ?_, ?_⟩
    · rw [date_run_eq _ few]
      rfl
    · rw [date_run_eq _ few, given.toMoment_eq]
      rfl
  · obtain ⟨m, moment⟩ := toMoment_of_run shown
    have run (format : Value) : Builtin.date.run [value, format] = .ok (shownAs format m) := by
      rw [date_run_eq value le_rfl, moment]
      rfl
    have alone : Builtin.date.run [value] = .ok m.long := run .null
    refine ⟨m, moment, run _, ?_, fun format other => ?_⟩
    · rw [alone, long]
    · rw [run, shownAs, other, long]
      rfl
  · rw [long, long] at same
    exact Moment.long_inj same

/-- The last second before the start of 1970. -/
theorem date_texts_agree_before_start :
    Builtin.date.run [.int (-1000)] = .ok "12/31/1969, 11:59:59 PM".toList ∧
    Builtin.date.run [.text " 1969-12-31T23:59:59\n".toList] =
      .ok "12/31/1969, 11:59:59 PM".toList := by
  obtain ⟨agree, -⟩ := date_texts_agree
  let m : Moment := ⟨⟨1969, 12, 31, by decide⟩, ⟨23, 59, 59, 0, by decide⟩, none⟩
  have count : m.seconds * 1000 = -1000 := by
    rw [Moment.seconds_eq]
    decide
  have blank {c : Char} (blank : isBlank c = true) : ∀ d ∈ [c], isBlank d = true := by
    intro d member
    rwa [List.mem_singleton.mp member]
  have padded : (Iso.write 'T' m).Padded " 1969-12-31T23:59:59\n".toList :=
    ⟨[' '], ['\n'], blank (by decide), blank (by decide), by decide⟩
  have long : m.long = "12/31/1969, 11:59:59 PM".toList := by decide
  have plain : Builtin.date.run [.moment m] = .ok "12/31/1969, 11:59:59 PM".toList :=
    congrArg Except.ok long
  obtain ⟨_, moment, number⟩ :=
    agree _ _ (.milliseconds (m := m) rfl rfl (by decide)) [] (by decide)
  obtain ⟨_, moment', text⟩ := agree _ _ (.momentText (m := m) rfl padded) [] (by decide)
  rw [count] at number
  exact ⟨number.trans (moment.symm.trans plain), text.trans (moment'.symm.trans plain)⟩

variable {length : Int} {text : Text}

/-- A text that fits as it is, any other as its first characters and the mark for the rest. No
characters are asked for by a negative length. -/
def shortened (length : Int) (text : Text) : Text :=
  if text.length ≤ length then text else text.take length.toNat ++ ellipsis

/-- The characters of a text that truncation leaves, without the mark. -/
def beginning (length : Int) (text : Text) : Text :=
  if text.length ≤ length then text else cutTo length text

/-- Holds when the characters that are left are counted from the start of the text, or are none. -/
def FromStart (length : Int) (text : Text) : Prop := 0 ≤ length ∨ text.length ≤ length.natAbs

theorem run_truncate {value : Value} (shown : value.display = .ok text) (length : Int) :
    Builtin.truncate.run [value, .int length] =
      .ok (beginning length text ++ if text.length ≤ length then [] else ellipsis) := by
  have run : Builtin.truncate.run [value, .int length] =
      .ok (if length < text.length then cutTo length text ++ ellipsis else text) := by
    simp only [Builtin.run, truncate, shown, toInt]
    rfl
  rw [run, beginning]
  split
  next long => simp only [if_neg (Int.not_le.mpr long)]
  next fits => simp only [if_pos (Int.not_lt.mp fits), List.append_nil]

theorem cutTo_eq_take_iff (beyond : length < text.length) :
    cutTo length text = text.take length.toNat ↔ FromStart length text := by
  unfold cutTo FromStart
  split
  next nonneg => simp [nonneg]
  next negative =>
    have none : length.toNat = 0 := Int.toNat_of_nonpos (by omega)
    rw [none, List.take_zero, List.take_eq_nil_iff, ← List.length_eq_zero_iff]
    omega

theorem beginning_eq_take (start : FromStart length text) :
    beginning length text = text.take length.toNat := by
  unfold beginning
  split
  next fits => exact (List.take_of_length_le (by omega)).symm
  next beyond => exact (cutTo_eq_take_iff (Int.not_le.mp beyond)).mpr start

/-- Counted from the end, some characters are left. -/
theorem length_beginning (back : ¬FromStart length text) : length < 0 ∧
    length.natAbs < text.length ∧
    (beginning length text).length = text.length - length.natAbs := by
  obtain ⟨negative, more⟩ := not_or.mp back
  have beyond : ¬text.length ≤ length := by omega
  refine ⟨Int.not_le.mp negative, Nat.lt_of_not_le more, ?_⟩
  rw [beginning, if_neg beyond, cutTo, if_neg negative, List.length_take]
  omega

theorem length_le_iff : (text.length ≤ length ∨
    ((beginning length text ++ if text.length ≤ length then [] else ellipsis).length : Int) ≤
      max length 0 + 3) ↔ FromStart length text := by
  have mark : ellipsis.length = 3 := rfl
  by_cases start : FromStart length text
  · refine iff_of_true ?_ start
    by_cases fits : text.length ≤ length
    · exact .inl fits
    · rw [beginning_eq_take start, if_neg fits, List.length_append, List.length_take, mark]
      omega
  · obtain ⟨negative, more, left⟩ := length_beginning start
    refine iff_of_false ?_ start
    rw [if_neg (by omega), List.length_append, left, mark]
    omega

theorem beginning_prefix_iff : (∀ larger, length ≤ larger →
    beginning length text <+: beginning larger text) ↔ FromStart length text := by
  constructor
  · -- Beyond a length that leaves something counted from the end there is 0, which leaves nothing.
    intro grows
    by_contra back
    obtain ⟨negative, more, left⟩ := length_beginning back
    have none : beginning 0 text = [] := by
      rw [beginning_eq_take (.inl (Int.le_refl 0)), Int.toNat_zero, List.take_zero]
    have shorter := (grows 0 (by omega)).length_le
    rw [none, left, List.length_nil] at shorter
    omega
  · intro start larger more
    by_cases nonneg : 0 ≤ larger
    · rw [beginning_eq_take start, beginning_eq_take (.inl nonneg)]
      exact List.take_prefix_take_left (by omega)
    · have none : length.toNat = 0 := by omega
      rw [beginning_eq_take start, none, List.take_zero]
      exact List.nil_prefix

/-- Truncation keeps the first characters, as many as it is asked for, if and only if the length is
not negative or leaves nothing. Just then at most that many are kept, and no fewer by any larger
length. -/
theorem truncate_keeps_iff {value : Value} (shown : value.display = .ok text) (length : Int) :
    (Builtin.truncate.run [value, .int length] = .ok (shortened length text) ↔
      FromStart length text) ∧
    (∀ result, Builtin.truncate.run [value, .int length] = .ok result →
      ((text.length ≤ length ∨ (result.length : Int) ≤ max length 0 + 3) ↔
        FromStart length text)) ∧
    (∀ any, Builtin.truncate.run [value, .int any] =
      .ok (beginning any text ++ if text.length ≤ any then [] else ellipsis)) ∧
    ((∀ larger, length ≤ larger → beginning length text <+: beginning larger text) ↔
      FromStart length text) := by
  refine ⟨?_, fun result run => ?_, run_truncate shown, beginning_prefix_iff⟩
  · rw [run_truncate shown, Except.ok.injEq, shortened, beginning]
    by_cases fits : text.length ≤ length
    · have start : FromStart length text := .inl (by omega)
      simp only [if_pos fits, List.append_nil, start]
    · simp only [if_neg fits, List.append_cancel_right_eq]
      exact cutTo_eq_take_iff (Int.not_le.mp fits)
  · rw [run_truncate shown] at run
    obtain rfl := Except.ok.inj run
    exact length_le_iff

/-- Sixty characters, at the length that is taken when none is given. -/
theorem truncate_keeps_fifty : Builtin.truncate.run [.text (List.replicate 60 'x')] =
    .ok (List.replicate 50 'x' ++ ellipsis) := by
  have shown : Value.display (.text (List.replicate 60 'x')) = .ok (List.replicate 60 'x') := rfl
  obtain ⟨asked, -⟩ := truncate_keeps_iff shown Builtin.defaultLength
  exact asked.mpr (.inl (by decide))

/-- With the length -1 all characters but the last are left, more than with the length 0. -/
theorem negative_length_keeps_more :
    Value.display (.text "abc".toList) = .ok "abc".toList ∧
    Builtin.truncate.run [.text "abc".toList, .int (-1)] = .ok "ab...".toList ∧
    Builtin.truncate.run [.text "abc".toList, .int (-1)] ≠ .ok (shortened (-1) "abc".toList) ∧
    Builtin.truncate.run [.text "abc".toList, .int 0] = .ok "...".toList :=
  ⟨rfl, rfl, fun same => absurd (Except.ok.inj same) (by decide), rfl⟩

end Helper

end Stencil
