import Mathlib.Tactic.SplitIfs
import Stencil.Text.Case
import Stencil.Value.Written

/-! Texts without the NUL that placeholders start and end with. Everything that is written
of numbers, dates and quoted texts is free of it, whatever the value, and a change of case
brings none in. -/
namespace Stencil.Text

def NulFree (text : Text) : Prop := '\x00' ∉ text

instance (text : Text) : Decidable text.NulFree := inferInstanceAs (Decidable ('\x00' ∉ text))

@[simp] theorem nulFree_nil : NulFree [] := List.not_mem_nil

@[simp] theorem nulFree_cons {c : Char} {text : Text} :
    NulFree (c :: text) ↔ c ≠ '\x00' ∧ NulFree text := by
  simp [NulFree, eq_comm]

@[simp] theorem nulFree_append {a b : Text} : NulFree (a ++ b) ↔ NulFree a ∧ NulFree b := by
  simp [NulFree]

theorem NulFree.of_subset {a b : Text} (h : NulFree b) (inside : ∀ c ∈ a, c ∈ b) : NulFree a :=
  fun member => h (inside _ member)

theorem nulFree_flatMap {α : Type} {f : α → Text} {l : List α} (h : ∀ a ∈ l, NulFree (f a)) :
    NulFree (l.flatMap f) := by
  intro member
  obtain ⟨a, inside, found⟩ := List.mem_flatMap.mp member
  exact h a inside found

theorem nulFree_intercalate (separator : Text) {texts : List Text} (s : NulFree separator)
    (h : ∀ t ∈ texts, NulFree t) : NulFree (List.intercalate separator texts) := by
  induction texts with
  | nil => simp
  | cons t rest ih =>
    cases rest with
    | nil => simpa using h
    | cons u rest =>
      rw [List.intercalate_cons_cons]
      have later := ih fun t member => h t (by simp [member])
      simp [s, h t (by simp), later]

@[simp] theorem nulFree_ite {p : Prop} [Decidable p] {a b : Text} (ha : NulFree a)
    (hb : NulFree b) : NulFree (if p then a else b) := by
  split <;> assumption

theorem nulFree_toDigitsCore (base fuel n : Nat) {acc : Text} (h : NulFree acc) :
    NulFree (Nat.toDigitsCore base fuel n acc) := by
  induction fuel generalizing n acc with
  | zero => exact h
  | succ fuel ih =>
    have next : NulFree ((n % base).digitChar :: acc) := by simp [h]
    exact nulFree_ite next (ih _ next)

@[simp] theorem nulFree_toDigits (base n : Nat) : NulFree (Nat.toDigits base n) :=
  nulFree_toDigitsCore _ _ _ nulFree_nil

@[simp] theorem nulFree_ofNat (n : Nat) : NulFree (Numeral.ofNat n) := nulFree_toDigits 10 n

@[simp] theorem nulFree_replicate {c : Char} (n : Nat) (h : c ≠ '\x00') :
    NulFree (List.replicate n c) := by
  intro member
  exact h (List.eq_of_mem_replicate member).symm

@[simp] theorem nulFree_padZero (width : Nat) {text : Text} (h : NulFree text) :
    NulFree (padZero width text) := by
  simp [padZero, h]

@[simp] theorem nulFree_ofInt (z : Int) : NulFree (Numeral.ofInt z) := by
  unfold Numeral.ofInt
  split <;> simp

@[simp] theorem nulFree_hex (width n : Nat) : NulFree (hex width n) := by simp [hex]

theorem nulFree_take {text : Text} (n : Nat) (h : NulFree text) : NulFree (text.take n) :=
  h.of_subset fun _ member => List.mem_of_mem_take member

theorem nulFree_drop {text : Text} (n : Nat) (h : NulFree text) : NulFree (text.drop n) :=
  h.of_subset fun _ member => List.mem_of_mem_drop member

theorem nulFree_withSign (negative : Bool) {text : Text} (h : NulFree text) :
    NulFree (Binary64.withSign negative text) := by
  cases negative <;> simp [Binary64.withSign, h]

theorem nulFree_layout {digits : Text} (leading : Int) (h : NulFree digits) :
    NulFree (Binary64.layout digits leading) := by
  have taken := fun n => nulFree_take n h
  have dropped := fun n => nulFree_drop n h
  have tail : NulFree digits.tail := h.of_subset fun _ member => List.mem_of_mem_tail member
  have mark : (if leading < 0 then '-' else '+') ≠ '\x00' := by split <;> decide
  unfold Binary64.layout
  split
  · simp [taken, tail, mark]
  · split <;> simp [h, taken, dropped]

theorem nulFree_dropZeros {digits : Text} (h : NulFree digits) :
    NulFree (Binary64.dropZeros digits).1 :=
  h.of_subset fun _ member => by
    have inside := (List.dropWhile_suffix _).subset (List.mem_reverse.mp member)
    exact List.mem_reverse.mp inside

theorem nulFree_float (x : Binary64) : NulFree x.written := by
  unfold Binary64.written
  split
  · simp
  · exact nulFree_withSign _ (by simp)
  · exact nulFree_withSign _ (by simp)
  · exact nulFree_withSign _ (nulFree_layout _ (nulFree_dropZeros (nulFree_ofNat _)))

theorem nulFree_fixed (places : Nat) (x : Binary64) : NulFree (x.fixed places) := by
  unfold Binary64.fixed
  split
  · simp
  · exact nulFree_withSign _ (by simp)
  · exact nulFree_withSign _ (by simp)

@[simp] theorem nulFree_iso (d : Date) : NulFree d.iso := by simp [Date.iso]

theorem nulFree_writeOffset (offset : Int) : NulFree (Iso.writeOffset offset) := by
  have mark : (if offset < 0 then '-' else '+') ≠ '\x00' := by split <;> decide
  simp [Iso.writeOffset, Iso.fraction, Iso.two, mark]

theorem nulFree_moment (m : Moment) : NulFree (Iso.write ' ' m) := by
  have offset : NulFree ((m.offset?.map Iso.writeOffset).getD []) := by
    cases m.offset? <;> simp [nulFree_writeOffset]
  simp [Iso.write, Iso.writeTime, Iso.two, Iso.fraction, offset]

theorem nulFree_short (m : Moment) : NulFree m.short := by simp [Moment.short]

theorem nulFree_long (m : Moment) : NulFree m.long := by
  simp only [Moment.long, Moment.dial, nulFree_append, nulFree_cons]
  split <;> simp [nulFree_short]

theorem nulFree_escape {quote c : Char} {written : Text} (q : quote ≠ '\x00')
    (found : escape? quote c = some written) : NulFree written := by
  unfold escape? at found
  split at found
  next plain =>
    cases found
    simp only [Bool.or_eq_true, decide_eq_true_eq] at plain
    rcases plain with rfl | rfl <;> simp [q]
  next => split_ifs at found <;> cases found <;> simp

/-- A NUL is always escaped. -/
theorem ne_nul_of_escape {quote c : Char} (found : escape? quote c = none) : c ≠ '\x00' := by
  rintro rfl
  unfold escape? at found
  split_ifs at found
  simp_all

theorem nulFree_quotedChar (quote c : Char) (q : quote ≠ '\x00') :
    NulFree (quotedChar quote c) := by
  unfold quotedChar
  split
  next written found => exact nulFree_escape q found
  next found => split_ifs <;> simp [ne_nul_of_escape found]

theorem quoteFor_ne_nul (text : Text) : quoteFor text ≠ '\x00' := by
  unfold quoteFor
  split <;> decide

theorem nulFree_quoted (text : Text) : NulFree (quoted text) := by
  have q := quoteFor_ne_nul text
  simp [quoted, q, nulFree_flatMap fun c _ => nulFree_quotedChar _ c q]

theorem nulFree_quotedByte (quote : Char) (byte : UInt8) (q : quote ≠ '\x00') :
    NulFree (quotedByte quote byte) := by
  simp only [quotedByte]
  split
  next written found => exact nulFree_escape q found
  next found => simp [ne_nul_of_escape found]

theorem nulFree_quotedBytes (octets : List UInt8) : NulFree (quotedBytes octets) := by
  have q := quoteFor_ne_nul (octets.map fun byte => Char.ofNat byte.toNat)
  simp [quotedBytes, q, nulFree_flatMap fun b _ => nulFree_quotedByte _ b q]

theorem nulFree_term (name : String) {arguments : List Text} (n : NulFree name.toList)
    (h : ∀ t ∈ arguments, NulFree t) : NulFree (termText name arguments) := by
  simp [termText, n, nulFree_intercalate [',', ' '] (by simp) h]

theorem nulFree_writtenSpan (micros : Int) : NulFree (writtenSpan micros) := by
  have part : ∀ (name : String) (n : Int), NulFree name.toList →
      ∀ t ∈ (if n = 0 then [] else [name.toList ++ '=' :: Numeral.ofInt n] : List Text),
        NulFree t := by
    intro name n free t member
    split at member <;> simp_all
  apply nulFree_term _ (by simp)
  intro t member
  split at member
  · have zero : t = ['0'] := by simpa using member
    simp [zero]
  · simp only [List.mem_append] at member
    rcases member with (inside | inside) | inside <;> exact part _ _ (by simp) t inside

theorem nulFree_writtenZone (offset : Int) : NulFree (writtenZone offset) := by
  unfold writtenZone
  split
  · simp
  · exact nulFree_term _ (by simp) (by simp [nulFree_writtenSpan])

theorem nulFree_shownDays (days : Int) : NulFree (shownDays days) := by
  unfold shownDays
  split
  · simp
  · split <;> simp

theorem nulFree_shownSpan (s : Span) : NulFree (shownSpan s) := by
  simp [shownSpan, nulFree_shownDays, Iso.two, Iso.fraction]

theorem nulFree_shownZone (offset : Int) : NulFree (shownZone offset) := by
  simp [shownZone, nulFree_writeOffset]

theorem nulFree_writtenDate (d : Date) : NulFree d.written := by
  apply nulFree_term _ (by simp)
  simp

theorem nulFree_writtenMoment (m : Moment) : NulFree m.written := by
  apply nulFree_term _ (by simp)
  intro t member
  rcases List.mem_append.mp member with number | zone
  · obtain ⟨n, -, rfl⟩ := List.mem_map.mp number
    exact nulFree_ofNat n
  · cases offset : m.offset? <;> simp_all [nulFree_writtenZone]

/-- All characters of a run move to code points that are characters, and none to zero. -/
def CaseRun.Lands (run : CaseRun) : Prop :=
  0 < run.first + run.distance ∧
    (run.last + run.distance < 0xd800 ∨
      0xdfff < run.first + run.distance ∧ run.last + run.distance < 0x110000)

instance (run : CaseRun) : Decidable run.Lands := inferInstanceAs (Decidable (_ ∧ _))

theorem ofNat_ne_nul {n : Nat} (valid : n.isValidChar) (positive : 0 < n) :
    Char.ofNat n ≠ '\x00' := by
  intro same
  have code : (Char.ofNat n).toNat = n := by
    rw [Char.ofNat, dif_pos valid]
    rfl
  rw [same] at code
  exact absurd code (Nat.ne_of_lt positive)

theorem moved_ne_nul {runs : List CaseRun} (lands : ∀ run ∈ runs, run.Lands) {c : Char}
    (ne : c ≠ '\x00') : moved runs c ≠ '\x00' := by
  unfold moved
  split
  next run found =>
    obtain ⟨positive, valid⟩ := lands run (List.mem_of_find?_eq_some found)
    have inside := List.find?_some found
    simp only [CaseRun.moves, Bool.and_eq_true, decide_eq_true_eq] at inside
    obtain ⟨⟨low, high⟩, -⟩ := inside
    have code : 0 < ((c.toNat : Int) + run.distance).toNat := by omega
    refine ofNat_ne_nul ?_ code
    rcases valid with low' | ⟨low', high'⟩
    · exact .inl (by omega)
    · exact .inr ⟨by omega, by omega⟩
  next => exact ne

theorem upperRuns_land : ∀ run ∈ upperRuns, run.Lands := by decide +kernel
theorem lowerRuns_land : ∀ run ∈ lowerRuns, run.Lands := by decide +kernel

theorem upperSequences_nulFree :
    ∀ entry ∈ upperSequences, NulFree (entry.2.map Char.ofNat) := by decide +kernel

theorem nulFree_upper {text : Text} (h : NulFree text) : NulFree (upper text) := by
  refine nulFree_flatMap fun c member => ?_
  have ne : c ≠ '\x00' := fun same => h (same ▸ member)
  unfold upperOf
  split
  next sequence found =>
    obtain ⟨before, after, split, -⟩ := List.lookup_eq_some_iff.mp found
    exact upperSequences_nulFree (c.toNat, sequence) (by simp [split])
  next => simp [moved_ne_nul upperRuns_land ne]

theorem nulFree_lowerFrom (before : Text) {text : Text} (h : NulFree text) :
    NulFree (lowerFrom before text) := by
  induction text generalizing before with
  | nil => exact nulFree_nil
  | cons c rest ih =>
    obtain ⟨ne, later⟩ := nulFree_cons.mp h
    refine nulFree_append.mpr ⟨?_, ih _ later⟩
    unfold lowerOf
    split
    · simp only [nulFree_cons, nulFree_nil, and_true]
      split <;> decide
    · split
      · decide
      · simp [moved_ne_nul lowerRuns_land ne]

theorem nulFree_lower {text : Text} (h : NulFree text) : NulFree (lower text) :=
  nulFree_lowerFrom [] h

end Stencil.Text
