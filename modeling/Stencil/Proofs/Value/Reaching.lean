import Stencil.Proofs.Number.Numerals
import Stencil.Proofs.Outcome
import Stencil.Proofs.Text.Parts
import Stencil.Value.Path

/-! Where a path leads, told one step at a time: to an entry, a length, an item or an
attribute. Following a path comes to what it leads to, and to `absent` if it leads nowhere.
It fails exactly where it meets a value that has positions with a position of too many
digits. -/
namespace Stencil.Value

variable {v w u : Value} {part : Text} {parts : List Text}

/-- What positions count: the items of a sequence, or the octets of bytes. -/
def items? : Value → Option (List Value)
  | sequence _ items => some items
  | bytes octets => some (octets.map fun octet => int octet.toNat)
  | _ => none

/-- Plain digits, one at least. -/
structure IsPosition (part : Text) : Prop where
  nonempty : part ≠ []
  digits : ∀ c ∈ part, c.isDigit = true

/-- The number that plain digits stand for. -/
def position (part : Text) : Nat := Numeral.value (part.map fun c => c.toNat - 48)

/-- One step of a path, as the rules for paths tell it. -/
inductive Leads (part : Text) : Value → Value → Prop
  | entry {entries : List (Value × Value)} {w : Value} : Mapping.get? entries part = some w →
      Leads part (mapping entries) w
  | length {v : Value} {items : List Value} : v.items? = some items → part = "length".toList →
      Leads part v (int items.length)
  | item {v w : Value} {items : List Value} : v.items? = some items → IsPosition part →
      items[position part]? = some w → Leads part v w
  | named {v w : Value} : part.head? ≠ some '_' → v.attribute? part = some w → Leads part v w

/-- A path, given by its parts, leads from the first value to the second. -/
inductive Reaches : List Text → Value → Value → Prop
  | here (v : Value) : Reaches [] v v
  | step {part : Text} {rest : List Text} {v u w : Value} : Leads part v u → Reaches rest u w →
      Reaches (part :: rest) v w

/-- The value has positions, and the part is a position with more digits than are read. -/
structure Refuses (v : Value) (part : Text) : Prop where
  counted : v.items?.isSome = true
  position : IsPosition part
  long : Numeral.maxDigits < part.length

theorem isPosition_iff : part ≠ [] ∧ part.all Char.isDigit = true ↔ IsPosition part := by
  constructor
  · rintro ⟨nonempty, digits⟩
    exact ⟨nonempty, by simpa using digits⟩
  · rintro ⟨nonempty, digits⟩
    exact ⟨nonempty, by simpa using digits⟩

theorem IsPosition.ne_length (h : IsPosition part) : part ≠ "length".toList := by
  rintro rfl
  exact absurd (h.digits 'l' (by decide)) (by decide)

theorem child_of_items {items : List Value} (counted : v.items? = some items) (part : Text) :
    v.child part = element items part := by
  cases v <;> simp [items?] at counted <;> subst counted <;> rfl

theorem element_position (items : List Value) (h : IsPosition part) :
    element items part = if part.length ≤ Numeral.maxDigits
      then .ok (items.getD (position part) absent) else .error .overlong := by
  rw [element, if_neg h.ne_length, if_pos (isPosition_iff.mpr h),
    Numeral.read_digits h.nonempty h.digits]
  by_cases short : part.length ≤ Numeral.maxDigits <;> simp [short, position]

theorem element_other {items : List Value} (length : part ≠ "length".toList)
    (h : ¬IsPosition part) : element items part = .ok absent := by
  rw [element, if_neg length, if_neg (mt isPosition_iff.mp h)]

/-- A value without positions that is no mapping has its attributes alone. -/
theorem child_of_attributes (uncounted : v.items? = none)
    (other : ∀ entries, v ≠ mapping entries) :
    v.child part = .ok
      (if part.head? = some '_' then absent else (v.attribute? part).getD absent) := by
  cases v with
  | mapping entries => exact absurd rfl (other entries)
  | sequence | bytes => contradiction
  | absent | null | text => simp [child, attribute?, attributes]
  | _ => rfl

theorem leads_mapping_iff {entries : List (Value × Value)} :
    Leads part (mapping entries) w ↔ Mapping.get? entries part = some w := by
  constructor
  · intro h
    cases h with
    | entry found => exact found
    | length counted | item counted => contradiction
    | named _ found => contradiction
  · exact .entry

theorem leads_items_iff {items : List Value} (counted : v.items? = some items) :
    Leads part v w ↔ part = "length".toList ∧ w = int items.length ∨
      IsPosition part ∧ items[position part]? = some w := by
  constructor
  · intro h
    cases h with
    | entry found => contradiction
    | length counted' same =>
      obtain rfl := Option.some.inj (counted.symm.trans counted')
      exact .inl ⟨same, rfl⟩
    | item counted' written found =>
      obtain rfl := Option.some.inj (counted.symm.trans counted')
      exact .inr ⟨written, found⟩
    | named _ found => cases v <;> contradiction
  · rintro (⟨same, rfl⟩ | ⟨written, found⟩)
    · exact .length counted same
    · exact .item counted written found

theorem leads_attribute_iff (uncounted : v.items? = none)
    (other : ∀ entries, v ≠ mapping entries) :
    Leads part v w ↔ part.head? ≠ some '_' ∧ v.attribute? part = some w := by
  constructor
  · intro h
    cases h with
    | entry found => exact absurd rfl (other _)
    | length counted | item counted =>
      rw [uncounted] at counted
      contradiction
    | named shown found => exact ⟨shown, found⟩
  · rintro ⟨shown, found⟩
    exact .named shown found

theorem child_of_refuses (h : Refuses v part) : v.child part = .error .overlong := by
  obtain ⟨items, counted⟩ := Option.isSome_iff_exists.mp h.counted
  rw [child_of_items counted, element_position items h.position, if_neg (Nat.not_le.mpr h.long)]

/-- An option as a value: the value in it, or `absent` if there is none. -/
theorem getD_reaches {found? : Option Value} (leads : ∀ w, Leads part v w ↔ found? = some w) :
    Leads part v (found?.getD absent) ∨
      found?.getD absent = absent ∧ ∀ u, ¬Leads part v u := by
  cases found? with
  | none => exact .inr ⟨rfl, fun u h => nomatch (leads u).mp h⟩
  | some w => exact .inl ((leads w).mpr rfl)

/-- A step that is not refused comes to what it leads to, or to `absent`. -/
theorem child_reaches (readable : ¬Refuses v part) :
    ∃ w, v.child part = .ok w ∧ (Leads part v w ∨ w = absent ∧ ∀ u, ¬Leads part v u) := by
  cases counted : v.items? with
  | some items =>
    have leads (w : Value) : Leads part v w ↔ part = "length".toList ∧ w = int items.length ∨
        IsPosition part ∧ items[position part]? = some w := leads_items_iff counted
    rw [child_of_items counted]
    by_cases length : part = "length".toList
    · refine ⟨int items.length, if_pos length, .inl ((leads _).mpr (.inl ⟨length, rfl⟩))⟩
    by_cases written : IsPosition part
    · have short : part.length ≤ Numeral.maxDigits := Nat.not_lt.mp fun long =>
        readable ⟨by simp [counted], written, long⟩
      rw [element_position items written, if_pos short, List.getD_eq_getElem?_getD]
      refine ⟨_, rfl, getD_reaches fun w => ?_⟩
      rw [leads, or_iff_right fun h => length h.1, and_iff_right written]
    · rw [element_other length written]
      refine ⟨absent, rfl, .inr ⟨rfl, fun u h => ?_⟩⟩
      rcases (leads u).mp h with ⟨same, -⟩ | ⟨written', -⟩
      · exact length same
      · exact written written'
  | none =>
    by_cases named : ∃ entries, v = mapping entries
    · obtain ⟨entries, rfl⟩ := named
      exact ⟨_, rfl, getD_reaches fun w => leads_mapping_iff⟩
    · have other : ∀ entries, v ≠ mapping entries := fun entries same => named ⟨entries, same⟩
      rw [child_of_attributes counted other]
      refine ⟨_, rfl, ?_⟩
      by_cases hidden : part.head? = some '_'
      · rw [if_pos hidden]
        exact .inr ⟨rfl, fun u h => ((leads_attribute_iff counted other).mp h).1 hidden⟩
      · rw [if_neg hidden]
        exact getD_reaches fun w => by simp [leads_attribute_iff counted other, hidden]

theorem Leads.child (h : Leads part v w) (readable : ¬Refuses v part) : v.child part = .ok w := by
  cases h with
  | entry found => simp [Value.child, found]
  | length counted same => rw [child_of_items counted, element, if_pos same]
  | item counted written found =>
    have short : part.length ≤ Numeral.maxDigits := Nat.not_lt.mp fun long =>
      readable ⟨by simp [counted], written, long⟩
    rw [child_of_items counted, element_position _ written, if_pos short,
      List.getD_eq_getElem?_getD, found]
    rfl
  | named shown found =>
    have uncounted : v.items? = none := by cases v <;> first | rfl | contradiction
    have other : ∀ entries, v ≠ mapping entries := by
      rintro entries rfl
      contradiction
    rw [child_of_attributes uncounted other, if_neg shown, found]
    rfl

theorem reaches_cons_iff {rest : List Text} :
    Reaches (part :: rest) v w ↔ ∃ u, Leads part v u ∧ Reaches rest u w := by
  constructor
  · intro h
    cases h with
    | step first later => exact ⟨_, first, later⟩
  · rintro ⟨u, first, later⟩
    exact .step first later

theorem reaches_absent (h : Reaches parts absent w) : parts = [] ∧ w = absent := by
  cases h with
  | here => exact ⟨rfl, rfl⟩
  | step first later => cases first <;> contradiction

/-- A path meets a value that refuses one of its parts, after the parts before it. -/
def MeetsRefusal (parts : List Text) (v : Value) : Prop :=
  ∃ before part after u, parts = before ++ part :: after ∧ Reaches before v u ∧ Refuses u part

theorem meetsRefusal_cons_iff {rest : List Text} :
    MeetsRefusal (part :: rest) v ↔
      Refuses v part ∨ ∃ u, Leads part v u ∧ MeetsRefusal rest u := by
  constructor
  · rintro ⟨before, refused, after, u, split, reached, refuses⟩
    cases reached with
    | here =>
      obtain ⟨rfl, -⟩ := List.cons.inj split
      exact .inl refuses
    | step first later =>
      obtain ⟨rfl, rest⟩ := List.cons.inj split
      exact .inr ⟨_, first, _, _, _, _, rest, later, refuses⟩
  · rintro (refuses | ⟨u, first, before, refused, after, w, rfl, reached, refuses⟩)
    · exact ⟨[], part, rest, v, rfl, .here v, refuses⟩
    · exact ⟨part :: before, refused, after, w, rfl, .step first reached, refuses⟩

theorem not_meetsRefusal_absent : ¬MeetsRefusal parts absent := by
  rintro ⟨before, part, after, u, -, reached, refuses⟩
  obtain ⟨-, rfl⟩ := reaches_absent reached
  exact absurd refuses.counted (by decide)

theorem foldlM_child_of_refusal (h : MeetsRefusal parts v) :
    parts.foldlM (fun value part => value.child part) v = .error .overlong := by
  induction parts generalizing v with
  | nil =>
    obtain ⟨before, part, after, u, split, -⟩ := h
    simp at split
  | cons part rest ih =>
    rw [List.foldlM_cons]
    by_cases refuses : Refuses v part
    · rw [child_of_refuses refuses]
      rfl
    · obtain ⟨u, leads, met⟩ := (meetsRefusal_cons_iff.mp h).resolve_left refuses
      rw [leads.child refuses]
      exact ih met

theorem foldlM_child_reaches (h : ¬MeetsRefusal parts v) :
    ∃ w, parts.foldlM (fun value part => value.child part) v = .ok w ∧
      (Reaches parts v w ∨ w = absent ∧ ∀ u, ¬Reaches parts v u) := by
  induction parts generalizing v with
  | nil => exact ⟨v, rfl, .inl (.here v)⟩
  | cons part rest ih =>
    rw [meetsRefusal_cons_iff, not_or, not_exists] at h
    obtain ⟨readable, unmet⟩ := h
    obtain ⟨next, here, led | ⟨rfl, lost⟩⟩ := child_reaches readable
    · obtain ⟨w, later, reached⟩ := ih fun met => unmet next ⟨led, met⟩
      refine ⟨w, by rw [List.foldlM_cons, here]; exact later, ?_⟩
      refine reached.imp (.step led) fun ⟨nothing, lost⟩ => ⟨nothing, fun u reaches => ?_⟩
      obtain ⟨other, first, last⟩ := reaches_cons_iff.mp reaches
      obtain rfl : next = other := Except.ok.inj (here.symm.trans (first.child readable))
      exact lost u last
    -- After a step that leads nowhere the path stays at `absent`, which refuses nothing.
    · obtain ⟨w, later, reached⟩ := ih not_meetsRefusal_absent
      have none : w = absent := by
        rcases reached with reached | ⟨none, -⟩
        · exact (reaches_absent reached).2
        · exact none
      refine ⟨w, by rw [List.foldlM_cons, here]; exact later, .inr ⟨none, fun u reaches => ?_⟩⟩
      obtain ⟨other, first, -⟩ := reaches_cons_iff.mp reaches
      exact lost other first

/-- A path goes on where the path before its point leads. -/
theorem follow_join (a b : Text) (v : Value) :
    v.follow (a ++ '.' :: b) = v.follow a >>= fun w => w.follow b := by
  rw [follow, Text.parts_join, List.foldlM_append]
  rfl

theorem follow_part (single : '.' ∉ part) (v : Value) : v.follow part = v.child part := by
  rw [follow, Text.parts_of_not_mem single]
  exact bind_pure _

theorem follow_of_refusal {path : Text} (h : MeetsRefusal (Text.parts '.' path) v) :
    v.follow path = .error .overlong :=
  foldlM_child_of_refusal h

theorem follow_succeeds_iff {path : Text} :
    (∃ w, v.follow path = .ok w) ↔ ¬MeetsRefusal (Text.parts '.' path) v := by
  constructor
  · rintro ⟨w, found⟩ met
    rw [follow_of_refusal met] at found
    contradiction
  · intro unmet
    obtain ⟨w, found, -⟩ := foldlM_child_reaches unmet
    exact ⟨w, found⟩

theorem reaches_of_follow {path : Text} (found : v.follow path = .ok w) :
    Reaches (Text.parts '.' path) v w ∨ w = absent ∧ ∀ u, ¬Reaches (Text.parts '.' path) v u := by
  obtain ⟨other, found', reached⟩ := foldlM_child_reaches (follow_succeeds_iff.mp ⟨w, found⟩)
  obtain rfl : other = w := Except.ok.inj (found'.symm.trans found)
  exact reached

/-- Nothing but a position of too many digits makes a path fail. -/
theorem follow_eq_error {path : Text} {failure : Failure}
    (failed : v.follow path = .error failure) : failure = .overlong := by
  by_cases met : MeetsRefusal (Text.parts '.' path) v
  · exact (Except.error.inj ((follow_of_refusal met).symm.trans failed)).symm
  · obtain ⟨w, found⟩ := follow_succeeds_iff.mpr met
    rw [found] at failed
    contradiction

theorem follow_succeeds {path : Text} (v : Value) (short : ∀ part ∈ Text.parts '.' path,
    part.all Char.isDigit = true → part.length ≤ Numeral.maxDigits) :
    ∃ w, v.follow path = .ok w := by
  refine follow_succeeds_iff.mpr ?_
  rintro ⟨before, part, after, u, split, -, refuses⟩
  have member : part ∈ Text.parts '.' path := by simp [split]
  have read := short part member (isPosition_iff.mpr refuses.position).2
  exact absurd refuses.long (Nat.not_lt.mpr read)

/-- Following a path gives a value, unless it meets a value with positions at a position of too many
digits. What it gives is what the path leads to, or `absent` if it leads nowhere; what it fails with
is that numeral. -/
theorem follow_reaches (path : Text) (v : Value) :
    ((∃ w, v.follow path = .ok w) ↔ ¬MeetsRefusal (Text.parts '.' path) v) ∧
      (∀ w, v.follow path = .ok w → Reaches (Text.parts '.' path) v w ∨
        w = absent ∧ ∀ u, ¬Reaches (Text.parts '.' path) v u) ∧
      (MeetsRefusal (Text.parts '.' path) v → v.follow path = .error .overlong) :=
  ⟨follow_succeeds_iff, fun _ => reaches_of_follow, follow_of_refusal⟩

/-- A list under a name, with an explicit null inside it. -/
def sampleTags : Value :=
  .mapping [(.text "xs".toList, .sequence .tuple [.int 7, .mapping [(.text ['a'], .null)]])]

theorem follow_reaches_sample :
    sampleTags.follow "xs.1.a".toList = .ok null ∧
      Reaches ["xs".toList, ['1'], ['a']] sampleTags null := by
  have found : sampleTags.follow "xs.1.a".toList = .ok null := rfl
  refine ⟨found, ?_⟩
  rcases (follow_reaches "xs.1.a".toList sampleTags).2.1 null found with reached | ⟨none, -⟩
  · exact reached
  · cases none

theorem follow_of_long_index (long : Numeral.maxDigits < part.length)
    (ones : ∀ c ∈ part, c = '1') : (sequence .list []).follow part = .error .overlong := by
  have nonempty : part ≠ [] := List.ne_nil_of_length_pos (Nat.zero_lt_of_lt long)
  have digits : ∀ c ∈ part, c.isDigit = true := fun c mem => ones c mem ▸ rfl
  have dotless : '.' ∉ part := fun dot => absurd (ones '.' dot) (by decide)
  have whole : Text.parts '.' part = [part] := Text.parts_of_not_mem dotless
  exact follow_of_refusal ⟨[], part, [], _, whole, .here _, ⟨rfl, ⟨nonempty, digits⟩, long⟩⟩

/-- Not every path gives a value. -/
theorem long_index_gives_no_value :
    ¬∃ w, (sequence .list []).follow (List.replicate (Numeral.maxDigits + 1) '1') = .ok w := by
  have long : Numeral.maxDigits < (List.replicate (Numeral.maxDigits + 1) '1').length := by simp
  rintro ⟨w, found⟩
  have fails := follow_of_long_index long fun c => List.eq_of_mem_replicate
  cases found.symm.trans fails

end Stencil.Value
