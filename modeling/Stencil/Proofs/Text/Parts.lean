import Mathlib.Data.List.Basic
import Mathlib.Data.List.Infix
import Stencil.Text.Basic

/-! Texts cut apart. Between two texts it is the mark that is replaced, unless one begins
earlier, in the text before it. A text is its parts with the separator between them, and no
part has the separator in it. Of ledgers: which names they hold, and in which order. -/
namespace Stencil

namespace Text

variable {mark front new : Text}

/-- If `mark` follows `text`, it occurs once more, earlier, and begins in `text`. -/
def BeginsIn (mark text : Text) : Prop :=
  ∃ part, part ≠ [] ∧ part <:+ text ∧ mark <+: part ++ mark

theorem cut?_of_after? {text tail : Text} (found : after? mark text = some tail) :
    cut? mark text = some ([], tail) := by
  cases text with
  | nil => rw [cut?, found, Option.map_some]
  | cons c text => rw [cut?, found]

theorem cut?_around (first : ¬mark.BeginsIn front) (rest : Text) :
    cut? mark (front ++ mark ++ rest) = some (front, rest) := by
  induction front with
  | nil => exact cut?_of_after? (after?_eq_some_iff.mpr rfl)
  | cons c front ih =>
    have later : ¬mark.BeginsIn front := fun ⟨part, full, inside, begins⟩ =>
      first ⟨part, full, inside.trans (List.suffix_cons c front), begins⟩
    have here : after? mark (c :: (front ++ mark ++ rest)) = none := by
      cases read : after? mark (c :: (front ++ mark ++ rest)) with
      | none => rfl
      | some tail =>
        have whole : mark <+: c :: front ++ mark ++ rest :=
          ⟨tail, (after?_eq_some_iff.mp read).symm⟩
        have short : mark.length ≤ (c :: front ++ mark).length := by
          rw [List.length_append]
          omega
        have begins := List.prefix_of_prefix_length_le whole (List.prefix_append _ rest) short
        exact absurd ⟨c :: front, List.cons_ne_nil c front, List.suffix_rfl, begins⟩ first
    rw [List.cons_append, List.cons_append, cut?, here]
    dsimp only
    rw [ih later, Option.map_some]

/-- A marker that begins earlier is the one that is found. -/
theorem cut?_earlier (begins : mark.BeginsIn front) (rest : Text) :
    ∃ before tail, cut? mark (front ++ mark ++ rest) = some (before, tail) ∧
      before.length < front.length := by
  induction front with
  | nil =>
    obtain ⟨part, full, inside, -⟩ := begins
    exact absurd (List.suffix_nil.mp inside) full
  | cons c front ih =>
    rw [List.cons_append, List.cons_append, cut?]
    cases read : after? mark (c :: (front ++ mark ++ rest)) with
    | some tail => exact ⟨[], tail, rfl, Nat.succ_pos _⟩
    | none =>
      obtain ⟨part, full, inside, ⟨more, occurs⟩⟩ := begins
      rcases List.suffix_cons_iff.mp inside with rfl | inner
      · have found : c :: (front ++ mark ++ rest) = mark ++ (more ++ rest) := by
          rw [← List.append_assoc, occurs]
          rfl
        rw [after?_eq_some_iff.mpr found] at read
        contradiction
      · obtain ⟨before, tail, cut, shorter⟩ := ih ⟨part, full, inner, more, occurs⟩
        exact ⟨c :: before, tail, by rw [cut]; rfl, Nat.succ_lt_succ shorter⟩

/-- A mark of which no end is a beginning can only begin in a text that has it. -/
theorem not_beginsIn (unbordered : ∀ k < mark.length, 0 < k → ¬mark.drop k <+: mark) {text : Text}
    (absent : ¬mark <:+: text) : ¬mark.BeginsIn text := by
  rintro ⟨part, full, inside, begins⟩
  have border := begins.drop part.length
  rw [List.drop_left] at border
  have positive := List.length_pos_iff.mpr full
  have short : part.length < mark.length := by
    by_contra long
    have covers : mark <+: part :=
      List.prefix_of_prefix_length_le begins (List.prefix_append part _) (Nat.not_lt.mp long)
    exact absent (covers.isInfix.trans inside.isInfix)
  exact unbordered part.length short positive border

/-- Where the first mark is does not depend on what comes after it. -/
theorem cut?_settled {tail : Text} (cut : cut? mark (front ++ mark ++ tail) = some (front, tail))
    (more : Text) : cut? mark (front ++ mark ++ more) = some (front, more) := by
  refine cut?_around (fun begins => ?_) more
  obtain ⟨before, rest, found, shorter⟩ := cut?_earlier begins tail
  obtain ⟨rfl, -⟩ := Prod.mk.inj (Option.some.inj (cut.symm.trans found))
  exact Nat.lt_irrefl _ shorter

theorem replaceFirst_around (first : ¬mark.BeginsIn front) (new rest : Text) :
    replaceFirst mark new (front ++ mark ++ rest) = front ++ new ++ rest := by
  rw [replaceFirst, cut?_around first]

/-- The marker between two texts is replaced, whatever by, if none begins in the text before it, and
only then. -/
theorem replaceFirst_around_iff {rest : Text} :
    (∀ new, replaceFirst mark new (front ++ mark ++ rest) = front ++ new ++ rest) ↔
      ¬mark.BeginsIn front := by
  refine ⟨fun replaced begins => ?_, fun first new => replaceFirst_around first new rest⟩
  obtain ⟨before, tail, cut, shorter⟩ := cut?_earlier begins rest
  -- What is put in shows where it stands, if it is not what stood there before.
  obtain ⟨e, other⟩ : ∃ e, e ≠ front[before.length] := by
    by_cases here : 'a' = front[before.length]
    · exact ⟨'b', fun same => absurd (here.trans same.symm) (by decide)⟩
    · exact ⟨'a', here⟩
  have same := replaced [e]
  rw [replaceFirst, cut] at same
  have there : (before ++ [e] ++ tail)[before.length]? = some e := by simp
  have shown : (front ++ [e] ++ rest)[before.length]? = some front[before.length] := by
    rw [List.append_assoc, List.getElem?_append_left shorter, List.getElem?_eq_getElem shorter]
  exact other (Option.some.inj (there.symm.trans ((congrArg (·[before.length]?) same).trans shown)))

theorem after?_eq_none_iff {lead text : Text} : after? lead text = none ↔ ¬lead <+: text := by
  rw [Option.eq_none_iff_forall_ne_some]
  constructor
  · rintro none ⟨rest, same⟩
    exact none rest (after?_eq_some_iff.mpr same.symm)
  · intro other rest read
    exact other ⟨rest, (after?_eq_some_iff.mp read).symm⟩

/-- A cut finds the mark wherever it is. -/
theorem cut?_eq_none_iff {text : Text} : cut? mark text = none ↔ ¬mark <:+: text := by
  induction text with
  | nil => rw [cut?, Option.map_eq_none_iff, after?_eq_none_iff, List.prefix_nil, List.infix_nil]
  | cons c text ih =>
    rw [List.infix_cons_iff, not_or, ← ih, ← after?_eq_none_iff, cut?]
    cases after? mark (c :: text) <;> simp

/-- There is no mark before the first. -/
theorem unmarked_of_cut? (nonempty : mark ≠ []) {text before tail : Text}
    (cut : cut? mark text = some (before, tail)) : ¬mark <:+: before := by
  induction text generalizing before with
  | nil =>
    obtain ⟨rest, -, same⟩ := Option.map_eq_some_iff.mp cut
    cases same
    exact fun occurs => nonempty (List.infix_nil.mp occurs)
  | cons c text ih =>
    unfold cut? at cut
    split at cut
    next =>
      cases cut
      exact fun occurs => nonempty (List.infix_nil.mp occurs)
    next read =>
      obtain ⟨⟨before', tail'⟩, later, same⟩ := Option.map_eq_some_iff.mp cut
      cases same
      rw [List.infix_cons_iff, not_or]
      refine ⟨fun starts => after?_eq_none_iff.mp read ?_, ih later⟩
      have held := eq_of_cut? later
      rw [held, List.append_assoc]
      exact starts.trans (List.prefix_append (c :: before') _)

variable {separator : Char} {t a part : Text}

theorem parts_of_not_mem (free : separator ∉ t) : parts separator t = [t] := by
  induction t with
  | nil => rfl
  | cons c t ih =>
    obtain ⟨ne, later⟩ := List.ne_and_not_mem_of_not_mem_cons free
    rw [parts, if_neg ne.symm, ih later]

/-- At a separator the parts come apart. -/
theorem parts_join (a b : Text) :
    parts separator (a ++ separator :: b) = parts separator a ++ parts separator b := by
  induction a with
  | nil => simp [parts]
  | cons c a ih =>
    rw [List.cons_append, parts, parts, ih]
    by_cases same : c = separator
    · rw [if_pos same, if_pos same, List.cons_append]
    · rw [if_neg same, if_neg same]
      cases shape : parts separator a with
      | nil => exact absurd shape (parts_ne_nil separator a)
      | cons part more => rfl

theorem parts_append (free : separator ∉ a) (b : Text) :
    parts separator (a ++ separator :: b) = a :: parts separator b := by
  rw [parts_join, parts_of_not_mem free, List.singleton_append]

theorem prefix_of_parts (first : (parts separator t).head? = some part) : part <+: t := by
  induction t generalizing part with
  | nil =>
    cases first
    exact List.nil_prefix
  | cons c t ih =>
    unfold parts at first
    split at first
    · cases first
      exact List.nil_prefix
    · split at first
      next empty => exact absurd empty (parts_ne_nil separator t)
      next head more shape =>
        cases first
        rw [shape] at ih
        exact List.cons_prefix_cons.mpr ⟨rfl, ih rfl⟩

theorem not_mem_of_mem_parts (member : part ∈ parts separator t) : separator ∉ part := by
  induction t generalizing part with
  | nil =>
    cases List.mem_singleton.mp member
    exact List.not_mem_nil
  | cons c t ih =>
    unfold parts at member
    split at member
    · rcases List.mem_cons.mp member with rfl | later
      · exact List.not_mem_nil
      · exact ih later
    next ne =>
      split at member
      next empty => exact absurd empty (parts_ne_nil separator t)
      next head more shape =>
        rw [shape] at ih
        rcases List.mem_cons.mp member with rfl | later
        · intro found
          rcases List.mem_cons.mp found with same | inner
          · exact ne same.symm
          · exact ih List.mem_cons_self inner
        · exact ih (List.mem_cons_of_mem head later)

/-- The parts hold every character of the text but the separators. -/
theorem flatten_parts (separator : Char) (t : Text) :
    (parts separator t).flatten = t.filter (· ≠ separator) := by
  induction t with
  | nil => rfl
  | cons c t ih =>
    unfold parts
    split
    next same => simp [same, ih]
    next ne =>
      split
      next empty => exact absurd empty (parts_ne_nil separator t)
      next head more shape =>
        rw [shape] at ih
        simpa [ne] using ih

/-- Parts that are put together come apart again. -/
theorem parts_intercalate {names : List Text} (full : names ≠ [])
    (free : ∀ name ∈ names, separator ∉ name) :
    parts separator (List.intercalate [separator] names) = names := by
  induction names with
  | nil => contradiction
  | cons name rest ih =>
    obtain ⟨here, later⟩ := List.forall_mem_cons.mp free
    cases rest with
    | nil => simpa using parts_of_not_mem here
    | cons other rest =>
      rw [List.intercalate_cons_cons, List.append_assoc]
      exact (parts_append here _).trans (congrArg (name :: ·) (ih (by simp) later))

end Text

namespace Ledger

variable {α : Type} {ledger : Ledger α} {name : Text} {entry : α}

theorem mem_of_get? (found : ledger.get? name = some entry) : (name, entry) ∈ ledger := by
  induction ledger with
  | nil => contradiction
  | cons pair rest ih =>
    obtain ⟨n, e⟩ := pair
    unfold get? at found
    split at found
    next same =>
      cases found
      simp [same]
    next => exact List.mem_cons_of_mem _ (ih found)

theorem mem_names_iff : name ∈ ledger.names ↔ (ledger.get? name).isSome := by
  induction ledger with
  | nil => simp [names, get?]
  | cons pair rest ih =>
    obtain ⟨n, e⟩ := pair
    by_cases same : n = name
    · simp [names, get?, same]
    · have other : name ≠ n := Ne.symm same
      simpa [names, get?, same, other] using ih

/-- Where no name stands twice, each entry is the one that is found. -/
theorem get?_of_mem (distinct : ledger.names.Nodup) (member : (name, entry) ∈ ledger) :
    ledger.get? name = some entry := by
  induction ledger with
  | nil => contradiction
  | cons pair rest ih =>
    obtain ⟨n, e⟩ := pair
    obtain ⟨absent, distinct⟩ := List.nodup_cons.mp distinct
    rcases List.mem_cons.mp member with same | later
    · cases same
      simp [get?]
    · have other : n ≠ name := by
        rintro rfl
        exact absent (List.mem_map.mpr ⟨(n, entry), later, rfl⟩)
      simpa [get?, other] using ih distinct later

theorem put_of_not_mem (absent : name ∉ ledger.names) (entry : α) :
    ledger.put name entry = ledger ++ [(name, entry)] := by
  induction ledger with
  | nil => rfl
  | cons pair rest ih =>
    obtain ⟨n, e⟩ := pair
    obtain ⟨other, later⟩ := List.ne_and_not_mem_of_not_mem_cons absent
    simp [put, other.symm, ih later]

theorem names_put_of_mem (member : name ∈ ledger.names) (entry : α) :
    (ledger.put name entry).names = ledger.names := by
  induction ledger with
  | nil => contradiction
  | cons pair rest ih =>
    obtain ⟨n, e⟩ := pair
    by_cases same : n = name
    · simp [put, same, names]
    · have later : name ∈ names rest := (List.mem_cons.mp member).resolve_left (Ne.symm same)
      simpa [put, same, names] using ih later

theorem names_put_of_not_mem (absent : name ∉ ledger.names) (entry : α) :
    (ledger.put name entry).names = ledger.names ++ [name] := by
  rw [put_of_not_mem absent]
  simp [names]

theorem names_erase (name : Text) (ledger : Ledger α) :
    (ledger.erase name).names = ledger.names.filter (· ≠ name) := by
  induction ledger with
  | nil => rfl
  | cons pair rest ih =>
    obtain ⟨n, e⟩ := pair
    by_cases same : n = name
    · simpa [erase, same, names] using ih
    · simpa [erase, same, names] using ih

theorem nodup_put (distinct : ledger.names.Nodup) (name : Text) (entry : α) :
    (ledger.put name entry).names.Nodup := by
  by_cases member : name ∈ ledger.names
  · rwa [names_put_of_mem member]
  · rw [names_put_of_not_mem member]
    refine List.nodup_append.mpr ⟨distinct, by simp, fun other inside last new same => ?_⟩
    obtain rfl := List.mem_singleton.mp new
    exact member (same ▸ inside)

end Ledger

end Stencil
