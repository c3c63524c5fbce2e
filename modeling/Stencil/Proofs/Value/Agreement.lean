import Mathlib.Tactic.SplitIfs
import Stencil.Proofs.Text.Parts
import Stencil.Render.Engine

/-! Values that agree in all that is asked of them. Contexts that differ in one entry agree
on all paths that start with another name. Without its private attributes a value shows the
same, chooses the same branch and leads by each path to what is the same but for these. -/
namespace Stencil

namespace Value

theorem sameKey_text (v : Value) (name : Text) : v.sameKey (.text name) = v.isText name := by
  cases v with
  | text u =>
    rw [sameKey, isText]
    exact decide_eq_decide.mpr eq_comm
  | sequence kind items => cases kind <;> simp [sameKey, isText]
  | _ => simp [sameKey, isText]

theorem isText_iff {v : Value} {name : Text} : v.isText name = true ↔ v = .text name := by
  cases v <;> simp [isText, eq_comm]

end Value

namespace Mapping

variable {m other : Mapping} {name : Text}

@[simp] theorem get?_set (m : Mapping) (name part : Text) (value : Value) :
    (m.set name value).get? part = if name = part then some value else m.get? part := by
  unfold Mapping.set
  induction m with
  | nil => by_cases same : name = part <;> simp [insert, get?, Value.isText, same, eq_comm]
  | cons entry rest ih =>
    obtain ⟨key, old⟩ := entry
    simp only [get?] at ih
    rw [insert, Value.sameKey_text]
    by_cases here : key.isText name = true
    · obtain rfl := Value.isText_iff.mp here
      by_cases same : name = part <;> simp [get?, Value.isText, same, eq_comm]
    · rw [if_neg here]
      by_cases found : key.isText part = true
      · obtain rfl := Value.isText_iff.mp found
        have ne : name ≠ part := fun same => here (by simp [Value.isText, same])
        simp [get?, Value.isText, ne]
      · simp only [get?, found, List.find?_cons]
        exact ih

/-- The mappings differ in the entry under `name` at most: in its value, or in its being there. -/
def AgreeBut (name : Text) (m other : Mapping) : Prop :=
  ∀ part, part ≠ name → m.get? part = other.get? part

theorem agreeBut_set (m : Mapping) (name : Text) (value : Value) :
    AgreeBut name (m.set name value) m := by
  intro part ne
  rw [get?_set, if_neg ne.symm]

theorem AgreeBut.set (h : AgreeBut name m other) (key : Text) (value : Value) :
    AgreeBut name (m.set key value) (other.set key value) := by
  intro part ne
  rw [get?_set, get?_set, h part ne]

/-- The names of a round are added to both alike. -/
theorem AgreeBut.withItem (h : AgreeBut name m other) (item : Value) (index total : Int) :
    AgreeBut name (m.withItem item index total) (other.withItem item index total) :=
  (((h.set _ _).set _ _).set _ _).set _ _

theorem AgreeBut.follow (h : AgreeBut name m other) {path : Text}
    (elsewhere : ¬name <+: path) :
    (Value.mapping m).follow path = (Value.mapping other).follow path := by
  have first := @Text.prefix_of_parts '.' path
  unfold Value.follow
  cases shape : Text.parts '.' path with
  | nil => exact absurd shape (Text.parts_ne_nil '.' path)
  | cons part more =>
    rw [shape] at first
    have ne : part ≠ name := fun same => elsewhere (same ▸ first rfl)
    simp only [List.foldlM_cons, Value.child, h part ne]

end Mapping

namespace Value

mutual

/-- The value without the attributes that start with an underscore, here and in all its parts. -/
def bare : Value → Value
  | sequence kind items => sequence kind (bareItems items)
  | mapping entries => mapping (bareEntries entries)
  | object attributes shown explicit => object (bareAttributes attributes) shown explicit
  | value => value

def bareItems : List Value → List Value
  | [] => []
  | item :: rest => bare item :: bareItems rest

def bareEntries : List (Value × Value) → List (Value × Value)
  | [] => []
  | (key, value) :: rest => (bare key, bare value) :: bareEntries rest

def bareAttributes : List (Text × Value) → List (Text × Value)
  | [] => []
  | (name, value) :: rest =>
    if name.head? = some '_' then bareAttributes rest else (name, bare value) :: bareAttributes rest

end

end Value

def Mapping.bare (m : Mapping) : Mapping := m.map (Prod.map Value.bare Value.bare)

namespace Value

theorem bareItems_eq (items : List Value) : bareItems items = items.map bare := by
  induction items with
  | nil => rfl
  | cons item rest ih => rw [bareItems, ih, List.map_cons]

theorem bareEntries_eq (entries : List (Value × Value)) :
    bareEntries entries = Mapping.bare entries := by
  induction entries with
  | nil => rfl
  | cons entry rest ih => rw [bareEntries, ih, Mapping.bare, Mapping.bare, List.map_cons, Prod.map]

@[simp] theorem bare_sequence (kind : SequenceKind) (items : List Value) :
    (sequence kind items).bare = sequence kind (items.map bare) := by
  rw [bare, bareItems_eq]

@[simp] theorem bare_mapping (entries : List (Value × Value)) :
    (mapping entries).bare = mapping (Mapping.bare entries) := by
  rw [bare, bareEntries_eq]

theorem bareAttributes_append (front back : List (Text × Value)) :
    bareAttributes (front ++ back) = bareAttributes front ++ bareAttributes back := by
  induction front with
  | nil => rfl
  | cons pair front ih =>
    obtain ⟨name, value⟩ := pair
    rw [List.cons_append, bareAttributes, bareAttributes, ih]
    by_cases hidden : name.head? = some '_'
    · rw [if_pos hidden, if_pos hidden]
    · rw [if_neg hidden, if_neg hidden, List.cons_append]

/-- It does not matter whether a private attribute is there, and what it holds. -/
theorem bare_private {name : Text} (hidden : name.head? = some '_') (value : Value)
    (front back : List (Text × Value)) (shown explicit : Text) :
    (object (front ++ (name, value) :: back) shown explicit).bare =
      (object (front ++ back) shown explicit).bare := by
  rw [bare, bare, bareAttributes_append, bareAttributes, if_pos hidden, bareAttributes_append]

theorem lookup_bareAttributes {name : Text} (shared : name.head? ≠ some '_')
    (attributes : List (Text × Value)) :
    (bareAttributes attributes).lookup name = (attributes.lookup name).map bare := by
  induction attributes with
  | nil => rfl
  | cons pair rest ih =>
    obtain ⟨other, value⟩ := pair
    rw [bareAttributes]
    by_cases same : name = other
    · subst same
      rw [if_neg shared, List.lookup_cons_self, List.lookup_cons_self, Option.map_some]
    · have apart : (name == other) = false := beq_eq_false_iff_ne.mpr same
      by_cases hidden : other.head? = some '_'
      · rw [if_pos hidden, ih, List.lookup_cons, apart]
      · rw [if_neg hidden, List.lookup_cons, apart, ih, List.lookup_cons, apart]

mutual

@[simp] theorem written_bare (v : Value) : v.bare.written = v.written := by
  cases v with
  | sequence kind items => rw [bare, written, written, writtenItems_bare items]
  | mapping entries => rw [bare, written, written, writtenEntries_bare entries]
  | _ => rfl

theorem writtenItems_bare (items : List Value) :
    writtenItems (bareItems items) = writtenItems items := by
  cases items with
  | nil => rfl
  | cons item rest =>
    rw [bareItems, writtenItems, writtenItems, written_bare item, writtenItems_bare rest]

theorem writtenEntries_bare (entries : List (Value × Value)) :
    writtenEntries (bareEntries entries) = writtenEntries entries := by
  cases entries with
  | nil => rfl
  | cons entry rest =>
    obtain ⟨key, value⟩ := entry
    rw [bareEntries, writtenEntries, writtenEntries, written_bare key, written_bare value,
      writtenEntries_bare rest]

end

mutual

@[simp] theorem display_bare (v : Value) : v.bare.display = v.display := by
  cases v with
  | sequence kind items => rw [bare, display, display, displayItems_bare items]
  | mapping entries =>
    have same := written_bare (mapping entries)
    rw [bare] at same
    rw [bare, display, display, same]
  | _ => rfl

theorem displayItems_bare (items : List Value) :
    displayItems (bareItems items) = displayItems items := by
  cases items with
  | nil => rfl
  | cons item rest =>
    rw [bareItems, displayItems, displayItems, display_bare item, displayItems_bare rest]

end

@[simp] theorem holds_bare (v : Value) : v.bare.holds = v.holds := by
  cases v with
  | sequence kind items => cases items <;> rfl
  | _ => rfl

@[simp] theorem isText_bare (v : Value) (name : Text) : v.bare.isText name = v.isText name := by
  cases v <;> rfl

theorem get?_bare (m : Mapping) (name : Text) :
    m.bare.get? name = (m.get? name).map bare := by
  rw [Mapping.get?, Mapping.get?, Mapping.bare, List.find?_map, Option.map_map, Option.map_map]
  have same : (fun e : Value × Value => e.1.isText name) ∘ Prod.map bare bare =
      fun e => e.1.isText name := funext fun e => isText_bare e.1 name
  rw [same]
  rfl

theorem element_bare (items : List Value) (part : Text) :
    element (items.map bare) part = bare <$> element items part := by
  unfold element
  rw [List.length_map]
  by_cases counted : part = "length".toList
  · rw [if_pos counted, if_pos counted]
    rfl
  · rw [if_neg counted, if_neg counted]
    by_cases digits : part ≠ [] ∧ part.all Char.isDigit
    · rw [if_pos digits, if_pos digits]
      cases Numeral.read part with
      | number index =>
        dsimp only
        rw [List.getD_eq_getElem?_getD, List.getD_eq_getElem?_getD, List.getElem?_map]
        cases items[index.toNat]? <;> rfl
      | _ => rfl
    · rw [if_neg digits, if_neg digits]
      rfl

theorem lookup_map_bare (attributes : List (Text × Value)) (name : Text) :
    (attributes.map (Prod.map id bare)).lookup name = (attributes.lookup name).map bare := by
  induction attributes with
  | nil => rfl
  | cons pair rest ih =>
    obtain ⟨other, value⟩ := pair
    rw [List.map_cons, Prod.map_apply, id_eq, List.lookup_cons, List.lookup_cons, ih]
    cases name == other <;> rfl

/-- Only an object chooses the names of its attributes; what others have is bare itself. -/
theorem attributes_bare (v : Value) (chosen : ∀ a s t, v ≠ object a s t) :
    v.bare.attributes = v.attributes.map (Prod.map id bare) := by
  cases v with
  | moment m =>
    change momentAttributes m = (momentAttributes m).map (Prod.map id bare)
    unfold momentAttributes
    cases m.offset? <;> rfl
  | object attributes shown explicit => exact absurd rfl (chosen _ _ _)
  | _ => rfl

theorem attribute?_bare {name : Text} (shared : name.head? ≠ some '_') (v : Value) :
    v.bare.attribute? name = (v.attribute? name).map bare := by
  by_cases chosen : ∃ a s t, v = object a s t
  · obtain ⟨attributes, shown, explicit, rfl⟩ := chosen
    exact lookup_bareAttributes shared attributes
  · rw [attribute?, attributes_bare v fun a s t same => chosen ⟨a, s, t, same⟩,
      lookup_map_bare, attribute?]

/-- The numbers of a sequence of octets have no parts that could be private. -/
theorem map_bare_octets (octets : List UInt8) :
    (octets.map fun octet => int octet.toNat).map bare =
      octets.map fun octet => int octet.toNat := by
  rw [List.map_map]
  rfl

theorem child_bare (part : Text) (v : Value) : v.bare.child part = bare <$> v.child part := by
  have named (v : Value) :
      (if part.head? = some '_' then absent else (v.bare.attribute? part).getD absent) =
        (if part.head? = some '_' then absent else (v.attribute? part).getD absent).bare := by
    by_cases hidden : part.head? = some '_'
    · rw [if_pos hidden, if_pos hidden]
      rfl
    · rw [if_neg hidden, if_neg hidden, attribute?_bare hidden]
      cases v.attribute? part <;> rfl
  cases v with
  | absent | null | text _ => rfl
  | mapping entries =>
    rw [bare_mapping, child, get?_bare, child]
    cases Mapping.get? entries part <;> rfl
  | sequence kind items =>
    rw [bare_sequence, child, child]
    exact element_bare items part
  | bytes octets =>
    have whole := element_bare (octets.map fun octet => int octet.toNat) part
    rw [map_bare_octets] at whole
    exact whole
  | bool b => exact congrArg Except.ok (named (.bool b))
  | int z => exact congrArg Except.ok (named (.int z))
  | float x => exact congrArg Except.ok (named (.float x))
  | date d => exact congrArg Except.ok (named (.date d))
  | moment m => exact congrArg Except.ok (named (.moment m))
  | zone offset => exact congrArg Except.ok (named (.zone offset))
  | span s => exact congrArg Except.ok (named (.span s))
  | object attributes shown explicit =>
    exact congrArg Except.ok (named (.object attributes shown explicit))

theorem follow_bare (path : Text) (v : Value) : v.bare.follow path = bare <$> v.follow path := by
  unfold follow
  generalize Text.parts '.' path = parts
  induction parts generalizing v with
  | nil => rfl
  | cons part rest ih =>
    rw [List.foldlM_cons, List.foldlM_cons, child_bare]
    cases v.child part with
    | error failure => rfl
    | ok next => exact ih next

theorem set_bare (m : Mapping) (name : Text) (value : Value) :
    m.bare.set name value.bare = (m.set name value).bare := by
  unfold Mapping.set
  induction m with
  | nil => rfl
  | cons entry rest ih =>
    obtain ⟨key, old⟩ := entry
    rw [Mapping.bare, List.map_cons, Prod.map, Mapping.insert, Mapping.insert, sameKey_text,
      sameKey_text, isText_bare]
    by_cases here : key.isText name = true
    · rw [if_pos here, if_pos here]
      rfl
    · rw [if_neg here, if_neg here]
      exact congrArg ((key.bare, old.bare) :: ·) ih

theorem withItem_bare (m : Mapping) (item : Value) (index total : Int) :
    m.bare.withItem item.bare index total = (m.withItem item index total).bare := by
  simp only [Mapping.withItem, ← set_bare]
  rfl

theorem itemScope_bare (context item : Value) (index total : Int) :
    itemScope context.bare item.bare index total = bare <$> itemScope context item index total := by
  cases context with
  | mapping m =>
    rw [bare_mapping, itemScope, withItem_bare, ← bare_mapping]
    rfl
  | _ => rfl

end Value

end Stencil
