import Stencil.Proofs.Render.Loop
import Stencil.Proofs.Value.Agreement
import Stencil.Proofs.Value.Reaching

/-! Unrolling a loop. Its body shows the item of the round, or something inside it, between
literal texts. Instead of repeating the body one may write it once for each item, with the
position of the item where the body names it: the page is the same. -/
namespace Stencil

open Markup Text

/-- The way from an item to something inside it. It may be odd, or lead nowhere. -/
abbrev Inner := {path : Text // ∀ c ∈ path, isPathChar .page c = true}

/-- A part of a body: literal text, or the item itself, or what lies inside it. -/
inductive Portion
  | literal (l : Template.Literal)
  | shown (raw : Bool) (inner? : Option Inner)

/-- A path to an item, taken on. -/
def stemmed (stem : Text) : Option Inner → Text
  | none => stem
  | some inner => stem ++ '.' :: inner.1

/-- A part as it is written where `stem` leads to the item. -/
def Portion.print (stem : Text) : Portion → Text
  | literal l => l.text
  | shown raw inner? => Template.variableTag raw (stemmed stem inner?)

def printBody (stem : Text) (body : List Portion) : Text := body.flatMap (Portion.print stem)

/-- The path to the item at a position of the sequence that `path` leads to. -/
def atPosition (path : Text) (i : Nat) : Text := path ++ '.' :: Numeral.ofNat i

/-- The body once for each of the first positions. -/
def unrolled (path : Text) (body : List Portion) (count : Nat) : Text :=
  (List.range count).flatMap fun i => printBody (atPosition path i) body

def showValue (raw : Bool) (value : Value) : Except Failure Text := do
  let text ← value.display
  return if raw then text else escape text

/-- What a part shows of an item, wherever the item is found. -/
def Portion.show (item : Value) : Portion → Except Failure Text
  | literal l => return l.text
  | shown raw none => showValue raw item
  | shown raw (some inner) => item.follow inner.1 >>= showValue raw

def showBody (body : List Portion) (item : Value) : Except Failure Text :=
  List.flatten <$> body.mapM (Portion.show item)

section Positions

variable {v : Value} {path : Text} {kind : SequenceKind} {items : List Value}
variable (found : v.follow path = .ok (.sequence kind items))
include found

theorem Value.follow_length : v.follow (path ++ ".length".toList) = .ok (.int items.length) := by
  have step : (Value.sequence kind items).follow "length".toList = .ok (.int items.length) :=
    Value.follow_part (by decide) _
  change v.follow (path ++ '.' :: "length".toList) = _
  rw [Value.follow_join, found]
  exact step

theorem Value.follow_position {i : Nat} (short : Numeral.Writable i) :
    v.follow (atPosition path i) = .ok (items.getD i .absent) := by
  have digits : ∀ c ∈ Numeral.ofNat i, c.isDigit = true := fun _ => isDigit_of_mem_ofNat
  have position : Value.IsPosition (Numeral.ofNat i) := ⟨Numeral.ofNat_ne_nil i, digits⟩
  have single : '.' ∉ Numeral.ofNat i := fun member => absurd (digits _ member) (by decide)
  have number : Value.position (Numeral.ofNat i) = i := by
    rw [Value.position, ← filterMap_digit? digits, value_ofNat]
  have few : (Numeral.ofNat i).length ≤ Numeral.maxDigits := short
  have step : (Value.sequence kind items).follow (Numeral.ofNat i) =
      .ok (items.getD i .absent) := by
    rw [Value.follow_part single, Value.child_of_items rfl, Value.element_position items position,
      if_pos few, number]
  rw [atPosition, Value.follow_join, found]
  exact step

end Positions

theorem Mapping.follow_this (m : Mapping) (item : Value) (index total : Int) :
    (Value.mapping (m.withItem item index total)).follow "this".toList = .ok item := by
  have single : '.' ∉ "this".toList := by decide
  rw [Value.follow_part single, Value.child, Mapping.withItem]
  simp only [Mapping.get?_set]
  rfl

section Texts

variable {ι : Type} {l : List ι} {print : ι → Text} {shows : ι → Except Failure Text}

theorem plain_flatMap (plain : ∀ i ∈ l, Plain (print i)) : Plain (l.flatMap print) := by
  induction l with
  | nil => exact .nil
  | cons i l ih =>
    obtain ⟨here, later⟩ := List.forall_mem_cons.mp plain
    exact here.append (ih later)

theorem fillVariables_flatMap {place : Place} {context : Value} (plain : ∀ i ∈ l, Plain (print i))
    (each : ∀ i ∈ l, Render.fillVariables place context (print i) = shows i) :
    Render.fillVariables place context (l.flatMap print) = List.flatten <$> l.mapM shows := by
  induction l with
  | nil => exact rewrite_nil
  | cons i l ih =>
    obtain ⟨plain', later⟩ := List.forall_mem_cons.mp plain
    obtain ⟨here, each'⟩ := List.forall_mem_cons.mp each
    rw [List.flatMap_cons, Render.fillVariables, plain'.rewrite_append]
    change (Render.fillVariables place context (print i) >>= fun front =>
      Render.fillVariables place context (l.flatMap print) >>= fun back =>
        pure (front ++ back)) = _
    rw [here, ih later each', List.mapM_cons]
    simp only [map_eq_pure_bind, bind_assoc, pure_bind, List.flatten_cons]

theorem nulFree_flatten_mapM {text : Text} (free : ∀ i ∈ l, ∀ t, shows i = .ok t → NulFree t)
    (shown : List.flatten <$> l.mapM shows = .ok text) : NulFree text := by
  obtain ⟨texts, results, rfl⟩ := map_eq_ok_iff.mp shown
  intro member
  obtain ⟨t, inside, nul⟩ := List.mem_flatten.mp member
  obtain ⟨i, known, result⟩ := mem_of_mapM_eq_ok results t inside
  exact free i known t result nul

end Texts

section Body

variable {stem : Text} (full : stem ≠ []) (all : ∀ c ∈ stem, isPathChar .page c = true)
include full all

theorem stemmed_path (inner? : Option Inner) :
    stemmed stem inner? ≠ [] ∧ ∀ c ∈ stemmed stem inner?, isPathChar .page c = true := by
  cases inner? with
  | none => exact ⟨full, all⟩
  | some inner =>
    refine ⟨by simp [stemmed], fun c member => ?_⟩
    rcases List.mem_append.mp member with before | after
    · exact all c before
    · rcases List.mem_cons.mp after with rfl | inside
      · decide
      · exact inner.2 c inside

theorem plain_portion (part : Portion) : Plain (part.print stem) := by
  cases part with
  | literal l => exact plain_of_braceless l.noOpening
  | shown raw inner? =>
    obtain ⟨full', all'⟩ := stemmed_path full all inner?
    exact plain_variableTag raw full' all'

theorem plain_printBody (body : List Portion) : Plain (printBody stem body) :=
  plain_flatMap fun part _ => plain_portion full all part

variable {context item : Value} (leads : context.follow stem = .ok item) (place : Place)
include leads

theorem fillVariables_portion (part : Portion) :
    Render.fillVariables place context (part.print stem) = part.show item := by
  cases part with
  | literal l => exact rewrite_literal l.noOpening
  | shown raw inner? =>
    obtain ⟨full', all'⟩ := stemmed_path full all inner?
    have shape := (variableTag_shape raw all').anywhere place
    have nonempty : Template.variableTag raw (stemmed stem inner?) ≠ [] := by
      intro none
      have opens := shape.opens
      rw [none] at opens
      contradiction
    have shows : Render.showVariable context ⟨raw, stemmed stem inner?⟩ =
        context.follow (stemmed stem inner?) >>= showValue raw := rfl
    rw [Portion.print, ← List.append_nil (Template.variableTag _ _), Render.fillVariables,
      rewrite_found nonempty (shape.found full' []), rewrite_nil, shows]
    simp only [map_pure, List.append_nil, bind_pure]
    cases inner? with
    | none => rw [stemmed, leads]; rfl
    | some inner => rw [stemmed, Value.follow_join, leads]; rfl

theorem fillVariables_printBody (body : List Portion) :
    Render.fillVariables place context (printBody stem body) = showBody body item :=
  fillVariables_flatMap (fun part _ => plain_portion full all part)
    fun part _ => fillVariables_portion full all leads place part

end Body

theorem nulFree_showValue {raw : Bool} {value : Value} {text : Text} (free : value.NulFree)
    (shown : showValue raw value = .ok text) : NulFree text := by
  obtain ⟨plain, displayed, same⟩ := bind_eq_ok_iff.mp shown
  cases same
  exact nulFree_ite (free.display displayed) (free.display displayed).escape

theorem nulFree_showBody {body : List Portion} {item : Value} {text : Text} (free : item.NulFree)
    (shown : showBody body item = .ok text) : NulFree text := by
  refine nulFree_flatten_mapM (fun part _ t shown => ?_) shown
  match part, shown with
  | .literal l, shown => exact pure_eq_ok_iff.mp shown ▸ l.nulFree
  | .shown raw none, shown => exact nulFree_showValue free shown
  | .shown raw (some inner), shown =>
    obtain ⟨value, followed, shown⟩ := bind_eq_ok_iff.mp shown
    exact nulFree_showValue (free.follow followed) shown

def showItems (body : List Portion) (items : List Value) : Except Failure Text :=
  List.flatten <$> items.mapM (showBody body)

/-- A computation that holds nothing aside. -/
def lifting : Translation (Except Failure) Render.Holding :=
  ⟨fun x => liftM x, fun _ => liftM_pure _, fun _ _ => liftM_bind _ _⟩

section Rounds

variable {catalog : Catalog} {m : Mapping} {items : List Value}

/-- A round in which what is left after the choices is plain. -/
theorem runRound_of_chosen {body text : Text} {context : Value}
    (chosen : Render.chooseBranches .item context body = pure text) (plain : Plain text) :
    Render.runRound catalog context body =
      lifting.read (Render.fillVariables .item context text) := by
  rw [Render.runRound, chosen, liftM_pure, pure_bind, plain.callHelpers, pure_bind]
  rfl

theorem Markup.Plain.runRound {text : Text} {context : Value} (h : Plain text) :
    Render.runRound catalog context text =
      lifting.read (Render.fillVariables .item context text) :=
  runRound_of_chosen (rewrite_unread (consumes_choice .item)
    fun _ part opens => (h.opening part opens).choice?_eq_none .item) h

theorem this_path : ∀ c ∈ "this".toList, isPathChar .page c = true := List.all_eq_true.mp rfl

theorem plain_this (body : List Portion) : Plain (printBody "this".toList body) :=
  plain_printBody (by decide) this_path body

theorem runRounds_printBody (body : List Portion) :
    Render.runRounds catalog (.mapping m) (printBody "this".toList body) items =
      lifting.read (showItems body items) := by
  rw [showItems, lifting.map, lifting.mapM]
  refine runRounds_eq fun item index => ?_
  rw [(plain_this body).runRound,
    fillVariables_printBody (by decide) this_path (m.follow_this item index items.length)]

/-- The body at all positions of a sequence shows all its items. -/
theorem fillVariables_unrolled {context : Value} {path : Text} {kind : SequenceKind}
    (all : ∀ c ∈ path, isPathChar .page c = true)
    (found : context.follow path = .ok (.sequence kind items))
    (countable : Numeral.Writable items.length) (body : List Portion) :
    Plain (unrolled path body items.length) ∧
      Render.fillVariables .page context (unrolled path body items.length) =
        showItems body items := by
  have full' (i : Nat) : atPosition path i ≠ [] := by simp [atPosition]
  have all' (i : Nat) : ∀ c ∈ atPosition path i, isPathChar .page c = true := by
    intro c member
    rcases List.mem_append.mp member with before | after
    · exact all c before
    · rcases List.mem_cons.mp after with rfl | digit
      · decide
      · simp [isPathChar, isNameChar, Char.isAlphanum, isDigit_of_mem_ofNat digit]
  have short : ∀ i ∈ List.range items.length, Numeral.Writable i := by
    intro i member
    have bound := List.mem_range.mp member
    have large := Numeral.writable_iff.mp countable
    exact Numeral.writable_iff.mpr (by omega)
  have plain : ∀ i ∈ List.range items.length, Plain (printBody (atPosition path i) body) :=
    fun i _ => plain_printBody (full' i) (all' i) body
  refine ⟨plain_flatMap plain, ?_⟩
  have each : ∀ i ∈ List.range items.length,
      Render.fillVariables .page context (printBody (atPosition path i) body) =
        showBody body (items.getD i .absent) :=
    fun i member => fillVariables_printBody (full' i) (all' i)
      (Value.follow_position found (short i member)) .page body
  have positions : (List.range items.length).map (fun i => items.getD i .absent) = items :=
    List.ext_getElem (by simp) fun i _ bound => by simp [bound]
  rw [unrolled, fillVariables_flatMap plain each, showItems]
  conv_rhs => rw [← positions, List.mapM_map]
  rfl

end Rounds

/-- A loop gives the page that its body gives when it is written once for each item, whatever the
items are, as long as their positions can be written, and under every token. The path to the
sequence leads on to its length. -/
theorem render_unrolled (e : Engine) (reader : Reader) (tokens other : Tokens) (m : Mapping)
    (path : Template.Word (isPathChar .page)) (kind : SequenceKind) (items : List Value)
    (body : List Portion) (earlier : List FilePath) (free : (Value.mapping m).NulFree)
    (found : (Value.mapping m).follow path.text = .ok (.sequence kind items))
    (countable : Numeral.Writable items.length) :
    (e.render reader tokens (.mapping m)
        (loopText path.text (printBody "this".toList body))).outcome earlier =
      (e.render reader other (.mapping m)
        (unrolled path.text body items.length)).outcome earlier ∧
      (Value.mapping m).follow (path.text ++ ".length".toList) = .ok (.int items.length) := by
  refine ⟨?_, Value.follow_length found⟩
  have plain := plain_this body
  obtain ⟨plain', fills⟩ := fillVariables_unrolled path.allows found countable body
  have looped : ∀ shelf, (Render.runLoop e.catalog (.mapping m)
      ⟨path.text, printBody "this".toList body, none⟩).run shelf =
        (·, shelf) <$> showItems body items := by
    intro shelf
    unfold Render.runLoop
    rw [found]
    change (Render.runRounds e.catalog (.mapping m) (printBody "this".toList body) items) shelf = _
    rw [runRounds_printBody]
    rfl
  rw [render_loopText path.nonempty path.allows plain.loopBody, plain'.render, fills, looped]
  cases shown : showItems body items with
  | error failure => rfl
  | ok text =>
    have itemsFree := (Value.every_sequence.mp (free.follow found)).2
    have textFree : NulFree text := nulFree_flatten_mapM
      (fun item member _ shown => nulFree_showBody (itemsFree item member) shown) shown
    change (Shelf.restore _ text, earlier) = (Shelf.restore _ text, earlier)
    rw [Shelf.restore_of_nulFree textFree, Shelf.restore_of_nulFree textFree]

def oddItems : List Value :=
  [.null, .sequence .list [.text ['<']], .mapping [(.text ['0'], .int 7)]]

def oddNames : Mapping :=
  [(.text "this".toList, .text ['t']),
    (.text ['d'], .mapping [(.text "xs".toList, .sequence .tuple oddItems)])]

def oddBody : List Portion :=
  [.literal ⟨['('], by decide, by decide⟩, .shown false (some ⟨['0'], List.all_eq_true.mp rfl⟩),
    .literal ⟨[')'], by decide, by decide⟩, .shown true none]

theorem render_unrolled_sample :
    (sampleEngine.render sampleReader Token.ofNat (.mapping oddNames)
        (loopText "d.xs".toList (printBody "this".toList oddBody))).outcome [] =
      (sampleEngine.render sampleReader (fun n => .ofNat (n + 1)) (.mapping oddNames)
        (unrolled "d.xs".toList oddBody oddItems.length)).outcome [] ∧
    (Value.mapping oddNames).follow "d.xs.length".toList = .ok (.int oddItems.length) ∧
    ((sampleEngine.render sampleReader Token.ofNat (.mapping oddNames)
      (loopText "d.xs".toList (printBody "this".toList oddBody))).outcome []).1.toOption =
        some "()(&lt;)<(7)\x7b'0': 7\x7d".toList := by
  have free : (Value.mapping oddNames).NulFree := by
    simp [oddNames, oddItems, Value.NulFree, Value.Every, Value.EveryItem, Value.EveryEntry,
      Value.Plain]
  have countable : Numeral.Writable oddItems.length := by decide
  obtain ⟨same, length⟩ := render_unrolled sampleEngine sampleReader Token.ofNat
    (fun n => .ofNat (n + 1)) oddNames ⟨"d.xs".toList, by decide, by decide⟩ .tuple oddItems oddBody
    [] free rfl countable
  exact ⟨same, length, by decide +kernel⟩

end Stencil
