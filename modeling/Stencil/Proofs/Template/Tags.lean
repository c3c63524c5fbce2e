import Stencil.Proofs.Script.Rewriting
import Stencil.Proofs.Template.Tree

/-! How the tags of a tree read: each is read as what it was written from, whatever follows,
and no other form of tag or mark starts in it. -/
namespace Stencil

open Markup Text Template

theorem Template.Word.lacks {c : Char} {allowed : Char → Bool} (word : Word allowed)
    (other : allowed c = false) : c ∉ word.text := by
  intro member
  have := word.allows _ member
  simp [other] at this

namespace Script

variable {allowed : Char → Bool} {t : Text} {s rest : Script}

@[simp] theorem ofText_nil : ofText [] = [] := rfl
@[simp] theorem ofText_cons (c : Char) (t : Text) : ofText (c :: t) = .letter c :: ofText t := rfl
@[simp] theorem ofText_append (a b : Text) : ofText (a ++ b) = ofText a ++ ofText b := by
  simp [ofText]

/-- The script goes on with something else than a letter of the class. -/
def Stops (allowed : Char → Bool) (s : Script) : Prop :=
  ∃ x more, s = x :: more ∧ x.among allowed = false

theorem Stops.append (h : Stops allowed s) : Stops allowed (s ++ rest) := by
  obtain ⟨x, more, rfl, stop⟩ := h
  exact ⟨x, more ++ rest, rfl, stop⟩

theorem dropWhile_ofText (all : t.all allowed = true) (stops : Stops allowed s) :
    (ofText t ++ s).dropWhile (·.among allowed) = s := by
  obtain ⟨x, more, rfl, stop⟩ := stops
  have passed : ∀ x ∈ ofText t, x.among allowed = true := by
    intro x member
    obtain ⟨c, inside, rfl⟩ := List.mem_map.mp member
    exact List.all_eq_true.mp all c inside
  rw [List.dropWhile_append_of_pos passed]
  simp [stop]

theorem word_ofText (all : t.all allowed = true) (stops : Stops allowed s) :
    word allowed (ofText t ++ s) = t := by
  obtain ⟨x, more, rfl, stop⟩ := stops
  induction t with
  | nil =>
    cases x with
    | letter c => simpa [word] using stop
    | chunk => rfl
  | cons c t ih =>
    obtain ⟨here, later⟩ := Bool.and_eq_true_iff.mp all
    simp [word, here, ih later]

theorem stops_word (solid : ∀ c, allowed c = true → isBlank c = false) (name : Word allowed)
    (s : Script) : Stops isBlank (ofText name.text ++ s) := by
  obtain ⟨c, more, shape⟩ := List.exists_cons_of_ne_nil name.nonempty
  refine ⟨.letter c, ofText more ++ s, by simp [shape], solid c (name.allows c (by simp [shape]))⟩

/-- A word between blanks. -/
theorem word?_spaced {lead trail close : Text} (name : Word allowed)
    (solid : ∀ c, allowed c = true → isBlank c = false) (before : lead.all isBlank = true)
    (after : trail.all isBlank = true) (ends : Stops allowed (ofText (trail ++ close)))
    (closes : Stops isBlank (ofText close)) :
    word? allowed close (ofText (lead ++ name.text ++ trail ++ close) ++ rest) =
      some (name.text, rest) := by
  have split : ofText (lead ++ name.text ++ trail ++ close) ++ rest =
      ofText lead ++ (ofText name.text ++ (ofText (trail ++ close) ++ rest)) := by simp
  have started : trimStart (ofText lead ++ (ofText name.text ++
      (ofText (trail ++ close) ++ rest))) = ofText name.text ++ (ofText (trail ++ close) ++ rest) :=
    dropWhile_ofText before (stops_word solid name _)
  have ended : trimStart (ofText (trail ++ close) ++ rest) = ofText close ++ rest := by
    rw [ofText_append, List.append_assoc]
    exact dropWhile_ofText after closes.append
  unfold word?
  rw [split, started, word_ofText name.all ends.append, dropWhile_ofText name.all ends.append,
    ended, after?_ofText]
  obtain ⟨c, more, shape⟩ := List.exists_cons_of_ne_nil name.nonempty
  rw [shape]
  rfl

theorem shape_tag (inside : Text) : ∃ more, ofText (tag inside) = ofText opener ++ more :=
  ⟨ofText (inside ++ closer), by simp [tag]⟩

theorem shape_variableTag (raw : Bool) (path : Text) :
    ∃ more, ofText (variableTag raw path) = ofText opener ++ more := by
  cases raw with
  | false => exact shape_tag _
  | true =>
    exact ⟨ofText ('{' :: ' ' :: path ++ [' ', '}', '}', '}']),
      by simp [variableTag, tag, opener, closer]⟩

theorem inclusion?_tag (name : FileName) :
    inclusion? (ofText (inclusionTag name.text) ++ rest) = some (name.text, rest) := by
  have split : ofText (inclusionTag name.text) ++ rest =
      ofText (opener ++ ['>']) ++ (ofText ([' '] ++ name.text ++ [' '] ++ closer) ++ rest) := by
    simp [inclusionTag, tag]
  rw [split, inclusion?, tag?, after?_ofText]
  exact word?_spaced name (fun _ => isBlank_of_isFileChar) (by decide) (by decide)
    ⟨_, _, rfl, rfl⟩ ⟨_, _, rfl, rfl⟩

theorem each?_tag (path : Word (isPathChar .page)) :
    each? (ofText (eachTag path.text) ++ rest) = some (path.text, rest) := by
  have split : ofText (eachTag path.text) ++ rest = ofText (opener ++ "#each".toList) ++
      (.letter ' ' :: (ofText ([] ++ path.text ++ [] ++ closer) ++ rest)) := by
    simp [eachTag, tag]
  rw [split, each?, spacedTag?, after?_ofText]
  exact word?_spaced path (fun _ => isBlank_of_isPathChar) (by decide) (by decide)
    ⟨_, _, rfl, rfl⟩ ⟨_, _, rfl, rfl⟩

theorem condition?_tag {place : Place} (path : Word (isPathChar place)) :
    condition? place (ofText (conditionTag path.text) ++ rest) = some (path.text, rest) := by
  have split : ofText (conditionTag path.text) ++ rest = ofText (opener ++ "#if".toList) ++
      (.letter ' ' :: (ofText ([] ++ path.text ++ [] ++ closer) ++ rest)) := by
    simp [conditionTag, tag]
  rw [split, condition?, spacedTag?, after?_ofText]
  exact word?_spaced path (fun _ => isBlank_of_isPathChar) (by decide) (by decide)
    ⟨_, _, rfl, by cases place <;> rfl⟩ ⟨_, _, rfl, rfl⟩

theorem variableTag?_tag {place : Place} (raw : Bool) (path : Word (isPathChar place)) :
    variableTag? place (ofText (variableTag raw path.text) ++ rest) =
      some (⟨raw, path.text⟩, rest) := by
  have ends : ∀ more, Stops (isPathChar place) (ofText (' ' :: more)) := fun more =>
    ⟨_, _, rfl, by cases place <;> rfl⟩
  cases raw with
  | true =>
    have split : ofText (variableTag true path.text) ++ rest = ofText ('{' :: opener) ++
        (ofText ([' '] ++ path.text ++ [' '] ++ '}' :: closer) ++ rest) := by
      simp [variableTag, tag, closer]
    have read : raw? place (ofText (variableTag true path.text) ++ rest) =
        some (path.text, rest) := by
      rw [split, raw?, tag?, after?_ofText]
      exact word?_spaced path (fun _ => isBlank_of_isPathChar) (by decide) (by decide) (ends _)
        ⟨_, _, rfl, rfl⟩
    simp [variableTag?, read]
  | false =>
    have split : ofText (variableTag false path.text) ++ rest =
        ofText opener ++ (ofText ([' '] ++ path.text ++ [' '] ++ closer) ++ rest) := by
      simp [variableTag, tag]
    have none : raw? place (ofText (variableTag false path.text) ++ rest) = none := rfl
    have read : escaped? place (ofText (variableTag false path.text) ++ rest) =
        some (path.text, rest) := by
      rw [split, escaped?, tag?, after?_ofText]
      exact word?_spaced path (fun _ => isBlank_of_isPathChar) (by decide) (by decide) (ends _)
        ⟨_, _, rfl, rfl⟩
    simp [variableTag?, none, read]

theorem trim_ofText (t : Text) : trim (ofText t) = ofText (Text.trim t) := by
  have start (t : Text) :
      (ofText t).dropWhile (·.among isBlank) = ofText (t.dropWhile isBlank) := by
    simp [ofText, List.dropWhile_map, Function.comp_def]
  have back (t : Text) : (ofText t).reverse = ofText t.reverse := by simp [ofText]
  simp only [trim, trimStart, trimEnd, start, back, Text.trim, Text.trimStart, Text.trimEnd]

theorem trim_spaced (t : Text) : Text.trim (' ' :: t ++ [' ']) = Text.trim t := by
  have blank : isBlank ' ' = true := by decide
  simp only [Text.trim, Text.trimStart, Text.trimEnd, List.cons_append, List.dropWhile_cons, blank,
    if_true, List.dropWhile_append]
  cases t.dropWhile isBlank <;> simp [blank]

/-- All up to the closing braces. -/
theorem inside_ofText (free : '}' ∉ t) :
    inside (ofText t ++ (ofText closer ++ rest)) = ofText t ∧
      (ofText t ++ (ofText closer ++ rest)).dropWhile (!·.among (· = '}')) =
        ofText closer ++ rest := by
  have open' : ∀ x ∈ ofText t, (!x.among (· = '}')) = true := by
    intro x member
    obtain ⟨c, inner, rfl⟩ := List.mem_map.mp member
    simpa using fun same : c = '}' => free (same ▸ inner)
  rw [inside, List.takeWhile_append_of_pos open', List.dropWhile_append_of_pos open']
  exact ⟨List.append_nil _, rfl⟩

theorem call?_tag (name : Word isNameChar) {arguments : Text} (free : '}' ∉ arguments) :
    call? (ofText (callTag name.text arguments) ++ rest) =
      some (⟨name.text, ofText (Text.trim arguments)⟩, rest) := by
  let held := ' ' :: arguments ++ [' ']
  have split : ofText (callTag name.text arguments) ++ rest = ofText opener ++
      (ofText [' '] ++ (ofText name.text ++ (ofText held ++ (ofText closer ++ rest)))) := by
    simp [callTag, tag, held]
  have started : trimStart (ofText [' '] ++
      (ofText name.text ++ (ofText held ++ (ofText closer ++ rest)))) =
      ofText name.text ++ (ofText held ++ (ofText closer ++ rest)) :=
    dropWhile_ofText (by decide) (stops_word (fun _ => isBlank_of_isNameChar) name _)
  have stops : Stops isNameChar (ofText held ++ (ofText closer ++ rest)) := ⟨_, _, rfl, rfl⟩
  have heldFree : '}' ∉ held := by simp [held, free]
  have read : arguments? (ofText held) = some (ofText (Text.trim arguments)) := by
    have whole : arguments? (ofText held) = some (trim (ofText held)) := by
      cases arguments <;> rfl
    rw [whole, trim_ofText, trim_spaced]
  unfold call?
  rw [split, after?_ofText]
  simp only [Option.bind_eq_bind, Option.bind_some, started, word_ofText name.all stops,
    dropWhile_ofText name.all stops, inside_ofText heldFree, read, after?_ofText]
  obtain ⟨c, more, shape⟩ := List.exists_cons_of_ne_nil name.nonempty
  rw [shape]
  rfl

section Skips

variable {starts : Script → Prop} {lead : Text}

/-- What is looked for starts with two braces and the letters `lead`. -/
def LedBy (lead : Text) (starts : Script → Prop) : Prop :=
  ∀ ⦃s⦄, starts s → ∃ more, s = ofText (opener ++ lead) ++ more

theorem LedBy.braced (led : LedBy lead starts) : Braced starts := by
  intro s found
  obtain ⟨more, rfl⟩ := led found
  exact ⟨ofText lead ++ more, rfl⟩

theorem ledBy_mark (lead : Text) : LedBy lead (Marked (opener ++ lead)) := by
  intro s marked
  obtain ⟨rest, found⟩ := Option.isSome_iff_exists.mp marked
  exact ⟨rest, after?_eq_some found⟩

theorem ledBy_found {α : Type} {rule : Rule α}
    (led : ∀ ⦃s result⦄, rule s = some result → ∃ more, s = ofText (opener ++ lead) ++ more) :
    LedBy lead (Found rule) := by
  intro s found
  unfold Found atOpener at found
  split at found
  · obtain ⟨result, read⟩ := Option.isSome_iff_exists.mp found
    exact led read
  · contradiction

theorem ledBy_inclusion : LedBy ['>'] (Found inclusion?) := by
  refine ledBy_found fun s result read => ?_
  obtain ⟨more, opened, -⟩ := Option.bind_eq_some_iff.mp read
  exact ⟨more, after?_eq_some opened⟩

theorem led_spacedTag {opening : Text} {close : Text} {result : Text × Script}
    (read : spacedTag? opening allowed close s = some result) :
    ∃ more, s = ofText opening ++ more := by
  unfold spacedTag? at read
  split at read
  next x more opened => exact ⟨x :: more, after?_eq_some opened⟩
  next => contradiction

theorem led_block {opens : Rule Text} {closing : Text} {separator? : Option Text}
    {result : Block × Script} (read : block? opens closing separator? s = some result) :
    ∃ opened, opens s = some opened := by
  obtain ⟨opened, found, -⟩ := Option.bind_eq_some_iff.mp read
  exact ⟨opened, found⟩

theorem ledBy_loop : LedBy "#each".toList (Found loop?) := by
  refine ledBy_found fun s result read => ?_
  obtain ⟨opened, found⟩ := led_block read
  exact led_spacedTag found

theorem ledBy_choice (place : Place) : LedBy "#if".toList (Found (choice? place)) := by
  refine ledBy_found fun s result read => ?_
  obtain ⟨opened, found⟩ := led_block read
  exact led_spacedTag found

/-- A tag in which other letters come first is passed over. -/
theorem LedBy.skips_tag (led : LedBy lead starts) (inside : Text) (free : '{' ∉ inside)
    (differs : ∀ rest, after? lead (ofText (inside ++ closer) ++ rest) = none) :
    Skips starts (ofText (tag inside)) := by
  refine Script.skips_tag led.braced free fun rest found => ?_
  obtain ⟨more, same⟩ := led found
  have shape : ofText (inside ++ closer) ++ rest = ofText lead ++ more := by
    simpa [tag, opener] using same
  have read := after?_ofText lead more
  rw [← shape, differs] at read
  contradiction

theorem skips_variableTag {path : Text} (braced : Braced starts) (raw : Bool)
    (plain : Skips starts (ofText (tag (' ' :: path ++ [' ']))))
    (here : ∀ rest, ¬starts (ofText ('{' :: tag (' ' :: path ++ [' '])) ++ rest)) :
    Skips starts (ofText (variableTag raw path)) := by
  cases raw with
  | false => exact plain
  | true =>
    have last : Skips starts (ofText ['}']) := skips_braceless braced (by decide)
    have whole := (Skips.cons here plain).append last
    have shape : ofText (variableTag true path) =
        .letter '{' :: ofText (tag (' ' :: path ++ [' '])) ++ ofText ['}'] := by
      rw [← ofText_cons, ← ofText_append]
      rfl
    exact shape ▸ whole

/-- Variables and calls are passed over by all that is led by something else than a blank or a
brace. -/
theorem LedBy.skips_variable {c : Char} {more : Text} (led : LedBy (c :: more) starts)
    (solid : c ≠ ' ') (other : c ≠ '{') (raw : Bool) {path : Text} (free : '{' ∉ path) :
    Skips starts (ofText (variableTag raw path)) := by
  refine skips_variableTag led.braced raw (led.skips_tag _ (by simp [free]) fun rest => ?_)
    fun rest found => ?_
  · simp [after?, solid]
  · obtain ⟨tail, same⟩ := led found
    have third : some (Symbol.letter '{') = some (.letter c) := congrArg (·[2]?) same
    injection third with third
    injection third with third
    exact other third.symm

theorem LedBy.skips_call {c : Char} {more : Text} (led : LedBy (c :: more) starts)
    (solid : c ≠ ' ') {name arguments : Text} (free : '{' ∉ name) (free' : '{' ∉ arguments) :
    Skips starts (ofText (callTag name arguments)) :=
  led.skips_tag _ (by simp [free, free']) fun rest => by simp [after?, solid]

theorem arguments?_solid {c : Char} (solid : isBlank c = false) (ne : c ≠ '}') (s : Script) :
    arguments? (inside (.letter c :: s)) = none := by
  have shape : inside (.letter c :: s) = .letter c :: inside s := by simp [inside, ne]
  rw [shape]
  cases inside s <;> simp [arguments?, solid]

theorem call?_of_name {name : Text} {s : Script} (h : name.all isNameChar = true)
    (begins : Stops isBlank (ofText name ++ s)) (stops : Stops isNameChar s)
    (bare : arguments? (inside s) = none) :
    call? (ofText opener ++ (.letter ' ' :: (ofText name ++ s))) = none := by
  have started : trimStart (.letter ' ' :: (ofText name ++ s)) = ofText name ++ s :=
    dropWhile_ofText (t := [' ']) (by decide) begins
  unfold call?
  rw [after?_ofText]
  simp only [Option.bind_eq_bind, Option.bind_some, started, word_ofText h stops,
    dropWhile_ofText h stops, bare, Option.bind_none]
  cases name <;> rfl

/-- A variable is no call: after a name in it there is no blank with an argument. -/
theorem call?_variable {place : Place} (path : Word (isPathChar place)) :
    call? (ofText (tag (' ' :: path.text ++ [' '])) ++ rest) = none := by
  have begins := stops_word (fun _ => isBlank_of_isPathChar) path (ofText (' ' :: closer) ++ rest)
  have split : ofText (tag (' ' :: path.text ++ [' '])) ++ rest = ofText opener ++
      (.letter ' ' :: (ofText path.text ++ (ofText (' ' :: closer) ++ rest))) := by simp [tag]
  have parts := List.takeWhile_append_dropWhile (p := isNameChar) (l := path.text)
  have named : (path.text.takeWhile isNameChar).all isNameChar = true := List.all_takeWhile
  rw [split]
  cases tail : path.text.dropWhile isNameChar with
  | nil =>
    rw [tail, List.append_nil] at parts
    rw [parts] at named
    refine call?_of_name named begins ⟨_, _, rfl, rfl⟩ ?_
    have whole : inside (ofText (' ' :: closer) ++ rest) = ofText [' '] :=
      (inside_ofText (t := [' ']) (by decide)).1
    rw [whole]
    rfl
  | cons c more =>
    have member : c ∈ path.text := by
      rw [← parts, tail]
      simp
    have stop : isNameChar c = false := by
      have := List.head?_dropWhile_not isNameChar path.text
      rw [tail] at this
      simpa using this
    have solid := isBlank_of_isPathChar (path.allows c member)
    have ne : c ≠ '}' := by
      rintro rfl
      have := path.allows _ member
      cases place <;> exact absurd this (by decide)
    rw [← parts, tail, ofText_append, List.append_assoc] at begins ⊢
    exact call?_of_name named begins ⟨_, _, rfl, stop⟩ (arguments?_solid solid ne _)

theorem skips_call_variable {place : Place} (raw : Bool) (path : Word (isPathChar place)) :
    Skips (Found call?) (ofText (variableTag raw path.text)) := by
  have free := path.lacks (isPathChar_brace place)
  have unread {s : Script} (none : call? s = none) : ¬Found call? s := by
    unfold Found atOpener
    split <;> simp [none]
  refine skips_variableTag (braced_found _) raw ?_ fun rest => unread rfl
  exact Script.skips_tag (braced_found _) (by simp [free]) fun rest => unread (call?_variable path)

end Skips

end Script

end Stencil
