import Stencil.Proofs.Helper.Splitting
import Stencil.Proofs.Markup.Pattern
import Stencil.Proofs.Markup.Stray

/-! The forms of tags as patterns. Where a form names a word, each stretch ends where the
next one has to begin, and there is one way to read it. A call has arguments too, and of
these blanks can be a part, like the blanks around them: where they begin and end, the order
decides in which the ways are tried. The rules read what the patterns read, and what follows
the opening braces of a tag tells its form. -/
namespace Stencil.Markup

open Text Helper

def blankStretch (least : Nat) : Pattern.Item := .stretch ⟨isBlank, least, false, false⟩

def wordStretch (allowed : Char → Bool) : Pattern.Item := .stretch ⟨allowed, 1, false, true⟩

/-- A word between blanks, so many of them at least before it. -/
def wordPattern (opening : Text) (least : Nat) (allowed : Char → Bool) (close : Text) : Pattern :=
  [.fixed opening, blankStretch least, wordStretch allowed, blankStretch 0, .fixed close]

/-- All up to a closing brace and one character at least, but as little as will do. -/
def argumentStretch : Pattern.Item := .stretch ⟨(· ≠ '}'), 1, true, true⟩

def argumentEnd : Pattern := [argumentStretch, blankStretch 0, .fixed closer]

/-- What follows the name of a call. -/
def argumentsPattern : Pattern := blankStretch 1 :: argumentEnd

def callPattern : Pattern :=
  .fixed opener :: blankStretch 0 :: wordStretch isNameChar :: argumentsPattern

def Form.pattern : Form → Pattern
  | inclusion => wordPattern (opener ++ ['>']) 0 isFileChar closer
  | each => wordPattern (opener ++ "#each".toList) 1 (isPathChar .page) closer
  | condition place => wordPattern (opener ++ "#if".toList) 1 (isPathChar place) closer
  | raw place => wordPattern ('{' :: opener) 0 (isPathChar place) ('}' :: closer)
  | escaped place => wordPattern opener 0 (isPathChar place) closer
  | call => callPattern

variable {allowed : Char → Bool} {text tail front trail : Text} {a : Char} {close : Text}

theorem read?_blankStretch {more : Pattern} (refuses : Pattern.Refuses more isBlank) (least : Nat)
    (text : Text) :
    Pattern.read? (blankStretch least :: more) text =
      if least ≤ (text.takeWhile isBlank).length then Pattern.read? more (trimStart text)
      else none := by
  have unrecorded (part : Text) (found : Option (List Text × Text)) :
      found.map (Stretch.record ⟨isBlank, least, false, false⟩ part) = found := by
    cases found <;> rfl
  rw [blankStretch, read?_stretch refuses, unrecorded]
  rfl

theorem read?_wordStretch {more : Pattern} (refuses : Pattern.Refuses more allowed) (text : Text) :
    Pattern.read? (wordStretch allowed :: more) text =
      match text.takeWhile allowed with
      | [] => none
      | word => (Pattern.read? more (text.dropWhile allowed)).map fun found =>
          (word :: found.1, found.2) := by
  rw [wordStretch, read?_stretch refuses]
  dsimp only
  cases text.takeWhile allowed with
  | nil => rfl
  | cons c word =>
    rw [if_pos (show 1 ≤ (c :: word).length from Nat.le_add_left 1 word.length)]
    rfl

/-- A word does not start with a blank. -/
theorem refuses_word (solid : ∀ c, allowed c = true → isBlank c = false) (more : Pattern) :
    Pattern.Refuses (wordStretch allowed :: more) isBlank := by
  refine refuses_stretch (fun c blank => Bool.eq_false_iff.mpr fun allows => ?_) nofun
  rw [solid c allows] at blank
  contradiction

section Words

variable (ends : isBlank a = false)
include ends

theorem read?_closing (close text : Text) :
    Pattern.read? [blankStretch 0, .fixed (a :: close)] text =
      (Text.after? (a :: close) (trimStart text)).map fun rest => ([], rest) := by
  rw [read?_blankStretch (refuses_fixed ends), if_pos (Nat.zero_le _), Pattern.read?]
  cases Text.after? (a :: close) (trimStart text) <;> rfl

variable (solid : ∀ c, allowed c = true → isBlank c = false) (stop : allowed a = false)
include solid stop

theorem read?_word (close text : Text) :
    Pattern.read? [wordStretch allowed, blankStretch 0, .fixed (a :: close)] (trimStart text) =
      (word? allowed (a :: close) text).map fun found => ([found.1], found.2) := by
  have refuses : Pattern.Refuses [blankStretch 0, .fixed (a :: close)] allowed :=
    refuses_stretch solid fun _ => refuses_fixed stop
  rw [read?_wordStretch refuses, read?_closing ends, word?]
  cases (trimStart text).takeWhile allowed with
  | nil => rfl
  | cons c word =>
    cases Text.after? (a :: close) (trimStart ((trimStart text).dropWhile allowed)) <;> rfl

theorem read?_tag (opening close text : Text) :
    Pattern.read? (wordPattern opening 0 allowed (a :: close)) text =
      (tag? opening allowed (a :: close) text).map fun found => ([found.1], found.2) := by
  rw [wordPattern, Pattern.read?, tag?]
  cases Text.after? opening text with
  | none => rfl
  | some rest =>
    rw [Option.bind_some, Option.bind_some,
      read?_blankStretch (refuses_word solid _), if_pos (Nat.zero_le _),
      read?_word ends solid stop]

theorem read?_spacedTag (opening close text : Text) :
    Pattern.read? (wordPattern opening 1 allowed (a :: close)) text =
      (spacedTag? opening allowed (a :: close) text).map fun found => ([found.1], found.2) := by
  rw [wordPattern, Pattern.read?, spacedTag?]
  cases Text.after? opening text with
  | none => rfl
  | some rest =>
    rw [Option.bind_some, read?_blankStretch (refuses_word solid _)]
    cases rest with
    | nil => rfl
    | cons c rest =>
      by_cases blank : isBlank c = true
      · have skipped : trimStart (c :: rest) = trimStart rest := List.dropWhile_cons_of_pos blank
        rw [skipped, read?_word ends solid stop]
        simp [blank]
      · simp [blank]

end Words

/-- Whatever the pattern reads ends with two braces, the first of which is the first of the text. -/
def Pattern.Closes (p : Pattern) : Prop :=
  ∀ text found, p.read? text = some found →
    Text.after? closer (text.dropWhile (· ≠ '}')) = some found.2

theorem closes_fixed : Pattern.Closes [.fixed closer] := by
  intro text found read
  obtain ⟨rest, closed, same⟩ := Option.bind_eq_some_iff.mp read
  obtain rfl := Option.some.inj same
  rw [← closed, after?_eq_some_iff.mp closed]
  rfl

theorem closes_stretch {s : Stretch} {more : Pattern} (braceless : s.allowed '}' = false)
    (closes : Pattern.Closes more) : Pattern.Closes (.stretch s :: more) := by
  intro text found read
  obtain ⟨way, member, read⟩ := List.exists_of_findSome?_eq_some read
  obtain ⟨inner, behind, rfl⟩ := Option.map_eq_some_iff.mp read
  obtain ⟨split, all⟩ := parts_of_taking (mem_ways_iff.mp member).1
  have passed : ∀ c ∈ way.1, (decide <| c ≠ '}') = true := by
    intro c inside
    refine decide_eq_true fun same => ?_
    rw [← same, all c inside] at braceless
    contradiction
  rw [split, List.dropWhile_append_of_pos passed]
  exact closes way.2 inner behind

theorem solid_closing : isBlank '}' = false := by decide

theorem read?_argumentEnd_closing (rest : Text) : argumentEnd.read? ('}' :: rest) = none := by
  have refuses : argumentEnd.Refuses (· = '}') := refuses_stretch (by simp) nofun
  exact refuses '}' rest (by simp)

/-- The least part of what stands before the braces that leaves nothing but blanks. -/
theorem read?_argumentEnd (free : '}' ∉ front) (full : front ≠ [])
    (solid : ∀ part back, front = part ++ back → part ≠ [] → back ≠ [] → trimStart back ≠ [])
    (blank : ∀ c ∈ trail, isBlank c = true) (tail : Text) :
    argumentEnd.read? (front ++ (trail ++ (closer ++ tail))) = some ([front], tail) := by
  have within : ∀ c ∈ front, (decide <| c ≠ '}') = true := fun c member =>
    decide_eq_true fun same => free (same ▸ member)
  have read : Pattern.read? [blankStretch 0, .fixed closer] (trail ++ (closer ++ tail)) =
      some ([], tail) := by
    have started : trimStart (trail ++ (closer ++ tail)) = closer ++ tail := by
      rw [trimStart_blanks blank]
      exact trimStart_solid solid_closing _
    rw [closer, read?_closing solid_closing, ← closer, started, after?_eq_some_iff.mpr rfl]
    rfl
  refine read?_lazy (s := ⟨(· ≠ '}'), 1, true, true⟩) within (List.length_pos_iff.mpr full) read rfl
    fun part back split long left => ?_
  -- A shorter part leaves a character that is neither a blank nor a brace.
  obtain ⟨c, more, started⟩ :=
    List.exists_cons_of_ne_nil (solid part back split (List.length_pos_iff.mp long) left)
  have member : c ∈ front := by
    rw [split]
    exact List.mem_append_right part (List.dropWhile_subset _ (started ▸ List.mem_cons_self))
  have other : '}' ≠ c := fun same => free (same ▸ member)
  rw [closer, read?_closing solid_closing, trimStart, List.dropWhile_append, ← trimStart, started]
  simp [Text.after?, other]

theorem read?_arguments_solid {c : Char} (solid : isBlank c = false) (rest : Text) :
    argumentsPattern.read? (c :: rest) = none := by
  have refuses : argumentsPattern.Refuses (!isBlank ·) := refuses_stretch (by simp) nofun
  exact refuses c rest (by simp [solid])

/-- After the last blank before the braces there is nothing left for the arguments. -/
theorem read?_argumentEnd_last {b : Char} (blank : isBlank b = true) (tail : Text) :
    ∀ way ∈ takings isBlank (b :: (closer ++ tail)), way.1 ≠ [] →
      argumentEnd.read? way.2 = none := by
  intro way member full
  have tried : takings isBlank (b :: (closer ++ tail)) =
      [([b], closer ++ tail), ([], b :: (closer ++ tail))] := by
    simp [closer, takings, blank, solid_closing]
  rw [tried] at member
  rcases List.mem_cons.mp member with rfl | last
  · exact read?_argumentEnd_closing _
  · obtain rfl := List.mem_singleton.mp last
    contradiction

/-- The arguments in what follows a name: all of it but the blanks around it or, where there is
nothing else, the last blank. -/
def ArgumentsIn (inside a : Text) : Prop :=
  trim inside ≠ [] ∧ a = trim inside ∨
    trim inside = [] ∧ ∃ b, inside.getLast? = some b ∧ isBlank b = true ∧ a = [b]

theorem arguments?_eq_some_iff {inside a : Text} :
    arguments? inside = some a ↔
      ∃ c d rest, inside = c :: d :: rest ∧ isBlank c = true ∧ ArgumentsIn inside a := by
  match inside with
  | [] => simp [arguments?]
  | [c] => simp [arguments?]
  | c :: d :: rest =>
    have some_last : (d :: rest).getLast? = (c :: d :: rest).getLast? := by simp
    have blanks (nothing : trim (c :: d :: rest) = []) : ∀ b ∈ (c :: d :: rest).getLast?,
        isBlank b = true := fun b last =>
      all_blank_of_trim nothing b (List.mem_of_getLast? last)
    rw [arguments?, some_last]
    constructor
    · intro given
      split at given
      next blank =>
        refine ⟨c, d, rest, rfl, blank, ?_⟩
        split at given
        next nothing =>
          obtain ⟨b, last, rfl⟩ := Option.map_eq_some_iff.mp given
          exact .inr ⟨nothing, b, last, blanks nothing b last, rfl⟩
        next full =>
          exact .inl ⟨full, (Option.some.inj given).symm⟩
      next => contradiction
    · rintro ⟨_, _, _, ⟨⟩, blank, ⟨full, rfl⟩ | ⟨nothing, b, last, -, rfl⟩⟩
      · rw [if_pos blank]
        split
        next nothing => contradiction
        next => rfl
      · rw [if_pos blank, nothing, last]
        rfl

/-- Where a text does not end with a blank, no part at its end is blank. -/
theorem trimStart_ne_nil {part back : Text}
    (ends : ∀ c ∈ (part ++ back).getLast?, isBlank c = false) (full : back ≠ []) :
    trimStart back ≠ [] := by
  obtain ⟨rest, b, rfl⟩ := (List.eq_nil_or_concat back).resolve_left full
  intro nothing
  have blank := List.dropWhile_eq_nil_iff.mp nothing b (by simp)
  rw [ends b (by simp)] at blank
  contradiction

theorem trim_of_blanks {t : Text} (blanks : ∀ c ∈ t, isBlank c = true) : trim t = [] := by
  rw [trim, trimStart, List.dropWhile_eq_nil_iff.mpr blanks]
  rfl

theorem trimEnd_ne_nil {c : Char} (solid : isBlank c = false) (rest : Text) :
    trimEnd (c :: rest) ≠ [] := by
  rw [trimEnd_cons]
  split <;> simp [solid]

/-- Blanks, and a part that is not blank. -/
theorem read?_arguments_around {lead body : Text} (leads : ∀ c ∈ lead, isBlank c = true)
    (full : lead ≠ []) (free : '}' ∉ body) {c : Char} {more : Text} (starts : body = c :: more)
    (solid : isBlank c = false) (tail : Text) :
    argumentsPattern.read? (lead ++ (body ++ (closer ++ tail))) =
      some ([trimEnd body], tail) := by
  obtain ⟨trail, split, blank⟩ := exists_blanks_after body
  have kept : trimEnd body ≠ [] := starts ▸ trimEnd_ne_nil solid more
  have within : '}' ∉ trimEnd body := fun member =>
    free (split ▸ List.mem_append_left trail member)
  have read : argumentEnd.read? (body ++ (closer ++ tail)) = some ([trimEnd body], tail) := by
    have shape : body ++ (closer ++ tail) = trimEnd body ++ (trail ++ (closer ++ tail)) := by
      rw [← List.append_assoc (trimEnd body), ← split]
    rw [shape]
    refine read?_argumentEnd within kept ?_ (List.all_eq_true.mp blank) tail
    intro part back parts _ left
    exact trimStart_ne_nil (parts ▸ isBlank_of_getLast?_trimEnd) left
  -- What follows the blanks is none, so there is no way to take more.
  refine read?_greedy (s := ⟨isBlank, 1, false, false⟩) leads (List.length_pos_iff.mpr full) read
    rfl fun way member taken => ?_
  rw [starts, List.cons_append, takings_stop (by simp [solid])] at member
  obtain rfl := List.mem_singleton.mp member
  contradiction

/-- Nothing but blanks. -/
theorem read?_arguments_blank {front : Text} {b : Char}
    (blanks : ∀ c ∈ front ++ [b], isBlank c = true) (tail : Text) :
    argumentsPattern.read? (front ++ b :: (closer ++ tail)) =
      if front = [] then none else some ([[b]], tail) := by
  have leads : ∀ c ∈ front, isBlank c = true := fun c member =>
    blanks c (List.mem_append_left [b] member)
  have blank : isBlank b = true := blanks b (by simp)
  have last := read?_argumentEnd_last blank tail
  -- One of the blanks has to be left for the arguments.
  split
  next single =>
    rw [single]
    refine List.findSome?_eq_none_iff.mpr fun way member => ?_
    obtain ⟨inside, enough⟩ := mem_ways_iff.mp member
    rw [last way inside (List.length_pos_iff.mp enough), Option.map_none]
  next full =>
    have read : argumentEnd.read? ([b] ++ ([] ++ (closer ++ tail))) = some ([[b]], tail) := by
      refine read?_argumentEnd ?_ (List.cons_ne_nil b []) ?_ (List.forall_mem_nil _) tail
      · intro member
        rw [← List.mem_singleton.mp member, solid_closing] at blank
        contradiction
      · intro part back parts some left
        have length := congrArg List.length parts
        simp only [List.length_singleton, List.length_append] at length
        have := List.length_pos_iff.mpr some
        have := List.length_pos_iff.mpr left
        omega
    exact read?_greedy (s := ⟨isBlank, 1, false, false⟩) leads (List.length_pos_iff.mpr full) read
      rfl last

theorem arguments?_around {lead body : Text} (leads : ∀ c ∈ lead, isBlank c = true)
    (full : lead ≠ []) {c : Char} {more : Text} (starts : body = c :: more)
    (solid : isBlank c = false) : arguments? (lead ++ body) = some (trimEnd body) := by
  have trimmed : trim (lead ++ body) = trimEnd body := by
    rw [trim, trimStart_blanks leads, starts, trimStart_solid solid]
  have kept : trimEnd body ≠ [] := starts ▸ trimEnd_ne_nil solid more
  obtain ⟨b, others, rfl⟩ := List.exists_cons_of_ne_nil full
  obtain ⟨d, rest, next⟩ : ∃ d rest, others ++ body = d :: rest :=
    List.exists_cons_of_ne_nil (by simp [starts])
  exact arguments?_eq_some_iff.mpr ⟨b, d, rest, congrArg (b :: ·) next, leads b List.mem_cons_self,
    .inl ⟨trimmed ▸ kept, trimmed.symm⟩⟩

theorem arguments?_blank {front : Text} {b : Char} (blanks : ∀ c ∈ front ++ [b], isBlank c = true) :
    arguments? (front ++ [b]) = if front = [] then none else some [b] := by
  cases front with
  | nil => rfl
  | cons c others =>
    have nothing : trim (c :: others ++ [b]) = [] := trim_of_blanks blanks
    obtain ⟨d, rest, next⟩ : ∃ d rest, others ++ [b] = d :: rest :=
      List.exists_cons_of_ne_nil (by simp)
    exact arguments?_eq_some_iff.mpr ⟨c, d, rest, congrArg (c :: ·) next,
      blanks c List.mem_cons_self, .inr ⟨nothing, b, List.getLast?_concat, blanks b (by simp), rfl⟩⟩

theorem read?_arguments_closed {inside : Text} (free : '}' ∉ inside) (tail : Text) :
    argumentsPattern.read? (inside ++ (closer ++ tail)) =
      (arguments? inside).map fun a => ([a], tail) := by
  obtain ⟨lead, split, leads⟩ := exists_blanks inside
  cases started : trimStart inside with
  | nil =>
    have blanks := List.dropWhile_eq_nil_iff.mp started
    rcases List.eq_nil_or_concat inside with rfl | ⟨front, b, rfl⟩
    · exact read?_arguments_solid solid_closing _
    · rw [List.concat_eq_append] at blanks ⊢
      rw [List.append_assoc, List.singleton_append, read?_arguments_blank blanks,
        arguments?_blank blanks]
      split <;> rfl
  | cons c rest =>
    have solid : isBlank c = false := by
      have stop := List.head?_dropWhile_not isBlank inside
      rw [← trimStart, started] at stop
      simpa using stop
    rw [started] at split
    rw [split] at free ⊢
    by_cases full : lead = []
    · rw [full, List.nil_append, arguments?_of_solid solid]
      exact read?_arguments_solid solid _
    · have behind : '}' ∉ c :: rest := fun member => free (List.mem_append_right lead member)
      rw [List.append_assoc, read?_arguments_around leads full behind rfl solid,
        arguments?_around leads full rfl solid]
      rfl

theorem read?_arguments (text : Text) :
    argumentsPattern.read? text = (arguments? (text.takeWhile (· ≠ '}'))).bind fun a =>
      (Text.after? closer (text.dropWhile (· ≠ '}'))).map fun tail => ([a], tail) := by
  cases closed : Text.after? closer (text.dropWhile (· ≠ '}')) with
  | none =>
    have closes : argumentsPattern.Closes :=
      closes_stretch solid_closing (closes_stretch (by simp) (closes_stretch solid_closing
        closes_fixed))
    cases read : argumentsPattern.read? text with
    | none => cases arguments? (text.takeWhile (· ≠ '}')) <;> rfl
    | some found =>
      rw [closes text found read] at closed
      contradiction
  | some tail =>
    have free : '}' ∉ text.takeWhile (· ≠ '}') := fun member => by
      simpa using List.mem_takeWhile_imp member
    have split := text.takeWhile_append_dropWhile (p := (decide <| · ≠ '}'))
    rw [after?_eq_some_iff.mp closed] at split
    rw [← split, read?_arguments_closed free, split]
    cases arguments? (text.takeWhile (· ≠ '}')) <;> rfl

theorem read?_call (text : Text) :
    callPattern.read? text = (call? text).map fun (c, rest) => ([c.name, c.arguments], rest) := by
  have refuses : argumentsPattern.Refuses isNameChar :=
    refuses_stretch (fun _ => isBlank_of_isNameChar) nofun
  rw [callPattern, Pattern.read?, call?]
  cases Text.after? opener text with
  | none => rfl
  | some inner =>
    rw [Option.bind_some, read?_blankStretch (refuses_word (fun _ => isBlank_of_isNameChar) _),
      if_pos (Nat.zero_le _), read?_wordStretch refuses, read?_arguments]
    simp only [Option.bind_eq_bind, Option.bind_some]
    generalize (trimStart inner).dropWhile isNameChar = after
    cases (trimStart inner).takeWhile isNameChar with
    | nil => rfl
    | cons c name =>
      cases arguments? (after.takeWhile (· ≠ '}')) with
      | none => rfl
      | some a => cases Text.after? closer (after.dropWhile (· ≠ '}')) <;> rfl

theorem Form.read?_pattern (form : Form) (text : Text) :
    form.pattern.read? text = form.read? text := by
  cases form with
  | inclusion => exact read?_tag solid_closing (fun _ => isBlank_of_isFileChar) (by decide) _ _ _
  | each =>
    exact read?_spacedTag solid_closing (fun _ => isBlank_of_isPathChar)
      (isPathChar_closing .page) _ _ _
  | condition place =>
    exact read?_spacedTag solid_closing (fun _ => isBlank_of_isPathChar)
      (isPathChar_closing place) _ _ _
  | raw place =>
    exact read?_tag solid_closing (fun _ => isBlank_of_isPathChar) (isPathChar_closing place) _ _ _
  | escaped place =>
    exact read?_tag solid_closing (fun _ => isBlank_of_isPathChar) (isPathChar_closing place) _ _ _
  | call => exact read?_call text

/-- Of blank arguments the last blank is left. -/
example : callPattern.read? (opener ++ ['f', ' ', '\t'] ++ closer) = some ([['f'], ['\t']], []) := by
  decide

/-- What stands between the braces of a call: a name with blanks before it, then a blank and one
character more at least, which hold the arguments. -/
structure CallStretch (c : Call) (stretch : Text) : Prop where
  parts : ∃ before d e more, stretch = before ++ (c.name ++ d :: e :: more) ∧
    (∀ b ∈ before, isBlank b = true) ∧ isBlank d = true ∧
    ArgumentsIn (d :: e :: more) c.arguments
  full : c.name ≠ []
  named : ∀ b ∈ c.name, isNameChar b = true

theorem call?_eq_some_iff {c : Call} :
    call? text = some (c, tail) ↔
      ∃ stretch, text = opener ++ (stretch ++ (closer ++ tail)) ∧ '}' ∉ stretch ∧
        CallStretch c stretch := by
  constructor
  · intro read
    obtain ⟨lexeme, rfl, ⟨before, inside, rfl, leads, free, given⟩, named⟩ := reads_call read
    obtain ⟨d, e, more, rfl, blank, held⟩ := arguments?_eq_some_iff.mp given
    refine ⟨before ++ (c.name ++ d :: e :: more), by simp, ?_,
      ⟨before, d, e, more, rfl, leads, blank, held⟩, name_of_call? read, named⟩
    simp only [List.mem_append, not_or]
    refine ⟨fun member => ?_, fun member => ?_, free⟩
    · exact absurd (leads _ member) (by decide)
    · exact absurd (named _ member) (by decide)
  · rintro ⟨stretch, rfl, free, ⟨before, d, e, more, rfl, leads, blank, held⟩, full, named⟩
    simp only [List.mem_append, not_or] at free
    have given := arguments?_eq_some_iff.mpr ⟨d, e, more, rfl, blank, held⟩
    have shape : CallShape c (opener ++ (before ++ (c.name ++ (d :: e :: more ++ closer)))) :=
      ⟨⟨before, d :: e :: more, rfl, leads, free.2.2, given⟩, named⟩
    have read := shape.read full tail
    simpa using read

/-- The form takes a tag at the start of the text. A call counts if its arguments are not blank. -/
def Form.Takes (form : Form) (text : Text) : Prop :=
  ∃ names rest, form.read? text = some (names, rest) ∧
    ∀ arguments, names[1]? = some arguments → trim arguments ≠ []

/-- The form with the paths of a loop, which are all that it can have. -/
def Form.inLoop : Form → Form
  | condition _ => condition .item
  | raw _ => raw .item
  | escaped _ => escaped .item
  | form => form

/-- The only form that can take a tag, by what follows its opening braces. -/
def Form.expected (inner : Text) : Form :=
  match inner.head? with
  | some '>' => .inclusion
  | some '#' => if inner[1]? = some 'e' then .each else .condition .item
  | some '{' => .raw .item
  | _ =>
    let afterWord := (trimStart inner).dropWhile (isPathChar .item)
    if (afterWord.takeWhile (· ≠ '}')).all isBlank then .escaped .item else .call

theorem isPathChar_item {place : Place} {c : Char} (h : isPathChar place c = true) :
    isPathChar .item c = true := by
  cases place with
  | item => exact h
  | page => simp_all [isPathChar]

theorem isPathChar_of_isNameChar {c : Char} (h : isNameChar c = true) (place : Place) :
    isPathChar place c = true := by
  simp [isPathChar, h]

namespace Form

/-- No form of tag has a lead that is a blank or a character of a path. -/
theorem expected_cons {c : Char} (word : isBlank c = true ∨ isPathChar .item c = true)
    (rest : Text) : expected (c :: rest) =
      if (((trimStart (c :: rest)).dropWhile (isPathChar .item)).takeWhile (· ≠ '}')).all isBlank
      then .escaped .item else .call := by
  have other (lead : Char) (solid : isBlank lead = false) (led : isPathChar .item lead = false) :
      c ≠ lead := by
    rintro rfl
    simp [solid, led] at word
  have file := other '>' (by decide) (by decide)
  have block := other '#' (by decide) (by decide)
  have brace := other '{' (by decide) (by decide)
  simp [expected, file, block, brace]

theorem expected_of_parts {before word after : Text} (leads : ∀ c ∈ before, isBlank c = true)
    (full : word ≠ []) (all : ∀ c ∈ word, isPathChar .item c = true) (free : '}' ∉ after)
    (stop : ∀ c ∈ after.head?, isBlank c = true) (rest : Text) :
    expected (before ++ (word ++ (after ++ '}' :: rest))) =
      if after.all isBlank then .escaped .item else .call := by
  obtain ⟨w, ws, rfl⟩ := List.exists_cons_of_ne_nil full
  obtain ⟨c, others, shape⟩ :
      ∃ c others, before ++ (w :: ws ++ (after ++ '}' :: rest)) = c :: others :=
    List.exists_cons_of_ne_nil (by simp)
  obtain ⟨d, more, ends, apart⟩ : ∃ d more, after ++ '}' :: rest = d :: more ∧
      isPathChar .item d = false := by
    cases after with
    | nil => exact ⟨'}', rest, rfl, isPathChar_closing .item⟩
    | cons d more =>
      refine ⟨d, more ++ '}' :: rest, rfl, Bool.eq_false_iff.mpr fun allows => ?_⟩
      have blank := stop d rfl
      rw [isBlank_of_isPathChar allows] at blank
      contradiction
  have started : trimStart (before ++ (w :: ws ++ (after ++ '}' :: rest))) =
      w :: ws ++ (after ++ '}' :: rest) := by
    rw [trimStart_blanks leads]
    exact trimStart_solid (isBlank_of_isPathChar (all w List.mem_cons_self)) _
  have within : ∀ c ∈ after, (decide <| c ≠ '}') = true := fun c member =>
    decide_eq_true fun same => free (same ▸ member)
  have word := head_of_parts leads full all shape
  rw [shape, expected_cons word, ← shape, started, ends, dropWhile_word all apart, ← ends,
    takeWhile_word within (by decide)]

/-- A form that is told by what its opening adds to two braces is expected there. -/
theorem expected_of_names {form : Form} {lead close word lexeme : Text} {allowed : Char → Bool}
    (named : Names (opener ++ lead) allowed close word lexeme)
    (led : ∀ rest, expected (lead ++ rest) = form) (tail : Text) :
    ∃ inner, lexeme ++ tail = opener ++ inner ∧ expected inner = form := by
  obtain ⟨⟨before, after, rfl, -⟩, -⟩ := named
  exact ⟨lead ++ (before ++ (word ++ (after ++ (close ++ tail)))), by simp, led _⟩

theorem expected_of_escaped {place : Place} {word tail : Text}
    (read : escaped? place text = some (word, tail)) :
    ∃ inner, text = opener ++ inner ∧ expected inner = .escaped .item := by
  have full := word_of_tag read
  obtain ⟨lexeme, rfl, ⟨before, after, rfl, leads, trails⟩, all⟩ := reads_tag read
  have free : '}' ∉ after := fun member => absurd (trails _ member) (by decide)
  have allowed : ∀ c ∈ word, isPathChar .item c = true :=
    fun c member => isPathChar_item (all c member)
  have stop : ∀ c ∈ after.head?, isBlank c = true :=
    fun c first => trails c (List.mem_of_mem_head? first)
  refine ⟨before ++ (word ++ (after ++ '}' :: ('}' :: tail))), by simp [closer], ?_⟩
  rw [expected_of_parts leads full allowed free stop, if_pos (List.all_eq_true.mpr trails)]

theorem expected_of_call {c : Call} {tail : Text} (read : call? text = some (c, tail))
    (given : trim c.arguments ≠ []) :
    ∃ inner, text = opener ++ inner ∧ expected inner = .call := by
  obtain ⟨stretch, rfl, free, ⟨before, d, e, more, rfl, leads, blank, held⟩, full, named⟩ :=
    call?_eq_some_iff.mp read
  simp only [List.mem_append, not_or] at free
  have visible : ¬(d :: e :: more).all isBlank = true := by
    intro blanks
    have nothing : trim (d :: e :: more) = [] := trim_of_blanks (List.all_eq_true.mp blanks)
    rcases held with ⟨some, -⟩ | ⟨-, b, -, single, alone⟩
    · exact some nothing
    · exact given (alone ▸ trim_blank single)
  have allowed : ∀ x ∈ c.name, isPathChar .item x = true :=
    fun x member => isPathChar_of_isNameChar (named x member) .item
  have stop : ∀ x ∈ (d :: e :: more).head?, isBlank x = true :=
    fun x first => Option.some.inj first ▸ blank
  refine ⟨before ++ (c.name ++ (d :: e :: more ++ '}' :: ('}' :: tail))), by simp [closer], ?_⟩
  rw [expected_of_parts leads full allowed free.2.2 stop, if_neg visible]

/-- Whatever a form takes is what it is expected to be. -/
theorem Takes.expected {form : Form} (h : form.Takes text) :
    ∃ inner, text = opener ++ inner ∧ Form.expected inner = form.inLoop := by
  obtain ⟨names, rest, read, solid⟩ := h
  cases form with
  | inclusion =>
    obtain ⟨found, read, -⟩ := Option.map_eq_some_iff.mp read
    obtain ⟨lexeme, rfl, named⟩ := reads_tag read
    exact expected_of_names named (fun _ => rfl) found.2
  | each =>
    obtain ⟨found, read, -⟩ := Option.map_eq_some_iff.mp read
    obtain ⟨lexeme, rfl, named⟩ := reads_spacedTag read
    exact expected_of_names named (fun _ => rfl) found.2
  | condition place =>
    obtain ⟨found, read, -⟩ := Option.map_eq_some_iff.mp read
    obtain ⟨lexeme, rfl, named⟩ := reads_spacedTag read
    exact expected_of_names named (fun _ => rfl) found.2
  | raw place =>
    obtain ⟨found, read, -⟩ := Option.map_eq_some_iff.mp read
    obtain ⟨lexeme, rfl, named⟩ := reads_tag read
    exact expected_of_names named (fun _ => rfl) found.2
  | escaped place =>
    obtain ⟨found, read, -⟩ := Option.map_eq_some_iff.mp read
    exact expected_of_escaped read
  | call =>
    obtain ⟨⟨c, tail⟩, found, same⟩ := Option.map_eq_some_iff.mp read
    obtain ⟨rfl, -⟩ := Prod.mk.inj same
    exact expected_of_call found (solid c.arguments rfl)

theorem Takes.unique {f g : Form} (first : f.Takes text) (second : g.Takes text) :
    f.inLoop = g.inLoop := by
  obtain ⟨inner, split, same⟩ := first.expected
  obtain ⟨other, split', same'⟩ := second.expected
  obtain rfl : inner = other := List.append_cancel_left (split.symm.trans split')
  exact same.symm.trans same'

end Form

/-- The forms of tags, each with all the paths that it can have. -/
def loopForms : List Form :=
  [.inclusion, .each, .condition .item, .raw .item, .escaped .item, .call]

/-- At every place of every text the forms are read as their patterns are, a call is two braces, a
name and its arguments up to the first closing brace, and two braces; and one form at most takes
what stands there. -/
theorem tag_grammar (text : Text) (i : Nat) :
    (∀ form : Form, form.pattern.read? (text.drop i) = form.read? (text.drop i)) ∧
    (∀ c tail, call? (text.drop i) = some (c, tail) ↔
      ∃ stretch, text.drop i = opener ++ (stretch ++ (closer ++ tail)) ∧ '}' ∉ stretch ∧
        CallStretch c stretch) ∧
    ∀ f ∈ loopForms, ∀ g ∈ loopForms, f.Takes (text.drop i) → g.Takes (text.drop i) → f = g := by
  refine ⟨fun form => form.read?_pattern _, fun c tail => call?_eq_some_iff, ?_⟩
  intro f listed g listed' first second
  have same := first.unique second
  have inLoop : ∀ form ∈ loopForms, form.inLoop = form := by decide
  rwa [inLoop f listed, inLoop g listed'] at same

end Stencil.Markup
