import Stencil.Proofs.Markup.Plain
import Stencil.Proofs.Template.Tags

/-! A helper call with braces before it that belong to no tag. A call runs from two braces
to the next closing brace, whatever stands between, so what starts like a call before the
tag goes on into it and takes it along. No other form of tag is found there: between the
last opening brace and the first closing one stand a name and its arguments, which are more
than one word. -/
namespace Stencil.Markup

open Text

variable {name other arguments front back part lexeme tail inside : Text} {c : Call}

theorem exists_blank_of_arguments? {a : Text} (given : arguments? inside = some a) :
    ∃ d more, inside = d :: more ∧ isBlank d = true := by
  unfold arguments? at given
  split at given
  next d e rest =>
    split at given
    next blank => exact ⟨d, e :: rest, rfl, blank⟩
    next => contradiction
  next => contradiction

theorem not_isNameChar_of_isBlank {d : Char} (blank : isBlank d = true) : isNameChar d = false :=
  Bool.eq_false_iff.mpr fun named => by
    rw [isBlank_of_isNameChar named] at blank
    contradiction

/-- The converse of `reads_call`. -/
theorem CallShape.read (h : CallShape c lexeme) (full : c.name ≠ []) (rest : Text) :
    call? (lexeme ++ rest) = some (c, rest) := by
  obtain ⟨name, arguments⟩ := c
  obtain ⟨⟨before, inside, rfl, leads, free, given⟩, named⟩ := h
  obtain ⟨d, more, rfl, blank⟩ := exists_blank_of_arguments? given
  obtain ⟨n, ns, rfl⟩ := List.exists_cons_of_ne_nil full
  have split : opener ++ (before ++ (n :: ns ++ (d :: more ++ closer))) ++ rest =
      opener ++ (before ++ (n :: ns ++ d :: (more ++ closer ++ rest))) := by simp
  have started : trimStart (before ++ (n :: ns ++ d :: (more ++ closer ++ rest))) =
      n :: ns ++ d :: (more ++ closer ++ rest) := by
    rw [trimStart_blanks leads]
    exact trimStart_solid (isBlank_of_isNameChar (named n List.mem_cons_self)) _
  have stop := not_isNameChar_of_isBlank blank
  have held : d :: (more ++ closer ++ rest) = d :: more ++ '}' :: ('}' :: rest) := by
    simp [closer]
  have inner : ∀ e ∈ d :: more, (decide <| e ≠ '}') = true := fun e member =>
    decide_eq_true fun same => free (same ▸ member)
  have taken := takeWhile_word inner (d := '}') (by decide) ('}' :: rest)
  have dropped := dropWhile_word inner (d := '}') (by decide) ('}' :: rest)
  unfold call?
  rw [split, after?_eq_some_iff.mpr rfl]
  simp only [Option.bind_eq_bind, Option.bind_some, started, takeWhile_word named stop,
    dropWhile_word named stop]
  rw [held, taken, dropped, given]
  rfl

/-- A name and an argument text that make a call: the arguments are not blank and have no brace. -/
structure Callable (name arguments : Text) : Prop where
  full : name ≠ []
  named : ∀ d ∈ name, isNameChar d = true
  opens : '{' ∉ arguments
  closes : '}' ∉ arguments
  solid : trim arguments ≠ []

/-- What stands between the braces of a call. -/
def callInside (name arguments : Text) : Text := ' ' :: (name ++ ' ' :: (arguments ++ [' ']))

theorem callTag_eq (name arguments : Text) :
    Template.callTag name arguments = opener ++ (callInside name arguments ++ closer) := by
  simp [Template.callTag, Template.tag, callInside]

namespace Callable

theorem braceless (h : Callable name arguments) :
    '{' ∉ callInside name arguments ∧ '}' ∉ callInside name arguments := by
  have opens : '{' ∉ name := fun member => absurd (h.named _ member) (by decide)
  have closes : '}' ∉ name := fun member => absurd (h.named _ member) (by decide)
  simp [callInside, opens, closes, h.opens, h.closes]

theorem shape (h : Callable name arguments) :
    ∃ a, trim a = trim arguments ∧ CallShape ⟨name, a⟩ (Template.callTag name arguments) := by
  obtain ⟨d, more, split⟩ : ∃ d more, arguments ++ [' '] = d :: more :=
    List.exists_cons_of_ne_nil (by simp)
  have blank : isBlank ' ' = true := rfl
  obtain ⟨a, given, same⟩ := trim_arguments d more blank
  rw [← split] at given same
  refine ⟨a, same.trans (Script.trim_spaced arguments),
    ⟨[' '], ' ' :: (arguments ++ [' ']), ?_, List.forall_mem_singleton.mpr blank, ?_, given⟩,
    h.named⟩
  · simp [callTag_eq, callInside]
  · simp [h.closes]

/-- A call is found where it is written, whatever comes after it. -/
theorem found (h : Callable name arguments) (rest : Text) :
    ∃ a, trim a = trim arguments ∧
      atOpener call? (Template.callTag name arguments ++ rest) = some (⟨name, a⟩, rest) := by
  obtain ⟨a, same, shape⟩ := h.shape
  have opens : opener <+: Template.callTag name arguments ++ rest :=
    ⟨callInside name arguments ++ closer ++ rest, by simp [callTag_eq]⟩
  rw [atOpener_of_opens opens]
  exact ⟨a, same, shape.read h.full rest⟩

end Callable

theorem inside_unique {before before' inside' rest rest' : Text} (free : '}' ∉ before)
    (free' : '}' ∉ before') (bare : '{' ∉ inside ∧ '}' ∉ inside)
    (bare' : '{' ∉ inside' ∧ '}' ∉ inside')
    (same : before ++ '{' :: (inside ++ '}' :: rest) =
      before' ++ '{' :: (inside' ++ '}' :: rest')) : inside = inside' := by
  have cut {u v w : Text} (outer : '}' ∉ u) (inner : '{' ∉ v ∧ '}' ∉ v) :
      ((u ++ '{' :: (v ++ '}' :: w)).takeWhile (· ≠ '}')).reverse.takeWhile (· ≠ '{') =
        v.reverse := by
    have first : ∀ d ∈ u ++ '{' :: v, (decide <| d ≠ '}') = true := fun d member =>
      decide_eq_true fun same => by
        subst same
        simp [outer, inner.2] at member
    have last : ∀ d ∈ v.reverse, (decide <| d ≠ '{') = true := fun d member =>
      decide_eq_true fun same => inner.1 (same ▸ List.mem_reverse.mp member)
    have taken := takeWhile_word first (d := '}') (by decide) w
    rw [List.append_assoc, List.cons_append] at taken
    rw [taken, List.reverse_append, List.reverse_cons, List.append_assoc]
    exact takeWhile_word last (by decide) u.reverse
  apply List.reverse_injective
  rw [← cut free bare, same, cut free' bare']

/-- Between blanks there is one word, but in a call there are two. -/
theorem Callable.words_apart (h : Callable name arguments) {before word after : Text}
    (leads : ∀ d ∈ before, isBlank d = true) (solid : ∀ d ∈ word, isBlank d = false)
    (trails : ∀ d ∈ after, isBlank d = true) :
    before ++ (word ++ after) ≠ callInside name arguments := by
  intro same
  obtain ⟨n, ns, shape⟩ := List.exists_cons_of_ne_nil h.full
  have visible : ∀ d ∈ name, isBlank d = false := fun d member =>
    isBlank_of_isNameChar (h.named d member)
  have blank : isBlank ' ' = true := rfl
  -- Without the blanks in front, both start with their first word.
  have started : trimStart (word ++ after) = name ++ ' ' :: (arguments ++ [' ']) := by
    rw [← trimStart_blanks leads, same, callInside, trimStart, List.dropWhile_cons_of_pos blank,
      shape]
    exact trimStart_solid (visible n (shape ▸ List.mem_cons_self)) _
  have filled : word ≠ [] := by
    rintro rfl
    have nothing : trimStart after = [] := List.dropWhile_eq_nil_iff.mpr trails
    rw [List.nil_append, nothing, shape] at started
    simp at started
  obtain ⟨w, ws, rfl⟩ := List.exists_cons_of_ne_nil filled
  have begun : w :: ws ++ after = name ++ ' ' :: (arguments ++ [' ']) :=
    (trimStart_solid (solid w List.mem_cons_self) _).symm.trans started
  -- What comes after the word is blank, but what comes after the name is not.
  have rest : after = ' ' :: (arguments ++ [' ']) := by
    have ends := congrArg (List.dropWhile fun d => !isBlank d) begun
    rw [List.dropWhile_append_of_pos (by simpa using solid),
      dropWhile_word (by simpa using visible) (by simp [blank])] at ends
    rw [← ends]
    cases after with
    | nil => rfl
    | cons d after => simp [trails d List.mem_cons_self]
  apply h.solid
  rw [trim, trimStart, List.dropWhile_eq_nil_iff.mpr]
  · rfl
  · intro d member
    apply trails
    rw [rest]
    simp [member]

/-- No tag that names a single word ends where the call does. -/
theorem Callable.not_names (h : Callable name arguments) (opening lead : Text) {close word : Text}
    {allowed : Char → Bool}
    (named : Names (opening ++ '{' :: lead) allowed ('}' :: close) word lexeme)
    (closes : '}' ∉ opening) (bare : '{' ∉ lead ∧ '}' ∉ lead)
    (led : lead.head? ≠ some ' ') (solid : ∀ d, allowed d = true → isBlank d = false)
    (braces : allowed '{' = false ∧ allowed '}' = false) (free : '}' ∉ part) :
    part ++ (Template.callTag name arguments ++ back) ≠ lexeme ++ tail := by
  intro same
  obtain ⟨⟨before, after, rfl, leads, trails⟩, all⟩ := named
  have lacks {d : Char} (outside : d ∉ lead) (excluded : allowed d = false)
      (visible : isBlank d = false) : d ∉ lead ++ (before ++ (word ++ after)) := by
    intro member
    rcases List.mem_append.mp member with inner | inner
    · exact outside inner
    rcases List.mem_append.mp inner with inner | inner
    · simp [leads d inner] at visible
    rcases List.mem_append.mp inner with inner | inner
    · simp [all d inner] at excluded
    · simp [trails d inner] at visible
  have bare' : '{' ∉ lead ++ (before ++ (word ++ after)) ∧
      '}' ∉ lead ++ (before ++ (word ++ after)) :=
    ⟨lacks bare.1 braces.1 (by decide), lacks bare.2 braces.2 (by decide)⟩
  have inner : lead ++ (before ++ (word ++ after)) = callInside name arguments := by
    have split : opening ++ '{' :: (lead ++ (before ++ (word ++ after)) ++ '}' :: (close ++ tail)) =
        part ++ ['{'] ++ '{' :: (callInside name arguments ++ '}' :: ('}' :: back)) := by
      simpa [callTag_eq, opener, closer] using same.symm
    exact inside_unique closes (by simp [free]) bare' h.braceless split
  cases lead with
  | nil => exact h.words_apart leads (fun d member => solid d (all d member)) trails inner
  | cons d lead =>
    obtain ⟨rfl, -⟩ := List.cons.inj inner
    exact led rfl

theorem Callable.opening (h : Callable name arguments) {rest : Text} (clear : '{' ∉ back)
    (within : rest <:+ front ++ (Template.callTag name arguments ++ back))
    (opens : opener <+: rest) :
    ∃ part, part <:+ front ∧ rest = part ++ (Template.callTag name arguments ++ back) := by
  obtain ⟨passed, split⟩ := within
  rcases List.append_eq_append_iff.mp split with ⟨part, rfl, rfl⟩ | ⟨cut, rfl, inner⟩
  · exact ⟨part, List.suffix_append passed part, rfl⟩
  · refine ⟨[], List.nil_suffix, ?_⟩
    have started : opener ++ (callInside name arguments ++ (closer ++ back)) = cut ++ rest := by
      simpa [callTag_eq] using inner
    have bare : '{' ∉ callInside name arguments ++ (closer ++ back) := by
      simp [h.braceless.1, clear, closer]
    have left : rest ≠ [] := by
      rintro rfl
      contradiction
    have opens' : opener <+: rest ++ [] := by simpa using opens
    have whole := eq_of_opens (by simp [callInside]) bare started left opens'
    simp [whole, callTag_eq]

section Stray

variable (h : Callable name arguments) (free : '}' ∉ front) (clear : '{' ∉ back)
include h free clear

/-- Nothing is read there that names a single word. -/
theorem Callable.reads_none {α : Type} {rule : Rule α} {Shape : α → Text → Prop}
    (reads : rule.Reads Shape) (apart : ∀ content lexeme part tail, Shape content lexeme →
      '}' ∉ part → part ++ (Template.callTag name arguments ++ back) ≠ lexeme ++ tail) {rest : Text}
    (within : rest <:+ front ++ (Template.callTag name arguments ++ back))
    (opens : opener <+: rest) : rule rest = none := by
  obtain ⟨part, inside, rfl⟩ := h.opening clear within opens
  cases read : rule (part ++ (Template.callTag name arguments ++ back)) with
  | none => rfl
  | some found =>
    obtain ⟨content, tail⟩ := found
    obtain ⟨lexeme, split, shape⟩ := reads read
    exact absurd split (apart content lexeme part tail shape fun brace => free (inside.mem brace))

theorem Callable.flat : Flat (front ++ (Template.callTag name arguments ++ back)) where
  inclusion _ within opens := by
    refine h.reads_none free clear reads_tag ?_ within opens
    intro word lexeme part tail shape bare
    exact h.not_names ['{'] ['>'] shape (by decide) (by decide) (by decide)
      (fun _ => isBlank_of_isFileChar) (by decide) bare
  loop rest within opens := by
    have opening : each? rest = none := by
      refine h.reads_none free clear reads_spacedTag ?_ within opens
      intro word lexeme part tail shape bare
      exact h.not_names ['{'] "#each".toList shape (by decide) (by decide) (by decide)
        (fun _ => isBlank_of_isPathChar) (by decide) bare
    rw [loop?, block?, opening]
    rfl
  choice rest within opens := by
    have opening : condition? .page rest = none := by
      refine h.reads_none free clear reads_spacedTag ?_ within opens
      intro word lexeme part tail shape bare
      exact h.not_names ['{'] "#if".toList shape (by decide) (by decide) (by decide)
        (fun _ => isBlank_of_isPathChar) (by decide) bare
    rw [choice?, block?, opening]
    rfl

theorem Callable.variableTag?_eq_none {rest : Text}
    (within : rest <:+ front ++ (Template.callTag name arguments ++ back))
    (opens : opener <+: rest) : variableTag? .page rest = none := by
  refine h.reads_none free clear (reads_variable .page) ?_ within opens
  rintro ⟨raw, path⟩ lexeme part tail shape bare
  cases raw with
  | true =>
    have named : Names ('{' :: opener) (isPathChar .page) ('}' :: closer) path lexeme := shape
    exact h.not_names opener [] named (by decide) (by decide) (by decide)
      (fun _ => isBlank_of_isPathChar) (by decide) bare
  | false =>
    have named : Names opener (isPathChar .page) closer path lexeme := shape
    exact h.not_names ['{'] [] named (by decide) (by decide) (by decide)
      (fun _ => isBlank_of_isPathChar) (by decide) bare

end Stray

/-- Two braces, a name between blanks, and anything. -/
structure CallStart (name part : Text) : Prop where
  parts : ∃ before d rest, part = opener ++ (before ++ (name ++ d :: rest)) ∧
    (∀ e ∈ before, isBlank e = true) ∧ isBlank d = true
  full : name ≠ []
  named : ∀ e ∈ name, isNameChar e = true

/-- Something in the text starts like a call of the name. -/
def CallOpens (name text : Text) : Prop := ∃ part, part <:+ text ∧ CallStart name part

theorem CallStart.opens (start : CallStart name part) : opener <+: part := by
  obtain ⟨before, d, rest, rfl, -⟩ := start.parts
  exact List.prefix_append opener _

theorem CallOpens.name_part {text : Text} (h : CallOpens name text) : name <:+: text := by
  obtain ⟨part, inside, start⟩ := h
  obtain ⟨before, d, rest, rfl, -⟩ := start.parts
  exact List.IsInfix.trans ⟨opener ++ before, d :: rest, by simp⟩ inside.isInfix

theorem not_callOpens_nil : ¬CallOpens name [] := by
  rintro ⟨part, inside, start⟩
  have opens := start.opens
  rw [List.suffix_nil.mp inside] at opens
  contradiction

theorem callOpens_cons_iff {d : Char} {text : Text} :
    CallOpens name (d :: text) ↔ CallStart name (d :: text) ∨ CallOpens name text := by
  simp only [CallOpens, List.suffix_cons_iff, or_and_right, exists_or, exists_eq_left]

/-- What starts like a call goes on to the end of the call after it. -/
theorem CallStart.takes (start : CallStart other part) (h : Callable name arguments)
    (free : '}' ∉ part) (back : Text) :
    ∃ a, trim a ≠ [] ∧
      atOpener call? (part ++ (Template.callTag name arguments ++ back)) =
        some (⟨other, a⟩, back) := by
  have opens : opener <+: part ++ (Template.callTag name arguments ++ back) :=
    start.opens.trans (List.prefix_append part _)
  rw [atOpener_of_opens opens]
  obtain ⟨before, d, rest, rfl, leads, blank⟩ := start.parts
  have inside : '}' ∉ rest := fun member => free (by simp [member])
  obtain ⟨e, more, split⟩ : ∃ e more, rest ++ (opener ++ callInside name arguments) = e :: more :=
    List.exists_cons_of_ne_nil (by simp [opener])
  obtain ⟨a, given, same⟩ := trim_arguments e more blank
  rw [← split] at given same
  have shape : CallShape ⟨other, a⟩ (opener ++ (before ++ (other ++ d :: rest)) ++
      Template.callTag name arguments) := by
    refine ⟨⟨before, d :: (rest ++ (opener ++ callInside name arguments)), ?_, leads, ?_, given⟩,
      start.named⟩
    · simp [callTag_eq]
    · have solid : '}' ≠ d := by
        rintro rfl
        contradiction
      simp [solid, inside, h.braceless.2, opener]
  refine ⟨a, fun nothing => ?_, ?_⟩
  · rw [same] at nothing
    have brace := all_blank_of_trim nothing '{' (by simp [opener])
    contradiction
  · rw [← List.append_assoc]
    exact shape.read start.full back

theorem name_of_call? {text : Text} (read : call? text = some (c, tail)) : c.name ≠ [] := by
  obtain ⟨inner, -, read⟩ := Option.bind_eq_some_iff.mp read
  dsimp only at read
  split at read
  next => contradiction
  next full =>
    obtain ⟨_, -, read⟩ := Option.bind_eq_some_iff.mp read
    obtain ⟨_, -, same⟩ := Option.bind_eq_some_iff.mp read
    cases same
    exact full

/-- Whatever is read as a call before the call starts like one. -/
theorem callStart_of_call? (full : part ≠ []) (ends : part.getLast? ≠ some '{')
    (read : call? (part ++ (Template.callTag name arguments ++ back)) = some (c, tail)) :
    CallStart c.name part := by
  obtain ⟨lexeme, split, ⟨before, inside, rfl, leads, -, given⟩, named⟩ := reads_call read
  obtain ⟨d, more, rfl, blank⟩ := exists_blank_of_arguments? given
  have brace : '{' ∉ before ++ c.name := fun member => by
    rcases List.mem_append.mp member with inner | inner
    · exact absurd (leads _ inner) (by decide)
    · exact absurd (named _ inner) (by decide)
  have cut : opener ++ (before ++ c.name) ++ d :: (more ++ closer ++ tail) =
      part ++ ('{' :: '{' :: (callInside name arguments ++ closer ++ back)) := by
    simpa [callTag_eq, opener] using split.symm
  rcases List.append_eq_append_iff.mp cut with ⟨rest, whole, ending⟩ | ⟨rest, whole, ending⟩
  · cases rest with
    | nil =>
      obtain ⟨rfl, -⟩ := List.cons.inj ending
      contradiction
    | cons e rest =>
      obtain ⟨rfl, -⟩ := List.cons.inj ending
      exact ⟨⟨before, d, rest, by simp [whole], leads, blank⟩, name_of_call? read, named⟩
  · cases rest with
    | nil =>
      obtain ⟨rfl, -⟩ := List.cons.inj ending
      contradiction
    | cons e rest =>
      obtain ⟨rfl, -⟩ := List.cons.inj ending
      -- The braces of the call would stand inside the opening braces of another.
      obtain ⟨p, more, rfl⟩ := List.exists_cons_of_ne_nil full
      obtain ⟨rfl, second⟩ := List.cons.inj whole
      cases more with
      | nil => exact absurd rfl ends
      | cons q more =>
        have inner : before ++ c.name = more ++ '{' :: rest := (List.cons.inj second).2
        exact absurd (inner ▸ List.mem_append_right more List.mem_cons_self) brace

/-- Before the call nothing is read as one, if nothing starts like one. -/
theorem unread_of_unopened (ends : front.getLast? ≠ some '{')
    (clear : ∀ other, ¬CallOpens other front) (name arguments back : Text) :
    ∀ part, part <:+ front → part ≠ [] →
      atOpener call? (part ++ (Template.callTag name arguments ++ back)) = none := by
  intro part inside full
  cases read : atOpener call? (part ++ (Template.callTag name arguments ++ back)) with
  | none => rfl
  | some found =>
    obtain ⟨passed, rfl⟩ := inside
    rw [List.getLast?_append_of_ne_nil passed full] at ends
    have start := callStart_of_call? full ends (atOpener_eq_some read).2
    exact absurd ⟨part, List.suffix_append passed part, start⟩ (clear found.1.name)

/-- Nor is anything read if there is a single brace, right before the call. -/
theorem unread_of_brace {before : Text} (bare : '{' ∉ before) (name arguments back : Text) :
    ∀ part, part <:+ before ++ ['{'] → part ≠ [] →
      atOpener call? (part ++ (Template.callTag name arguments ++ back)) = none := by
  rintro part ⟨passed, split⟩ full
  obtain ⟨rest, d, rfl⟩ := (List.eq_nil_or_concat part).resolve_left full
  rw [List.concat_eq_append, ← List.append_assoc] at split
  obtain ⟨rfl, same⟩ := List.append_inj' split rfl
  obtain rfl := (List.cons.inj same).1
  cases rest with
  | nil =>
    -- After the first two braces comes the third, which is no name.
    rw [callTag_eq]
    rfl
  | cons c rest => exact atOpener_cons fun brace => bare (by simp [brace])

end Stencil.Markup
