import Stencil.Proofs.Markup.Shape
import Stencil.Proofs.Template.Tree

/-! Plain templates: literal text and complete variable tags. No other form of tag starts in
them, but for calls without an argument, which stay. The variables are found where they are
written, whatever comes after. -/
namespace Stencil.Markup

open Text

variable {text lexeme rest word close : Text} {allowed : Char → Bool}

theorem trimStart_blanks {blanks : Text} (all : ∀ c ∈ blanks, isBlank c = true) (text : Text) :
    trimStart (blanks ++ text) = trimStart text :=
  List.dropWhile_append_of_pos all

theorem trimStart_solid {c : Char} (solid : isBlank c = false) (text : Text) :
    trimStart (c :: text) = c :: text :=
  List.dropWhile_cons_of_neg (ne_true_of_eq_false solid)

theorem takeWhile_word (all : ∀ c ∈ word, allowed c = true) {d : Char} (stop : allowed d = false)
    (more : Text) : (word ++ d :: more).takeWhile allowed = word := by
  rw [List.takeWhile_append_of_pos all, List.takeWhile_cons_of_neg (ne_true_of_eq_false stop),
    List.append_nil]

theorem dropWhile_word (all : ∀ c ∈ word, allowed c = true) {d : Char} (stop : allowed d = false)
    (more : Text) : (word ++ d :: more).dropWhile allowed = d :: more := by
  rw [List.dropWhile_append_of_pos all, List.dropWhile_cons_of_neg (ne_true_of_eq_false stop)]

/-- A word ends with the blanks after it, or with what follows these. -/
theorem exists_stop {after : Text} {d : Char} (solid : ∀ c, allowed c = true → isBlank c = false)
    (trails : ∀ c ∈ after, isBlank c = true) (stop : allowed d = false) (more : Text) :
    ∃ e rest, after ++ d :: more = e :: rest ∧ allowed e = false := by
  cases after with
  | nil => exact ⟨d, more, rfl, stop⟩
  | cons e after =>
    refine ⟨e, after ++ d :: more, rfl, Bool.eq_false_iff.mpr fun allows => ?_⟩
    have blank := trails e List.mem_cons_self
    rw [solid e allows] at blank
    contradiction

/-- A word, the blanks after it and a closing that starts with something else. -/
theorem word?_of_parts {before after : Text} {d : Char} (leads : ∀ c ∈ before, isBlank c = true)
    (full : word ≠ []) (all : ∀ c ∈ word, allowed c = true)
    (solid : ∀ c, allowed c = true → isBlank c = false) (trails : ∀ c ∈ after, isBlank c = true)
    (stop : allowed d = false) (ends : isBlank d = false) (rest : Text) :
    word? allowed (d :: close) (before ++ (word ++ (after ++ (d :: close ++ rest)))) =
      some (word, rest) := by
  obtain ⟨w, ws, rfl⟩ := List.exists_cons_of_ne_nil full
  have started : trimStart (before ++ (w :: ws ++ (after ++ (d :: close ++ rest)))) =
      w :: ws ++ (after ++ (d :: close ++ rest)) := by
    rw [trimStart_blanks leads]
    exact trimStart_solid (solid w (all w List.mem_cons_self)) _
  obtain ⟨e, more, shape, apart⟩ : ∃ e more, after ++ (d :: close ++ rest) = e :: more ∧
      allowed e = false := exists_stop solid trails stop (close ++ rest)
  have ended : trimStart (e :: more) = d :: close ++ rest := by
    rw [← shape, trimStart_blanks trails]
    exact trimStart_solid ends _
  unfold word?
  rw [started, shape]
  dsimp only
  rw [takeWhile_word all apart, dropWhile_word all apart, ended,
    after?_eq_some_iff.mpr rfl]
  rfl

/-- The converse of `reads_tag`. -/
theorem Names.read {opening : Text} {d : Char} (h : Names opening allowed (d :: close) word lexeme)
    (full : word ≠ []) (solid : ∀ c, allowed c = true → isBlank c = false)
    (stop : allowed d = false) (ends : isBlank d = false) (rest : Text) :
    tag? opening allowed (d :: close) (lexeme ++ rest) = some (word, rest) := by
  obtain ⟨⟨before, after, rfl, leads, trails⟩, all⟩ := h
  have split : opening ++ (before ++ (word ++ (after ++ d :: close))) ++ rest =
      opening ++ (before ++ (word ++ (after ++ (d :: close ++ rest)))) := by
    simp only [List.append_assoc, List.cons_append]
  rw [split, tag?, after?_eq_some_iff.mpr rfl, Option.bind_some]
  exact word?_of_parts leads full all solid trails stop ends rest

/-- The tag that opens a block, as it is written in a template. -/
theorem spacedTag?_tag {place : Place} {path : Text} (full : path ≠ [])
    (all : ∀ c ∈ path, isPathChar place c = true) (lead rest : Text) :
    spacedTag? (opener ++ lead) (isPathChar place) closer
      (Template.tag (lead ++ ' ' :: path) ++ rest) = some (path, rest) := by
  have split : Template.tag (lead ++ ' ' :: path) ++ rest =
      opener ++ lead ++ ' ' :: ([] ++ (path ++ ([] ++ (closer ++ rest)))) := by
    simp [Template.tag]
  have blank : isBlank ' ' = true := by decide
  rw [spacedTag?, split, after?_eq_some_iff.mpr rfl]
  dsimp only
  rw [if_pos blank]
  exact word?_of_parts (List.forall_mem_nil _) full all (fun _ => isBlank_of_isPathChar)
    (List.forall_mem_nil _) (isPathChar_closing place) (by decide) rest

/-- What follows an opening is a blank, or the word. -/
theorem head_of_parts {before more r : Text} {c : Char} (leads : ∀ c ∈ before, isBlank c = true)
    (full : word ≠ []) (all : ∀ c ∈ word, allowed c = true)
    (split : before ++ (word ++ more) = c :: r) : isBlank c = true ∨ allowed c = true := by
  cases before with
  | nil =>
    obtain ⟨w, ws, rfl⟩ := List.exists_cons_of_ne_nil full
    obtain ⟨rfl, -⟩ := List.cons.inj split
    exact .inr (all _ List.mem_cons_self)
  | cons b before =>
    obtain ⟨rfl, -⟩ := List.cons.inj split
    exact .inl (leads _ List.mem_cons_self)

/-- A path is not empty and starts with no brace, so that three braces are told from two. -/
theorem VariableShape.read {place : Place} {v : Variable} (h : VariableShape place v lexeme)
    (full : v.path ≠ []) (rest : Text) :
    variableTag? place (lexeme ++ rest) = some (v, rest) := by
  have opens := isPathChar_brace place
  have closes := isPathChar_closing place
  have blank : isBlank '}' = false := by decide
  obtain ⟨raw, path⟩ := v
  cases raw with
  | true =>
    have named : Names ('{' :: opener) (isPathChar place) ('}' :: closer) path lexeme := h
    have read : raw? place (lexeme ++ rest) = some (path, rest) :=
      named.read full (fun _ => isBlank_of_isPathChar) closes blank rest
    rw [variableTag?, read]
    rfl
  | false =>
    have named : Names opener (isPathChar place) closer path lexeme := h
    have read : escaped? place (lexeme ++ rest) = some (path, rest) :=
      named.read full (fun _ => isBlank_of_isPathChar) closes blank rest
    have other : raw? place (lexeme ++ rest) = none := by
      refine Option.bind_eq_none_iff.mpr fun tail found => ?_
      obtain ⟨⟨before, after, rfl, leads, -⟩, all⟩ := named
      have third : before ++ (path ++ (after ++ closer ++ rest)) = '{' :: tail := by
        simpa [opener] using after?_eq_some_iff.mp found
      rcases head_of_parts leads full all third with blank | allows
      · contradiction
      · rw [opens] at allows
        contradiction
    rw [variableTag?, read, other]
    rfl

/-- Literal text, in which no brace opens, and complete variable tags. -/
inductive Plain : Text → Prop
  | nil : Plain []
  | letter {c : Char} {rest : Text} : c ≠ '{' → Plain rest → Plain (c :: rest)
  | shown {v : Variable} {lexeme rest : Text} : VariableShape .page v lexeme → v.path ≠ [] →
      Plain rest → Plain (lexeme ++ rest)

theorem Plain.append {s t : Text} (first : Plain s) (last : Plain t) : Plain (s ++ t) := by
  induction first with
  | nil => exact last
  | letter other _ ih => exact .letter other ih
  | shown shape full _ ih =>
    rw [List.append_assoc]
    exact .shown shape full ih

theorem plain_of_braceless (braceless : '{' ∉ text) : Plain text := by
  induction text with
  | nil => exact .nil
  | cons c rest ih =>
    obtain ⟨other, later⟩ := not_or.mp (mt List.mem_cons.mpr braceless)
    exact .letter (Ne.symm other) (ih later)

/-- A variable tag as it is written in a template has a blank on each side of its path. -/
theorem variableTag_shape (raw : Bool) {path : Text}
    (all : ∀ c ∈ path, isPathChar .page c = true) :
    VariableShape .page ⟨raw, path⟩ (Template.variableTag raw path) := by
  have spaced : ∀ c ∈ [' '], isBlank c = true := List.forall_mem_singleton.mpr rfl
  cases raw with
  | true =>
    exact ⟨⟨[' '], [' '], by simp [Template.variableTag, Template.tag, opener, closer], spaced,
      spaced⟩, all⟩
  | false =>
    exact ⟨⟨[' '], [' '], by simp [Template.variableTag, Template.tag, opener, closer], spaced,
      spaced⟩, all⟩

theorem plain_variableTag (raw : Bool) {path : Text} (full : path ≠ [])
    (all : ∀ c ∈ path, isPathChar .page c = true) : Plain (Template.variableTag raw path) := by
  rw [← List.append_nil (Template.variableTag raw path)]
  exact .shown (variableTag_shape raw all) full .nil

/-- What stands where two braces open in a plain text: one brace more, or a path between blanks. -/
inductive Opening : Text → Prop
  | brace (rest : Text) : Opening (opener ++ '{' :: rest)
  | path {before path after : Text} (rest : Text) : (∀ c ∈ before, isBlank c = true) →
      path ≠ [] → (∀ c ∈ path, isPathChar .page c = true) → (∀ c ∈ after, isBlank c = true) →
      Opening (opener ++ (before ++ (path ++ (after ++ '}' :: rest))))

/-- Of what starts with two braces and has no other, two braces open only the whole. -/
theorem eq_of_opens {inner front back rest : Text} (full : inner ≠ []) (braceless : '{' ∉ inner)
    (split : opener ++ inner = front ++ back) (left : back ≠ [])
    (opens : opener <+: back ++ rest) : back = opener ++ inner := by
  have starts : ∃ more, back = '{' :: more := by
    obtain ⟨c, more, rfl⟩ := List.exists_cons_of_ne_nil left
    obtain ⟨rfl, -⟩ := List.cons_prefix_cons.mp opens
    exact ⟨more, rfl⟩
  obtain ⟨more, rfl⟩ := starts
  match front, split with
  | [], split => exact split.symm
  | [a], split =>
    -- The second brace, after which none follows.
    obtain rfl : inner = more := (List.cons.inj (List.cons.inj split).2).2
    obtain ⟨d, inner, rfl⟩ := List.exists_cons_of_ne_nil full
    have second := (List.cons_prefix_cons.mp (List.cons_prefix_cons.mp opens).2).1
    exact absurd (second ▸ List.mem_cons_self) braceless
  | a :: b :: front, split =>
    have inside : inner = front ++ '{' :: more := (List.cons.inj (List.cons.inj split).2).2
    exact absurd (inside ▸ List.mem_append_right front List.mem_cons_self) braceless

theorem Opening.of_parts {before path after ending front back rest : Text}
    (leads : ∀ c ∈ before, isBlank c = true) (full : path ≠ [])
    (all : ∀ c ∈ path, isPathChar .page c = true) (trails : ∀ c ∈ after, isBlank c = true)
    (ends : '{' ∉ ending)
    (split : opener ++ (before ++ (path ++ (after ++ '}' :: ending))) = front ++ back)
    (left : back ≠ []) (opens : opener <+: back ++ rest) : Opening (back ++ rest) := by
  have braceless : '{' ∉ before ++ (path ++ (after ++ '}' :: ending)) := by
    simp only [List.mem_append, List.mem_cons, not_or]
    refine ⟨fun member => ?_, fun member => ?_, fun member => ?_, by decide, ends⟩
    · exact absurd (leads _ member) (by decide)
    · exact absurd (all _ member) (by decide)
    · exact absurd (trails _ member) (by decide)
  have filled : before ++ (path ++ (after ++ '}' :: ending)) ≠ [] := by simp [full]
  rw [eq_of_opens filled braceless split left opens]
  have shape := Opening.path (ending ++ rest) leads full all trails
  simpa only [List.append_assoc, List.cons_append] using shape

/-- Two braces open in a plain text where a tag starts, and at the second brace of a raw one,
whatever comes after the text. -/
theorem Plain.opening_append {part : Text} (h : Plain text) (within : part <:+ text)
    (full : part ≠ []) {more : Text} (opens : opener <+: part ++ more) : Opening (part ++ more) := by
  induction h with
  | nil => exact absurd (List.suffix_nil.mp within) full
  | letter other _ ih =>
    rcases List.suffix_cons_iff.mp within with rfl | later
    · exact absurd (List.cons_prefix_cons.mp opens).1.symm other
    · exact ih later
  | @shown v lexeme tail shape nonempty _ ih =>
    obtain ⟨front, split⟩ := within
    rcases List.append_eq_append_iff.mp split with ⟨back, cut, rfl⟩ | ⟨passed, rfl, later⟩
    · by_cases none : back = []
      · subst none
        exact ih List.suffix_rfl
      · rw [List.append_assoc] at opens ⊢
        obtain ⟨raw, path⟩ := v
        cases raw with
        | false =>
          obtain ⟨⟨before, after, rfl, leads, trails⟩, all⟩ :
            Names opener _ closer path lexeme := shape
          exact .of_parts leads nonempty all trails (by decide) cut none opens
        | true =>
          obtain ⟨⟨before, after, rfl, leads, trails⟩, all⟩ :
            Names ('{' :: opener) _ ('}' :: closer) path lexeme := shape
          cases front with
          | nil =>
            rw [← List.nil_append back, ← cut]
            exact .brace _
          | cons c front =>
            exact .of_parts leads nonempty all trails (by decide) (List.cons.inj cut).2 none opens
    · exact ih ⟨passed, later.symm⟩

theorem Plain.opening (h : Plain text) (part : rest <:+ text) (opens : opener <+: rest) :
    Opening rest := by
  have full : rest ≠ [] := by
    rintro rfl
    contradiction
  rw [← List.append_nil rest] at opens ⊢
  exact h.opening_append part full opens

/-- What is read nowhere where two braces open in a plain text passes over it. -/
theorem Plain.passed {m : Type → Type} [Monad m] [LawfulMonad m] {α : Type} {rule : Rule α}
    {new : Text → α → m Text} (h : Plain text) (unread : ∀ part, Opening part → rule part = none)
    (rest : Text) :
    rewrite (atOpener rule) new (text ++ rest) =
      (text ++ ·) <$> rewrite (atOpener rule) new rest := by
  refine rewrite_passed fun a c b split => ?_
  by_cases opens : opener <+: c :: b ++ rest
  · rw [atOpener_of_opens opens]
    have within : c :: b <:+ text := ⟨a, split.symm⟩
    exact unread _ (h.opening_append within (List.cons_ne_nil c b) opens)
  · exact atOpener_eq_none opens

/-- A tag that is led by something else than a blank, a path or a brace is none. -/
theorem Opening.led (h : Opening rest) {c : Char} (brace : c ≠ '{') (solid : isBlank c = false)
    (other : isPathChar .page c = false) (more : Text) :
    after? (opener ++ c :: more) rest = none := by
  cases read : after? (opener ++ c :: more) rest with
  | none => rfl
  | some tail =>
    have split := after?_eq_some_iff.mp read
    rw [List.append_assoc] at split
    cases h with
    | brace rest =>
      have third := (List.cons.inj (List.append_cancel_left split)).1
      exact absurd third.symm brace
    | path rest leads full all trails =>
      rcases head_of_parts leads full all (List.append_cancel_left split) with blank | allows
      · rw [solid] at blank
        contradiction
      · rw [other] at allows
        contradiction

theorem Opening.inclusion?_eq_none (h : Opening rest) : inclusion? rest = none := by
  have led := h.led (c := '>') (by decide) (by decide) (by decide) []
  exact Option.bind_eq_none_iff.mpr fun tail found => absurd (led.symm.trans found) nofun

theorem Opening.spacedTag?_eq_none (h : Opening rest) (name close : Text) (allowed : Char → Bool) :
    spacedTag? (opener ++ '#' :: name) allowed close rest = none := by
  have led := h.led (c := '#') (by decide) (by decide) (by decide) name
  rw [spacedTag?, led]

theorem Opening.loop?_eq_none (h : Opening rest) : loop? rest = none := by
  have opens : each? rest = none := h.spacedTag?_eq_none "each".toList closer (isPathChar .page)
  rw [loop?, block?, opens]
  rfl

theorem Opening.choice?_eq_none (h : Opening rest) (place : Place) : choice? place rest = none := by
  have opens : condition? place rest = none :=
    h.spacedTag?_eq_none "if".toList closer (isPathChar place)
  rw [choice?, block?, opens]
  rfl

/-- A text in which nothing is included, repeated or chosen. -/
structure Flat (text : Text) : Prop where
  inclusion : ∀ ⦃rest⦄, rest <:+ text → opener <+: rest → inclusion? rest = none
  loop : ∀ ⦃rest⦄, rest <:+ text → opener <+: rest → loop? rest = none
  choice : ∀ ⦃rest⦄, rest <:+ text → opener <+: rest → choice? .page rest = none

theorem Plain.flat (h : Plain text) : Flat text where
  inclusion _ part opens := (h.opening part opens).inclusion?_eq_none
  loop _ part opens := (h.opening part opens).loop?_eq_none
  choice _ part opens := (h.opening part opens).choice?_eq_none .page

/-- Where all is blank, the argument is a blank. -/
theorem trim_of_arguments? {text arguments : Text} (blanks : ∀ c ∈ text, isBlank c = true)
    (read : arguments? text = some arguments) : trim arguments = [] := by
  have nothing : trim text = [] := by
    rw [trim, trimStart, List.dropWhile_eq_nil_iff.mpr blanks]
    rfl
  cases text with
  | nil => cases read
  | cons c more =>
    cases more with
    | nil => cases read
    | cons d rest =>
      rw [arguments?, if_pos (blanks c List.mem_cons_self), nothing] at read
      obtain ⟨last, ends, rfl⟩ := Option.map_eq_some_iff.mp read
      exact trim_blank (blanks last (List.mem_cons_of_mem c (List.mem_of_getLast? ends)))

theorem arguments?_of_solid {c : Char} (solid : isBlank c = false) (rest : Text) :
    arguments? (c :: rest) = none := by
  cases rest with
  | nil => rfl
  | cons d rest => exact if_neg (ne_true_of_eq_false solid)

/-- After the name that starts a path there is the rest of the path, or nothing but blanks. -/
theorem trim_of_path {path after rest arguments : Text}
    (all : ∀ c ∈ path, isPathChar .page c = true) (trails : ∀ c ∈ after, isBlank c = true)
    (read : arguments? (((path ++ (after ++ '}' :: rest)).dropWhile isNameChar).takeWhile
      (· ≠ '}')) = some arguments) : trim arguments = [] := by
  cases left : path.dropWhile isNameChar with
  | nil =>
    have named : ∀ c ∈ path, isNameChar c = true := by
      simpa [List.dropWhile_eq_nil_iff] using left
    obtain ⟨e, more, stop, apart⟩ :=
      exists_stop (d := '}') (fun _ => isBlank_of_isNameChar) trails (by decide) rest
    have braceless : ∀ c ∈ after, (decide <| c ≠ '}') = true := fun c member =>
      decide_eq_true fun same => absurd (trails c member) (same ▸ by decide)
    rw [stop, dropWhile_word named apart, ← stop, takeWhile_word braceless (by decide)] at read
    exact trim_of_arguments? trails read
  | cons d more =>
    have member : d ∈ path := (List.dropWhile_subset _) (left ▸ List.mem_cons_self)
    have solid : isBlank d = false := isBlank_of_isPathChar (all d member)
    have other : d ≠ '}' := fun same => absurd (all d member) (same ▸ by decide)
    rw [List.dropWhile_append, left] at read
    simp only [List.isEmpty_cons, Bool.false_eq_true, if_false, List.cons_append] at read
    rw [List.takeWhile_cons_of_pos (by simpa using other), arguments?_of_solid solid] at read
    contradiction

/-- What looks like a call in a plain text is a name alone. -/
theorem Opening.trim_call (h : Opening rest) {c : Call} {tail : Text}
    (read : call? rest = some (c, tail)) : trim c.arguments = [] := by
  cases h with
  | brace rest => contradiction
  | @path before path after rest leads full all trails =>
    obtain ⟨p, ps, shape⟩ := List.exists_cons_of_ne_nil full
    have started : trimStart (before ++ (path ++ (after ++ '}' :: rest))) =
        path ++ (after ++ '}' :: rest) := by
      rw [trimStart_blanks leads, shape]
      exact trimStart_solid (isBlank_of_isPathChar (all p (shape ▸ List.mem_cons_self))) _
    unfold call? at read
    rw [after?_eq_some_iff.mpr rfl] at read
    simp only [Option.bind_eq_bind, Option.bind_some, started] at read
    split at read
    next => contradiction
    next =>
      obtain ⟨arguments, given, read⟩ := Option.bind_eq_some_iff.mp read
      obtain ⟨_, -, same⟩ := Option.bind_eq_some_iff.mp read
      cases same
      exact trim_of_path all trails given

theorem VariableShape.opens {place : Place} {v : Variable} (h : VariableShape place v lexeme) :
    opener <+: lexeme := by
  obtain ⟨raw, path⟩ := v
  cases raw with
  | true =>
    obtain ⟨⟨before, after, rfl, -⟩, -⟩ : Names ('{' :: opener) _ ('}' :: closer) path lexeme := h
    exact ⟨_, rfl⟩
  | false =>
    obtain ⟨⟨before, after, rfl, -⟩, -⟩ : Names opener _ closer path lexeme := h
    exact List.prefix_append _ _

/-- In the body of a loop a path may name all that it may name on the page. -/
theorem VariableShape.anywhere {v : Variable} (h : VariableShape .page v lexeme) (place : Place) :
    VariableShape place v lexeme := by
  have wider : ∀ c, isPathChar .page c = true → isPathChar place c = true := fun c allows => by
    simp only [isPathChar, Bool.or_eq_true] at allows ⊢
    exact .inl (allows.resolve_right (by simp))
  unfold VariableShape at h ⊢
  split at h
  next raw =>
    rw [if_pos raw]
    exact ⟨h.parts, fun c member => wider c (h.allows c member)⟩
  next escaped =>
    rw [if_neg escaped]
    exact ⟨h.parts, fun c member => wider c (h.allows c member)⟩

theorem VariableShape.found {place : Place} {v : Variable} (h : VariableShape place v lexeme)
    (full : v.path ≠ []) (rest : Text) :
    atOpener (variableTag? place) (lexeme ++ rest) = some (v, rest) := by
  have opens : opener <+: lexeme ++ rest := h.opens.trans (List.prefix_append lexeme rest)
  rw [atOpener_of_opens opens, h.read full]

theorem Plain.rewrite_append {m : Type → Type} [Monad m] [LawfulMonad m]
    {new : Text → Variable → m Text} {s : Text} (h : Plain s) (place : Place) (t : Text) :
    rewrite (atOpener (variableTag? place)) new (s ++ t) = do
      let front ← rewrite (atOpener (variableTag? place)) new s
      let back ← rewrite (atOpener (variableTag? place)) new t
      return front ++ back := by
  induction h with
  | nil => simp
  | letter other _ ih =>
    rw [List.cons_append, rewrite_copied (atOpener_cons other),
      rewrite_copied (atOpener_cons other), ih]
    simp
  | @shown v lexeme rest shape full _ ih =>
    have nonempty : lexeme ≠ [] := fun none => by
      have opens := shape.opens
      rw [none] at opens
      contradiction
    have shape' := shape.anywhere place
    rw [List.append_assoc, rewrite_found nonempty (shape'.found full _),
      rewrite_found nonempty (shape'.found full _), ih]
    simp only [map_eq_pure_bind, bind_assoc, pure_bind, List.append_assoc]

end Stencil.Markup
