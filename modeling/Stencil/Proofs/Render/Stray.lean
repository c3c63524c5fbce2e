import Stencil.Proofs.Helper.Literals
import Stencil.Proofs.Render.Plain

/-! Rendering a helper call with literal text on both sides. Braces that belong to no tag
may stand before the call, and a brace may stand on each side of it. The call is made unless
something before it starts like a call; its result takes the place of what stands between
the inner braces. -/
namespace Stencil

open Markup Text

variable {token : Token} {text front back result name arguments other : Text}

theorem Catalog.call_trim (c : Catalog) (name text : Text) (lookup : Helper.Lookup) :
    c.call name (trim text) lookup = c.call name text lookup := by
  have same : Helper.arguments name lookup (trim text) = Helper.arguments name lookup text := by
    rw [Helper.arguments, Helper.words_trim, Helper.arguments]
  rw [Catalog.call_eq, Catalog.call_eq, same]

theorem placeholder?_of_nulFree_append (free : NulFree front) (full : front ≠ []) (text : Text) :
    Shelf.placeholder? token (front ++ text) = none := by
  obtain ⟨c, rest, rfl⟩ := List.exists_cons_of_ne_nil full
  exact placeholder?_cons (nulFree_cons.mp free).1 (rest ++ text)

theorem unspelled_append_iff (free : NulFree front) :
    Shelf.Unspelled token (front ++ text) ↔ Shelf.Unspelled token text := by
  constructor
  · intro h part inside
    exact h part (inside.trans (List.suffix_append front text))
  · intro h part ⟨passed, split⟩
    rcases List.append_eq_append_iff.mp split with ⟨more, rfl, rfl⟩ | ⟨more, rfl, later⟩
    · by_cases none : more = []
      · rw [none]
        exact h text List.suffix_rfl
      · exact placeholder?_of_nulFree_append (nulFree_append.mp free).2 none text
    · exact h part ⟨more, later.symm⟩

theorem unspelled_of_nulFree (free : NulFree text) : Shelf.Unspelled token text := by
  rw [← List.append_nil text, unspelled_append_iff free]
  intro part inside
  rw [List.suffix_nil.mp inside]
  rfl

/-- A text that is held between two others comes back between them. -/
theorem Shelf.restore_chunk {shelf : Shelf} {number : Nat} {finished : Text}
    (found : shelf.held[number]? = some finished) (first : NulFree front) (last : NulFree back) :
    shelf.restore (front ++ (Shelf.placeholder shelf.token number ++ back)) =
      .ok (front ++ (finished ++ back)) := by
  have before : shelf.Spells (Script.ofText front) front := .ofText first
  have after : shelf.Spells (Script.ofText back) back := .ofText last
  have flat : Script.flatten (Script.ofText front ++ .chunk finished :: Script.ofText back) =
      (Script.ofText front).flatten ++ (finished ++ (Script.ofText back).flatten) := by
    simp [Script.flatten, Symbol.source]
  rw [(before.append (after.chunk found)).restore, flat, Script.flatten_ofText,
    Script.flatten_ofText]

/-- Keeping a result, and then putting it back between two texts in which no variable is shown. -/
theorem restore_kept {context : Value} (first : NulFree front) (last : NulFree back)
    (quiet : ∀ shown, '{' ∉ shown → '}' ∉ shown →
      Render.fillVariables .page context (front ++ (shown ++ back)) =
        pure (front ++ (shown ++ back))) :
    ((Shelf.empty token).keep result >>= fun (shown, later) =>
        Render.fillVariables .page context (front ++ (shown ++ back)) >>= later.restore) =
      (fun page => front ++ (page ++ back)) <$> (Shelf.empty token).restore result := by
  cases result with
  | nil =>
    have whole : (Shelf.empty token).restore (front ++ ([] ++ back)) =
        .ok (front ++ ([] ++ back)) :=
      Shelf.restore_of_nulFree (by simp [first, last]) _
    change Render.fillVariables .page context (front ++ ([] ++ back)) >>= _ = _
    rw [quiet [] List.not_mem_nil List.not_mem_nil]
    exact whole
  | cons c rest =>
    rw [Shelf.keep]
    · cases restored : (Shelf.empty token).restore (c :: rest) with
      | error cause => rfl
      | ok page =>
        obtain ⟨opens, closes⟩ := Shelf.braceless_placeholder token 0
        have held : (⟨token, #[page]⟩ : Shelf).held[0]? = some page := rfl
        change Render.fillVariables .page context
          (front ++ (Shelf.placeholder token 0 ++ back)) >>= _ = _
        rw [quiet _ opens closes]
        exact Shelf.restore_chunk held first last
    · simp

section Stages

variable {catalog : Catalog} {context : Value}

/-- Where nothing before the call is read as one, the call is made. -/
theorem Markup.Callable.callHelpers_called (h : Callable name arguments)
    (called : catalog.call name arguments (fun path => context.follow path) = .ok result)
    (unread : ∀ part, part <:+ front → part ≠ [] →
      atOpener call? (part ++ (Template.callTag name arguments ++ back)) = none)
    (clear : '{' ∉ back) (shelf : Shelf) :
    (Render.callHelpers catalog context
        (front ++ (Template.callTag name arguments ++ back))).run shelf =
      (fun (shown, later) => (front ++ (shown ++ back), later)) <$> shelf.keep result := by
  obtain ⟨a, same, opened⟩ := h.found back
  have full : Template.callTag name arguments ≠ [] := by simp [callTag_eq, opener]
  have known : catalog.has name = true := by
    by_contra unknown
    have none : catalog.get? name = none := by simpa [Catalog.has] using unknown
    rw [Catalog.call_eq, none] at called
    contradiction
  have answer : Render.callHelper catalog context (Template.callTag name arguments) ⟨name, a⟩
      shelf = shelf.keep result := by
    rw [callHelper_called (same ▸ h.solid) known, same, Catalog.call_trim, called]
    rfl
  have passed : ∀ u c v, front = u ++ c :: v →
      atOpener call? (c :: v ++ (Template.callTag name arguments ++ back)) = none :=
    fun u c v split => unread (c :: v) ⟨u, split.symm⟩ (List.cons_ne_nil c v)
  rw [Render.callHelpers, rewrite_passed passed, rewrite_found full opened, rewrite_literal clear]
  simp only [StateT.run_map, StateT.run_bind, map_pure, StateT.run_pure]
  change (fun p : Text × Shelf => (front ++ p.1, p.2)) <$>
    (Render.callHelper catalog context (Template.callTag name arguments) ⟨name, a⟩ shelf >>= _) = _
  rw [answer]
  cases shelf.keep result <;> rfl

/-- Where something before the call starts like one of a name that is no helper's, both stay. -/
theorem Markup.Callable.callHelpers_taken (h : Callable name arguments) (free : '}' ∉ front)
    (ends : front.getLast? ≠ some '{')
    (unregistered : ∀ other, CallOpens other front → catalog.has other = false)
    (taken : ∃ other, CallOpens other front) (clear : '{' ∉ back) :
    Render.callHelpers catalog context (front ++ (Template.callTag name arguments ++ back)) =
      pure (front ++ (Template.callTag name arguments ++ back)) := by
  -- From the left: the first place where something starts like a call takes all the rest along.
  induction front with
  | nil =>
    obtain ⟨other, opens⟩ := taken
    exact absurd opens not_callOpens_nil
  | cons c front ih =>
    cases read : atOpener call? (c :: front ++ (Template.callTag name arguments ++ back)) with
    | none =>
      have later : ∃ other, CallOpens other front := by
        obtain ⟨other, opens⟩ := taken
        rcases callOpens_cons_iff.mp opens with start | later
        · obtain ⟨a, -, found⟩ := start.takes h free back
          rw [read] at found
          contradiction
        · exact ⟨other, later⟩
      have nonempty : front ≠ [] := by
        rintro rfl
        exact not_callOpens_nil later.choose_spec
      have rest : rewrite (atOpener call?) (Render.callHelper catalog context) _ = _ :=
        ih (fun member => free (List.mem_cons_of_mem c member))
          (by rwa [List.getLast?_cons_of_ne_nil nonempty] at ends)
          (fun other opens => unregistered other (callOpens_cons_iff.mpr (.inr opens))) later
      rw [List.cons_append] at read ⊢
      rw [Render.callHelpers, rewrite_copied read, rest, map_pure]
    | some found =>
      obtain ⟨call, tail⟩ := found
      have start := callStart_of_call? (List.cons_ne_nil c front) ends (atOpener_eq_some read).2
      obtain ⟨a, -, whole⟩ := start.takes h free back
      obtain ⟨-, rfl⟩ := Prod.mk.inj (Option.some.inj (read.symm.trans whole))
      have idle : Render.callHelper catalog context
          (c :: front ++ Template.callTag name arguments) call =
            pure (c :: front ++ Template.callTag name arguments) := by
        refine callHelper_idle (.inr ?_)
        rw [unregistered call.name ⟨_, List.suffix_rfl, start⟩]
        exact Bool.false_ne_true
      rw [← List.append_assoc] at read ⊢
      rw [Render.callHelpers, rewrite_found (by simp) read, idle, pure_bind, rewrite_literal clear,
        map_pure]

theorem fillVariables_unclosed (free : '}' ∉ text) :
    Render.fillVariables .page context text = pure text := by
  refine rewrite_unread (consumes_variable .page) fun rest inside _ => ?_
  cases read : variableTag? .page rest with
  | none => rfl
  | some found =>
    obtain ⟨lexeme, rfl, shape⟩ := reads_variable .page read
    obtain ⟨inner, rfl⟩ := shape.braced
    exact absurd (inside.mem (by simp)) free

theorem fillVariables_unopened (free : ¬opener <:+: text) :
    Render.fillVariables .page context text = pure text :=
  rewrite_unread (consumes_variable .page) fun _ inside opens =>
    absurd (opens.isInfix.trans inside.isInfix) free

end Stages

section Engine

variable {e : Engine} {reader : Reader} {tokens : Tokens} {context : Value}

/-- The page if the call is made: its result stands where it was written. -/
theorem Markup.Callable.render_called (h : Callable name arguments)
    (called : e.catalog.call name arguments (fun path => context.follow path) = .ok result)
    (unread : ∀ part, part <:+ front → part ≠ [] →
      atOpener call? (part ++ (Template.callTag name arguments ++ back)) = none)
    (free : '}' ∉ front) (clear : '{' ∉ back) (first : NulFree front) (last : NulFree back)
    (quiet : ∀ shown, '{' ∉ shown → '}' ∉ shown →
      Render.fillVariables .page context (front ++ (shown ++ back)) =
        pure (front ++ (shown ++ back))) (earlier : List FilePath) :
    (e.render reader tokens context
        (front ++ (Template.callTag name arguments ++ back))).outcome earlier =
      ((fun page => front ++ (page ++ back)) <$>
        (Shelf.empty (tokens earlier.length)).restore result, earlier) := by
  have flat := h.flat free clear
  rw [flat.render, flat.finish, h.callHelpers_called called unread clear,
    ← restore_kept first last quiet]
  cases (Shelf.empty (tokens earlier.length)).keep result <;> rfl

/-- The page if the call is taken along by what starts like one before it: all as it was written. -/
theorem Markup.Callable.render_taken (h : Callable name arguments) (free : '}' ∉ front)
    (ends : front.getLast? ≠ some '{')
    (unregistered : ∀ other, CallOpens other front → e.catalog.has other = false)
    (taken : ∃ other, CallOpens other front) (clear : '{' ∉ back) (earlier : List FilePath) :
    (e.render reader tokens context
        (front ++ (Template.callTag name arguments ++ back))).outcome earlier =
      ((Shelf.empty (tokens earlier.length)).restore
        (front ++ (Template.callTag name arguments ++ back)), earlier) := by
  have flat := h.flat free clear
  have kept : Render.fillVariables .page context
      (front ++ (Template.callTag name arguments ++ back)) = pure _ :=
    rewrite_unread (consumes_variable .page) fun _ => h.variableTag?_eq_none free clear
  rw [flat.render, flat.finish, h.callHelpers_taken free ends unregistered taken clear]
  change (Render.fillVariables .page context _ >>= _, earlier) = _
  rw [kept]
  rfl

/-- A call after braces that belong to no tag is made unless something before it starts like a call.
Then all stays as it is written, which is what the call gives only if it gives its own text. -/
theorem render_stray_call (h : Callable name arguments) (free : '}' ∉ front)
    (ends : front.getLast? ≠ some '{') (first : NulFree front)
    (unregistered : ∀ other, CallOpens other front → e.catalog.has other = false)
    (called : e.catalog.call name arguments (fun path => context.follow path) = .ok result)
    (earlier : List FilePath) :
    let answer := (e.render reader tokens context
      (front ++ Template.callTag name arguments)).outcome earlier
    (answer = (.ok (front ++ result), earlier) ↔
        ((∀ other, ¬CallOpens other front) ∨ result = Template.callTag name arguments) ∧
          Shelf.Unspelled (tokens earlier.length) result) ∧
      ((∃ other, CallOpens other front) → NulFree arguments →
        answer = (.ok (front ++ Template.callTag name arguments), earlier)) := by
  intro answer
  by_cases taken : ∃ other, CallOpens other front
  · have rendered : answer = ((Shelf.empty (tokens earlier.length)).restore
        (front ++ Template.callTag name arguments), earlier) := by
      have whole : (e.render reader tokens context
          (front ++ (Template.callTag name arguments ++ []))).outcome earlier = _ :=
        h.render_taken free ends unregistered taken List.not_mem_nil earlier
      rwa [List.append_nil] at whole
    rw [rendered, Prod.mk.injEq, and_iff_left rfl, restore_empty_iff, unspelled_append_iff first,
      List.append_cancel_left_eq, or_iff_right (not_forall_not.mpr taken)]
    refine ⟨and_congr_right fun same => by rw [same], fun _ spoken => ?_⟩
    have nulFree : NulFree (Template.callTag name arguments) := by
      have named : NulFree name := fun member => absurd (h.named _ member) Bool.false_ne_true
      simp [callTag_eq, callInside, named, spoken, opener, closer]
    have unspelled : Shelf.Unspelled (tokens earlier.length)
        (front ++ Template.callTag name arguments) :=
      (unspelled_append_iff first).mpr (unspelled_of_nulFree nulFree)
    rw [restore_empty_iff.mpr ⟨rfl, unspelled⟩]
  · have clear : ∀ other, ¬CallOpens other front := fun other opens => taken ⟨other, opens⟩
    have rendered : answer = ((fun page => front ++ (page ++ [])) <$>
        (Shelf.empty (tokens earlier.length)).restore result, earlier) := by
      have whole : (e.render reader tokens context
          (front ++ (Template.callTag name arguments ++ []))).outcome earlier = _ :=
        h.render_called called (unread_of_unopened ends clear name arguments []) free
          List.not_mem_nil first nulFree_nil
          (fun shown _ closes => fillVariables_unclosed (by simp [free, closes])) earlier
      rwa [List.append_nil] at whole
    refine ⟨?_, fun opens => absurd opens taken⟩
    rw [rendered, Prod.mk.injEq, and_iff_left rfl, map_eq_ok_iff]
    constructor
    · rintro ⟨page, restored, same⟩
      obtain ⟨rfl, unspelled⟩ := restore_empty_iff.mp restored
      exact ⟨.inl clear, unspelled⟩
    · rintro ⟨-, unspelled⟩
      exact ⟨result, restore_empty_iff.mpr ⟨rfl, unspelled⟩, by rw [List.append_nil]⟩

section Sample

theorem callable_upper : Callable "upper".toList "\"a\"".toList :=
  ⟨by simp, List.all_eq_true.mp rfl, by simp, by simp, by decide⟩

theorem call_upper : sampleEngine.catalog.call "upper".toList "\"a\"".toList
    (fun path => sampleContext.follow path) = .ok ['A'] :=
  ok_of_toOption (by decide)

def strayBrace : Text := "\x7b ".toList
def strayName : Text := "\x7b\x7b x ".toList

theorem clear_strayBrace (other : Text) : ¬CallOpens other strayBrace := by
  rintro ⟨part, inside, start⟩
  exact absurd (start.opens.isInfix.trans inside.isInfix) (by decide)

theorem callOpens_strayName : CallOpens ['x'] strayName :=
  ⟨strayName, List.suffix_rfl, ⟨[' '], ' ', [], rfl, List.forall_mem_singleton.mpr rfl, rfl⟩,
    by simp, List.forall_mem_singleton.mpr rfl⟩

/-- No helper's name stands in the text at all. -/
theorem unregistered_strayName {known : Text} (inside : known <:+: strayName) :
    sampleEngine.catalog.has known = false := by
  have apart : ∀ name ∈ sampleEngine.catalog.names, ¬name <:+: strayName := by decide
  by_contra registered
  refine apart known (Ledger.mem_names_iff.mpr ?_) inside
  exact Bool.not_eq_false _ ▸ registered

theorem render_stray_call_sample :
    (sampleEngine.render sampleReader Token.ofNat sampleContext
        (strayBrace ++ Template.callTag "upper".toList "\"a\"".toList)).outcome [] =
      (.ok (strayBrace ++ ['A']), []) ∧
    (sampleEngine.render sampleReader Token.ofNat sampleContext
        (strayName ++ Template.callTag "upper".toList "\"a\"".toList)).outcome [] =
      (.ok (strayName ++ Template.callTag "upper".toList "\"a\"".toList), []) := by
  have unspelled : Shelf.Unspelled (Token.ofNat 0) ['A'] := unspelled_of_nulFree (by simp)
  constructor
  · exact (render_stray_call callable_upper (by decide) (by decide) (by decide)
      (fun other opens => absurd opens (clear_strayBrace other)) call_upper []).1.mpr
        ⟨.inl clear_strayBrace, unspelled⟩
  · exact (render_stray_call callable_upper (by decide) (by decide) (by decide)
      (fun other opens => unregistered_strayName opens.name_part) call_upper []).2
        ⟨_, callOpens_strayName⟩ (by simp)

/-- Braces before a call can keep it from being made, though no helper's name comes after them. -/
theorem stray_name_stops_call :
    '}' ∉ strayName ∧ strayName.getLast? ≠ some '{' ∧ NulFree strayName ∧
      (∀ known, sampleEngine.catalog.has known = true →
        ¬∃ before blanks after, (∀ c ∈ blanks, isBlank c = true) ∧
          strayName = before ++ (opener ++ (blanks ++ (known ++ after)))) ∧
      sampleEngine.catalog.call "upper".toList "\"a\"".toList
        (fun path => sampleContext.follow path) = .ok ['A'] ∧
      ((sampleEngine.render sampleReader Token.ofNat sampleContext
        (strayName ++ Template.callTag "upper".toList "\"a\"".toList)).outcome []).1 ≠
          .ok (strayName ++ ['A']) := by
  refine ⟨by decide, by decide, by decide, ?_, call_upper, fun same => ?_⟩
  · rintro known registered ⟨before, blanks, after, -, split⟩
    have inside : known <:+: strayName := ⟨before ++ (opener ++ blanks), after, by simp [split]⟩
    rw [unregistered_strayName inside] at registered
    contradiction
  · have whole : ((sampleEngine.render sampleReader Token.ofNat sampleContext
        (strayName ++ (Template.callTag "upper".toList "\"a\"".toList ++ []))).outcome []) = _ :=
      callable_upper.render_taken (by decide) (by decide)
        (fun other opens => unregistered_strayName opens.name_part) ⟨_, callOpens_strayName⟩
        List.not_mem_nil []
    rw [List.append_nil] at whole
    rw [whole] at same
    exact absurd (restore_empty_iff.mp same).1 (by decide)

end Sample

/-- A call between three braces is made between two of them, so its result has one on each side. -/
theorem render_tripled_call (h : Callable name arguments) {before after : Text}
    (bare : '{' ∉ before ∧ '}' ∉ before) (bare' : '{' ∉ after ∧ '}' ∉ after)
    (first : NulFree before) (last : NulFree after)
    (called : e.catalog.call name arguments (fun path => context.follow path) = .ok result)
    (earlier : List FilePath) :
    let answer := (e.render reader tokens context
      (before ++ ('{' :: Template.callTag name arguments ++ '}' :: after))).outcome earlier
    (answer = (.ok (before ++ ('{' :: result ++ '}' :: after)), earlier) ↔
        Shelf.Unspelled (tokens earlier.length) result) ∧
      answer.1 ≠ .ok (before ++ (result ++ after)) := by
  intro answer
  have quiet : ∀ shown, '{' ∉ shown → '}' ∉ shown →
      Render.fillVariables .page context (before ++ ['{'] ++ (shown ++ '}' :: after)) =
        pure (before ++ ['{'] ++ (shown ++ '}' :: after)) := by
    intro shown opens closes
    refine fillVariables_unopened fun opened => ?_
    have two : List.count '{' opener ≤ _ := opened.sublist.count_le '{'
    simp [opener, List.count_append, List.count_eq_zero.mpr, bare.1, bare'.1, opens] at two
  have rendered : answer = ((fun page => before ++ ['{'] ++ (page ++ '}' :: after)) <$>
      (Shelf.empty (tokens earlier.length)).restore result, earlier) := by
    have whole : (e.render reader tokens context (before ++ ['{'] ++
        (Template.callTag name arguments ++ '}' :: after))).outcome earlier = _ :=
      h.render_called called (unread_of_brace bare.1 name arguments _) (by simp [bare.2])
        (by simp [bare'.1]) (by simp [first]) (by simp [last]) quiet earlier
    rwa [List.append_assoc] at whole
  have restored_iff (page : Text) : answer.1 = .ok page ↔
      page = before ++ ('{' :: result ++ '}' :: after) ∧
        Shelf.Unspelled (tokens earlier.length) result := by
    rw [rendered, map_eq_ok_iff]
    constructor
    · rintro ⟨shown, restored, rfl⟩
      obtain ⟨rfl, unspelled⟩ := restore_empty_iff.mp restored
      exact ⟨by simp, unspelled⟩
    · rintro ⟨rfl, unspelled⟩
      exact ⟨result, restore_empty_iff.mpr ⟨rfl, unspelled⟩, by simp⟩
  refine ⟨?_, fun same => ?_⟩
  · have log : answer.2 = earlier := by rw [rendered]
    rw [Prod.ext_iff, log, and_iff_left rfl, restored_iff, and_iff_right rfl]
  · obtain ⟨longer, -⟩ := (restored_iff _).mp same
    have lengths := congrArg List.length longer
    simp only [List.length_append, List.length_cons] at lengths
    omega

theorem render_tripled_call_sample :
    (sampleEngine.render sampleReader Token.ofNat sampleContext
        ("a".toList ++ ('{' :: Template.callTag "upper".toList "\"a\"".toList ++
          '}' :: "b".toList))).outcome [] = (.ok "a{A}b".toList, []) :=
  (render_tripled_call callable_upper (by decide) (by decide) (by decide) (by decide)
    call_upper []).1.mpr (unspelled_of_nulFree (by simp))

/-- The result of a call between three braces does not stand alone. -/
theorem tripled_call_keeps_braces :
    sampleEngine.catalog.call "upper".toList "\"a\"".toList
        (fun path => sampleContext.follow path) = .ok ['A'] ∧
      ((sampleEngine.render sampleReader Token.ofNat sampleContext
        ('{' :: Template.callTag "upper".toList "\"a\"".toList ++ ['}'])).outcome []).1 ≠
          .ok ['A'] := by
  have shown : ((sampleEngine.render sampleReader Token.ofNat sampleContext
      ('{' :: Template.callTag "upper".toList "\"a\"".toList ++ ['}'])).outcome []).1 =
        .ok "{A}".toList :=
    ok_of_toOption (by decide)
  refine ⟨call_upper, ?_⟩
  rw [shown]
  simp

end Engine

end Stencil
