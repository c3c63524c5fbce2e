import Stencil.Proofs.Markup.Spans

/-! The tags of a text by a scan that tries its forms at one offset after another. It may go
through all offsets, or only through those where two braces open: no form of tag begins
anywhere else, so both come to the same tags, which are those that a rewrite finds. -/
namespace Stencil.Markup

variable {α : Type} {rule : Rule α} {text front rest lexeme tail : Text} {content : α}
variable {forms : List Form} {names : List Text} {form : Form} {i pos : Nat}

/-- What the rule reads at an offset of the text. -/
def matchAt? (rule : Rule α) (text : Text) (i : Nat) : Option (Span α) :=
  (rule (text.drop i)).map fun (content, rest) => ⟨i, text.length - rest.length, content⟩

/-- A scan that is at `pos` and finds the spans from there to the end of the text. It looks for the
next offset to try, goes on at the end of what is read there, and one character later where nothing
is read. -/
inductive Scan (rule : Rule α) (text : Text) (next? : Nat → Option Nat) :
    Nat → List (Span α) → Prop
  | ended {pos : Nat} : next? pos = none → Scan rule text next? pos []
  | found {pos i : Nat} {s : Span α} {spans : List (Span α)} : next? pos = some i →
      matchAt? rule text i = some s → Scan rule text next? s.finish spans →
      Scan rule text next? pos (s :: spans)
  | passed {pos i : Nat} {spans : List (Span α)} : next? pos = some i →
      matchAt? rule text i = none → Scan rule text next? (i + 1) spans →
      Scan rule text next? pos spans

/-- Every offset of the text, its end included. -/
def everyOffset? (text : Text) (pos : Nat) : Option Nat :=
  if pos ≤ text.length then some pos else none

/-- The first place, at `pos` or behind it, where two braces open. -/
def nextOpener? (text : Text) (pos : Nat) : Option Nat :=
  (Text.cut? opener (text.drop pos)).map fun (before, _) => pos + before.length

variable {next? : Nat → Option Nat} {found others : List (Span α)}

/-- Two scans that try the same offsets find the same. -/
theorem Scan.unique (scan : Scan rule text next? pos found)
    (other : Scan rule text next? pos others) : found = others := by
  induction scan generalizing others with
  | ended last =>
    cases other with
    | ended => rfl
    | found next | passed next => cases last.symm.trans next
  | @found _ i s spans next read later ih =>
    cases other with
    | ended last => cases next.symm.trans last
    | @found _ j t more next' read' later' =>
      obtain rfl := Option.some.inj (next.symm.trans next')
      obtain rfl := Option.some.inj (read.symm.trans read')
      exact congrArg (s :: ·) (ih later')
    | passed next' read' =>
      obtain rfl := Option.some.inj (next.symm.trans next')
      cases read.symm.trans read'
  | passed next read later ih =>
    cases other with
    | ended last => cases next.symm.trans last
    | found next' read' =>
      obtain rfl := Option.some.inj (next.symm.trans next')
      cases read.symm.trans read'
    | passed next' read' later' =>
      obtain rfl := Option.some.inj (next.symm.trans next')
      exact ih later'

/-- Where a scan goes on depends on its place only by the next offset to try. -/
theorem Scan.at_same_next {earlier : Nat} (scan : Scan rule text next? pos found)
    (same : next? earlier = next? pos) : Scan rule text next? earlier found := by
  cases scan with
  | ended last => exact .ended (same.trans last)
  | found next read later => exact .found (same.trans next) read later
  | passed next read later => exact .passed (same.trans next) read later

theorem matchAt?_eq_none (read : rule rest = none) :
    matchAt? rule (front ++ rest) front.length = none := by
  rw [matchAt?, List.drop_left, read, Option.map_none]

theorem matchAt?_eq_some (read : rule (lexeme ++ tail) = some (content, tail)) :
    matchAt? rule (front ++ (lexeme ++ tail)) front.length =
      some ⟨front.length, (front ++ lexeme).length, content⟩ := by
  have width : (front ++ (lexeme ++ tail)).length - tail.length = (front ++ lexeme).length := by
    simp only [List.length_append]
    omega
  rw [matchAt?, List.drop_left, read, Option.map_some]
  dsimp only
  rw [width]

theorem nextOpener?_here (opens : opener <+: rest) :
    nextOpener? (front ++ rest) front.length = some front.length := by
  obtain ⟨tail, rfl⟩ := opens
  rw [nextOpener?, List.drop_left, Text.cut?_of_after? (Text.after?_eq_some_iff.mpr rfl)]
  rfl

theorem nextOpener?_later {c : Char} (closed : ¬opener <+: c :: rest) :
    nextOpener? (front ++ c :: rest) front.length =
      nextOpener? (front ++ c :: rest) (front ++ [c]).length := by
  have here : Text.after? opener (c :: rest) = none := by
    cases read : Text.after? opener (c :: rest) with
    | none => rfl
    | some tail => exact absurd ⟨tail, (Text.after?_eq_some_iff.mp read).symm⟩ closed
  have behind : (front ++ c :: rest).drop (front.length + 1) = rest := by
    rw [List.append_cons, ← List.length_singleton (a := c), ← List.length_append, List.drop_left]
  have width (before : Text) : front.length + (c :: before).length =
      front.length + 1 + before.length := by
    rw [List.length_cons]
    omega
  rw [List.length_append, List.length_singleton, nextOpener?, nextOpener?, List.drop_left, behind,
    Text.cut?, here]
  dsimp only
  rw [Option.map_map]
  exact congrArg (fun f => (Text.cut? opener rest).map f) (funext fun parts => width parts.1)

theorem nextOpener?_end : nextOpener? front front.length = none := by
  rw [nextOpener?, List.drop_length]
  rfl

theorem atOpener_eq_self (opens : ∀ ⦃text result⦄, rule text = some result → opener <+: text) :
    atOpener rule = rule := by
  funext text
  by_cases here : opener <+: text
  · exact atOpener_of_opens here
  · rw [atOpener_eq_none here]
    cases read : rule text with
    | none => rfl
    | some result => exact absurd (opens read) here

/-- From one opener to the next, the spans of a rewrite are found. -/
theorem scan_openers (consumes : rule.Consumes) (front rest : Text) :
    Scan rule (front ++ rest) (nextOpener? (front ++ rest)) front.length
      (spansAfter (atOpener rule) front rest) := by
  induction front, rest using scan_induction consumes.atOpener with
  | ended front =>
    rw [List.append_nil]
    exact .ended nextOpener?_end
  | copied front c rest read ih =>
    rw [spansAfter_copied read]
    rw [← List.append_cons] at ih
    by_cases opens : opener <+: c :: rest
    · rw [atOpener_of_opens opens] at read
      refine .passed (nextOpener?_here opens) (matchAt?_eq_none read) ?_
      rwa [List.length_append] at ih
    · exact ih.at_same_next (nextOpener?_later opens)
  | found front lexeme content tail nonempty read ih =>
    rw [spansAfter_found nonempty read]
    rw [List.append_assoc] at ih
    obtain ⟨opens, read⟩ := atOpener_eq_some read
    exact .found (nextOpener?_here opens) (matchAt?_eq_some read) ih

theorem everyOffset?_inside (front rest : Text) :
    everyOffset? (front ++ rest) front.length = some front.length :=
  if_pos (by rw [List.length_append]; omega)

/-- From one offset to the next, the spans of a rule are found. -/
theorem scan_offsets (consumes : rule.Consumes) (front rest : Text) :
    Scan rule (front ++ rest) (everyOffset? (front ++ rest)) front.length
      (spansAfter rule front rest) := by
  induction front, rest using scan_induction consumes with
  | ended front =>
    have nothing : rule [] = none := by
      cases read : rule [] with
      | none => rfl
      | some result =>
        obtain ⟨lexeme, nonempty, split⟩ := consumes read
        exact absurd (List.append_eq_nil_iff.mp split.symm).1 nonempty
    refine .passed (everyOffset?_inside front []) (matchAt?_eq_none nothing) (.ended ?_)
    exact if_neg (by rw [List.append_nil]; omega)
  | copied front c rest read ih =>
    rw [spansAfter_copied read]
    rw [← List.append_cons, List.length_append] at ih
    exact .passed (everyOffset?_inside front _) (matchAt?_eq_none read) ih
  | found front lexeme content tail nonempty read ih =>
    rw [spansAfter_found nonempty read]
    rw [List.append_assoc] at ih
    exact .found (everyOffset?_inside front _) (matchAt?_eq_some read) ih

/-- A match that starts where two braces open, with what follows it. -/
def Opens (text tail : Text) : Prop := ∃ lexeme, text = lexeme ++ tail ∧ opener <+: lexeme

theorem opener_prefix_of_names {o close word : Text} {allowed : Char → Bool}
    (named : Names (opener ++ o) allowed close word lexeme) : opener <+: lexeme := by
  obtain ⟨⟨before, after, rfl, -⟩, -⟩ := named
  exact ⟨o ++ (before ++ (word ++ (after ++ close))), (List.append_assoc ..).symm⟩

theorem opener_prefix_of_call {c : Call} (shape : CallShape c lexeme) : opener <+: lexeme := by
  obtain ⟨before, inside, rfl, -⟩ := shape.parts
  exact ⟨_, rfl⟩

theorem opens_of_map {Shape : α → Text → Prop} {told : α × Text → List Text × Text}
    (reads : rule.Reads Shape) (opens : ∀ content lexeme, Shape content lexeme → opener <+: lexeme)
    (rest : ∀ result, (told result).2 = result.2)
    (read : (rule text).map told = some (names, tail)) : Opens text tail := by
  obtain ⟨⟨content, behind⟩, found, same⟩ := Option.map_eq_some_iff.mp read
  obtain rfl : behind = tail := (rest _).symm.trans (congrArg Prod.snd same)
  obtain ⟨lexeme, split, shape⟩ := reads found
  exact ⟨lexeme, split, opens content lexeme shape⟩

/-- A tag of any form begins where two braces open. -/
theorem Form.opens (read : form.read? text = some (names, tail)) : Opens text tail := by
  cases form with
  | inclusion =>
    exact opens_of_map reads_tag (fun _ _ => opener_prefix_of_names (o := ['>'])) (fun _ => rfl)
      read
  | each =>
    exact opens_of_map reads_spacedTag (fun _ _ => opener_prefix_of_names) (fun _ => rfl) read
  | condition =>
    exact opens_of_map reads_spacedTag (fun _ _ => opener_prefix_of_names) (fun _ => rfl) read
  | raw =>
    exact opens_of_map reads_tag (fun _ _ => opener_prefix_of_names (o := ['{'])) (fun _ => rfl)
      read
  | escaped =>
    exact opens_of_map reads_tag (fun _ _ => opener_prefix_of_names (o := [])) (fun _ => rfl) read
  | call => exact opens_of_map reads_call (fun _ _ => opener_prefix_of_call) (fun _ => rfl) read

/-- What is read at a place is read by the first of the forms that read something there. -/
theorem firstOf_eq_some_iff :
    firstOf forms text = some ((form, names), tail) ↔
      ∃ before after, forms = before ++ form :: after ∧
        (∀ earlier ∈ before, earlier.read? text = none) ∧
        form.read? text = some (names, tail) := by
  induction forms with
  | nil => simp [firstOf]
  | cons first forms ih =>
    rw [firstOf]
    cases here : first.read? text with
    | some result =>
      obtain ⟨told, rest⟩ := result
      constructor
      · intro read
        cases read
        exact ⟨[], forms, rfl, by simp, here⟩
      · rintro ⟨_ | ⟨_, before⟩, after, split, unread, read⟩
        · obtain ⟨rfl, rfl⟩ := List.cons.inj split
          cases here.symm.trans read
          rfl
        · obtain ⟨rfl, rfl⟩ := List.cons.inj split
          cases here.symm.trans (unread _ List.mem_cons_self)
    | none =>
      constructor
      · intro read
        obtain ⟨before, after, rfl, unread, read⟩ := ih.mp read
        exact ⟨first :: before, after, rfl, List.forall_mem_cons.mpr ⟨here, unread⟩, read⟩
      · rintro ⟨_ | ⟨_, before⟩, after, split, unread, read⟩
        · obtain ⟨rfl, rfl⟩ := List.cons.inj split
          cases here.symm.trans read
        · obtain ⟨rfl, rfl⟩ := List.cons.inj split
          exact ih.mpr ⟨before, after, rfl, (List.forall_mem_cons.mp unread).2, read⟩

theorem firstOf_eq_none_iff :
    firstOf forms text = none ↔ ∀ form ∈ forms, form.read? text = none := by
  induction forms with
  | nil => simp [firstOf]
  | cons first forms ih =>
    rw [firstOf, List.forall_mem_cons, ← ih]
    cases first.read? text <;> simp

theorem opens_of_firstOf {result : Form × List Text}
    (read : firstOf forms text = some (result, tail)) : Opens text tail := by
  obtain ⟨-, -, -, -, read⟩ := firstOf_eq_some_iff.mp read
  exact Form.opens read

theorem consumes_firstOf (forms : List Form) : (firstOf forms).Consumes := by
  intro text result tail read
  obtain ⟨lexeme, split, opens⟩ := opens_of_firstOf read
  exact ⟨lexeme, List.ne_nil_of_length_pos (Nat.lt_of_lt_of_le (by decide) opens.length_le), split⟩

theorem atOpener_firstOf (forms : List Form) : atOpener (firstOf forms) = firstOf forms := by
  refine atOpener_eq_self fun text result read => ?_
  obtain ⟨lexeme, rfl, opens⟩ := opens_of_firstOf read
  exact opens.trans (List.prefix_append lexeme result.2)

/-- The tags of a text, of any of the forms; of several that could be read at one place, it is the
one whose form comes first. -/
def tags (forms : List Form) (text : Text) : List (Span (Form × List Text)) :=
  spans (atOpener (firstOf forms)) text

/-- The scan from one opener to the next and the scan of all offsets end, and find the tags of a
text and nothing else. Each tag is read at its start by the first form that reads anything there;
tags are not empty and follow each other, and where none lies no form reads anything. -/
theorem tag_scan_exact (forms : List Form) (text : Text) :
    (∀ found, Scan (firstOf forms) text (nextOpener? text) 0 found ↔ found = tags forms text) ∧
    (∀ found, Scan (firstOf forms) text (everyOffset? text) 0 found ↔ found = tags forms text) ∧
    (∀ s ∈ tags forms text, s.start < s.finish ∧ s.finish ≤ text.length ∧
      ∃ before after, forms = before ++ s.content.1 :: after ∧
        (∀ form ∈ before, form.read? (text.drop s.start) = none) ∧
        s.content.1.read? (text.drop s.start) = some (s.content.2, text.drop s.finish)) ∧
    (tags forms text).Pairwise (fun s t => s.finish ≤ t.start) ∧
    (∀ i, (∀ s ∈ tags forms text, i < s.start ∨ s.finish ≤ i) →
      ∀ form ∈ forms, form.read? (text.drop i) = none) := by
  have consumes := consumes_firstOf forms
  have jumped : Scan (firstOf forms) text (nextOpener? text) 0 (tags forms text) :=
    scan_openers consumes [] text
  have walked : Scan (firstOf forms) text (everyOffset? text) 0 (tags forms text) := by
    rw [tags, atOpener_firstOf]
    exact scan_offsets consumes [] text
  refine ⟨fun found => ⟨fun scan => scan.unique jumped, fun same => same ▸ jumped⟩,
    fun found => ⟨fun scan => scan.unique walked, fun same => same ▸ walked⟩, fun s member => ?_,
    pairwise_spans consumes.atOpener text, fun i outside => ?_⟩
  · have reads := reads_of_mem_spans consumes.atOpener member
    exact ⟨reads.nonempty, reads.inside, firstOf_eq_some_iff.mp (atOpener_eq_some reads.read).2⟩
  · refine firstOf_eq_none_iff.mp ?_
    by_contra read
    have found : (atOpener (firstOf forms) (text.drop i)).isSome := by
      rw [atOpener_firstOf]
      exact Option.isSome_iff_ne_none.mpr read
    obtain ⟨s, member, begun, unfinished⟩ := exists_mem_spans consumes.atOpener found
    have := outside s member
    omega

/-- Of three braces with no third to close them, the last two open a tag. -/
example : tags [.raw .page, .escaped .page] "a\x7b\x7b\x7b n \x7d\x7d".toList =
    [⟨2, 9, .escaped .page, [['n']]⟩] := rfl

end Stencil.Markup
