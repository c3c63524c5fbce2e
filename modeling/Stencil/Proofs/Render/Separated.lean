import Stencil.Proofs.Render.Unrolling
import Stencil.Proofs.Template.Parts

/-! Loops that separate what they show. A text that stands in every round but the last comes
after an item, one that stands in every round but the first comes before it: the page is the
same, the displays of the items with the text between them. -/
namespace Stencil

open Markup Text
open Script (Skips Marked ofText ofText_append after?_ofText ledBy_mark skips_braceless)

variable {m : Mapping} {item : Value} {index total : Int} {s mark : Text} {items : List Value}

/-- The item of a round, as it is. -/
def itemTag : Text := Template.variableTag true "this".toList

/-- A text that stands where the condition does not hold. -/
def unlessTag (mark s : Text) : Text :=
  Template.conditionTag mark ++ otherwise ++ s ++ conditionCloser

theorem Mapping.follow_first (m : Mapping) (item : Value) (index total : Int) :
    (Value.mapping (m.withItem item index total)).follow "@first".toList =
      .ok (.bool (index = 0)) := by
  rw [Value.follow_part (by decide), Value.child, Mapping.withItem]
  simp only [Mapping.get?_set]
  rfl

theorem Mapping.follow_last (m : Mapping) (item : Value) (index total : Int) :
    (Value.mapping (m.withItem item index total)).follow "@last".toList =
      .ok (.bool (index = total - 1)) := by
  rw [Value.follow_part (by decide), Value.child, Mapping.withItem]
  simp only [Mapping.get?_set]
  rfl

/-- What is passed over in a text does not stand in it. -/
theorem unmarked_of_skips {c : Char} {more text : Text}
    (skips : Skips (Marked (c :: more)) (ofText text)) : ¬c :: more <:+: text := by
  rintro ⟨front, back, rfl⟩
  have split : ofText (front ++ c :: more ++ back) =
      ofText front ++ .letter c :: ofText (more ++ back) := by simp
  apply skips _ _ _ [] split
  have found := after?_ofText (c :: more) (ofText back)
  rw [List.append_nil, Marked, ofText_append]
  exact Option.isSome_iff_exists.mpr ⟨_, found⟩

theorem unread_of_unmarked {text : Text} (unmarked : ¬opener ++ ['>'] <:+: text) :
    ∀ rest, rest <:+ text → inclusion? rest = none := by
  intro rest within
  refine Option.bind_eq_none_iff.mpr fun inner opened => absurd ?_ unmarked
  have starts : opener ++ ['>'] <+: rest := ⟨inner, (after?_eq_some_iff.mp opened).symm⟩
  exact starts.isInfix.trans within.isInfix

theorem skipsConditions_inclusionMark :
    Template.SkipsConditions (Marked (opener ++ ['>'])) where
  opening path := (ledBy_mark _).skips_tag _ (by simp [path.opens]) fun _ => rfl
  otherwise := (ledBy_mark _).skips_tag "else".toList (by decide) fun _ => rfl
  closing := (ledBy_mark _).skips_tag "/if".toList (by decide) fun _ => rfl

section Condition

variable (mark : Template.Path .item) (braceless : '{' ∉ s)
include braceless

theorem skips_unlessTag {starts : Script → Prop} (h : Template.SkipsConditions starts)
    (braced : Script.Braced starts) : Skips starts (ofText (unlessTag mark.text s)) := by
  simp only [unlessTag, ofText_append]
  exact (((h.opening mark).append h.otherwise).append (skips_braceless braced braceless)).append
    h.closing

theorem choice?_unlessTag (rest : Text) :
    choice? .item (unlessTag mark.text s ++ rest) = some (⟨mark.text, [], some s⟩, rest) := by
  have split : unlessTag mark.text s ++ rest =
      Template.conditionTag mark.text ++ (otherwise ++ s ++ conditionCloser ++ rest) := by
    simp [unlessTag]
  have opened : condition? .item (unlessTag mark.text s ++ rest) =
      some (mark.text, otherwise ++ s ++ conditionCloser ++ rest) := by
    rw [split]
    exact spacedTag?_tag mark.nonempty mark.allows "#if".toList _
  have skips : Skips (Marked conditionCloser) (ofText (otherwise ++ s)) := by
    rw [ofText_append]
    refine Skips.append ?_ (skips_braceless (ledBy_mark _).braced braceless)
    exact (ledBy_mark _).skips_tag "else".toList (by decide) fun _ => rfl
  have cut : cut? conditionCloser (otherwise ++ s ++ conditionCloser ++ rest) =
      some (otherwise ++ s, rest) :=
    cut?_around (not_beginsIn (by decide) (unmarked_of_skips skips)) rest
  have divided : cut? otherwise (otherwise ++ s) = some ([], s) :=
    cut?_of_after? (after?_eq_some_iff.mpr rfl)
  rw [Markup.choice?, Markup.block?, opened]
  dsimp only [Option.bind_eq_bind, Option.bind_some]
  rw [cut]
  dsimp only [Option.bind_some]
  rw [divided]
  rfl

theorem chooseBranches_unlessTag {context : Value} {b : Bool}
    (tells : context.follow mark.text = .ok (.bool b)) (rest : Text) :
    Render.chooseBranches .item context (unlessTag mark.text s ++ rest) =
      ((if b then [] else s) ++ ·) <$> Render.chooseBranches .item context rest := by
  have opens : opener <+: unlessTag mark.text s ++ rest := by
    simp [unlessTag, Template.conditionTag, Template.tag]
  have nonempty : unlessTag mark.text s ≠ [] := by
    simp [unlessTag, Template.conditionTag, Template.tag, opener]
  have found : atOpener (Markup.choice? .item) (unlessTag mark.text s ++ rest) =
      some (⟨mark.text, [], some s⟩, rest) := by
    rw [atOpener_of_opens opens, choice?_unlessTag mark braceless]
  have chosen : Render.chooseBranch context ⟨mark.text, [], some s⟩ =
      .ok (if b then [] else s) := by
    rw [Render.chooseBranch, tells]
    cases b <;> rfl
  rw [Render.chooseBranches, rewrite_found nonempty found, chosen]
  rfl

end Condition

theorem plain_itemTag : Plain itemTag := plain_variableTag true (by decide) this_path

theorem skips_itemTag {c : Char} {more : Text} (solid : c ≠ ' ') (other : c ≠ '{') :
    Skips (Marked (opener ++ c :: more)) (ofText itemTag) :=
  (ledBy_mark (c :: more)).skips_variable solid other true (by decide)

theorem loopBody_append {first last : Text}
    (closers : Skips (Marked eachCloser) (ofText first) ∧ Skips (Marked eachCloser) (ofText last))
    (marks : Skips (Marked (opener ++ ['>'])) (ofText first) ∧
      Skips (Marked (opener ++ ['>'])) (ofText last)) : LoopBody (first ++ last) where
  unclosed := unmarked_of_skips (by rw [ofText_append]; exact closers.1.append closers.2)
  unread := unread_of_unmarked
    (unmarked_of_skips (by rw [ofText_append]; exact marks.1.append marks.2))

section Bodies

variable (mark : Template.Path .item) (braceless : '{' ∉ s)
include braceless

theorem loopBody_after : LoopBody (itemTag ++ unlessTag mark.text s) :=
  loopBody_append
    ⟨skips_itemTag (by decide) (by decide),
      skips_unlessTag mark braceless Template.skipsConditions_eachCloser (ledBy_mark _).braced⟩
    ⟨skips_itemTag (by decide) (by decide),
      skips_unlessTag mark braceless skipsConditions_inclusionMark (ledBy_mark _).braced⟩

theorem loopBody_before : LoopBody (unlessTag mark.text s ++ itemTag) :=
  loopBody_append
    ⟨skips_unlessTag mark braceless Template.skipsConditions_eachCloser (ledBy_mark _).braced,
      skips_itemTag (by decide) (by decide)⟩
    ⟨skips_unlessTag mark braceless skipsConditions_inclusionMark (ledBy_mark _).braced,
      skips_itemTag (by decide) (by decide)⟩

end Bodies

section Round

variable {catalog : Catalog} {context : Value} {shown : Text}
variable (this : context.follow "this".toList = .ok item) (displayed : item.display = .ok shown)
include this displayed

theorem fillVariables_itemTag : Render.fillVariables .item context itemTag = .ok shown := by
  have portion := fillVariables_portion (by decide) this_path this .item (.shown true none)
  have shows : (Portion.shown true none).show item = .ok shown := by
    rw [Portion.show, showValue, displayed]
    rfl
  exact portion.trans shows

theorem fillVariables_itemTag_append {text : Text} (literal : '{' ∉ text) :
    Render.fillVariables .item context (itemTag ++ text) = .ok (shown ++ text) := by
  have here := fillVariables_itemTag this displayed
  rw [Render.fillVariables] at here ⊢
  rw [plain_itemTag.rewrite_append, here, rewrite_literal literal]
  rfl

theorem fillVariables_append_itemTag {text : Text} (literal : '{' ∉ text) :
    Render.fillVariables .item context (text ++ itemTag) = .ok (text ++ shown) := by
  have here := fillVariables_itemTag this displayed
  rw [Render.fillVariables] at here ⊢
  rw [rewrite_braceless itemTag literal, here]
  rfl

variable (mark : Template.Path .item) (braceless : '{' ∉ s) {b : Bool}
variable (tells : context.follow mark.text = .ok (.bool b))
include braceless tells

theorem runRound_after :
    Render.runRound catalog context (itemTag ++ unlessTag mark.text s) =
      pure (shown ++ if b then [] else s) := by
  have literal : '{' ∉ (if b then [] else s) := by split <;> simp [braceless]
  have chosen : Render.chooseBranches .item context (itemTag ++ unlessTag mark.text s) =
      pure (itemTag ++ if b then [] else s) := by
    have choice := chooseBranches_unlessTag mark braceless tells []
    rw [List.append_nil, Render.chooseBranches, rewrite_nil, map_pure, List.append_nil] at choice
    rw [Render.chooseBranches, plain_itemTag.passed fun _ opening => opening.choice?_eq_none .item,
      choice, map_pure]
  rw [runRound_of_chosen chosen (plain_itemTag.append (plain_of_braceless literal)),
    fillVariables_itemTag_append this displayed literal]
  rfl

theorem runRound_before :
    Render.runRound catalog context (unlessTag mark.text s ++ itemTag) =
      pure ((if b then [] else s) ++ shown) := by
  have literal : '{' ∉ (if b then [] else s) := by split <;> simp [braceless]
  have chosen : Render.chooseBranches .item context (unlessTag mark.text s ++ itemTag) =
      pure ((if b then [] else s) ++ itemTag) := by
    have kept : Render.chooseBranches .item context itemTag = pure itemTag :=
      rewrite_unread (consumes_choice .item)
        fun _ part opens => (plain_itemTag.opening part opens).choice?_eq_none .item
    rw [chooseBranches_unlessTag mark braceless tells, kept, map_pure]
  rw [runRound_of_chosen chosen ((plain_of_braceless literal).append plain_itemTag),
    fillVariables_append_itemTag this displayed literal]
  rfl

end Round

/-- Computations at the places of a list that come to their results at once. -/
theorem mapM_zipIdx_pure {M : Type → Type} [Monad M] [LawfulMonad M] {α β γ : Type}
    {f : α × Nat → M γ} {g : β → Nat → γ} {l : List α} {results : List β}
    (each : List.Forall₂ (fun a b => ∀ i, f (a, i) = pure (g b i)) l results) (start : Nat) :
    (l.zipIdx start).mapM f = pure ((results.zipIdx start).map fun (b, i) => g b i) := by
  induction each generalizing start with
  | nil => simp
  | cons here _ ih =>
    rw [List.zipIdx_cons, List.mapM_cons, here, ih]
    simp

theorem runRounds_of_texts {catalog : Catalog} {body : Text} {piece : Text → Nat → Text}
    {texts : List Text}
    (each : List.Forall₂ (fun item text => ∀ index : Nat,
      Render.runRound catalog (.mapping (m.withItem item index items.length)) body =
        pure (piece text index)) items texts) :
    Render.runRounds catalog (.mapping m) body items =
      pure (texts.zipIdx.flatMap fun (text, index) => piece text index) := by
  let round (place : Value × Nat) : Render.Holding Text := do
    Render.runRound catalog (← itemScope (.mapping m) place.1 place.2 items.length) body
  have rounds : items.zipIdx.mapM round = _ := mapM_zipIdx_pure each 0
  change List.flatten <$> items.zipIdx.mapM round = _
  rw [rounds, map_pure, List.flatMap_def]

/-- The text after every item but the last. -/
theorem flatMap_after (texts : List Text) (start : Nat) :
    (texts.zipIdx start).flatMap (fun (text, index) =>
      text ++ if (index : Int) = (start + texts.length : Nat) - 1 then [] else s) =
        List.intercalate s texts := by
  induction texts generalizing start with
  | nil => rfl
  | cons text texts ih =>
    cases texts with
    | nil => simp
    | cons next more =>
      -- Another text follows, so this place is not the last.
      have later : start + (text :: next :: more).length = start + 1 + (next :: more).length := by
        simp only [List.length_cons]
        omega
      have other : ¬(start : Int) = (start + (text :: next :: more).length : Nat) - 1 := by
        simp only [List.length_cons]
        omega
      rw [List.zipIdx_cons, List.flatMap_cons, List.intercalate_cons_cons]
      dsimp only
      rw [if_neg other, later, ih]

theorem intercalate_cons (text : Text) (texts : List Text) :
    List.intercalate s (text :: texts) = text ++ texts.flatMap (s ++ ·) := by
  induction texts generalizing text with
  | nil => simp
  | cons next more ih =>
    rw [List.intercalate_cons_cons, ih, List.flatMap_cons]
    simp

/-- The text before every item but the first. -/
theorem flatMap_before (texts : List Text) :
    texts.zipIdx.flatMap (fun (text, index) => (if (index : Int) = 0 then [] else s) ++ text) =
      List.intercalate s texts := by
  have later (texts : List Text) (start : Nat) :
      (texts.zipIdx (start + 1)).flatMap
        (fun (text, index) => (if (index : Int) = 0 then [] else s) ++ text) =
          texts.flatMap (s ++ ·) := by
    induction texts generalizing start with
    | nil => rfl
    | cons text texts ih =>
      have other : ¬((start + 1 : Nat) : Int) = 0 := by omega
      rw [List.zipIdx_cons, List.flatMap_cons, List.flatMap_cons, ih]
      dsimp only
      rw [if_neg other]
  cases texts with
  | nil => rfl
  | cons text texts =>
    rw [List.zipIdx_cons, List.flatMap_cons, later, intercalate_cons]
    rfl

theorem displayItems_eq {texts : List Text}
    (displayed : List.Forall₂ (fun item text => item.display = .ok text) items texts) :
    Value.displayItems items = .ok texts := by
  induction displayed with
  | nil => rfl
  | cons here _ ih =>
    rw [Value.displayItems, here, ih]
    rfl

def firstMark : Template.Path .item := ⟨⟨"@first".toList, by decide, by decide⟩, by decide⟩
def lastMark : Template.Path .item := ⟨⟨"@last".toList, by decide, by decide⟩, by decide⟩

section Rounds

variable {catalog : Catalog} {texts : List Text} (braceless : '{' ∉ s)
variable (displayed : List.Forall₂ (fun item text => item.display = .ok text) items texts)
include braceless displayed

theorem runRounds_last :
    Render.runRounds catalog (.mapping m) (itemTag ++ unlessTag lastMark.text s) items =
      pure (List.intercalate s texts) := by
  have each : List.Forall₂ (fun item text => ∀ index : Nat, Render.runRound catalog
      (.mapping (m.withItem item index items.length)) (itemTag ++ unlessTag lastMark.text s) =
        pure (text ++ if (index : Int) = (0 + texts.length : Nat) - 1 then [] else s))
      items texts := by
    refine displayed.imp fun item text shown index => ?_
    have round : Render.runRound catalog _ _ = _ :=
      runRound_after (m.follow_this item index items.length) shown lastMark braceless
        (m.follow_last item index items.length)
    simpa [displayed.length_eq] using round
  rw [runRounds_of_texts each, flatMap_after]

theorem runRounds_first :
    Render.runRounds catalog (.mapping m) (unlessTag firstMark.text s ++ itemTag) items =
      pure (List.intercalate s texts) := by
  have each : List.Forall₂ (fun item text => ∀ index : Nat, Render.runRound catalog
      (.mapping (m.withItem item index items.length)) (unlessTag firstMark.text s ++ itemTag) =
        pure ((if (index : Int) = 0 then [] else s) ++ text)) items texts := by
    refine displayed.imp fun item text shown index => ?_
    have round : Render.runRound catalog _ _ = _ :=
      runRound_before (m.follow_this item index items.length) shown firstMark braceless
        (m.follow_first item index items.length)
    simpa using round
  rw [runRounds_of_texts each, flatMap_before]

end Rounds

section Engine

variable {e : Engine} {reader : Reader} {tokens : Tokens} {path : Template.Word (isPathChar .page)}
variable {kind : SequenceKind}
variable (found : (Value.mapping m).follow path.text = .ok (.sequence kind items))
include found

/-- A loop whose rounds hold nothing aside shows what they come to. -/
theorem render_of_rounds {body page : Text} (loop : LoopBody body)
    (rounds : Render.runRounds e.catalog (.mapping m) body items = pure page)
    (free : NulFree page) (earlier : List FilePath) :
    (e.render reader tokens (.mapping m) (loopText path.text body)).outcome earlier =
      (.ok page, earlier) := by
  have looped (shelf : Shelf) : (Render.runLoop e.catalog (.mapping m)
      ⟨path.text, body, none⟩).run shelf = .ok (page, shelf) := by
    unfold Render.runLoop
    rw [found]
    change Render.runRounds e.catalog (.mapping m) body items shelf = _
    rw [rounds]
    rfl
  rw [render_loopText path.nonempty path.allows loop, looped]
  exact congrArg (·, earlier) (Shelf.restore_of_nulFree free _)

/-- A sequence that is shown itself has commas between its items. -/
theorem render_sequence {texts : List Text}
    (displayed : List.Forall₂ (fun item text => item.display = .ok text) items texts)
    (free : NulFree (List.intercalate [','] texts)) (earlier : List FilePath) :
    (e.render reader tokens (.mapping m) (Template.variableTag true path.text)).outcome earlier =
      (.ok (List.intercalate [','] texts), earlier) := by
  have shows : showValue true (.sequence kind items) = .ok (List.intercalate [','] texts) := by
    rw [showValue, Value.display, displayItems_eq displayed]
    rfl
  have filled := fillVariables_portion path.nonempty path.allows found .page (.shown true none)
  rw [(plain_variableTag true path.nonempty path.allows).render]
  change (Render.fillVariables .page _ ((Portion.shown true none).print path.text) >>= _, _) = _
  rw [filled, Portion.show, shows]
  exact congrArg (·, earlier) (Shelf.restore_of_nulFree free _)

end Engine

/-- A loop joins the displays of its items by a text that stands in every round but the last, or in
every round but the first. By commas they are joined where the sequence is shown itself. -/
theorem render_separated (e : Engine) (reader : Reader) (m : Mapping)
    (path : Template.Word (isPathChar .page)) (kind : SequenceKind) (items : List Value)
    (texts : List Text) (s : Text) (earlier : List FilePath) (free : (Value.mapping m).NulFree)
    (found : (Value.mapping m).follow path.text = .ok (.sequence kind items))
    (displayed : List.Forall₂ (fun item text => item.display = .ok text) items texts)
    (braceless : '{' ∉ s) (plain : NulFree s) :
    let run := fun (tokens : Tokens) (template : Text) =>
      (e.render reader tokens (.mapping m) template).outcome earlier
    let loopLast := loopText path.text (itemTag ++ unlessTag "@last".toList s)
    let loopFirst := loopText path.text (unlessTag "@first".toList s ++ itemTag)
    ∀ tokens, run tokens loopLast = (.ok (List.intercalate s texts), earlier) ∧
      run tokens loopFirst = (.ok (List.intercalate s texts), earlier) ∧
      (s = [','] → ∀ other,
        run tokens loopLast = run other (Template.variableTag true path.text)) := by
  intro run loopLast loopFirst tokens
  have itemsFree := (Value.every_sequence.mp (free.follow found)).2
  have textsFree : ∀ text ∈ texts, NulFree text := fun text member => by
    obtain ⟨item, inside, shown⟩ := mem_of_mapM_eq_ok (mapM_eq_ok_iff.mpr displayed) text member
    have itemFree : item.NulFree := itemsFree item inside
    exact itemFree.display shown
  have joinedFree := nulFree_intercalate s plain textsFree
  have last : run tokens loopLast = (.ok (List.intercalate s texts), earlier) :=
    render_of_rounds found (loopBody_after lastMark braceless)
      (runRounds_last braceless displayed) joinedFree earlier
  have first : run tokens loopFirst = (.ok (List.intercalate s texts), earlier) :=
    render_of_rounds found (loopBody_before firstMark braceless)
      (runRounds_first braceless displayed) joinedFree earlier
  refine ⟨last, first, fun comma other => ?_⟩
  subst comma
  exact last.trans (render_sequence found displayed joinedFree earlier).symm

theorem render_separated_sample :
    let run := fun (tokens : Tokens) (template : Text) =>
      (sampleEngine.render sampleReader tokens (.mapping oddNames) template).outcome []
    run Token.ofNat (loopText "d.xs".toList (itemTag ++ unlessTag "@last".toList "; ".toList)) =
        (.ok "; <; \x7b'0': 7\x7d".toList, []) ∧
      run Token.ofNat (loopText "d.xs".toList (unlessTag "@first".toList "; ".toList ++ itemTag)) =
        (.ok "; <; \x7b'0': 7\x7d".toList, []) ∧
      run Token.ofNat (loopText "d.xs".toList (itemTag ++ unlessTag "@last".toList [','])) =
        run (fun n => .ofNat (n + 1)) (Template.variableTag true "d.xs".toList) := by
  intro run
  have free : (Value.mapping oddNames).NulFree := by
    simp [oddNames, oddItems, Value.NulFree, Value.Every, Value.EveryItem, Value.EveryEntry,
      Value.Plain]
  have displayed : List.Forall₂ (fun (item : Value) text => item.display = .ok text) oddItems
      [[], ['<'], "\x7b'0': 7\x7d".toList] :=
    .cons rfl (.cons rfl (.cons (ok_of_toOption (by decide)) .nil))
  have separated (s : Text) (braceless : '{' ∉ s) (plain : NulFree s) :=
    render_separated sampleEngine sampleReader oddNames ⟨"d.xs".toList, by decide, by decide⟩ .tuple
      oddItems _ s [] free rfl displayed braceless plain Token.ofNat
  obtain ⟨last, first, -⟩ := separated "; ".toList (by decide) (by decide)
  obtain ⟨-, -, comma⟩ := separated [','] (by decide) (by decide)
  exact ⟨last, first, comma rfl _⟩

end Stencil
