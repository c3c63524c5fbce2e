import Stencil.Proofs.Render.HeldOutput
import Stencil.Proofs.Template.Order
import Stencil.Proofs.Value.Reaching

/-! A template that is printed from a tree renders to what the tree means: its inclusions,
in the order of the text, and then its parts. -/
namespace Stencil

open Markup Template

/-- What an inclusion adds to a page from which `depth` levels of included files may be followed. -/
def Engine.included (e : Engine) (reader : Reader) (tokens : Tokens) (context : Value) :
    Nat → Text → Reading (List FilePath) Text
  | 0 => fun _ => return []
  | depth + 1 => e.includeFile reader (e.renderWithin reader tokens context depth)

/-- The engine, with helpers that fail in place of a result that shows a NUL. -/
def Engine.checked (e : Engine) : Engine := { e with catalog := e.catalog.checked }

/-- No helper that is called in an included file gives a result that shows a NUL: with helpers that
fail instead, what is included stays the same. -/
def Engine.InclusionsChecked (e : Engine) (reader : Reader) (tokens : Tokens) (context : Value)
    (depth : Nat) : Prop :=
  ∀ name, e.included reader tokens context depth name =
    e.checked.included reader tokens context depth name

theorem Engine.renderWithin_eq (e : Engine) (reader : Reader) (tokens : Tokens) (context : Value)
    (depth : Nat) : e.renderWithin reader tokens context depth =
      e.assemble tokens context (e.included reader tokens context depth) := by
  cases depth <;> rfl

namespace Template

variable {catalog : Catalog} {place : Place} {α : Type}

theorem Path.nulFree (path : Path place) : Text.NulFree path.text :=
  path.lacks (by cases place <;> decide)

theorem Leaf.nulFree_text (l : Leaf catalog place FileName) :
    Text.NulFree (l.print id fun name => inclusionTag name.text) := by
  cases l with
  | literal l => exact l.nulFree
  | shown raw path =>
    have free := path.nulFree
    cases raw <;> simpa [print, variableTag, tag, opener, closer] using free
  | call c =>
    have name : Text.NulFree c.name.text := c.name.lacks (by decide)
    simpa [print, callTag, tag, opener, closer] using ⟨name, c.nulFree⟩
  | inclusion name =>
    have free : Text.NulFree name.text := name.lacks (by decide)
    simpa [print, inclusionTag, tag, opener, closer] using free

theorem Conditional.nulFree_text {part : α → Text} (each : ∀ a, Text.NulFree (part a))
    (c : Conditional place α) : Text.NulFree (c.print id part) := by
  cases c with
  | plain a => exact each a
  | choice path yes no? =>
    have opening : Text.NulFree (conditionTag path.text) := by
      simpa [conditionTag, tag, opener, closer] using path.nulFree
    have parts (l : List α) : Text.NulFree (l.flatMap part) :=
      Text.nulFree_flatMap fun a _ => each a
    have between : Text.NulFree otherwise ∧ Text.NulFree conditionCloser := by decide
    cases no? <;> simp [print, opening, parts, between]

theorem Page.nulFree_text (page : Page catalog FileName) : Text.NulFree page.text := by
  refine Text.nulFree_flatMap fun c _ => c.nulFree_text fun item => ?_
  cases item with
  | leaf l => exact l.nulFree_text
  | loop l =>
    have opening : Text.NulFree (eachTag l.path.text) := by
      simpa [eachTag, tag, opener, closer] using l.path.nulFree
    have body : Text.NulFree (l.body.flatMap (Conditional.print id
        (Leaf.print id fun name => inclusionTag name.text))) :=
      Text.nulFree_flatMap fun c _ => c.nulFree_text Leaf.nulFree_text
    have closing : Text.NulFree eachCloser := by decide
    simpa [Item.print, Loop.print] using ⟨opening, body, closing⟩

/-- A page that comes to a result: all its loops do, also those that are not taken, and all calls
that are taken. -/
structure Page.Evaluates (scope : Value) (page : Page catalog Text) : Prop where
  loops : ∀ c ∈ page, ∀ l ∈ c.loops, ∃ text, l.meaning scope = .ok text
  calls : ∀ c ∈ page, ∀ taken, c.chosen scope = .ok taken →
    ∀ call : Call catalog, .leaf (.call call) ∈ taken →
      ∃ text, catalog.call call.name.text (Text.trim call.arguments)
        (fun path => scope.follow path) = .ok text

section Evaluates

variable {scope : Value}

theorem Conditional.mem_parts {c : Conditional place α} {taken : List α}
    (h : c.chosen scope = .ok taken) : ∀ a ∈ taken, a ∈ c.parts := by
  cases c with
  | plain a =>
    cases h
    exact fun _ member => member
  | choice path yes no? =>
    obtain ⟨value, -, h⟩ := bind_eq_ok_iff.mp h
    cases h
    intro a member
    cases truth : value.holds with
    | true => exact List.mem_append_left _ (by simpa [truth] using member)
    | false => exact List.mem_append_right _ (by simpa [truth] using member)

variable (scope) in
theorem Conditional.chosen_succeeds (c : Conditional place α) :
    ∃ taken, c.chosen scope = .ok taken := by
  cases c with
  | plain a => exact ⟨[a], rfl⟩
  | choice path yes no? =>
    obtain ⟨value, followed⟩ := Value.follow_succeeds scope path.short
    exact ⟨_, bind_eq_ok_iff.mpr ⟨value, followed, rfl⟩⟩

theorem showVariable_succeeds (short : scope.Writable) (raw : Bool) (path : Path place) :
    ∃ text, Render.showVariable scope ⟨raw, path.text⟩ = .ok text := by
  obtain ⟨value, followed⟩ := Value.follow_succeeds scope path.short
  obtain ⟨text, displayed⟩ := (short.follow followed).display
  exact ⟨_, bind_eq_ok_iff.mpr ⟨value, followed, bind_eq_ok_iff.mpr ⟨text, displayed, rfl⟩⟩⟩

theorem Conditional.meaning_succeeds_iff {part : α → Except Failure Text}
    (c : Conditional place α) :
    (∃ text, c.meaning scope part = .ok text) ↔
      ∀ taken, c.chosen scope = .ok taken → ∀ a ∈ taken, ∃ text, part a = .ok text := by
  constructor
  · rintro ⟨text, h⟩ taken chosen
    obtain ⟨taken', chosen', h⟩ := bind_eq_ok_iff.mp h
    obtain ⟨results, parts, -⟩ := bind_eq_ok_iff.mp h
    obtain rfl : taken' = taken := Except.ok.inj (chosen'.symm.trans chosen)
    exact mapM_succeeds_iff.mp ⟨results, parts⟩
  · intro each
    obtain ⟨taken, chosen⟩ := c.chosen_succeeds scope
    obtain ⟨results, parts⟩ := mapM_succeeds_iff.mpr (each taken chosen)
    exact ⟨_, bind_eq_ok_iff.mpr ⟨taken, chosen, bind_eq_ok_iff.mpr ⟨results, parts, rfl⟩⟩⟩

theorem partMeaning_succeeds_iff (short : scope.Writable)
    (c : Conditional .page (Item catalog Text)) :
    (∃ text, partMeaning scope c = .ok text) ↔
      (∀ l ∈ c.loops, ∃ text, l.meaning scope = .ok text) ∧
        ∀ taken, c.chosen scope = .ok taken → ∀ call : Call catalog, .leaf (.call call) ∈ taken →
          ∃ text, catalog.call call.name.text (Text.trim call.arguments)
            (fun path => scope.follow path) = .ok text := by
  have both : (∃ text, partMeaning scope c = .ok text) ↔
      (∃ results, c.loops.mapM (Loop.meaning scope) = .ok results) ∧
        ∃ text, c.meaning scope (Item.meaning scope) = .ok text := by
    constructor
    · rintro ⟨text, h⟩
      obtain ⟨_, looped, h⟩ := bind_eq_ok_iff.mp h
      obtain ⟨results, looped, -⟩ := map_eq_ok_iff.mp looped
      exact ⟨⟨results, looped⟩, text, h⟩
    · rintro ⟨⟨results, looped⟩, text, h⟩
      exact ⟨text, bind_eq_ok_iff.mpr ⟨(), map_eq_ok_iff.mpr ⟨results, looped, rfl⟩, h⟩⟩
  rw [both, mapM_succeeds_iff, Conditional.meaning_succeeds_iff]
  refine and_congr_right fun looped => ?_
  constructor
  · intro each taken chosen call member
    exact each taken chosen _ member
  · intro calls taken chosen item member
    cases item with
    | loop l =>
      exact c.forall_loops.mp looped _ (c.mem_parts chosen _ member) l rfl
    | leaf l =>
      cases l with
      | literal l => exact ⟨l.text, rfl⟩
      | shown raw path => exact showVariable_succeeds short raw path
      | call call => exact calls taken chosen call member
      | inclusion page => exact ⟨page, rfl⟩

theorem Page.meaning_succeeds_iff (short : scope.Writable) (page : Page catalog Text) :
    (∃ text, page.meaning scope = .ok text) ↔ page.Evaluates scope := by
  have parts : (∃ text, page.meaning scope = .ok text) ↔
      ∀ c ∈ page, ∃ text, partMeaning scope c = .ok text := by
    rw [← mapM_succeeds_iff]
    simp [meaning, map_eq_ok_iff]
  rw [parts]
  constructor
  · intro h
    exact ⟨fun c member => ((partMeaning_succeeds_iff short c).mp (h c member)).1,
      fun c member => ((partMeaning_succeeds_iff short c).mp (h c member)).2⟩
  · intro h c member
    exact (partMeaning_succeeds_iff short c).mpr ⟨h.loops c member, h.calls c member⟩

end Evaluates

end Template

open Script

theorem asks_ofReading {tame : Prop} {x : Reading (List FilePath) Text}
    (pages : ∀ earlier text, (x.outcome earlier).1 = .ok text → Text.NulFree text) :
    Asks tame SamePage (ofReading x) x := by
  intro earlier
  change Answers tame SamePage ((x.run earlier).map Refusal.of id).1 (x.run earlier).1 ∧
    (_ → ((x.run earlier).map Refusal.of id).2 = (x.run earlier).2)
  rcases shape : x.run earlier with ⟨cause | text, later⟩
  · exact ⟨rfl, fun _ => rfl⟩
  · have free := pages earlier text (congrArg Prod.fst shape)
    exact ⟨⟨text, rfl, rfl, free⟩, fun _ => rfl⟩

theorem unmixed_ofReading (x : Reading (List FilePath) α) (earlier : List FilePath) :
    ((ofReading x).run earlier).1 ≠ .error .mixed := by
  rw [run_ofReading]
  rcases x.outcome earlier with ⟨cause | text, later⟩ <;> exact nofun

theorem assemble_ofReading (e : Engine) (context : Value)
    (included : Text → Reading (List FilePath) Text) (page : Page e.catalog FileName) :
    Script.assemble e context (fun name => ofReading (included name)) page.text =
      ofReading (page.fill (fun name => included name.text) >>= fun known =>
        liftExcept (known.staged context)) := by
  have filled : (page.fill fun name => ofReading (included name.text)) =
      ofReading (page.fill fun name => included name.text) := (page.read_fill readings _).symm
  rw [Script.assemble, expandInclusions_text, bind_map_left, ofReading_bind, filled]
  congr
  funext known
  rw [finish_script]
  cases known.staged context <;> rfl

/-- From the text of a tree, a render comes to what the stages make of the tree, with its
inclusions in place: to the same page or failure, and after the same requests. -/
theorem Engine.renderWithin_text (e : Engine) (reader : Reader) (tokens : Tokens)
    (context : Value) (depth : Nat) (page : Page e.catalog FileName) (earlier : List FilePath)
    (clean : e.catalog.NulFree) (free : context.NulFree)
    (pages : ∀ name earlier text,
      ((e.included reader tokens context depth name).outcome earlier).1 = .ok text →
        Text.NulFree text) :
    (e.renderWithin reader tokens context depth page.text).outcome earlier =
      ((page.fill fun name => e.included reader tokens context depth name.text) >>= fun known =>
        liftExcept (known.staged context)).outcome earlier := by
  have asks : Asks e.catalog.Tame SamePage _ (e.assemble tokens context _ page.text) :=
    asks_assemble clean free page.nulFree_text fun name => asks_ofReading (pages name)
  rw [assemble_ofReading] at asks
  have answers := eq_map_of_asks asks (unmixed_ofReading _ earlier)
  rw [run_ofReading, ← Engine.renderWithin_eq] at answers
  exact (Prod.map_injective.mpr ⟨Refusal.of_injective, Function.injective_id⟩ answers).symm

section Included

variable {e : Engine} {reader : Reader} {tokens : Tokens} {context : Value} {depth : Nat}

theorem Engine.included_nulFree (tame : e.catalog.Tame) (free : context.NulFree)
    (files : ∀ earlier path content, reader earlier path = .ok content → Text.NulFree content)
    {name text : Text} {earlier : List FilePath}
    (added : ((e.included reader tokens context depth name).outcome earlier).1 = .ok text) :
    Text.NulFree text := by
  cases depth with
  | zero =>
    cases added
    exact Text.nulFree_nil
  | succ depth =>
    have asks : Asks e.catalog.Tame SamePage _
        (e.includeFile reader (e.renderWithin reader tokens context depth) name) :=
      asks_includeFile files (fun _ plain => asks_renderWithin tame.nulFree free files depth plain)
        name
    obtain ⟨page, rfl, pageFree⟩ := (asks earlier).1.related tame added
    exact pageFree

theorem Engine.InclusionsChecked.nulFree
    (results : e.InclusionsChecked reader tokens context depth) (free : context.NulFree)
    (files : ∀ earlier path content, reader earlier path = .ok content → Text.NulFree content)
    (name : Text) (earlier : List FilePath) (text : Text)
    (added : ((e.included reader tokens context depth name).outcome earlier).1 = .ok text) :
    Text.NulFree text := by
  rw [results name] at added
  exact Engine.included_nulFree e.catalog.tame_checked free files added

theorem Engine.inclusionsChecked_of_tame (tame : e.catalog.Tame) :
    e.InclusionsChecked reader tokens context depth := by
  have same : e.checked = e := by rw [Engine.checked, tame.checked]
  intro name
  rw [same]

end Included

theorem outcome_lift_eq_ok_iff {σ β : Type} {x : Reading σ α} {f : α → Except Failure β}
    {state : σ} {b : β} :
    ((x >>= fun a => liftExcept (f a)).outcome state).1 = .ok b ↔
      ∃ a, (x.outcome state).1 = .ok a ∧ f a = .ok b := by
  change ((x >>= fun a => liftExcept (f a)).run state).1 = .ok b ↔
    ∃ a, (x.run state).1 = .ok a ∧ f a = .ok b
  rw [run_bind]
  rcases x.run state with ⟨cause | a, later⟩
  · simp
  · have lifted : ((liftExcept (f a) : Reading σ β).run later).1 = f a := by cases f a <;> rfl
    simp [lifted]

/-- A template that is printed from a tree renders to a page exactly if all its inclusions are
rendered, all its loops come to a result, also those that are not taken, and so do all calls that
are taken. The page is then what the tree means. Files, values and results of helpers are without a
NUL, and numerals are not too long to be written. -/
theorem render_text (e : Engine) (reader : Reader) (tokens : Tokens) (m : Mapping)
    (page : Page e.catalog FileName) (earlier : List FilePath)
    (files : ∀ earlier path content, reader earlier path = .ok content → Text.NulFree content)
    (free : (Value.mapping m).NulFree) (clean : e.catalog.NulFree)
    (results : e.InclusionsChecked reader tokens (.mapping m) e.maxDepth.toNat)
    (short : (Value.mapping m).Writable) :
    let answer := ((e.render reader tokens (.mapping m) page.text).outcome earlier).1
    let filled := ((page.fill fun name =>
      e.included reader tokens (.mapping m) e.maxDepth.toNat name.text).outcome earlier).1
    ((∃ text, answer = .ok text) ↔ ∃ known, filled = .ok known ∧ known.Evaluates (.mapping m)) ∧
      ∀ text, answer = .ok text ↔
        ∃ known, filled = .ok known ∧ known.meaning (.mapping m) = .ok text := by
  intro answer filled
  have rendered : ∀ text, answer = .ok text ↔
      ∃ known, filled = .ok known ∧ known.meaning (.mapping m) = .ok text := by
    intro text
    have whole := e.renderWithin_text reader tokens (.mapping m) e.maxDepth.toNat page earlier
      clean free (results.nulFree free files)
    rw [show answer = _ from congrArg Prod.fst whole, outcome_lift_eq_ok_iff]
    simp only [filled, Page.staged_same (.mapping m) _ text]
  refine ⟨?_, rendered⟩
  simp only [rendered]
  constructor
  · rintro ⟨text, known, here, meant⟩
    exact ⟨known, here, (known.meaning_succeeds_iff short).mp ⟨text, meant⟩⟩
  · rintro ⟨known, here, evaluates⟩
    obtain ⟨text, meant⟩ := (known.meaning_succeeds_iff short).mpr evaluates
    exact ⟨text, known, here, meant⟩

def samplePage : Page sampleEngine.catalog FileName :=
  [.choice ⟨⟨"xs.length".toList, by decide, by decide⟩, by decide⟩
    [.loop ⟨⟨⟨"xs".toList, by decide, by decide⟩, by decide⟩,
      [.plain (.inclusion ⟨['p'], by decide, by decide⟩),
        .plain (.call ⟨⟨"upper".toList, by decide, by decide⟩, by decide, "this".toList, by decide,
          by decide, by decide, by decide⟩)]⟩]
    (some [.leaf (.shown true ⟨⟨['a'], by decide, by decide⟩, by decide⟩)])]

theorem sampleContext_writable : sampleContext.Writable := by
  have two : Numeral.Writable 2 := by decide
  simp [sampleContext, sampleNames, Value.Writable, Value.Every, Value.EveryItem,
    Value.Short, two]

/-- The file of the site calls no helper, so it renders alike with all of them. -/
theorem sampleInclusions_checked (depth : Nat) :
    sampleEngine.InclusionsChecked sampleReader Token.ofNat sampleContext depth := by
  have assembled (e : Engine) (inclusion : Text → Reading (List FilePath) Text) :
      e.assemble Token.ofNat sampleContext inclusion "<{{ a }}>".toList = pure "<hi>".toList := rfl
  have rendered (e : Engine) (depth : Nat) :
      e.renderWithin sampleReader Token.ofNat sampleContext depth "<{{ a }}>".toList =
        pure "<hi>".toList := by
    cases depth <;> exact assembled e _
  intro name
  cases depth with
  | zero => rfl
  | succ depth =>
    funext earlier
    change (sampleEngine.includeFile sampleReader _ name).run earlier =
      (sampleEngine.checked.includeFile sampleReader _ name).run earlier
    rw [Engine.run_includeFile, Engine.run_includeFile]
    have views : sampleEngine.checked.views = sampleEngine.views := rfl
    have answers : sampleReader earlier (sampleEngine.views.inclusion name) =
        .ok "<{{ a }}>".toList ∨
          sampleReader earlier (sampleEngine.views.inclusion name) = .error .unreadable := by
      unfold sampleReader
      split
      · exact .inl rfl
      · exact .inr rfl
    rw [views]
    rcases answers with read | read
    · rw [read]
      dsimp only
      rw [rendered, rendered]
    · rw [read]

theorem render_text_sample :
    let e := sampleEngine
    ∃ known, ((samplePage.fill fun name => e.included sampleReader Token.ofNat sampleContext
        e.maxDepth.toNat name.text).outcome []).1 = .ok known ∧
      known.meaning sampleContext = .ok "<hi>B<hi>C".toList := by
  have answer : ((sampleEngine.render sampleReader Token.ofNat sampleContext
      samplePage.text).outcome []).1.toOption = some "<hi>B<hi>C".toList := by decide +kernel
  have rendered := (render_text sampleEngine sampleReader Token.ofNat sampleNames samplePage []
    sampleReader_nulFree sampleContext_nulFree Catalog.nulFree_builtin
    (sampleInclusions_checked _) sampleContext_writable).2 "<hi>B<hi>C".toList
  exact rendered.mp (ok_of_toOption answer)

end Stencil
