import Stencil.Proofs.Template.Parts

/-! The stages of a render on the script of a tree: each does to the parts what it is there
for, and what comes out is the script of a tree with fewer kinds of parts. The order is that
of the later stages: all loops, then what the conditions take, all calls in it, and what is
shown. -/
namespace Stencil.Template

open Markup Script

variable {catalog : Catalog} {place : Place} {ι α β : Type}

section Inclusions

variable (inclusion : Text → Asking Text)

theorem Leaf.rewrites_inclusion (l : Leaf catalog place FileName) :
    Rewrites inclusion? (fun _ name => hold <$> inclusion name)
      (l.print ofText fun name => ofText (inclusionTag name.text))
      (Leaf.script <$> l.fill fun name => inclusion name.text) := by
  cases l with
  | literal l => exact rewrites_skipped (skips_braceless ledBy_inclusion.braced l.noOpening)
  | shown raw path =>
    exact rewrites_skipped (ledBy_inclusion.skips_variable (by decide) (by decide) raw path.opens)
  | call c => exact rewrites_skipped (ledBy_inclusion.skips_call (by decide) c.opens c.noOpening)
  | inclusion name =>
    have found : Rewrites inclusion? (fun _ name => hold <$> inclusion name)
        (ofText (inclusionTag name.text)) (hold <$> inclusion name.text) :=
      rewrites_found (shape_tag _) fun rest => inclusion?_tag name
    simp only [Leaf.fill, Functor.map_map]
    exact found

theorem Item.rewrites_inclusion (item : Item catalog FileName) :
    Rewrites inclusion? (fun _ name => hold <$> inclusion name)
      (item.print ofText fun name => ofText (inclusionTag name.text))
      (Item.print ofText hold <$> item.fill fun name => inclusion name.text) := by
  cases item with
  | leaf l => simpa [Item.fill, Item.print, Function.comp_def] using l.rewrites_inclusion inclusion
  | loop l =>
    have opening : Skips (Found inclusion?) (ofText (eachTag l.path.text)) :=
      ledBy_inclusion.skips_tag _ (by simp [l.path.opens]) fun _ => rfl
    have closing : Skips (Found inclusion?) (ofText eachCloser) :=
      ledBy_inclusion.skips_tag "/each".toList (by decide) fun _ => rfl
    have body := rewrites_parts
      (rewrites_conditional skipsConditions_inclusion (Leaf.rewrites_inclusion inclusion)) l.body
    have whole := ((rewrites_skipped opening).append body).append (rewrites_skipped closing)
    simpa [Item.fill, Item.print, Loop.fill, Loop.print] using whole

theorem expandInclusions_text (page : Page catalog FileName) :
    expandInclusions inclusion (ofText page.text) =
      Page.print ofText hold <$> page.fill fun name => inclusion name.text := by
  have parts := rewrites_parts
    (rewrites_conditional skipsConditions_inclusion (Item.rewrites_inclusion inclusion)) page
  rw [Page.text, ofText_page]
  exact parts.whole

end Inclusions

section Staged

variable (scope : Value)

/-- A leaf of a catalog with no helpers, after the calls. -/
def Leaf.called : Leaf catalog place Text → Except Failure (Leaf .empty place Text)
  | literal l => return literal l
  | shown raw path => return shown raw path
  | call c => inclusion <$>
    catalog.call c.name.text (Text.trim c.arguments) fun path => scope.follow path
  | inclusion page => return inclusion page

def stagedParts (flat : List (Conditional place (Leaf catalog place Text))) :
    Except Failure Text := do
  let taken ← flat.mapM (Conditional.chosen scope)
  let leaves ← taken.flatten.mapM (Leaf.called scope)
  List.flatten <$> leaves.mapM (Leaf.meaning scope)

def stagedRound (l : Loop catalog Text) (total : Nat) (round : Value × Nat) :
    Except Failure Text := do
  stagedParts (← itemScope scope round.1 round.2 total) l.body

def Loop.staged (l : Loop catalog Text) : Except Failure Text := do
  match ← scope.follow l.path.text with
  | .sequence _ items => List.flatten <$> items.zipIdx.mapM (stagedRound scope l items.length)
  | _ => return []

/-- An item of a page, after the loops. -/
def Item.settled : Item catalog Text → Except Failure (Leaf catalog .page Text)
  | leaf l => return l
  | loop l => Leaf.inclusion <$> l.staged scope

def Page.staged (page : Page catalog Text) : Except Failure Text := do
  stagedParts scope (← page.mapM (Conditional.fill (Item.settled scope)))

end Staged

section Conditions

variable (scope : Value)

theorem choice?_print (part : α → Script) (path : Path place) (yes : List α) (no? : Option (List α))
    (closes : ∀ a, Skips (Marked conditionCloser) (part a))
    (divides : ∀ a, Skips (Marked otherwise) (part a)) (rest : Script) :
    Script.choice? place ((Conditional.choice path yes no?).print ofText part ++ rest) =
      some (⟨path.text, yes.flatMap part, no?.map (·.flatMap part)⟩, rest) := by
  have skipsYes : ∀ {mark}, (∀ a, Skips (Marked mark) (part a)) →
      Skips (Marked mark) (yes.flatMap part) := fun each => skips_flatMap fun a _ => each a
  cases no? with
  | none =>
    have split : (Conditional.choice path yes none).print ofText part ++ rest =
        ofText (conditionTag path.text) ++
          (yes.flatMap part ++ (ofText conditionCloser ++ rest)) := by
      simp [Conditional.print]
    have cut := cut?_mark (by decide) (skipsYes closes) rest
    have whole := cut?_none (by decide) (skipsYes divides)
    rw [split, Script.choice?, Script.block?, condition?_tag path.toWord]
    simp [cut, whole]
  | some no =>
    let inside := yes.flatMap part ++ (ofText otherwise ++ no.flatMap part)
    have split : (Conditional.choice path yes (some no)).print ofText part ++ rest =
        ofText (conditionTag path.text) ++ (inside ++ (ofText conditionCloser ++ rest)) := by
      simp [Conditional.print, inside]
    have middle : Skips (Marked conditionCloser) (ofText otherwise) :=
      (ledBy_mark _).skips_tag "else".toList (by decide) fun _ => rfl
    have closed : Skips (Marked conditionCloser) inside :=
      (skipsYes closes).append (middle.append (skips_flatMap fun a _ => closes a))
    have cut := cut?_mark (by decide) closed rest
    have divided := cut?_mark (by decide) (skipsYes divides) (no.flatMap part)
    rw [split, Script.choice?, Script.block?, condition?_tag path.toWord]
    simp only [Option.bind_eq_bind, Option.bind_some, cut]
    simp [inside, divided]

theorem chooseBranch_print (part : α → Script) (path : Path place) (yes : List α)
    (no? : Option (List α)) :
    chooseBranch scope ⟨path.text, yes.flatMap part, no?.map (·.flatMap part)⟩ =
      (·.flatMap part) <$> Refusal.of ((Conditional.choice path yes no?).chosen scope) := by
  rw [chooseBranch, Conditional.chosen, Refusal.of_bind, map_bind]
  congr
  funext value
  cases value.holds with
  | true => rfl
  | false => cases no? <;> rfl

theorem Conditional.rewrites_choice (c : Conditional place (Leaf catalog place Text)) :
    Rewrites (Script.choice? place) (fun _ b => chooseBranch scope b) (c.print ofText Leaf.script)
      ((·.flatMap Leaf.script) <$> Refusal.of (c.chosen scope)) := by
  cases c with
  | plain l =>
    have passed : Rewrites (Script.choice? place) (fun _ b => chooseBranch scope b) _ _ :=
      rewrites_skipped (l.skips_script (ledBy_choice place) (by decide) (by decide))
    simpa [Conditional.chosen, Conditional.print] using passed
  | choice path yes no? =>
    have found : Rewrites (Script.choice? place) (fun _ b => chooseBranch scope b) _ _ :=
      rewrites_found (by cases no? <;> simp [Conditional.print, conditionTag, tag])
        (choice?_print Leaf.script path yes no?
          (fun l => l.skips_script (ledBy_mark _) (by decide) (by decide))
          (fun l => l.skips_script (ledBy_mark _) (by decide) (by decide)))
    rw [chooseBranch_print] at found
    exact found

theorem chooseBranches_script (flat : List (Conditional place (Leaf catalog place Text))) :
    chooseBranches scope place (flatScript flat) =
      (·.flatten.flatMap Leaf.script) <$> Refusal.of (flat.mapM (Conditional.chosen scope)) := by
  have parts := rewrites_flatMap fun c (_ : c ∈ flat) => c.rewrites_choice scope
  rw [mapM_map_result, ← Refusal.of_mapM] at parts
  rw [chooseBranches, flatScript, parts.whole]
  simp [List.flatMap_def, List.flatten_flatten, Function.comp_def]

end Conditions

section Calls

variable (scope : Value)

theorem callHelper_tag (lexeme : Script) (c : Call catalog) :
    callHelper catalog scope lexeme ⟨c.name.text, ofText (Text.trim c.arguments)⟩ =
      hold <$> Refusal.of
        (catalog.call c.name.text (Text.trim c.arguments) fun path => scope.follow path) := by
  have solid : ofText (Text.trim c.arguments) ≠ [] := by simpa [ofText] using c.solid
  rw [callHelper, if_neg (by simp [solid, c.known]), text?_ofText]

theorem Leaf.rewrites_call (l : Leaf catalog place Text) :
    Rewrites Script.call? (callHelper catalog scope) l.script
      (Leaf.script <$> Refusal.of (l.called scope)) := by
  cases l with
  | literal l => exact rewrites_skipped (skips_braceless (braced_found _) l.noOpening)
  | shown raw path => exact rewrites_skipped (skips_call_variable raw path.toWord)
  | inclusion page => exact rewrites_skipped (skips_hold (braced_found _) page)
  | call c =>
    have found : Rewrites Script.call? (callHelper catalog scope) _ _ :=
      rewrites_found (shape_tag _) fun rest => call?_tag c.name c.noClosing
    rw [callHelper_tag] at found
    simp only [Leaf.called, Refusal.of_map, Functor.map_map]
    exact found

theorem callHelpers_script (leaves : List (Leaf catalog place Text)) :
    callHelpers catalog scope (leaves.flatMap Leaf.script) =
      (·.flatMap Leaf.script) <$> Refusal.of (leaves.mapM (Leaf.called scope)) := by
  have parts := rewrites_parts (Leaf.rewrites_call scope) leaves
  rw [← Refusal.of_mapM] at parts
  exact parts.whole

end Calls

section Variables

variable (scope : Value)

/-- What a leaf is in the end, in a script. -/
def Leaf.settledScript : Leaf .empty place Text → Except Failure Script
  | literal l => return ofText l.text
  | shown raw path => ofText <$> Render.showVariable scope ⟨raw, path.text⟩
  | call c => nomatch c.known
  | inclusion page => return hold page

theorem Leaf.flatten_settledScript (l : Leaf .empty place Text) :
    flatten <$> l.settledScript scope = l.meaning scope := by
  cases l with
  | literal l => simp [settledScript, Leaf.meaning]
  | shown raw path => simp [settledScript, Leaf.meaning]
  | call c => nomatch c.known
  | inclusion page => simp [settledScript, Leaf.meaning]

theorem Leaf.rewrites_variable (l : Leaf .empty place Text) :
    Rewrites (variableTag? place) (fun _ v => showVariable scope v) l.script
      (Refusal.of (l.settledScript scope)) := by
  cases l with
  | literal l => exact rewrites_skipped (skips_braceless (braced_found _) l.noOpening)
  | shown raw path =>
    have found : Rewrites (variableTag? place) (fun _ v => showVariable scope v) _ _ :=
      rewrites_found (shape_variableTag raw path.text) fun rest =>
        variableTag?_tag raw path.toWord
    rw [settledScript, Refusal.of_map]
    exact found
  | call c => nomatch c.known
  | inclusion page => exact rewrites_skipped (skips_hold (braced_found _) page)

theorem fillVariables_script (leaves : List (Leaf .empty place Text)) :
    flatten <$> fillVariables scope place (leaves.flatMap Leaf.script) =
      Refusal.of (List.flatten <$> leaves.mapM (Leaf.meaning scope)) := by
  have parts := rewrites_flatMap fun l (_ : l ∈ leaves) => l.rewrites_variable scope
  have results : leaves.mapM (Leaf.meaning scope) =
      List.map flatten <$> leaves.mapM (Leaf.settledScript scope) := by
    rw [← mapM_map_result]
    congr
    funext l
    exact (l.flatten_settledScript scope).symm
  rw [fillVariables, parts.whole, results, ← Refusal.of_mapM, ← Refusal.of_map, ← Refusal.of_map]
  simp [flatten_flatten]

end Variables

section Finish

variable (scope : Value)

theorem stages_script (flat : List (Conditional place (Leaf catalog place Text))) :
    (do
      let s ← chooseBranches scope place (flatScript flat)
      let s ← callHelpers catalog scope s
      flatten <$> fillVariables scope place s) = Refusal.of (stagedParts scope flat) := by
  simp only [chooseBranches_script, bind_map_left, callHelpers_script, fillVariables_script,
    stagedParts, Refusal.of_bind]

theorem runRound_script (l : Loop catalog Text) :
    flatten <$> runRound catalog scope (flatScript l.body) =
      Refusal.of (stagedParts scope l.body) := by
  rw [← stages_script, runRound]
  simp only [map_bind]

theorem runRounds_script (l : Loop catalog Text) (items : List Value) :
    flatten <$> runRounds catalog scope (flatScript l.body) items =
      Refusal.of (List.flatten <$> items.zipIdx.mapM (stagedRound scope l items.length)) := by
  have round (r : Value × Nat) : (flatten <$> do
      runRound catalog (← Refusal.of (itemScope scope r.1 r.2 items.length)) (flatScript l.body)) =
        Refusal.of (stagedRound scope l items.length r) := by
    simp only [map_bind, runRound_script, stagedRound, Refusal.of_bind]
  rw [Refusal.of_map, Refusal.of_mapM, ← funext round, mapM_map_result, runRounds]
  simp [flatten_flatten]

theorem runLoop_script (l : Loop catalog Text) :
    flatten <$> runLoop catalog scope ⟨l.path.text, flatScript l.body, none⟩ =
      Refusal.of (l.staged scope) := by
  rw [runLoop, Loop.staged, map_bind, Refusal.of_bind]
  congr
  funext value
  cases value with
  | sequence kind items => exact runRounds_script scope l items
  | _ => rfl

theorem loop?_print (l : Loop catalog Text) (rest : Script) :
    Script.loop? (l.print ofText hold ++ rest) =
      some (⟨l.path.text, flatScript l.body, none⟩, rest) := by
  have split : l.print ofText hold ++ rest = ofText (eachTag l.path.text) ++
      (flatScript l.body ++ (ofText eachCloser ++ rest)) := by
    simp [Loop.print, flatScript]
  have skips : Skips (Marked eachCloser) (flatScript l.body) :=
    l.skips_eachCloser hold fun page => skips_hold (ledBy_mark _).braced page
  have cut := cut?_mark (by decide) skips rest
  rw [split, Script.loop?, Script.block?, each?_tag l.path.toWord]
  simp [cut]

theorem Item.rewrites_loop (item : Item catalog Text) :
    Rewrites Script.loop? (fun _ b => (hold ∘ flatten) <$> runLoop catalog scope b)
      (item.print ofText hold) (Leaf.script <$> Refusal.of (item.settled scope)) := by
  cases item with
  | leaf l =>
    have passed : Rewrites Script.loop?
        (fun _ b => (hold ∘ flatten) <$> runLoop catalog scope b) _ _ :=
      rewrites_skipped (l.skips_script ledBy_loop (by decide) (by decide))
    simpa [Item.settled, Item.print] using passed
  | loop l =>
    have found : Rewrites Script.loop?
        (fun _ b => (hold ∘ flatten) <$> runLoop catalog scope b) _ _ :=
      rewrites_found (by simp [Loop.print, eachTag, tag]) (loop?_print l)
    rw [comp_map, runLoop_script] at found
    simp only [Item.settled, Refusal.of_map, Functor.map_map]
    exact found

theorem expandLoops_script (page : Page catalog Text) :
    expandLoops catalog scope (page.print ofText hold) =
      flatScript <$> Refusal.of (page.mapM (Conditional.fill (Item.settled scope))) := by
  have parts := rewrites_parts
    (rewrites_conditional skipsConditions_loop (Item.rewrites_loop scope)) page
  have fills := Conditional.read_mapM_fill Refusal.results
    (fun item : Item catalog Text => (rfl : _ = Refusal.of (item.settled scope))) page
  rw [← fills] at parts
  exact parts.whole

/-- On the script of a page the stages come to what the page means in their order. -/
theorem finish_script (page : Page catalog Text) :
    finish catalog scope (page.print ofText hold) = Refusal.of (page.staged scope) := by
  rw [finish, expandLoops_script, bind_map_left, Page.staged, Refusal.of_bind]
  congr
  funext flat
  exact stages_script scope flat

end Finish

end Stencil.Template
