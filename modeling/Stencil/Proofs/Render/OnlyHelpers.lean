import Stencil.Proofs.Render.Failures
import Stencil.Proofs.Render.HeldOutput
import Stencil.Proofs.Template.Tags

/-! When only helpers make a render fail: as long as it meets no numeral of too many digits,
and no number under which nothing is held. -/
namespace Stencil

open Markup Template

section Variable

open Script

variable (e : Engine) (reader : Reader) (context : Value) (raw : Bool)
variable (path : Word (isPathChar .page))

theorem Script.finish_variable :
    finish e.catalog context (ofText (variableTag raw path.text)) =
      Refusal.of (Render.showVariable context ⟨raw, path.text⟩) := by
  have braceless : '{' ∉ path.text := path.lacks (isPathChar_brace .page)
  have loops : expandLoops e.catalog context (ofText (variableTag raw path.text)) = pure _ :=
    (rewrites_skipped (ledBy_loop.skips_variable (by decide) (by decide) raw braceless)).whole
  have choices : chooseBranches context .page (ofText (variableTag raw path.text)) = pure _ :=
    (rewrites_skipped
      ((ledBy_choice .page).skips_variable (by decide) (by decide) raw braceless)).whole
  have calls : callHelpers e.catalog context (ofText (variableTag raw path.text)) = pure _ :=
    (rewrites_skipped (skips_call_variable raw path)).whole
  have found : Rewrites (variableTag? .page) (fun _ v => showVariable context v) _ _ :=
    rewrites_found (shape_variableTag raw path.text) fun rest => variableTag?_tag raw path
  have shown : fillVariables context .page (ofText (variableTag raw path.text)) = _ := found.whole
  simp only [finish, loops, choices, calls, shown, pure_bind, showVariable, Functor.map_map,
    flatten_ofText]
  exact id_map _

theorem Script.run_assemble_variable (inclusion : Text → Asking Text) (earlier : List FilePath) :
    (assemble e context inclusion (variableTag raw path.text)).run earlier =
      (Refusal.of (Render.showVariable context ⟨raw, path.text⟩), earlier) := by
  have braceless : '{' ∉ path.text := path.lacks (isPathChar_brace .page)
  have inclusions : expandInclusions inclusion (ofText (variableTag raw path.text)) = pure _ :=
    (rewrites_skipped (ledBy_inclusion.skips_variable (by decide) (by decide) raw braceless)).whole
  rw [assemble, inclusions, pure_bind, finish_variable]
  cases Render.showVariable context ⟨raw, path.text⟩ <;> rfl

theorem Script.renderWithin_variable (depth : Nat) (earlier : List FilePath) :
    (renderWithin e reader context depth (variableTag raw path.text)).run earlier =
      (Refusal.of (Render.showVariable context ⟨raw, path.text⟩), earlier) := by
  cases depth <;> exact run_assemble_variable e context raw path _ earlier

end Variable

/-- A position in a sequence cannot be read if it has too many digits. -/
theorem Value.follow_overlong {m : Mapping} {name digits : Text} {kind : SequenceKind}
    {items : List Value} (found : m.get? name = some (.sequence kind items)) (plain : '.' ∉ name)
    (all : ∀ c ∈ digits, c.isDigit = true) (long : Numeral.maxDigits < digits.length) :
    (Value.mapping m).follow (name ++ '.' :: digits) = .error .overlong := by
  have free : '.' ∉ digits := fun member => absurd (all '.' member) (by decide)
  have parts : Text.parts '.' (name ++ '.' :: digits) = [name, digits] := by
    rw [Text.parts_append plain, Text.parts_of_not_mem free]
  have nonempty : digits ≠ [] := List.ne_nil_of_length_pos (Nat.zero_lt_of_lt long)
  have leads : Leads name (.mapping m) (.sequence kind items) := .entry found
  refine follow_of_refusal ⟨[name], digits, [], .sequence kind items, parts, ?_, ?_⟩
  · exact .step leads (.here _)
  · exact ⟨rfl, ⟨nonempty, all⟩, long⟩

section OnlyHelpers

variable {e : Engine} {reader : Reader} {tokens : Tokens} {m : Mapping} {template : Text}
variable {earlier : List FilePath}

/-- A render gives a page or fails by a helper, exactly if it meets no numeral of too many digits
and no number under which nothing is held. -/
theorem page_or_helper_iff
    (loads : ∀ earlier path cause, reader earlier path ≠ .error (.failed cause)) :
    let answer := ((e.render reader tokens (.mapping m) template).outcome earlier).1
    ((∃ page, answer = .ok page) ∨ ∃ failure, answer = .error failure ∧ failure.OfHelper) ↔
      answer ≠ .error .overlong ∧ answer ≠ .error Shelf.notHeld := by
  intro answer
  constructor
  · rintro (⟨page, rendered⟩ | ⟨failure, failed, helper⟩)
    · rw [rendered]
      exact ⟨nofun, nofun⟩
    · rw [failed]
      constructor <;> rintro same <;> cases same <;> exact helper
  · rintro ⟨readable, held⟩
    cases result : answer with
    | ok page => exact .inl ⟨page, rfl⟩
    | error failure =>
      rcases error_of_render loads result with helper | rfl | rfl
      · exact .inr ⟨failure, rfl, helper⟩
      · exact absurd result readable
      · exact absurd result held

end OnlyHelpers

theorem page_or_helper_sample :
    let answer := ((sampleEngine.render sampleReader Token.ofNat sampleContext
      sampleTemplate).outcome []).1
    (∀ earlier path cause, sampleReader earlier path ≠ .error (.failed cause)) ∧
      ((∃ page, answer = .ok page) ∨ ∃ failure, answer = .error failure ∧ failure.OfHelper) := by
  have loads : ∀ earlier path cause, sampleReader earlier path ≠ .error (.failed cause) := by
    intro earlier path cause
    unfold sampleReader
    split <;> exact nofun
  have shown : ((sampleEngine.render sampleReader Token.ofNat sampleContext
      sampleTemplate).outcome []).1 = .ok "<hi>B<hi>C".toList :=
    ok_of_toOption (by decide +kernel)
  refine ⟨loads, (page_or_helper_iff loads).mpr ?_⟩
  change ((sampleEngine.render sampleReader Token.ofNat (.mapping sampleNames)
    sampleTemplate).outcome []).1 = _ at shown
  rw [shown]
  exact ⟨nofun, nofun⟩

def longPosition : Text := List.replicate (Numeral.maxDigits + 1) '1'

def longPath : Word (isPathChar .page) where
  text := "xs".toList ++ '.' :: longPosition
  nonempty := by simp
  all := by
    rw [List.all_append, List.all_cons, longPosition, List.all_replicate]
    rfl

/-- Not only helpers make a render fail. -/
theorem long_position_fails :
    let answer := ((sampleEngine.render sampleReader Token.ofNat sampleContext
      (variableTag false longPath.text)).outcome []).1
    ¬((∃ page, answer = .ok page) ∨ ∃ failure, answer = .error failure ∧ failure.OfHelper) := by
  intro answer
  have followed : sampleContext.follow longPath.text = .error .overlong :=
    Value.follow_overlong rfl (by decide) (fun c digit => (List.mem_replicate.mp digit).2 ▸ rfl)
      (by simp [longPosition])
  have shown : Render.showVariable sampleContext ⟨false, longPath.text⟩ = .error .overlong := by
    rw [Render.showVariable, followed]
    rfl
  have script := Script.renderWithin_variable sampleEngine sampleReader sampleContext false longPath
    sampleEngine.maxDepth.toNat []
  rw [shown] at script
  have plain : Text.NulFree (variableTag false longPath.text) := by
    have path : Text.NulFree longPath.text := longPath.lacks (by decide)
    simpa [variableTag, Template.tag, opener, closer] using path
  have unmixed : ((Script.renderWithin sampleEngine sampleReader sampleContext
      sampleEngine.maxDepth.toNat (variableTag false longPath.text)).run []).1 ≠ .error .mixed := by
    rw [script]
    intro same
    cases same
  have rendered : (Refusal.of (.error .overlong), []) = ((sampleEngine.render sampleReader
      Token.ofNat sampleContext (variableTag false longPath.text)).outcome []).map Refusal.of id :=
    script.symm.trans (renderWithin_eq_script sampleEngine sampleReader Token.ofNat sampleContext _
      _ [] Catalog.nulFree_builtin sampleContext_nulFree plain sampleReader_nulFree unmixed)
  simp only [answer]
  generalize (sampleEngine.render sampleReader Token.ofNat sampleContext
    (variableTag false longPath.text)).outcome [] = outcome at rendered
  obtain ⟨result, log⟩ := outcome
  obtain rfl : .error .overlong = result := Refusal.of_injective (congrArg Prod.fst rendered)
  rintro (⟨page, same⟩ | ⟨failure, same, helper⟩)
  · cases same
  · cases same
    exact helper

end Stencil
