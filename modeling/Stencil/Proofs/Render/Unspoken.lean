import Stencil.Proofs.Render.HeldOutput
import Stencil.Proofs.Render.Woven
import Stencil.Proofs.Value.Agreement

/-! A render reads only what its template spells out. Two contexts that differ in one entry
give the same page, or the same failure, and ask for the same files, unless the letters of
the name stand in the template or in an included file, in their order. What a context holds
cannot make up for them: output is never read again. -/
namespace Stencil

open Text Markup

theorem eq_of_ofWord {word path : Text} (read : Helper.Argument.ofWord word = .ok (.path path)) :
    path = word := by
  unfold Helper.Argument.ofWord at read
  split at read
  · cases read
  · split at read
    · cases read
    · cases read
    · split at read <;> cases read
      rfl

theorem argument_congr {name word : Text} {lookup other : Helper.Lookup}
    (same : lookup word = other word) :
    Helper.argument name lookup word = Helper.argument name other word := by
  unfold Helper.argument
  cases read : Helper.Argument.ofWord word with
  | error failure => rfl
  | ok argument =>
    cases argument with
    | literal value => rfl
    | path path =>
      obtain rfl := eq_of_ofWord read
      change (lookup path >>= _) = (other path >>= _)
      rw [same]

theorem call_congr {catalog : Catalog} {name text : Text} {lookup other : Helper.Lookup}
    (same : ∀ word ∈ Helper.words text, lookup word = other word) :
    catalog.call name text lookup = catalog.call name text other := by
  have looked : Helper.arguments name lookup text = Helper.arguments name other text := by
    unfold Helper.arguments
    generalize Helper.words text = words at same
    induction words with
    | nil => rfl
    | cons word words ih =>
      obtain ⟨here, later⟩ := List.forall_mem_cons.mp same
      rw [List.mapM_cons, List.mapM_cons, argument_congr here, ih later]
  rw [Catalog.call_eq, Catalog.call_eq, looked]

section Stages

variable {catalog : Catalog} {name text path lexeme : Text} {m other : Mapping}
variable (agree : Mapping.AgreeBut name m other) (free : NulFree name)
include agree free

theorem follow_unspoken (h : Unspoken name path) :
    (Value.mapping m).follow path = (Value.mapping other).follow path :=
  agree.follow (h.not_prefix free)

theorem alike_showVariable {place : Place} {v : Variable} (h : Unspoken name lexeme)
    (shape : VariableShape place v lexeme) :
    Render.showVariable (.mapping m) v = Render.showVariable (.mapping other) v := by
  unfold Render.showVariable
  rw [follow_unspoken agree free (h.shrinks shape.shrinks)]

theorem alike_fillVariables (place : Place) (h : Unspoken name text) :
    results.Related (Render.fillVariables place (.mapping m) text)
      (Render.fillVariables place (.mapping other) text) fun _ => True := by
  refine results.rewrite (P := fun _ _ => True) (consumes_variable place).atOpener trivial
    (fun _ _ _ _ => trivial) fun passed lexeme v tail split found => ?_
  have shape := (reads_variable place).atOpener.shape found
  have here : Unspoken name lexeme := .lexeme shape.braced (split ▸ h)
  rw [alike_showVariable agree free here shape]
  exact ⟨rfl, fun _ _ _ _ => trivial⟩

theorem alike_chooseBranch {place : Place} {b : Block} (h : Unspoken name lexeme)
    (shape : BlockShape (opener ++ "#if".toList) place conditionCloser (some otherwise) b lexeme) :
    results.Related (Render.chooseBranch (.mapping m) b) (Render.chooseBranch (.mapping other) b)
      (Shrinks lexeme) := by
  have opens : NulFree (opener ++ "#if".toList) := by decide
  have same := follow_unspoken agree free (h.shrinks (shape.shrinks_path opens))
  obtain ⟨body, otherwise⟩ := shape.shrinks_branches opens braced_conditionCloser
    (by simpa using braced_otherwise)
  unfold Render.chooseBranch
  refine results.bind (results_of_eq same) fun value _ => ?_
  apply results.pure
  split
  · exact body
  · cases found : b.otherwise? with
    | none => exact shrinks_nil lexeme
    | some text => exact otherwise text found

theorem alike_chooseBranches (place : Place) (h : Unspoken name text) :
    results.Related (Render.chooseBranches place (.mapping m) text)
      (Render.chooseBranches place (.mapping other) text) (Unspoken name) :=
  unspoken_rewrite results (reads_choice place) (fun _ _ shape => shape.braced braced_conditionCloser)
    h fun _ _ => alike_chooseBranch agree free

theorem alike_callHelper {c : Call} (h : Unspoken name lexeme) (shape : CallShape c lexeme) :
    onAnyShelf.Related (Render.callHelper catalog (.mapping m) lexeme c)
      (Render.callHelper catalog (.mapping other) lexeme c) (Shrinks lexeme) := by
  by_cases idle : Text.trim c.arguments = [] ∨ ¬catalog.has c.name
  · rw [callHelper_idle idle, callHelper_idle idle]
    exact onAnyShelf.pure (shrinks_refl lexeme)
  · obtain ⟨full, known⟩ := not_or.mp idle
    have arguments := h.shrinks shape.shrinks
    have same : ∀ word ∈ Helper.words (Text.trim c.arguments),
        (Value.mapping m).follow word = (Value.mapping other).follow word := fun word member =>
      follow_unspoken agree free (arguments.shrinks (shrinks_words member))
    intro shelf _
    rw [callHelper_called full (not_not.mp known), callHelper_called full (not_not.mp known),
      call_congr same]
    refine results.bind (results_of_eq rfl) fun text _ => ?_
    exact ⟨rfl, fun kept same => ⟨shrinks_of_keep same, trivial⟩⟩

theorem alike_callHelpers (h : Unspoken name text) :
    onAnyShelf.Related (Render.callHelpers catalog (.mapping m) text)
      (Render.callHelpers catalog (.mapping other) text) (Unspoken name) :=
  unspoken_rewrite onAnyShelf reads_call (fun _ _ shape => shape.braced) h
    fun _ _ => alike_callHelper agree free

theorem alike_runRound (h : Unspoken name text) :
    onAnyShelf.Related (Render.runRound catalog (.mapping m) text)
      (Render.runRound catalog (.mapping other) text) fun _ => True := by
  refine onAnyShelf.bind (onShelf_lift (alike_chooseBranches agree free .item h)) fun _ h => ?_
  refine onAnyShelf.bind (alike_callHelpers agree free h) fun _ h => ?_
  exact onShelf_lift (alike_fillVariables agree free .item h)

theorem alike_runLoop {b : Block} (path : Unspoken name b.path) (body : Unspoken name b.body) :
    onAnyShelf.Related (Render.runLoop catalog (.mapping m) b)
      (Render.runLoop catalog (.mapping other) b) fun _ => True := by
  have same := follow_unspoken agree free path
  refine onAnyShelf.bind (onShelf_lift (results_of_eq same)) fun value _ => ?_
  cases value with
  | sequence kind items =>
    refine onAnyShelf.flatten_mapM trivial (fun _ _ _ _ => trivial) fun round _ => ?_
    exact alike_runRound (agree.withItem round.1 round.2 items.length) free body
  | _ => exact onAnyShelf.pure trivial

theorem alike_expandLoops (h : Unspoken name text) :
    onAnyShelf.Related (Render.expandLoops catalog (.mapping m) text)
      (Render.expandLoops catalog (.mapping other) text) (Unspoken name) := by
  refine unspoken_rewrite onAnyShelf reads_loop (fun _ _ shape => shape.braced braced_eachCloser) h
    fun lexeme b here shape => ?_
  have opens : NulFree (opener ++ "#each".toList) := by decide
  have path := here.shrinks (shape.shrinks_path opens)
  have body := here.shrinks (shape.shrinks_branches opens braced_eachCloser (by simp)).1
  refine onAnyShelf.bind (alike_runLoop agree free path body) fun _ _ => ?_
  exact onShelf_setAside fun _ _ _ _ kept => ⟨shrinks_of_keep kept, trivial⟩

theorem alike_finish (h : Unspoken name text) (shelf : Shelf) :
    results.Related (Render.finish catalog (.mapping m) text shelf)
      (Render.finish catalog (.mapping other) text shelf) fun _ => True := by
  refine results.bind (alike_expandLoops agree free h shelf trivial) fun looped h => ?_
  refine results.bind (alike_chooseBranches agree free .page h.1) fun chosen h => ?_
  refine results.bind (alike_callHelpers agree free h looped.2 trivial) fun called h => ?_
  refine results.bind (alike_fillVariables agree free .page h.1) fun _ _ => ?_
  exact results_of_eq rfl

end Stages

section Inclusion

variable {e : Engine} {reader : Reader} {tokens : Tokens} {name text : Text} {m other : Mapping}
variable {inner inner' : Text → Reading (List FilePath) Text}

theorem alike_expandInclusions (h : Unspoken name text)
    (each : ∀ file, reads.Related (inner file) (inner' file) fun _ => True) :
    readsOnAnyShelf.Related (Engine.expandInclusions inner text)
      (Engine.expandInclusions inner' text) (Unspoken name) := by
  refine unspoken_rewrite readsOnAnyShelf reads_tag (fun _ _ => braced_inclusion) h
    fun lexeme file _ _ => ?_
  refine readsOnAnyShelf.bind (readsOnShelf_lift (each file)) fun _ _ => ?_
  exact readsOnShelf_setAside fun _ _ _ _ kept => ⟨shrinks_of_keep kept, trivial⟩

theorem alike_assemble (agree : Mapping.AgreeBut name m other) (free : NulFree name)
    (h : Unspoken name text)
    (each : ∀ file, reads.Related (inner file) (inner' file) fun _ => True) :
    reads.Related (e.assemble tokens (.mapping m) inner text)
      (e.assemble tokens (.mapping other) inner' text) fun _ => True := by
  intro earlier
  rw [Engine.run_assemble, Engine.run_assemble]
  refine reads.bind (alike_expandInclusions h each (.empty (tokens earlier.length)) trivial)
    (fun expanded h => ?_) earlier
  rw [(alike_finish agree free h.1 expanded.2).1]
  cases Render.finish e.catalog (.mapping other) expanded.1 expanded.2 with
  | ok page => exact reads.pure trivial
  | error failure => exact reads_throw failure

theorem alike_includeFile
    (files : ∀ earlier file content, reader earlier (e.views.inclusion file) = .ok content →
      ¬name.Sublist content)
    (each : ∀ content, Unspoken name content →
      reads.Related (inner content) (inner' content) fun _ => True) (file : Text) :
    reads.Related (e.includeFile reader inner file) (e.includeFile reader inner' file)
      fun _ => True := by
  intro earlier
  rw [Engine.run_includeFile, Engine.run_includeFile]
  cases read : reader earlier (e.views.inclusion file) with
  | ok content => exact each content (.ofText (files _ _ _ read)) _
  | error cause =>
    cases cause with
    | failed cause => exact reads_throw cause _
    | unreadable | undecodable => exact reads.pure trivial _

theorem alike_renderWithin (agree : Mapping.AgreeBut name m other) (free : NulFree name)
    (files : ∀ earlier file content, reader earlier (e.views.inclusion file) = .ok content →
      ¬name.Sublist content) (depth : Nat) (h : Unspoken name text) :
    reads.Related (e.renderWithin reader tokens (.mapping m) depth text)
      (e.renderWithin reader tokens (.mapping other) depth text) fun _ => True := by
  induction depth generalizing text with
  | zero => exact alike_assemble agree free h fun _ => reads.pure trivial
  | succ depth ih =>
    exact alike_assemble agree free h (alike_includeFile files fun _ h => ih h)

end Inclusion

/-- An entry whose name the template and the included files do not spell, not even with other
characters between its letters, has no part in the page, in a failure or in what is read. -/
theorem render_eq_of_unspoken (e : Engine) (reader : Reader) (tokens : Tokens) (name : Text)
    (m other : Mapping) (template : Text) (earlier : List FilePath) (free : NulFree name)
    (unspoken : ¬name.Sublist template)
    (files : ∀ earlier file content, reader earlier (e.views.inclusion file) = .ok content →
      ¬name.Sublist content)
    (agree : Mapping.AgreeBut name m other) :
    (e.render reader tokens (.mapping m) template).outcome earlier =
      (e.render reader tokens (.mapping other) template).outcome earlier :=
  (alike_renderWithin agree free files e.maxDepth.toNat (.ofText unspoken) earlier).1

/-- A value that looks like a tag. It does not make the entry appear that the tag names. -/
def plantedNames : Mapping := [(.text ['a'], .text "{{ secret }}".toList)]

def secretNames : Mapping := plantedNames.set "secret".toList (.text ['x'])

def plantedTemplate : Text :=
  Template.inclusionTag ['p'] ++ Template.callTag "upper".toList ['a']

theorem render_eq_of_unspoken_sample :
    ¬"secret".toList.Sublist plantedTemplate ∧
      (sampleEngine.render sampleReader Token.ofNat (.mapping secretNames)
          plantedTemplate).outcome [] =
        (sampleEngine.render sampleReader Token.ofNat (.mapping plantedNames)
          plantedTemplate).outcome [] := by
  have unspoken : ¬"secret".toList.Sublist plantedTemplate := by decide
  refine ⟨unspoken, render_eq_of_unspoken sampleEngine sampleReader Token.ofNat "secret".toList
    secretNames plantedNames plantedTemplate [] (by decide) unspoken ?_
    (Mapping.agreeBut_set plantedNames "secret".toList (.text ['x']))⟩
  intro earlier file content read
  unfold sampleReader at read
  split at read <;> cases read
  decide

end Stencil
