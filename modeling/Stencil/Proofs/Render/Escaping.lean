import Stencil.Proofs.Markup.Entities
import Stencil.Proofs.Render.HeldOutput

/-! Without helpers and raw tags, values reach the page through the escape alone: a
character with a meaning in HTML that no template has stands on the page only where an
entity begins. Until the last stage the text has no more than the template, and only the
last brings values in. -/
namespace Stencil

open Text Markup Stencil.Shelf

variable {c : Char} {context : Value} {text lexeme : Text} {shelf : Shelf}

/-- In what is held, the character only begins entities. -/
def Shelf.Escaped (c : Char) (shelf : Shelf) : Prop := ∀ text ∈ shelf.held, OnlyEntities c text

theorem escaped_empty (token : Token) : (Shelf.empty token).Escaped c := by
  simp [Shelf.Escaped, Shelf.empty]

theorem consumes_placeholder (token : Token) : (Shelf.placeholder? token).Consumes := by
  refine consumes_of_suffix (Shelf.lead token) (by simp [Shelf.lead])
    fun text digits tail found => ?_
  obtain ⟨rest, opened, read⟩ := Option.bind_eq_some_iff.mp found
  refine ⟨rest, after?_eq_some_iff.mp opened, ?_⟩
  split at read
  next ending =>
    cases read
    have closed : tail <:+ rest.dropWhile isDigit := ending ▸ List.suffix_cons _ _
    exact closed.trans (List.dropWhile_suffix isDigit)
  next => contradiction

/-- A placeholder has no brace in it, nor anything reserved. -/
theorem fits_placeholder (known : c ∈ reserved) (token : Token) (number : Nat) :
    Fits c (Shelf.placeholder token number) := by
  have other : ∀ c ∈ reserved, ¬(c = '\x00' ∨ c = ':' ∨ isHexDigit c = true) :=
    forall_reserved.mpr (by decide)
  exact fits_of_braceless (fun member => other c known (Shelf.mem_placeholder member))
    (Shelf.braceless_placeholder token number).1

theorem Shelf.Escaped.look {digits page : Text} (held : shelf.Escaped c)
    (found : shelf.look digits = .ok page) : OnlyEntities c page := by
  unfold Shelf.look at found
  split at found
  next kept =>
    split at found <;> cases found
    exact held page (Array.mem_of_getElem? kept)
  next => contradiction

/-- Words without a NUL at the start of the first text are at the start of the second. -/
def KeepsWords (s t : Text) : Prop := ∀ word, NulFree word → word <+: s → word <+: t

theorem KeepsWords.cons {s t : Text} (d : Char) (h : KeepsWords s t) :
    KeepsWords (d :: s) (d :: t) := by
  intro word free starts
  cases word with
  | nil => exact List.nil_prefix
  | cons e word =>
    obtain ⟨rfl, more⟩ := List.cons_prefix_cons.mp starts
    exact List.cons_prefix_cons.mpr ⟨rfl, h word (nulFree_cons.mp free).2 more⟩

/-- A placeholder starts with a NUL, so no word is at its place. -/
theorem keepsWords_placeholder {token : Token} {s : Text} {found : Text × Text}
    (read : Shelf.placeholder? token s = some found) (t : Text) : KeepsWords s t := by
  intro word free starts
  cases word with
  | nil => exact List.nil_prefix
  | cons e word =>
    obtain ⟨more, rfl⟩ := starts
    rw [List.cons_append, placeholder?_cons (nulFree_cons.mp free).1] at read
    contradiction

/-- Entities are copied when placeholders are looked for, as they have no NUL. -/
theorem Shelf.Escaped.restore {page : Text} (held : shelf.Escaped c) (h : OnlyEntities c text)
    (restored : shelf.restore text = .ok page) : OnlyEntities c page := by
  let P : Text → Text → Prop := fun s t => KeepsWords s t ∧ (OnlyEntities c s → OnlyEntities c t)
  have rewritten : results.Related (shelf.restore text) (shelf.restore text) (P text) := by
    refine results.rewrite (P := P) (consumes_placeholder shelf.token) ⟨fun _ _ => id, id⟩
      (fun d rest result known => ?_) fun passed lexeme digits tail _ found => ?_
    · have copied := known.1.cons d
      refine ⟨copied, fun h => (known.2 (h.of_suffix (List.suffix_cons d rest))).cons ?_⟩
      rintro rfl
      obtain ⟨e, known, begins⟩ := h rest (List.suffix_refl _)
      exact ⟨e, known, copied _ (nulFree_entity known) begins⟩
    · refine ⟨rfl, fun front kept result known => ⟨keepsWords_placeholder found _, fun h => ?_⟩⟩
      exact (held.look kept).append (known.2 (h.of_suffix (List.suffix_append lexeme tail)))
  exact (rewritten.2 page restored).2 h

theorem Shelf.Escaped.keep (known : c ∈ reserved) (held : shelf.Escaped c) (h : OnlyEntities c text)
    {front : Text} {later : Shelf} (kept : shelf.keep text = .ok (front, later)) :
    Fits c front ∧ later.Escaped c := by
  cases text with
  | nil =>
    cases kept
    exact ⟨fits_nil, held⟩
  | cons d text =>
    obtain ⟨page, restored, same⟩ := bind_eq_ok_iff.mp kept
    cases same
    refine ⟨fits_placeholder known _ _, fun text member => ?_⟩
    rcases Array.mem_push.mp member with before | rfl
    · exact held text before
    · exact held.restore h restored

theorem fits_chooseBranch {place : Place} {b : Block} (bare : Bare c lexeme)
    (shape : BlockShape (opener ++ "#if".toList) place conditionCloser (some otherwise) b lexeme) :
    results.Related (Render.chooseBranch context b) (Render.chooseBranch context b) (Fits c) := by
  obtain ⟨body, other⟩ := shape.fits ("/if".toList ++ closer)
    (by simpa using ⟨"else".toList ++ closer, rfl⟩) bare
  refine results.bind (results_of_eq rfl) fun value _ => ?_
  apply results.pure
  split
  · exact body
  · cases found : b.otherwise? with
    | none => exact fits_nil
    | some text => exact other text found

theorem bare_chooseBranches (place : Place) (bare : Bare c text) :
    results.Related (Render.chooseBranches place context text)
      (Render.chooseBranches place context text) (Bare c) :=
  bare_rewrite results (reads_choice place) (consumes_choice place) bare
    fun _ _ bare shape => fits_chooseBranch bare shape

/-- No name is a helper's, so every call stays as it is. -/
theorem uncalled_callHelpers (Sound : Shelf → Prop) :
    (onShelf Sound).Related (Render.callHelpers .empty context text)
      (Render.callHelpers .empty context text) (· = text) := by
  refine (onShelf Sound).imp (P := fun result => text = result) ?_ fun _ => Eq.symm
  refine (onShelf Sound).rewrite (P := fun s t => s = t) consumes_call.atOpener rfl
    (fun d _ _ same => congrArg (d :: ·) same) fun passed lexeme call tail _ _ => ?_
  rw [callHelper_idle (.inr (by simp [Catalog.has, Catalog.get?, Catalog.empty, Ledger.get?]))]
  exact (onShelf Sound).pure fun result same => congrArg (lexeme ++ ·) same

section Stages

variable (known : c ∈ reserved)
include known

theorem escaped_showVariable {v : Variable} (escaped : v.raw = false) :
    results.Related (Render.showVariable context v) (Render.showVariable context v)
      (OnlyEntities c) := by
  refine results.bind (results_of_eq rfl) fun value _ => ?_
  refine results.bind (results_of_eq rfl) fun text _ => ?_
  apply results.pure
  rw [if_neg (by simp [escaped])]
  exact .escape known text

theorem escaped_fillVariables (place : Place) (bare : Bare c text) :
    results.Related (Render.fillVariables place context text)
      (Render.fillVariables place context text) (OnlyEntities c) := by
  refine results.imp (P := fun result => c ∉ text → OnlyEntities c result) ?_ fun _ h => h bare.lacks
  refine results.rewrite (P := fun s t => c ∉ s → OnlyEntities c t)
    (consumes_variable place).atOpener (fun lacks => .of_not_mem lacks)
    (fun d rest result h lacks => ?_) fun passed lexeme v tail split found => ?_
  · obtain ⟨ne, lacks⟩ := not_or.mp (mt List.mem_cons.mpr lacks)
    exact (h lacks).cons fun same => absurd same.symm ne
  · have shape := (reads_variable place).atOpener.shape found
    have escaped := shape.escaped (bare.part ⟨passed, tail, split.symm⟩)
    exact results.imp (escaped_showVariable known escaped) fun front here result h lacks =>
      here.append (h fun member => lacks (List.mem_append_right lexeme member))

theorem escaped_runRound (bare : Bare c text) :
    (onShelf (Shelf.Escaped c)).Related (Render.runRound .empty context text)
      (Render.runRound .empty context text) (OnlyEntities c) := by
  refine (onShelf _).bind (onShelf_lift (bare_chooseBranches .item bare)) fun chosen bare => ?_
  refine (onShelf _).bind (uncalled_callHelpers _) fun called same => ?_
  exact onShelf_lift (escaped_fillVariables known .item (same ▸ bare))

theorem escaped_runLoop {b : Block} (bare : Bare c b.body) :
    (onShelf (Shelf.Escaped c)).Related (Render.runLoop .empty context b)
      (Render.runLoop .empty context b) (OnlyEntities c) := by
  refine (onShelf _).bind (onShelf_lift (results_of_eq rfl)) fun value _ => ?_
  cases value with
  | sequence kind items =>
    refine (onShelf _).flatten_mapM (.of_not_mem List.not_mem_nil) (fun _ _ => .append)
      fun round _ => ?_
    refine (onShelf _).bind (onShelf_lift (results_of_eq rfl)) fun scope _ => ?_
    exact escaped_runRound known bare
  | _ => exact (onShelf _).pure (.of_not_mem List.not_mem_nil)

theorem bare_expandLoops (bare : Bare c text) :
    (onShelf (Shelf.Escaped c)).Related (Render.expandLoops .empty context text)
      (Render.expandLoops .empty context text) (Bare c) := by
  refine bare_rewrite (onShelf _) reads_loop consumes_loop bare fun lexeme b bare shape => ?_
  obtain ⟨body, -⟩ := shape.fits ("/each".toList ++ closer) (by simp) bare
  refine (onShelf _).bind (escaped_runLoop known body.toBare) fun page finished => ?_
  exact onShelf_setAside fun shelf held front later kept => held.keep known finished kept

theorem escaped_finish (held : shelf.Escaped c) (bare : Bare c text) :
    results.Related (Render.finish .empty context text shelf)
      (Render.finish .empty context text shelf) (OnlyEntities c) := by
  refine results.bind (bare_expandLoops known bare shelf held) fun looped h => ?_
  refine results.bind (bare_chooseBranches .page h.1) fun chosen bare => ?_
  refine results.bind (uncalled_callHelpers (Shelf.Escaped c) looped.2 h.2) fun called h => ?_
  refine results.bind (escaped_fillVariables known .page (h.1 ▸ bare)) fun filled finished => ?_
  exact ⟨rfl, fun page restored => h.2.restore finished restored⟩

end Stages

section Inclusion

variable {views : Views} {maxDepth : Int} {reader : Reader} {tokens : Tokens}
variable {inner : Text → Reading (List FilePath) Text}

theorem bare_expandInclusions (known : c ∈ reserved) (bare : Bare c text)
    (each : ∀ name, reads.Related (inner name) (inner name) (OnlyEntities c)) :
    (readsOnShelf (Shelf.Escaped c)).Related (Engine.expandInclusions inner text)
      (Engine.expandInclusions inner text) (Bare c) := by
  refine bare_rewrite (readsOnShelf _) reads_tag consumes_inclusion bare
    fun lexeme name bare shape => ?_
  refine (readsOnShelf _).bind (readsOnShelf_lift (each name)) fun page finished => ?_
  exact readsOnShelf_setAside fun shelf held front later kept => held.keep known finished kept

theorem escaped_assemble (known : c ∈ reserved) (bare : Bare c text)
    (each : ∀ name, reads.Related (inner name) (inner name) (OnlyEntities c)) :
    reads.Related (Engine.assemble ⟨views, .empty, maxDepth⟩ tokens context inner text)
      (Engine.assemble ⟨views, .empty, maxDepth⟩ tokens context inner text) (OnlyEntities c) := by
  intro earlier
  rw [Engine.run_assemble]
  refine reads.bind (bare_expandInclusions known bare each _ (escaped_empty _))
    (fun expanded h => ?_) earlier
  have finished : results.Related (Render.finish .empty context expanded.1 expanded.2) _
      (OnlyEntities c) := escaped_finish known h.2 h.1
  generalize Render.finish .empty context expanded.1 expanded.2 = result at finished
  cases result with
  | ok page => exact reads.pure (finished.2 page rfl)
  | error failure => exact reads_throw failure

theorem escaped_includeFile
    (files : ∀ earlier name content, reader earlier (views.inclusion name) = .ok content →
      Bare c content)
    (each : ∀ content, Bare c content →
      reads.Related (inner content) (inner content) (OnlyEntities c)) (name : Text) :
    reads.Related (Engine.includeFile ⟨views, .empty, maxDepth⟩ reader inner name)
      (Engine.includeFile ⟨views, .empty, maxDepth⟩ reader inner name) (OnlyEntities c) := by
  intro earlier
  rw [Engine.run_includeFile]
  cases read : reader earlier (views.inclusion name) with
  | ok content => exact each content (files _ _ _ read) _
  | error cause =>
    cases cause with
    | failed cause => exact reads_throw cause _
    | unreadable | undecodable => exact reads.pure (.of_not_mem List.not_mem_nil) _

theorem escaped_renderWithin (known : c ∈ reserved)
    (files : ∀ earlier name content, reader earlier (views.inclusion name) = .ok content →
      Bare c content) (depth : Nat) (bare : Bare c text) :
    reads.Related (Engine.renderWithin ⟨views, .empty, maxDepth⟩ reader tokens context depth text)
      (Engine.renderWithin ⟨views, .empty, maxDepth⟩ reader tokens context depth text)
      (OnlyEntities c) := by
  induction depth generalizing text with
  | zero => exact escaped_assemble known bare fun _ => reads.pure (.of_not_mem List.not_mem_nil)
  | succ depth ih => exact escaped_assemble known bare (escaped_includeFile files fun _ => ih)

end Inclusion

/-- Without helpers and raw tags, a reserved character that neither the template nor an included
file has is on the page only as an entity: four of the five nowhere, the ampersand only where an
entity begins. -/
theorem page_escaped (views : Views) (maxDepth : Int) (reader : Reader) (tokens : Tokens)
    (context : Value) (template : Text) (earlier : List FilePath) (page : Text)
    (rawless : ¬rawOpener <:+: template)
    (files : ∀ earlier name content, reader earlier (views.inclusion name) = .ok content →
      ¬rawOpener <:+: content)
    (rendered : ((Engine.render ⟨views, .empty, maxDepth⟩ reader tokens context template).outcome
      earlier).1 = .ok page) :
    (∀ c ∈ ['<', '>', '"', '\''], c ∉ template →
        (∀ earlier name content, reader earlier (views.inclusion name) = .ok content →
          c ∉ content) → c ∉ page) ∧
      ('&' ∉ template →
        (∀ earlier name content, reader earlier (views.inclusion name) = .ok content →
          '&' ∉ content) → OnlyEntities '&' page) := by
  have only : ∀ c ∈ reserved, c ∉ template →
      (∀ earlier name content, reader earlier (views.inclusion name) = .ok content →
        c ∉ content) → OnlyEntities c page := by
    intro c known lacks elsewhere
    have bare : ∀ earlier name content, reader earlier (views.inclusion name) = .ok content →
        Bare c content := fun earlier name content read =>
      ⟨elsewhere earlier name content read, files earlier name content read⟩
    exact (escaped_renderWithin known bare maxDepth.toNat ⟨lacks, rawless⟩ earlier).2 page rendered
  constructor
  · intro c four lacks elsewhere
    have known : c ∈ reserved := List.mem_cons_of_mem '&' four
    refine (only c known lacks elsewhere).not_mem ?_
    rintro rfl
    simp at four
  · exact only '&' (by decide)

/-- Values full of reserved characters. -/
def hostileContext : Value :=
  .mapping [(.text ['a'], .text "<i>&lt;\"".toList),
    (.text "xs".toList, .sequence .list [.text "'\"".toList])]

def hostileTemplate : Text :=
  Template.eachTag "xs".toList ++ Template.variableTag false "this".toList ++ eachCloser ++
    Template.inclusionTag ['p'] ++ Template.conditionTag ['a'] ++ opener ++ " a ".toList ++
    conditionCloser ++ closer

def hostilePage : Text :=
  "&#039;&quot;<&lt;i&gt;&amp;lt;&quot;>&lt;i&gt;&amp;lt;&quot;".toList

theorem page_escaped_sample :
    ¬rawOpener <:+: hostileTemplate ∧
      ((Engine.render ⟨sampleEngine.views, .empty, 32⟩ sampleReader Token.ofNat hostileContext
        hostileTemplate).outcome []).1 = .ok hostilePage ∧
      '"' ∉ hostilePage ∧ OnlyEntities '&' hostilePage := by
  have files : ∀ earlier name content,
      sampleReader earlier (sampleEngine.views.inclusion name) = .ok content →
        content = "<{{ a }}>".toList := by
    intro earlier name content read
    unfold sampleReader at read
    split at read <;> cases read
    rfl
  have rawless : ¬rawOpener <:+: hostileTemplate := by decide
  have rendered : ((Engine.render ⟨sampleEngine.views, .empty, 32⟩ sampleReader Token.ofNat
      hostileContext hostileTemplate).outcome []).1 = .ok hostilePage :=
    ok_of_toOption (by decide +kernel)
  have lacks : ∀ c ∉ "<{{ a }}>".toList, ∀ earlier name content,
      sampleReader earlier (sampleEngine.views.inclusion name) = .ok content → c ∉ content := by
    intro c lacks earlier name content read
    rwa [files earlier name content read]
  obtain ⟨others, ampersand⟩ := page_escaped sampleEngine.views 32 sampleReader Token.ofNat
    hostileContext hostileTemplate [] hostilePage rawless (by
      intro earlier name content read
      rw [files earlier name content read]
      decide) rendered
  exact ⟨rawless, rendered, others '"' (by decide) (by decide) (lacks '"' (by decide)),
    ampersand (by decide) (lacks '&' (by decide))⟩

end Stencil
