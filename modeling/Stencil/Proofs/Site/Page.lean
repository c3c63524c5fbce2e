import Stencil.Proofs.Render.Plain
import Stencil.Proofs.Site.CacheHits

/-! How a page is put together. The view takes the place of the first marker in the rendered
layout: that of the layout's file, unless the values before it bring in one that begins
earlier. If layout or view gives no text, the page fails at the first of the two, and the
site is left as it was then; the failure is that the file is missing, except for a path with
a NUL. -/
namespace Stencil

namespace Site

/-- A text as a layout: what it shows by itself, with the tokens of a page's layout. -/
def shownAlone (s : Site) (reader : Reader) (tokens : Tokens) (parameters : Value) (text : Text) :
    Except Failure Text :=
  ((s.engine.render reader (fun n => tokens (2 * n)) parameters text).outcome []).1

/-- What a page's view shows, after the load of its layout. -/
def viewShown (s : Site) (reader : Reader) (tokens : Tokens) (view : Text) (parameters : Value)
    (layout? : Option Text) : Except Failure Text :=
  let between := ((load reader (s.engine.views.layout (s.layoutName layout?))).outcome
    ⟨s.cache, []⟩).2
  ((s.renderFile reader (fun n => tokens (2 * n + 1)) parameters
    (s.engine.views.view view)).outcome between).1

/-- The text of a page's layout. -/
def layoutText (s : Site) (reader : Reader) (layout? : Option Text) : Except Failure Text :=
  ((load reader (s.engine.views.layout (s.layoutName layout?))).outcome ⟨s.cache, []⟩).1

variable {s : Site} {reader : Reader} {tokens : Tokens} {parameters : Value}

/-- A plain layout asks for no file, and shows what it shows by itself. -/
theorem renderText_plain {text : Text} (plain : Markup.Plain text) (earlier : List FilePath) :
    (s.renderText reader (fun n => tokens (2 * n)) parameters text).outcome earlier =
      (s.shownAlone reader tokens parameters text, earlier) := by
  let later : Reader := fun asked path => reader (earlier ++ asked) path
  let shown := (s.engine.render later (fun n => tokens (2 * n)) parameters text).outcome []
  change (shown.1, earlier ++ shown.2) = _
  rw [show shown = _ from plain.render [], shownAlone, plain.render, List.append_nil]

/-- The page of a layout that is plain around its marker. What the view shows takes the place of the
first marker. That is the place between what the two parts show, whatever the view and the values of
the second part are, if no marker begins in what the first part shows, and for all views only then.
Where the first part has no tag, it shows itself. -/
theorem page_of_plain_layout (s : Site) (reader : Reader) (tokens : Tokens) (view : Text)
    (parameters : Value) (layout? : Option Text) (before after page : Text)
    (first : Markup.Plain before) (last : Markup.Plain after) (braceless : '{' ∉ s.marker)
    (layout : s.layoutText reader layout? = .ok (before ++ s.marker ++ after))
    (rendered : (s.render reader tokens view parameters layout?).1 = .ok page) :
    ∃ front content back, s.shownAlone reader tokens parameters before = .ok front ∧
      s.viewShown reader tokens view parameters layout? = .ok content ∧
      s.shownAlone reader tokens parameters after = .ok back ∧
      page = Text.replaceFirst s.marker content (front ++ s.marker ++ back) ∧
      (¬s.marker.BeginsIn front → page = front ++ content ++ back) ∧
      ((∀ other, Text.replaceFirst s.marker other (front ++ s.marker ++ back) =
        front ++ other ++ back) ↔ ¬s.marker.BeginsIn front) ∧
      ('{' ∉ before → front = before) := by
  have whole := (first.append (Markup.plain_of_braceless braceless)).append last
  let path := s.engine.views.layout (s.layoutName layout?)
  let between := ((load reader path).outcome ⟨s.cache, []⟩).2
  have opened : (load reader path).outcome ⟨s.cache, []⟩ =
      (.ok (before ++ s.marker ++ after), between) := Prod.ext layout rfl
  have shown : (s.renderFile reader (fun n => tokens (2 * n)) parameters path).outcome
      ⟨s.cache, []⟩ =
        (s.shownAlone reader tokens parameters (before ++ s.marker ++ after), between) := by
    rw [outcome_renderFile, opened]
    dsimp only
    rw [renderText_plain whole]
  have result : ((s.page reader tokens view parameters layout?).outcome ⟨s.cache, []⟩).1 =
      .ok page := rendered
  rw [outcome_page, shown] at result
  cases alone : s.shownAlone reader tokens parameters (before ++ s.marker ++ after) with
  | error failure =>
    rw [alone] at result
    contradiction
  | ok text =>
    rw [alone] at result
    obtain ⟨content, viewed, same⟩ := map_eq_ok_iff.mp result
    obtain ⟨front, back, here, there, rfl⟩ := render_around first last braceless alone
    exact ⟨front, content, back, here, viewed, there, same.symm,
      fun clear => same.symm.trans (Text.replaceFirst_around clear content back),
      Text.replaceFirst_around_iff, fun literal => render_literal literal here⟩

def markedReader (layout view : Text) : Reader := fun _ path =>
  if path = sampleSite.engine.views.layout "main".toList then .ok layout
  else if path = sampleSite.engine.views.view "home".toList then .ok view
  else .error .unreadable

def markedParameters : Value := .mapping [(.text ['x'], .text ['@'])]

theorem plain_marked : Markup.Plain "{{ x }}".toList :=
  Markup.plain_variableTag false (List.cons_ne_nil 'x' []) (List.forall_mem_singleton.mpr rfl)

theorem page_of_plain_layout_sample :
    let reader := markedReader "[@]{{ x }}".toList "{{{ x }}}!".toList
    let page := "[@!]@".toList
    (sampleSite.render reader Token.ofNat "home".toList markedParameters none).1 = .ok page ∧
      ∃ content back,
        sampleSite.viewShown reader Token.ofNat "home".toList markedParameters none = .ok content ∧
        sampleSite.shownAlone reader Token.ofNat markedParameters "]{{ x }}".toList = .ok back ∧
        page = ['['] ++ content ++ back := by
  intro reader page
  have rendered : (sampleSite.render reader Token.ofNat "home".toList markedParameters none).1 =
      .ok page := ok_of_toOption rfl
  have before : Markup.Plain ['['] := .letter (by decide) .nil
  have after : Markup.Plain "]{{ x }}".toList := .letter (by decide) plain_marked
  obtain ⟨front, content, back, -, viewed, there, -, placed, -, literal⟩ :=
    page_of_plain_layout sampleSite reader Token.ofNat "home".toList markedParameters none ['[']
      "]{{ x }}".toList page before after (by decide) rfl rendered
  obtain rfl := literal (by decide)
  refine ⟨rendered, content, back, viewed, there, placed ?_⟩
  rintro ⟨part, full, inside, begins⟩
  rcases List.suffix_cons_iff.mp inside with rfl | empty
  · exact absurd begins (by decide)
  · exact full (List.suffix_nil.mp empty)

theorem view_moved_by_value :
    let reader := markedReader "{{ x }}[@]".toList "hi".toList
    let shown := sampleSite.shownAlone reader Token.ofNat markedParameters
    let page := (sampleSite.render reader Token.ofNat "home".toList markedParameters none).1
    Markup.Plain "{{ x }}[".toList ∧ Markup.Plain "]".toList ∧
      sampleSite.layoutText reader none =
        .ok ("{{ x }}[".toList ++ sampleSite.marker ++ "]".toList) ∧
      sampleSite.marker = ['@'] ∧ "{{ x }}[@]".toList.count '@' = 1 ∧
      shown "{{ x }}[".toList = .ok "@[".toList ∧ shown "]".toList = .ok "]".toList ∧
      sampleSite.viewShown reader Token.ofNat "home".toList markedParameters none =
        .ok "hi".toList ∧
      page = .ok "hi[@]".toList ∧
      page ≠ .ok ("@[".toList ++ "hi".toList ++ "]".toList) := by
  intro reader shown page
  have moved : page = .ok "hi[@]".toList := ok_of_toOption (by decide)
  have before : Markup.Plain "{{ x }}[".toList :=
    plain_marked.append (.letter (by decide) .nil)
  refine ⟨before, .letter (by decide) .nil, rfl, rfl, by decide, ok_of_toOption (by decide),
    ok_of_toOption (by decide), ok_of_toOption (by decide), moved, ?_⟩
  rw [moved]
  exact fun same => absurd (Except.ok.inj same) (by decide)

end Site

open Text

theorem FilePath.nulFree_text_iff (path : FilePath) :
    NulFree path.text ↔ ∀ name ∈ path.names, NulFree name := by
  cases shape : path.names with
  | nil =>
    obtain ⟨root, names⟩ := path
    obtain rfl : names = [] := shape
    cases root <;> simp [FilePath.text, Root.text]
  | cons first rest =>
    have root : NulFree path.root.text := by cases path.root <;> simp [Root.text]
    rw [← shape, text_of_ne_nil (by simp [shape]), nulFree_append]
    constructor
    · rintro ⟨-, free⟩ name member
      have inside := FileTree.intercalate_sublist (List.singleton_sublist.mpr member) ['/']
      rw [List.intercalate_singleton] at inside
      exact free.of_subset fun c found => inside.mem found
    · exact fun free => ⟨root, nulFree_intercalate ['/'] (by simp) free⟩

/-- Looking for a file in a tree goes wrong itself for a NUL in the path, and for nothing else. -/
theorem FileTree.read_failed_iff {tree : FileTree} {path : FilePath} {cause : Failure} :
    tree.read path = .error (.failed cause) ↔ cause = .nulInPath ∧ ¬ NulFree path.text := by
  rw [path.nulFree_text_iff]
  unfold FileTree.read
  split
  next nul =>
    have found : ¬ ∀ name ∈ path.names, NulFree name := by
      obtain ⟨name, member, held⟩ := List.any_eq_true.mp nul
      exact fun free => free name member (List.contains_iff_mem.mp held)
    simp [found, eq_comm]
  next free =>
    have free : ∀ name ∈ path.names, NulFree name := by simpa [NulFree] using free
    refine ⟨fun failed => ?_, fun h => absurd free h.2⟩
    split at failed
    · cases failed
    · split at failed
      · unfold decode at failed
        split at failed <;> cases failed
      · cases failed

namespace Site

section Refused

variable {s : Site} {reader : Reader} {tokens : Tokens} {parameters : Value}
variable {session between later : Session} {failure : Failure}

theorem exists_error_of_lost {tree : FileTree} {path : FilePath}
    (lost : ∀ content, tree.read path ≠ .ok content) : ∃ error, tree.read path = .error error := by
  cases read : tree.read path with
  | ok content => exact absurd read (lost content)
  | error error => exact ⟨error, rfl⟩

/-- A file that gives no text is refused as missing, unless there is a NUL in its path. -/
theorem refusal_eq_missing_iff {tree : FileTree} {path : FilePath} {error : ReadError}
    (lost : tree.read path = .error error) :
    refusal path error = .fileMissing path.text ↔ NulFree path.text := by
  cases error with
  | failed cause =>
    obtain ⟨rfl, nul⟩ := FileTree.read_failed_iff.mp lost
    exact ⟨nofun, fun free => absurd free nul⟩
  | unreadable | undecodable =>
    refine ⟨fun _ => ?_, fun _ => rfl⟩
    by_contra nul
    have failed : tree.read path = .error (.failed .nulInPath) :=
      FileTree.read_failed_iff.mpr ⟨rfl, nul⟩
    rw [lost] at failed
    cases failed

theorem outcome_renderFile_refused {path : FilePath} {error : ReadError}
    (absent : session.cache.get? (cacheKey path) = none)
    (lost : reader session.reads path = .error error) :
    (s.renderFile reader tokens parameters path).outcome session =
      (.error (refusal path error), ⟨session.cache, session.reads ++ [path]⟩) := by
  rw [outcome_renderFile, outcome_load, absent, lost]

theorem outcome_page_of_layout {view : Text} {layout? : Option Text}
    (failed : (s.renderFile reader (fun n => tokens (2 * n)) parameters
      (s.engine.views.layout (s.layoutName layout?))).outcome session = (.error failure, later)) :
    (s.page reader tokens view parameters layout?).outcome session = (.error failure, later) := by
  rw [outcome_page, failed]

theorem outcome_page_of_view {view shown : Text} {layout? : Option Text}
    (layout : (s.renderFile reader (fun n => tokens (2 * n)) parameters
      (s.engine.views.layout (s.layoutName layout?))).outcome session = (.ok shown, between))
    (failed : (s.renderFile reader (fun n => tokens (2 * n + 1)) parameters
      (s.engine.views.view view)).outcome between = (.error failure, later)) :
    (s.page reader tokens view parameters layout?).outcome session = (.error failure, later) := by
  rw [outcome_page, layout]
  dsimp only
  rw [failed]
  rfl

theorem render_of_page {view : Text} {layout? : Option Text} {result : Except Failure Text}
    (ended : (s.page reader tokens view parameters layout?).outcome ⟨s.cache, []⟩ =
      (result, later)) :
    s.render reader tokens view parameters layout? =
      (result, later.reads, { s with cache := later.cache }) := by
  unfold render
  rw [ended]

end Refused

/-- A layout that is not kept and cannot be read ends the page, whatever the view; so does the view
after a layout that was rendered. The last request is for that file, nothing is kept for it, and
the failure is that it is missing if there is no NUL in its path, and only then. -/
theorem unreadable_is_missing (s : Site) (tree : FileTree) (tokens : Tokens) (view : Text)
    (parameters : Value) (layout? : Option Text) :
    let layoutPath := s.engine.views.layout (s.layoutName layout?)
    let viewPath := s.engine.views.view view
    let answer := s.render tree.reader tokens view parameters layout?
    (s.cache.get? (cacheKey layoutPath) = none →
        (∀ content, tree.read layoutPath ≠ .ok content) →
        answer.2 = ([layoutPath], s) ∧
          (answer.1 = .error (.fileMissing layoutPath.text) ↔ NulFree layoutPath.text)) ∧
      ∀ shown between,
        (s.renderFile tree.reader (fun n => tokens (2 * n)) parameters layoutPath).outcome
          ⟨s.cache, []⟩ = (.ok shown, between) →
        between.cache.get? (cacheKey viewPath) = none →
        (∀ content, tree.read viewPath ≠ .ok content) →
        answer.2 = (between.reads ++ [viewPath], { s with cache := between.cache }) ∧
          (answer.1 = .error (.fileMissing viewPath.text) ↔ NulFree viewPath.text) := by
  intro layoutPath viewPath answer
  constructor
  · intro absent lost
    obtain ⟨error, read⟩ := exists_error_of_lost lost
    have ended : answer = (.error (refusal layoutPath error), [layoutPath], s) :=
      render_of_page (outcome_page_of_layout (outcome_renderFile_refused absent read))
    rw [ended, Except.error.injEq]
    exact ⟨rfl, refusal_eq_missing_iff read⟩
  · intro shown between layout absent lost
    obtain ⟨error, read⟩ := exists_error_of_lost lost
    have ended : answer = (.error (refusal viewPath error), between.reads ++ [viewPath],
        { s with cache := between.cache }) :=
      render_of_page (outcome_page_of_view layout (outcome_renderFile_refused absent read))
    rw [ended, Except.error.injEq]
    exact ⟨rfl, refusal_eq_missing_iff read⟩

/-- A layout that is not there, a view that is not there, and one with a NUL in its name. -/
theorem unreadable_is_missing_sample :
    (sampleSite.render (FileTree.reader []) Token.ofNat "home".toList (.mapping []) none).1 =
        .error (.fileMissing "/views/layouts/main.html".toList) ∧
      (sampleSite.render homeTree.reader Token.ofNat "away".toList (.mapping []) none).1 =
        .error (.fileMissing "/views/away.html".toList) := by
  have layout := (unreadable_is_missing sampleSite [] Token.ofNat "home".toList (.mapping []) none).1
    rfl (fun content => nofun)
  have view := (unreadable_is_missing sampleSite homeTree Token.ofNat "away".toList (.mapping [])
    none).2 "[@]".toList _ rfl rfl (fun content => nofun)
  exact ⟨layout.2.mpr (by decide), view.2.mpr (by decide)⟩

theorem nul_in_name_fails_otherwise :
    let path := sampleSite.engine.views.view "a\x00b".toList
    let answer :=
      sampleSite.render homeTree.reader Token.ofNat "a\x00b".toList (.mapping []) none
    answer.2.1 = [sampleSite.engine.views.layout "main".toList, path] ∧
      answer.1 = .error .nulInPath ∧ answer.1 ≠ .error (.fileMissing path.text) :=
  ⟨rfl, rfl, nofun⟩

end Site

end Stencil
