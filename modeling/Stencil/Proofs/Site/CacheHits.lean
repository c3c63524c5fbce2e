import Stencil.Proofs.Files.Normal
import Stencil.Proofs.Site.Loads

/-! When a kept text is as good as a file. The cache goes by normal paths, the files by
paths as they are written. While the files stay as they are, a site that has kept texts
gives the same pages as a new one, for all paths that can be read as they are written if
they can be read in their normal form. Only a path through a directory that is not there
tells the two apart. -/
namespace Stencil

variable {tree : FileTree} {path : FilePath} {session : Site.Session} {cache : Ledger Text}

/-- The path can be read as it is written if its normal form can. -/
def FileTree.ReadsAsWritten (tree : FileTree) (path : FilePath) : Prop :=
  ∀ content, tree.read path.normal = .ok content → ∃ content, tree.read path = .ok content

namespace Site

/-- Each text that is kept was read from the tree, under some path with its key. -/
def Faithful (tree : FileTree) (cache : Ledger Text) : Prop :=
  ∀ key content, cache.get? key = some content →
    ∃ path : FilePath, path.Proper ∧ cacheKey path = key ∧ tree.read path = .ok content

theorem Faithful.load (h : Faithful tree session.cache) (proper : path.Proper) :
    Faithful tree ((load tree.reader path).outcome session).2.cache := by
  rw [outcome_load]
  cases session.cache.get? (cacheKey path) with
  | some content => exact h
  | none =>
    cases read : tree.reader session.reads path with
    | error error => exact h
    | ok content =>
      intro key kept found
      rw [Ledger.get?_put] at found
      split at found
      next same =>
        cases found
        exact ⟨path, proper, same, read⟩
      next => exact h key kept found

/-- What is kept for a path is what its normal form reads. -/
theorem Faithful.read (h : Faithful tree cache) (proper : path.Proper) {content : Text}
    (kept : cache.get? (cacheKey path) = some content) : tree.read path.normal = .ok content := by
  obtain ⟨other, proper', same, read⟩ := h _ _ kept
  have normal : other.normal = path.normal :=
    FilePath.text_injective proper'.normal proper.normal same
  exact normal ▸ FileTree.read_normal read

/-- A load gives what the tree holds, whether it is kept or not. -/
theorem Faithful.result (h : Faithful tree session.cache) (proper : path.Proper)
    (written : tree.ReadsAsWritten path) :
    ((Site.load tree.reader path).outcome session).1 = (tree.read path).mapError (refusal path) := by
  rw [outcome_load]
  cases kept : session.cache.get? (cacheKey path) with
  | some content =>
    have normal := h.read proper kept
    obtain ⟨content', read⟩ := written content normal
    have same := FileTree.read_normal read
    rw [normal] at same
    cases same
    rw [read]
    rfl
  | none =>
    have asked : tree.reader session.reads path = tree.read path := rfl
    dsimp only
    rw [asked]
    cases tree.read path <;> rfl

def renderedFrom (s : Site) (tree : FileTree) (tokens : Tokens) (parameters : Value)
    (path : FilePath) : Except Failure Text := do
  let template ← (tree.read path).mapError (refusal path)
  ((s.engine.render tree.reader tokens parameters template).outcome []).1

def pageFrom (s : Site) (tree : FileTree) (tokens : Tokens) (view : Text) (parameters : Value)
    (layout? : Option Text) : Except Failure Text := do
  let layout ← s.renderedFrom tree (fun n => tokens (2 * n)) parameters
    (s.engine.views.layout (s.layoutName layout?))
  let content ← s.renderedFrom tree (fun n => tokens (2 * n + 1)) parameters
    (s.engine.views.view view)
  return Text.replaceFirst s.marker content layout

theorem Faithful.renderFile (s : Site) (h : Faithful tree session.cache) (tokens : Tokens)
    (parameters : Value) (proper : path.Proper) (written : tree.ReadsAsWritten path) :
    ((s.renderFile tree.reader tokens parameters path).outcome session).1 =
      s.renderedFrom tree tokens parameters path := by
  have loaded := h.result proper written
  unfold renderedFrom
  rw [outcome_renderFile, ← loaded]
  rcases (Site.load tree.reader path).outcome session with ⟨_ | template, later⟩ <;> rfl

theorem Faithful.page {s : Site} (h : Faithful tree session.cache)
    (proper : s.engine.views.directory.Proper) (tokens : Tokens) (view : Text) (parameters : Value)
    (layout? : Option Text)
    (layoutWritten : tree.ReadsAsWritten (s.engine.views.layout (s.layoutName layout?)))
    (viewWritten : tree.ReadsAsWritten (s.engine.views.view view)) :
    ((s.page tree.reader tokens view parameters layout?).outcome session).1 =
      s.pageFrom tree tokens view parameters layout? := by
  have layoutProper := Views.proper_layout proper (s.layoutName layout?)
  have first := h.renderFile s (fun n => tokens (2 * n)) parameters layoutProper layoutWritten
  have between := h.load layoutProper
  rw [← cache_renderFile s tree.reader (fun n => tokens (2 * n)) parameters] at between
  unfold pageFrom
  rw [outcome_page, ← first]
  generalize (s.renderFile tree.reader (fun n => tokens (2 * n)) parameters
    (s.engine.views.layout (s.layoutName layout?))).outcome session = rendered at between
  obtain ⟨_ | layout, later⟩ := rendered
  · rfl
  · have last := between.renderFile s (fun n => tokens (2 * n + 1)) parameters
      (Views.proper_view proper view) viewWritten
    dsimp only at last ⊢
    rw [← last, map_eq_pure_bind]
    rfl

/-- A site on a tree: its directory is a path, and what it keeps was read from the tree. -/
structure On (tree : FileTree) (s : Site) : Prop where
  proper : s.engine.views.directory.Proper
  faithful : Faithful tree s.cache

theorem On.next {s : Site} (h : s.On tree) (step : Step) (reads : step.reader = tree.reader) :
    (s.next step).On tree := by
  refine ⟨(performed s step).views ▸ h.proper, ?_⟩
  obtain ⟨reader, tokens, operation⟩ := step
  obtain rfl : reader = tree.reader := reads
  cases operation with
  | render view parameters layout? =>
    have start : Faithful tree (Session.mk s.cache []).cache := h.faithful
    have first := start.load (Views.proper_layout h.proper (s.layoutName layout?))
    rw [← cache_renderFile s tree.reader (fun n => tokens (2 * n)) parameters] at first
    change Faithful tree
      ((s.page tree.reader tokens view parameters layout?).outcome ⟨s.cache, []⟩).2.cache
    rw [cache_page]
    generalize (s.renderFile tree.reader (fun n => tokens (2 * n)) parameters
      (s.engine.views.layout (s.layoutName layout?))).outcome ⟨s.cache, []⟩ = rendered at first
    obtain ⟨_ | layout, between⟩ := rendered
    · exact first
    · exact first.load (Views.proper_view h.proper view)
  | _ =>
    rw [(performed s _).cache (by simp)]
    exact h.faithful

theorem On.after {s : Site} (h : s.On tree) (steps : List Step)
    (reads : ∀ step ∈ steps, step.reader = tree.reader) : (s.after steps).On tree := by
  induction steps generalizing s with
  | nil => exact h
  | cons step rest ih =>
    obtain ⟨here, later⟩ := List.forall_mem_cons.mp reads
    exact ih (h.next step here) later

def homeTree : FileTree :=
  [(["views".toList], .directory), (["views".toList, "layouts".toList], .directory),
    (["views".toList, "layouts".toList, "main.html".toList], .file "[@]".toUTF8),
    (["views".toList, "home.html".toList], .file "hi".toUTF8)]

def detourTree : FileTree := (["views".toList, ['x']], .directory) :: homeTree

/-- The site after a page with the view by its plain name. -/
def visit (tree : FileTree) : List Step :=
  [⟨tree.reader, Token.ofNat, .render "home".toList (.mapping []) none⟩]

end Site

end Stencil
