import Stencil.Proofs.Outcome
import Stencil.Site.Basic

/-! The loads of views and layouts over the life of a site. A load asks the reader only if
no load of the same normal path gave a text before it; the first text is kept and given ever
after. What fails changes neither the settings nor what is kept. -/
namespace Stencil.Site

/-- What a file that was asked for in vain makes of the page. -/
def refusal (path : FilePath) : ReadError → Failure
  | .failed cause => cause
  | _ => .fileMissing path.text

theorem outcome_load (reader : Reader) (path : FilePath) (session : Session) :
    (load reader path).outcome session =
      match session.cache.get? (cacheKey path) with
      | some content => (.ok content, session)
      | none =>
        match reader session.reads path with
        | .ok content =>
          (.ok content, ⟨session.cache.put (cacheKey path) content, session.reads ++ [path]⟩)
        | .error error =>
          (.error (refusal path error), ⟨session.cache, session.reads ++ [path]⟩) := by
  have start : (getThe Session : Reading Session Session).run session = (.ok session, session) :=
    rfl
  have asked : (onReads (Engine.request reader path)).run session =
      (.ok (reader session.reads path), ⟨session.cache, session.reads ++ [path]⟩) := rfl
  unfold load Reading.outcome
  rw [run_bind, start]
  dsimp only
  cases session.cache.get? (cacheKey path) with
  | some content => rfl
  | none =>
    dsimp only
    rw [run_bind, asked]
    cases reader session.reads path with
    | ok content => rfl
    | error error => cases error <;> rfl

/-- A load: what the reader answered, if it was asked, and what came of it. -/
structure Load where
  path : FilePath
  answer? : Option (Except ReadError Text)
  result : Except Failure Text

def Load.key (l : Load) : Text := cacheKey l.path

/-- The load of a path from a session on. That the reader was asked shows in the record. -/
def loadAt (reader : Reader) (path : FilePath) (session : Session) : Load :=
  let (result, later) := (load reader path).outcome session
  ⟨path, if later.reads = session.reads then none else some (reader session.reads path), result⟩

/-- The three ways of a load, each with what is kept after it. -/
inductive LoadStep (cache : Ledger Text) (path : FilePath) : Load → Ledger Text → Prop
  | kept {content : Text} : cache.get? (cacheKey path) = some content →
      LoadStep cache path ⟨path, none, .ok content⟩ cache
  | read {content : Text} : cache.get? (cacheKey path) = none →
      LoadStep cache path ⟨path, some (.ok content), .ok content⟩
        (cache.put (cacheKey path) content)
  | refused {error : ReadError} : cache.get? (cacheKey path) = none →
      LoadStep cache path ⟨path, some (.error error), .error (refusal path error)⟩ cache

theorem loadStep (reader : Reader) (path : FilePath) (session : Session) :
    LoadStep session.cache path (loadAt reader path session)
      ((load reader path).outcome session).2.cache := by
  unfold loadAt
  rw [outcome_load]
  cases known : session.cache.get? (cacheKey path) with
  | some content => simpa using .kept known
  | none =>
    cases reader session.reads path with
    | ok content => simpa using .read known
    | error error => simpa using .refused known

section Step

variable {path : FilePath} {cache later : Ledger Text} {l : Load} {key content : Text}

theorem get?_put_new {new : Text} {text : Text} (absent : cache.get? new = none) :
    (cache.put new text).get? key = some content ↔
      cache.get? key = some content ∨ (new = key ∧ text = content) := by
  rw [Ledger.get?_put]
  by_cases same : new = key
  · subst same
    simp [absent]
  · simp [same]

/-- A text is kept after a load if it was before, or if the load gave it. -/
theorem LoadStep.get?_iff (step : LoadStep cache path l later) :
    later.get? key = some content ↔
      cache.get? key = some content ∨ (l.key = key ∧ l.result = .ok content) := by
  cases step with
  | kept known =>
    constructor
    · exact .inl
    · rintro (before | ⟨rfl, same⟩)
      · exact before
      · cases same
        exact known
  | read new =>
    rw [get?_put_new new]
    simp [Load.key]
  | refused => simp

/-- What a load adds is what the reader answered. -/
theorem LoadStep.get?_of_answer (step : LoadStep cache path l later) :
    later.get? key = some content ↔
      cache.get? key = some content ∨ (l.key = key ∧ l.answer? = some (.ok content)) := by
  cases step with
  | kept => simp
  | read new =>
    rw [get?_put_new new]
    simp [Load.key]
  | refused => simp

/-- How a load goes by the loads before it: it asks the reader if none of the same key gave a text,
and else it gives that text. -/
structure Load.Follows (earlier : List Load) (l : Load) : Prop where
  asks : l.answer? ≠ none ↔
    ∀ other ∈ earlier, other.key = l.key → ∀ content, other.result ≠ .ok content
  gives : ∀ other ∈ earlier, other.key = l.key → ∀ content, other.result = .ok content →
    l.result = .ok content

/-- What is kept after some loads is what they gave, and what the reader answered to them. -/
structure Remembers (cache : Ledger Text) (loads : List Load) : Prop where
  given : ∀ key content, cache.get? key = some content ↔
    ∃ l ∈ loads, l.key = key ∧ l.result = .ok content
  answered : ∀ key content, cache.get? key = some content ↔
    ∃ l ∈ loads, l.key = key ∧ l.answer? = some (.ok content)
  ordered : ∀ earlier l later, loads = earlier ++ l :: later → l.Follows earlier

theorem remembers_nil : Remembers [] [] :=
  ⟨by simp [Ledger.get?], by simp [Ledger.get?], by simp⟩

theorem Remembers.follows {loads : List Load} (h : Remembers cache loads)
    (step : LoadStep cache path l later) : l.Follows loads := by
  have given := h.given (cacheKey path)
  cases step with
  | kept known =>
    obtain ⟨first, member, same, gave⟩ := (given _).mp known
    refine ⟨⟨nofun, fun none_gave => absurd gave (none_gave first member same _)⟩, ?_⟩
    intro other member' same' content gave'
    have other_kept := (given content).mpr ⟨other, member', same', gave'⟩
    rw [known] at other_kept
    cases other_kept
    rfl
  | read new | refused new =>
    have none_gave : ∀ other ∈ loads, other.key = cacheKey path → ∀ content,
        other.result ≠ .ok content := by
      intro other member same content gave
      have kept := (given content).mpr ⟨other, member, same, gave⟩
      rw [new] at kept
      contradiction
    exact ⟨⟨fun _ => none_gave, fun _ => by simp⟩, fun other member same content gave =>
      absurd gave (none_gave other member same content)⟩

theorem Remembers.load {loads : List Load} (h : Remembers cache loads)
    (step : LoadStep cache path l later) : Remembers later (loads ++ [l]) := by
  refine ⟨fun key content => ?_, fun key content => ?_, fun earlier x rest split => ?_⟩
  · rw [step.get?_iff, h.given]
    simp [or_and_right, exists_or]
  · rw [step.get?_of_answer, h.answered]
    simp [or_and_right, exists_or]
  · rcases List.eq_nil_or_concat rest with rfl | ⟨front, last, rfl⟩
    · obtain ⟨rfl, same⟩ := List.append_inj' split rfl
      cases same
      exact h.follows step
    · have shape : earlier ++ x :: (front ++ [last]) = (earlier ++ x :: front) ++ [last] := by simp
      rw [List.concat_eq_append, shape] at split
      exact h.ordered earlier x front (List.append_inj' split rfl).1

end Step

/-- An operation, the reader that is asked meanwhile and the tokens that are drawn. -/
structure Step where
  reader : Reader
  tokens : Tokens
  operation : Operation

def result (s : Site) (step : Step) : Except Failure (Option Text) :=
  (s.perform step.reader step.tokens step.operation).1

def next (s : Site) (step : Step) : Site :=
  (s.perform step.reader step.tokens step.operation).2.2

def after (s : Site) (steps : List Step) : Site := steps.foldl next s

/-- The loads of a page: that of the view follows if the layout gave no failure. -/
def pageLoads (s : Site) (reader : Reader) (tokens : Tokens) (view : Text) (parameters : Value)
    (layout? : Option Text) : List Load :=
  let path := s.engine.views.layout (s.layoutName layout?)
  let first := loadAt reader path ⟨s.cache, []⟩
  match (s.renderFile reader (fun n => tokens (2 * n)) parameters path).outcome ⟨s.cache, []⟩ with
  | (.ok _, between) => [first, loadAt reader (s.engine.views.view view) between]
  | (.error _, _) => [first]

def stepLoads (s : Site) (step : Step) : List Load :=
  match step.operation with
  | .render view parameters layout? => s.pageLoads step.reader step.tokens view parameters layout?
  | _ => []

def loads (s : Site) : List Step → List Load
  | [] => []
  | step :: rest => s.stepLoads step ++ (s.next step).loads rest

section Run

variable {s : Site}

/-- A file is loaded and then rendered, which changes nothing but the record of requests. -/
theorem outcome_renderFile (s : Site) (reader : Reader) (tokens : Tokens) (parameters : Value)
    (path : FilePath) (session : Session) :
    (s.renderFile reader tokens parameters path).outcome session =
      match (load reader path).outcome session with
      | (.ok template, later) =>
        let shown := (s.renderText reader tokens parameters template).outcome later.reads
        (shown.1, { later with reads := shown.2 })
      | (.error failure, later) => (.error failure, later) := by
  unfold renderFile Reading.outcome
  rw [run_bind]
  rcases (load reader path).run session with ⟨_ | template, later⟩ <;> rfl

/-- A page fails with its layout, or else with its view. -/
theorem outcome_page (s : Site) (reader : Reader) (tokens : Tokens) (view : Text)
    (parameters : Value) (layout? : Option Text) (session : Session) :
    (s.page reader tokens view parameters layout?).outcome session =
      match (s.renderFile reader (fun n => tokens (2 * n)) parameters
        (s.engine.views.layout (s.layoutName layout?))).outcome session with
      | (.ok layout, between) =>
        let shown := (s.renderFile reader (fun n => tokens (2 * n + 1)) parameters
          (s.engine.views.view view)).outcome between
        ((Text.replaceFirst s.marker · layout) <$> shown.1, shown.2)
      | (.error failure, later) => (.error failure, later) := by
  unfold page Reading.outcome
  rw [run_bind]
  rcases (s.renderFile reader (fun n => tokens (2 * n)) parameters
    (s.engine.views.layout (s.layoutName layout?))).run session with ⟨_ | layout, between⟩
  · rfl
  · dsimp only
    rw [run_bind]
    rcases (s.renderFile reader (fun n => tokens (2 * n + 1)) parameters
      (s.engine.views.view view)).run between with ⟨_ | content, later⟩ <;> rfl

/-- Nothing but the load of a file is kept from its render. -/
theorem cache_renderFile (s : Site) (reader : Reader) (tokens : Tokens) (parameters : Value)
    (path : FilePath) (session : Session) :
    ((s.renderFile reader tokens parameters path).outcome session).2.cache =
      ((load reader path).outcome session).2.cache := by
  rw [outcome_renderFile]
  rcases (load reader path).outcome session with ⟨_ | template, later⟩ <;> rfl

theorem cache_page (s : Site) (reader : Reader) (tokens : Tokens) (view : Text) (parameters : Value)
    (layout? : Option Text) (session : Session) :
    ((s.page reader tokens view parameters layout?).outcome session).2.cache =
      match (s.renderFile reader (fun n => tokens (2 * n)) parameters
        (s.engine.views.layout (s.layoutName layout?))).outcome session with
      | (.ok _, between) =>
        ((load reader (s.engine.views.view view)).outcome between).2.cache
      | (.error _, later) => later.cache := by
  rw [outcome_page]
  rcases (s.renderFile reader (fun n => tokens (2 * n)) parameters
    (s.engine.views.layout (s.layoutName layout?))).outcome session with ⟨_ | layout, between⟩
  · rfl
  · exact cache_renderFile s reader _ parameters _ between

/-- What operations do to a site: a page may change what is kept, the others one of the settings,
and what is refused changes nothing. -/
inductive Performed (s : Site) : Operation → Except Failure (Option Text) → Site → Prop
  | page {view : Text} {parameters : Value} {layout? : Option Text}
      {result : Except Failure (Option Text)} {cache : Ledger Text} :
      Performed s (.render view parameters layout?) result { s with cache }
  | refused {operation : Operation} {failure : Failure} : Performed s operation (.error failure) s
  | layout {name : Text} : name ≠ [] →
      Performed s (.useLayout name) (.ok none) { s with defaultLayout := name }
  | marker {marker : Text} : marker ≠ [] →
      Performed s (.useMarker marker) (.ok none) { s with marker }
  | helper {name : Text} {helper : Helper} :
      Performed s (.register name helper) (.ok none) (s.register name helper)

theorem performed (s : Site) (step : Step) :
    Performed s step.operation (s.result step) (s.next step) := by
  obtain ⟨reader, tokens, operation⟩ := step
  cases operation with
  | render view parameters layout? => exact .page
  | useLayout name =>
    change Performed s _ (s.settle (s.useLayout name)).1 (s.settle (s.useLayout name)).2.2
    unfold useLayout
    split
    next => exact .refused
    next named => exact .layout named
  | useMarker marker =>
    change Performed s _ (s.settle (s.useMarker marker)).1 (s.settle (s.useMarker marker)).2.2
    unfold useMarker
    split
    next => exact .refused
    next named => exact .marker named
  | register name helper => exact .helper

section Performed

variable {operation : Operation} {result : Except Failure (Option Text)} {next : Site}

theorem Performed.cache (h : Performed s operation result next)
    (setting : ∀ view parameters layout?, operation ≠ .render view parameters layout?) :
    next.cache = s.cache := by
  cases h with
  | page => exact absurd rfl (setting _ _ _)
  | _ => rfl

theorem Performed.views (h : Performed s operation result next) :
    next.engine.views = s.engine.views := by
  cases h <;> rfl

/-- A failed operation changes nothing but what is kept. -/
theorem Performed.failed {failure : Failure} (h : Performed s operation (.error failure) next) :
    next = { s with cache := next.cache } := by
  cases h <;> rfl

/-- The default layout and the marker have names. -/
def Named (s : Site) : Prop := s.defaultLayout ≠ [] ∧ s.marker ≠ []

theorem Performed.named (h : Performed s operation result next) (before : s.Named) :
    next.Named := by
  cases h with
  | page | refused | helper => exact before
  | layout named => exact ⟨named, before.2⟩
  | marker named => exact ⟨before.1, named⟩

end Performed

/-- What is kept after an operation follows from its loads. -/
theorem Remembers.next {before : List Load} (h : Remembers s.cache before) (step : Step) :
    Remembers (s.next step).cache (before ++ s.stepLoads step) := by
  obtain ⟨reader, tokens, operation⟩ := step
  cases operation with
  | render view parameters layout? =>
    have first := loadStep reader (s.engine.views.layout (s.layoutName layout?)) ⟨s.cache, []⟩
    rw [← cache_renderFile s reader (fun n => tokens (2 * n)) parameters] at first
    change Remembers ((s.page reader tokens view parameters layout?).outcome ⟨s.cache, []⟩).2.cache
      (before ++ s.pageLoads reader tokens view parameters layout?)
    rw [cache_page]
    dsimp only [pageLoads]
    generalize (s.renderFile reader (fun n => tokens (2 * n)) parameters
      (s.engine.views.layout (s.layoutName layout?))).outcome ⟨s.cache, []⟩ = rendered at first
    obtain ⟨_ | layout, between⟩ := rendered
    · exact h.load first
    · have both := (h.load first).load (loadStep reader (s.engine.views.view view) between)
      rwa [List.append_assoc] at both
  | _ => rwa [(performed s _).cache (by simp), stepLoads, List.append_nil]

theorem Remembers.after {before : List Load} (h : Remembers s.cache before) (steps : List Step) :
    Remembers (s.after steps).cache (before ++ s.loads steps) := by
  induction steps generalizing s before with
  | nil => rwa [loads, List.append_nil]
  | cons step rest ih =>
    have later := ih (h.next step)
    rwa [List.append_assoc] at later

theorem loads_append (s : Site) (front back : List Step) :
    s.loads (front ++ back) = s.loads front ++ (s.after front).loads back := by
  induction front generalizing s with
  | nil => rfl
  | cons step front ih => simp [loads, ih, after]

theorem Named.after (h : s.Named) (steps : List Step) : (s.after steps).Named := by
  induction steps generalizing s with
  | nil => exact h
  | cons step rest ih => exact ih ((performed s step).named h)

/-- A new site keeps nothing. -/
theorem create_eq_ok {engine : Engine} {layout marker : Text}
    (created : create engine layout marker = .ok s) :
    s = ⟨engine, layout, marker, []⟩ ∧ s.Named := by
  unfold create at created
  obtain ⟨named, first, second⟩ := bind_eq_ok_iff.mp created
  unfold useLayout at first
  split at first <;> cases first
  unfold useMarker at second
  split at second <;> cases second
  exact ⟨rfl, ‹_›, ‹_›⟩

end Run

/-- Over the life of a site a text that is kept stays; a load asks the reader only as long as none
of its key gave a text, and then gives the first one; only answers of the reader are kept; an
operation that fails keeps the settings; and the default layout and the marker stay named. -/
theorem life_of_site {engine : Engine} {layout marker : Text} {s : Site}
    (created : create engine layout marker = .ok s) (steps : List Step) :
    (∀ front back, steps = front ++ back → ∀ key content,
        (s.after front).cache.get? key = some content →
          (s.after steps).cache.get? key = some content) ∧
      (∀ earlier l later, s.loads steps = earlier ++ l :: later → l.Follows earlier) ∧
      (∀ key content, (s.after steps).cache.get? key = some content ↔
        ∃ l ∈ s.loads steps, l.key = key ∧ l.answer? = some (.ok content)) ∧
      (∀ step failure, (s.after steps).result step = .error failure →
        ∃ cache, (s.after steps).next step = { s.after steps with cache } ∧
          ∀ key content, cache.get? key = some content ↔
            (s.after steps).cache.get? key = some content ∨
              ∃ l ∈ (s.after steps).stepLoads step, l.key = key ∧
                l.answer? = some (.ok content)) ∧
      (s.after steps).Named := by
  obtain ⟨rfl, named⟩ := create_eq_ok created
  have start : Remembers (Site.cache ⟨engine, layout, marker, []⟩) [] := remembers_nil
  have kept := start.after
  refine ⟨?_, (kept steps).ordered, (kept steps).answered, ?_, named.after steps⟩
  · rintro front back rfl key content before
    rw [(kept _).given, loads_append]
    obtain ⟨l, member, gave⟩ := ((kept front).given key content).mp before
    exact ⟨l, by simp_all, gave⟩
  · intro step failure failed
    refine ⟨_, (failed ▸ performed _ step).failed, fun key content => ?_⟩
    rw [((kept steps).next step).answered, (kept steps).answered]
    simp [or_and_right, exists_or]

def sampleSite : Site := ⟨⟨⟨.ofText "/views".toList⟩, .empty, 1⟩, "main".toList, ['@'], []⟩

def sampleSteps : List Step :=
  [.error .unreadable, .ok "[@]".toList, .ok "(@)".toList].map fun answer =>
    ⟨fun _ _ => answer, Token.ofNat, .render "home".toList (.mapping []) none⟩

theorem life_of_site_sample :
    create sampleSite.engine "main".toList ['@'] = .ok sampleSite ∧
      (sampleSite.loads sampleSteps).map (·.answer?.isSome) = [true, true, true, false, false] ∧
      (∀ earlier l later, sampleSite.loads sampleSteps = earlier ++ l :: later →
        l.Follows earlier) ∧
      (sampleSite.after sampleSteps).Named :=
  have created : create sampleSite.engine "main".toList ['@'] = .ok sampleSite := rfl
  have life := life_of_site created sampleSteps
  ⟨created, by decide, life.2.1, life.2.2.2.2⟩

end Stencil.Site
