import Mathlib.Algebra.Ring.GeomSum
import Stencil.Proofs.Render.Expansion

/-! How deep a render follows inclusions, whatever the reader answers: no file is asked for
below the bound, which limits the number of requests, and a bound that no chain of
inclusions reaches cannot be told from a larger one. -/
namespace Stencil

open Markup

section Answered

variable {reader : Reader} {earlier front now : List FilePath} {path : FilePath} {text : Text}

/-- The reader answered one of the requests, made after the earlier ones, with this text. -/
def Answered (reader : Reader) (earlier now : List FilePath) (text : Text) : Prop :=
  ∃ before path, before ++ [path] <+: now ∧ reader (earlier ++ before) path = .ok text

theorem answered_first (read : reader earlier path = .ok text) :
    Answered reader earlier (path :: now) text :=
  ⟨[], path, by simp, by rwa [List.append_nil]⟩

theorem Answered.before (h : Answered reader earlier front text) (now : List FilePath) :
    Answered reader earlier (front ++ now) text := by
  obtain ⟨before, path, begins, read⟩ := h
  exact ⟨before, path, begins.trans (List.prefix_append _ _), read⟩

theorem Answered.after (h : Answered reader (earlier ++ front) now text) :
    Answered reader earlier (front ++ now) text := by
  obtain ⟨before, path, begins, read⟩ := h
  refine ⟨front ++ before, path, ?_, ?_⟩
  · rw [List.append_assoc]
    exact (List.prefix_append_right_inj front).mpr begins
  · rwa [← List.append_assoc]

theorem Answered.next (h : Answered reader (earlier ++ [path]) now text) :
    Answered reader earlier (path :: now) text := h.after

end Answered

section Prefix

variable {e : Engine} {reader : Reader} {earlier : List FilePath} {name : Text}
variable {names : List Text} {now : List Request}

theorem prefix_inTurn {ask : List FilePath → Text → List Request}
    (begins : now <+: inTurn ask earlier (name :: names)) :
    now <+: ask earlier name ∨ ∃ more, now = ask earlier name ++ more ∧
      more <+: inTurn ask (earlier ++ (ask earlier name).map (·.path)) names := by
  obtain ⟨rest, split⟩ := begins
  rcases List.append_eq_append_iff.mp split with ⟨left, same, -⟩ | ⟨more, same, tail⟩
  · exact .inl ⟨left, same.symm⟩
  · exact .inr ⟨more, same, rest, tail.symm⟩

theorem prefix_requestsFor {inner : List FilePath → Text → List Request}
    (begins : now <+: e.requestsFor reader inner earlier name) :
    now = [] ∨ ∃ nested, now = ⟨e.views.inclusion name, []⟩ ::
        nested.map (Request.within (e.views.inclusion name)) ∧
      (nested = [] ∨ ∃ content, reader earlier (e.views.inclusion name) = .ok content ∧
        nested <+: inner (earlier ++ [e.views.inclusion name]) content) := by
  cases answer : reader earlier (e.views.inclusion name) with
  | ok content =>
    rw [Engine.requestsFor_ok answer] at begins
    rcases List.prefix_cons_iff.mp begins with empty | ⟨rest, rfl, inside⟩
    · exact .inl empty
    · obtain ⟨nested, begins', rfl⟩ := List.prefix_map_iff.mp inside
      exact .inr ⟨nested, rfl, .inr ⟨content, rfl, begins'⟩⟩
  | error error =>
    rw [Engine.requestsFor_error answer] at begins
    rcases List.prefix_cons_iff.mp begins with empty | ⟨rest, rfl, inside⟩
    · exact .inl empty
    · obtain rfl := List.prefix_nil.mp inside
      exact .inr ⟨[], rfl, .inl rfl⟩

/-- What holds where nothing is asked for, and is kept by one more file with all that its text has
asked for, holds of the requests made up to any point. -/
theorem Engine.requests_induction (e : Engine) (reader : Reader)
    {Q : Nat → List FilePath → List Text → List Request → Prop}
    (stop : ∀ depth earlier names, Q depth earlier names [])
    (step : ∀ depth earlier name names nested more, let path := e.views.inclusion name
      (nested = [] ∨ ∃ content, reader earlier path = .ok content ∧
        Q depth (earlier ++ [path]) (includedNames content) nested) →
      Q (depth + 1) (earlier ++ path :: nested.map (·.path)) names more →
      Q (depth + 1) earlier (name :: names)
        (⟨path, []⟩ :: nested.map (Request.within path) ++ more))
    {depth : Nat} {text : Text} (begins : now <+: e.requestsWithin reader depth earlier text) :
    Q depth earlier (includedNames text) now := by
  induction depth generalizing earlier text now with
  | zero =>
    obtain rfl := List.prefix_nil.mp begins
    exact stop 0 earlier _
  | succ depth ih =>
    rw [Engine.requestsWithin] at begins
    generalize includedNames text = names at begins ⊢
    induction names generalizing earlier now with
    | nil =>
      obtain rfl := List.prefix_nil.mp begins
      exact stop _ earlier []
    | cons name names more_ih =>
      have file : ∀ {nested : List Request}, (nested = [] ∨ ∃ content,
          reader earlier (e.views.inclusion name) = .ok content ∧
            nested <+:
              e.requestsWithin reader depth (earlier ++ [e.views.inclusion name]) content) →
          nested = [] ∨ ∃ content, reader earlier (e.views.inclusion name) = .ok content ∧
            Q depth (earlier ++ [e.views.inclusion name]) (includedNames content) nested :=
        fun inside => inside.imp_right fun ⟨content, read, begins⟩ => ⟨content, read, ih begins⟩
      rcases prefix_inTurn begins with first | ⟨more, rfl, later⟩
      · rcases prefix_requestsFor first with rfl | ⟨nested, rfl, inside⟩
        · exact stop _ earlier _
        · have whole := step depth earlier name names nested [] (file inside) (stop _ _ names)
          rwa [List.append_nil] at whole
      · rcases prefix_requestsFor List.prefix_rfl with empty | ⟨nested, whole, inside⟩
        · simp [Engine.requestsFor] at empty
        · rw [whole] at later ⊢
          have rest := more_ih later
          rw [List.map_cons, map_path_within] at rest
          exact step depth earlier name names nested more (file inside) rest

/-- A request has fewer files around it than there are levels to follow. -/
theorem around_lt {depth : Nat} {text : Text}
    (begins : now <+: e.requestsWithin reader depth earlier text) :
    ∀ r ∈ now, r.around.length < depth := by
  refine e.requests_induction reader
    (Q := fun depth _ _ now => ∀ r ∈ now, r.around.length < depth) ?_ ?_ begins
  · intro depth earlier names r member
    contradiction
  · intro depth earlier name names nested more path inside rest r member
    rcases List.mem_cons.mp member with rfl | member
    · simp
    · rcases List.mem_append.mp member with here | later
      · obtain ⟨inner, nestled, rfl⟩ := List.mem_map.mp here
        rcases inside with rfl | ⟨content, -, below⟩
        · contradiction
        · have := below inner nestled
          simp [Request.within]
          omega
      · exact rest r later

/-- Every request is for an inclusion in the text itself or in one of the texts that were read. -/
theorem request_origin {depth : Nat} {text : Text}
    (begins : now <+: e.requestsWithin reader depth earlier text) :
    ∀ r ∈ now, ∃ source name, (source = text ∨ Answered reader earlier (now.map (·.path)) source) ∧
      name ∈ includedNames source ∧ r.path = e.views.inclusion name := by
  have origin := e.requests_induction reader
    (Q := fun _ earlier names now => ∀ r ∈ now, ∃ name, r.path = e.views.inclusion name ∧
      (name ∈ names ∨ ∃ source, Answered reader earlier (now.map (·.path)) source ∧
        name ∈ includedNames source)) ?_ ?_ begins
  · intro r member
    obtain ⟨name, path, own | ⟨source, read, included⟩⟩ := origin r member
    · exact ⟨text, name, .inl rfl, own, path⟩
    · exact ⟨source, name, .inr read, included, path⟩
  · intro depth earlier names r member
    contradiction
  · intro depth earlier name names nested more path inside rest r member
    rw [List.map_append, List.map_cons, map_path_within]
    rcases List.mem_cons.mp member with rfl | member
    · exact ⟨name, rfl, .inl List.mem_cons_self⟩
    · rcases List.mem_append.mp member with here | later
      · obtain ⟨inner, nestled, rfl⟩ := List.mem_map.mp here
        rcases inside with rfl | ⟨content, read, below⟩
        · contradiction
        · obtain ⟨name', same, own | ⟨source, answered, included⟩⟩ := below inner nestled
          · exact ⟨name', same, .inr ⟨content, answered_first read, own⟩⟩
          · refine ⟨name', same, .inr ⟨source, ?_, included⟩⟩
            exact answered.next.before _
      · obtain ⟨name', same, own | ⟨source, answered, included⟩⟩ := rest r later
        · exact ⟨name', same, .inl (List.mem_cons_of_mem name own)⟩
        · exact ⟨name', same, .inr ⟨source, answered.after, included⟩⟩

/-- With `k` inclusions at most in every text that is read, a name costs one request and those of
`k` names one level down. -/
theorem length_requests_le {depth k : Nat} {text : Text}
    (begins : now <+: e.requestsWithin reader depth earlier text)
    (few : ∀ source, Answered reader earlier (now.map (·.path)) source →
      (includedNames source).length ≤ k) :
    now.length ≤ (includedNames text).length * ∑ i ∈ Finset.range depth, k ^ i := by
  refine e.requests_induction reader
    (Q := fun depth earlier names now =>
      (∀ source, Answered reader earlier (now.map (·.path)) source →
        (includedNames source).length ≤ k) →
      now.length ≤ names.length * ∑ i ∈ Finset.range depth, k ^ i) ?_ ?_ begins few
  · intro depth earlier names _
    exact Nat.zero_le _
  · intro depth earlier name names nested more path inside rest few
    rw [List.map_append, List.map_cons, map_path_within] at few
    have later := rest fun source answered => few source answered.after
    have first : nested.length ≤ k * ∑ i ∈ Finset.range depth, k ^ i := by
      rcases inside with rfl | ⟨content, read, below⟩
      · exact Nat.zero_le _
      · have own := few content (answered_first read)
        have deeper := below fun source answered =>
          few source (answered.next.before _)
        exact deeper.trans (Nat.mul_le_mul_right _ own)
    rw [geom_sum_succ] at later ⊢
    rw [List.length_append, List.length_cons, List.length_map, List.length_cons, Nat.succ_mul]
    omega

end Prefix

/-- A text leads through so many inclusions, each but the first in a text that the reader may answer
to the one before. -/
inductive Leads (v : Views) (reader : Reader) : Text → Nat → Prop
  | file {text name : Text} : name ∈ includedNames text → Leads v reader text 1
  | through {text name content : Text} {earlier : List FilePath} {n : Nat} :
      name ∈ includedNames text → reader earlier (v.inclusion name) = .ok content →
      Leads v reader content n → Leads v reader text (n + 1)

section Shallow

variable {e : Engine} {reader : Reader} {tokens : Tokens} {context : Value} {text : Text}

/-- Only the names in its tags count for the render of a text. -/
theorem assemble_congr {inner inner' : Text → Reading (List FilePath) Text}
    (each : ∀ name ∈ includedNames text, reads.Related (inner name) (inner' name) fun _ => True) :
    reads.Related (e.assemble tokens context inner text) (e.assemble tokens context inner' text)
      fun _ => True := by
  have expanded : readsOnAnyShelf.Related (Engine.expandInclusions inner text)
      (Engine.expandInclusions inner' text) fun _ => True := by
    refine readsOnAnyShelf.flatten_mapM trivial (fun _ _ _ _ => trivial) fun piece member => ?_
    cases piece with
    | copied c => exact readsOnAnyShelf.pure trivial
    | found lexeme name =>
      have included : name ∈ includedNames text := mem_spansFrom.mpr ⟨lexeme, member⟩
      refine readsOnAnyShelf.bind (readsOnShelf_lift (each name included)) fun shown _ => ?_
      exact readsOnShelf_setAside fun _ _ _ _ _ => ⟨trivial, trivial⟩
  intro earlier
  rw [Engine.run_assemble, Engine.run_assemble]
  refine reads.bind (expanded (.empty (tokens earlier.length)) trivial) (fun r _ => ?_) earlier
  exact fun _ => ⟨rfl, fun _ _ => trivial⟩

/-- Followed far enough, a text is rendered the same however much deeper it might be followed. -/
theorem renderWithin_of_leads {depth deeper : Nat}
    (shallow : ∀ n, Leads e.views reader text n → n ≤ depth) (le : depth ≤ deeper) :
    reads.Related (e.renderWithin reader tokens context depth text)
      (e.renderWithin reader tokens context deeper text) fun _ => True := by
  induction depth generalizing text deeper with
  | zero =>
    have none_included : ∀ name, name ∉ includedNames text := fun name member =>
      absurd (shallow 1 (.file member)) (Nat.not_succ_le_zero 0)
    cases deeper <;> exact assemble_congr fun name member => absurd member (none_included name)
  | succ depth ih =>
    obtain ⟨deeper, rfl⟩ := Nat.exists_eq_add_of_le' (Nat.zero_lt_of_lt le)
    refine assemble_congr fun name included earlier => ?_
    rw [Engine.run_includeFile, Engine.run_includeFile]
    cases answer : reader earlier (e.views.inclusion name) with
    | ok content =>
      refine ih (fun n leads => ?_) (Nat.le_of_succ_le_succ le) _
      exact Nat.le_of_succ_le_succ (shallow (n + 1) (.through included answer leads))
    | error error =>
      cases error with
      | failed cause => exact reads_throw cause _
      | unreadable | undecodable => exact reads.pure trivial _

/-- The bound of an engine counts where a render starts, and nowhere below. -/
theorem renderWithin_maxDepth (bound : Int) (depth : Nat) :
    { e with maxDepth := bound }.renderWithin reader tokens context depth =
      e.renderWithin reader tokens context depth := by
  induction depth with
  | zero => rfl
  | succ depth ih =>
    unfold Engine.renderWithin
    rw [ih]
    rfl

end Shallow

/-- A render ends, whatever the reader answers, and asks for no file that stands in `maxDepth` or
more others; so the number of inclusions in the texts that it meets limits its requests. A bound
that no chain of inclusions goes beyond gives what every larger bound gives. -/
theorem render_depth (e : Engine) (reader : Reader) (tokens : Tokens) (context : Value)
    (template : Text) :
    let answer := (e.render reader tokens context template).outcome []
    let requests := e.requestsWithin reader e.maxDepth.toNat [] template
    (∃ asked, asked <+: requests ∧ answer.2 = asked.map (·.path) ∧
        (∀ r ∈ asked, (r.around.length + 1 : Int) ≤ e.maxDepth) ∧
        ∀ page, answer.1 = .ok page → asked = requests) ∧
      (e.maxDepth ≤ 0 → answer.2 = []) ∧
      (∀ k, (includedNames template).length ≤ k →
        (∀ text, Answered reader [] answer.2 text → (includedNames text).length ≤ k) →
        answer.2.length ≤ ∑ i ∈ Finset.range e.maxDepth.toNat, k ^ (i + 1)) ∧
      ∀ bound, e.maxDepth ≤ bound →
        (∀ n : Nat, Leads e.views reader template n → (n : Int) ≤ e.maxDepth) →
        ({ e with maxDepth := bound }.render reader tokens context template).outcome [] =
          answer := by
  intro answer requests
  obtain ⟨asked, begins, log, whole⟩ := asksFor_render e reader tokens context template []
  rw [List.nil_append] at log
  have logged : answer.2 = asked.map (·.path) := log
  refine ⟨⟨asked, begins, logged, fun r member => ?_, whole⟩, fun low => ?_, fun k own few => ?_,
    fun bound le shallow => ?_⟩
  · have := around_lt begins r member
    omega
  · rw [Int.toNat_of_nonpos low] at begins
    rw [logged, List.prefix_nil.mp begins, List.map_nil]
  · rw [logged] at few
    rw [logged, List.length_map]
    calc asked.length
      _ ≤ (includedNames template).length * ∑ i ∈ Finset.range e.maxDepth.toNat, k ^ i :=
        length_requests_le begins few
      _ ≤ k * ∑ i ∈ Finset.range e.maxDepth.toNat, k ^ i := Nat.mul_le_mul_right _ own
      _ = ∑ i ∈ Finset.range e.maxDepth.toNat, k ^ (i + 1) := by
        rw [Finset.mul_sum]
        exact Finset.sum_congr rfl fun i _ => (pow_succ' k i).symm
  · have reached : ∀ n, Leads e.views reader template n → n ≤ e.maxDepth.toNat := by
      intro n leads
      have := shallow n leads
      omega
    have same : reads.Related (e.renderWithin reader tokens context e.maxDepth.toNat template)
        (e.renderWithin reader tokens context bound.toNat template) fun _ => True :=
      renderWithin_of_leads reached (Int.toNat_le_toNat le)
    unfold Engine.render
    rw [renderWithin_maxDepth]
    exact (same []).1.symm

theorem length_of_answered_cycle {earlier asked : List FilePath} {text : Text}
    (answered : Answered (fun _ => cycleRead) earlier asked text) :
    (includedNames text).length ≤ 2 := by
  obtain ⟨before, path, -, answer⟩ := answered
  have read : cycleRead path = .ok text := answer
  unfold cycleRead at read
  split at read
  · cases read
    decide
  · split at read <;> cases read
    decide

def lineRead (path : FilePath) : Except ReadError Text :=
  if path = cycleEngine.views.inclusion ['a'] then .ok "{{> b }}".toList else .error .unreadable

theorem leads_line {n : Nat}
    (leads : Leads cycleEngine.views (fun _ => lineRead) (Template.inclusionTag ['a']) n) :
    n ≤ 2 := by
  have first : includedNames (Template.inclusionTag ['a']) = [['a']] := by decide
  have second : includedNames "{{> b }}".toList = [['b']] := by decide
  cases leads with
  | file => exact Nat.le_succ 1
  | through included read further =>
    rw [first, List.mem_singleton] at included
    subst included
    cases read
    cases further with
    | file => exact Nat.le_refl 2
    | through included read further =>
      rw [second, List.mem_singleton] at included
      subst included
      cases read

theorem render_depth_sample :
    let answer (e : Engine) :=
      (e.render (fun _ => cycleRead) Token.ofNat (.mapping []) cycleTemplate).outcome []
    let line (e : Engine) := (e.render (fun _ => lineRead) Token.ofNat (.mapping [])
      (Template.inclusionTag ['a'])).outcome []
    (answer cycleEngine).1 = .ok [] ∧
      (answer cycleEngine).2 = (cycleEngine.requestsWithin (fun _ => cycleRead) 2 []
        cycleTemplate).map (·.path) ∧
      (answer cycleEngine).2.length ≤ 2 + 4 ∧ (answer { cycleEngine with maxDepth := 0 }).2 = [] ∧
      line { cycleEngine with maxDepth := 7 } = line cycleEngine := by
  intro answer line
  have shown : (answer cycleEngine).1 = .ok [] := ok_of_toOption (by decide +kernel)
  obtain ⟨⟨asked, -, log, -, whole⟩, -, few, -⟩ :=
    render_depth cycleEngine (fun _ => cycleRead) Token.ofNat (.mapping []) cycleTemplate
  obtain ⟨-, empty, -⟩ := render_depth { cycleEngine with maxDepth := 0 } (fun _ => cycleRead)
    Token.ofNat (.mapping []) cycleTemplate
  obtain ⟨-, -, -, same⟩ := render_depth cycleEngine (fun _ => lineRead) Token.ofNat (.mapping [])
    (Template.inclusionTag ['a'])
  refine ⟨shown, log.trans (congrArg _ (whole [] shown)), ?_, empty (Int.le_refl 0), ?_⟩
  · exact few 2 (by decide) fun text answered => length_of_answered_cycle answered
  · exact same 7 (by decide) fun n leads => Int.ofNat_le.mpr (leads_line leads)

end Stencil
