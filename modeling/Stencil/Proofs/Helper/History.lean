import Mathlib.Data.List.Induction
import Mathlib.Data.List.Lex
import Stencil.Proofs.Helper.Independence
import Stencil.Proofs.Text.Parts

/-! What a catalog holds, told by its history: a name stands for what was registered under
it last, unless it was taken away since. The names come in the order in which they arrived,
which is when they were registered first after they were last absent. The overview is in the
order of the names themselves, and documents a name as long as it stands for the helper that
is declared under it. -/
namespace Stencil

/-- The order of texts by their code points. -/
def Text.Before : Text → Text → Prop := List.Lex fun c d => c.toNat < d.toNat

section Before

variable {a b c : Text}

theorem Text.lex_iff : (List.lex a b fun c d => c.toNat < d.toNat) = true ↔ a.Before b := by
  rw [List.lex_eq_true_iff_lex]
  simp only [decide_eq_true_eq]
  rfl

theorem trichotomous_code : Std.Trichotomous fun c d : Char => c.toNat < d.toNat :=
  ⟨fun _ _ low high => Char.toNat_inj.mp (by omega)⟩

theorem Text.Before.asymm (h : a.Before b) : ¬b.Before a := by
  have : Std.Asymm fun c d : Char => c.toNat < d.toNat := ⟨fun _ _ => Nat.lt_asymm⟩
  exact (List.Lex.asymm _).asymm a b h

/-- What comes before a text comes before a third one, or the third before the text. -/
theorem Text.not_before_trans (first : ¬b.Before a) (last : ¬c.Before b) : ¬c.Before a := by
  have := trichotomous_code
  have : IsOrderConnected Char fun c d => c.toNat < d.toNat :=
    ⟨fun _ _ _ less => by omega⟩
  exact fun before => ((List.Lex.isOrderConnected _).conn c b a before).elim last first

theorem Text.eq_of_not_before (low : ¬a.Before b) (high : ¬b.Before a) : a = b := by
  have := trichotomous_code
  exact (List.Lex.trichotomous _).trichotomous a b low high

end Before

namespace Catalog

variable {history : List Operation} {operation : Operation} {name : Text} {names : List Text}
variable {c : Catalog} {helper : Helper} {declared : Declarations} {i j : Nat}

/-- What an operation settles for a name, if it settles anything: the helper that the name stands
for, or that it stands for none. -/
def Operation.settles? (name : Text) : Operation → Option (Option Helper)
  | .register other helper => if other = name then some (some helper) else none
  | .remove other => if other = name then some none else none
  | .clear => some none
  | _ => none

/-- What a name stands for after a history: what was settled for it last. -/
def told (history : List Operation) (name : Text) : Option Helper :=
  (history.filterMap (·.settles? name)).getLast?.join

/-- The name was registered at this place in the history, was absent right before, and has been
there since. -/
structure ArrivesAt (history : List Operation) (name : Text) (i : Nat) : Prop where
  registered : ∃ helper, history[i]? = some (.register name helper)
  absent : told (history.take i) name = none
  present : ∀ j, i < j → j ≤ history.length → (told (history.take j) name).isSome

/-- The names that a history leaves, in the order of their arrival. -/
structure Lists (history : List Operation) (names : List Text) : Prop where
  distinct : names.Nodup
  member : ∀ name, name ∈ names ↔ (told history name).isSome
  arrives : ∀ name ∈ names, ∃ i, ArrivesAt history name i
  ordered : names.Pairwise fun a b =>
    ∀ i j, ArrivesAt history a i → ArrivesAt history b j → i < j

theorem told_concat (history : List Operation) (operation : Operation) (name : Text) :
    told (history ++ [operation]) name = (operation.settles? name).getD (told history name) := by
  cases settled : operation.settles? name with
  | none => simp [told, settled]
  | some helper? => simp [told, settled]

theorem ArrivesAt.bound (h : ArrivesAt history name i) : i < history.length := by
  obtain ⟨helper, found⟩ := h.registered
  exact (List.getElem?_eq_some_iff.mp found).1

theorem ArrivesAt.there (h : ArrivesAt history name i) : (told history name).isSome := by
  have last := h.present history.length h.bound (Nat.le_refl _)
  rwa [List.take_length] at last

/-- A name that stays has arrived where it had. -/
theorem ArrivesAt.concat (h : ArrivesAt history name i)
    (stays : (told (history ++ [operation]) name).isSome) :
    ArrivesAt (history ++ [operation]) name i := by
  have bound := h.bound
  obtain ⟨helper, found⟩ := h.registered
  refine ⟨⟨helper, ?_⟩, ?_, fun j later inside => ?_⟩
  · rwa [List.getElem?_append_left bound]
  · rw [List.take_append_of_le_length (Nat.le_of_lt bound)]
    exact h.absent
  · by_cases old : j ≤ history.length
    · rw [List.take_append_of_le_length old]
      exact h.present j later old
    · rw [List.length_append, List.length_singleton] at inside
      rwa [List.take_of_length_le (by simp; omega)]

/-- A name that was there has not arrived with the last operation. -/
theorem ArrivesAt.of_concat (h : ArrivesAt (history ++ [operation]) name i)
    (there : (told history name).isSome) : ArrivesAt history name i := by
  have inside := h.bound
  rw [List.length_append, List.length_singleton] at inside
  have bound : i < history.length := by
    by_contra last
    obtain rfl : i = history.length := by omega
    have absent := h.absent
    rw [List.take_left] at absent
    rw [absent] at there
    contradiction
  obtain ⟨helper, found⟩ := h.registered
  refine ⟨⟨helper, ?_⟩, ?_, fun j later old => ?_⟩
  · rwa [List.getElem?_append_left bound] at found
  · rw [← List.take_append_of_le_length (Nat.le_of_lt bound)]
    exact h.absent
  · rw [← List.take_append_of_le_length old]
    exact h.present j later (by simp; omega)

/-- A name that was absent arrives with the operation that registers it, and not before. -/
theorem arrivesAt_concat_iff (absent : told history name = none) :
    ArrivesAt (history ++ [.register name helper]) name i ↔ i = history.length := by
  constructor
  · intro h
    have inside := h.bound
    rw [List.length_append, List.length_singleton] at inside
    by_contra other
    have before := h.present history.length (by omega) (by simp)
    rw [List.take_left, absent] at before
    contradiction
  · rintro rfl
    refine ⟨⟨helper, by simp⟩, by rwa [List.take_left], fun j later inside => ?_⟩
    rw [List.length_append, List.length_singleton] at inside
    rw [List.take_of_length_le (by simp; omega), told_concat, Operation.settles?, if_pos rfl]
    rfl

/-- An operation after which some of the names are left, and no others. -/
theorem Lists.keep (h : Lists history names) {kept : List Text} (part : kept.Sublist names)
    (member : ∀ name, name ∈ kept ↔ (told (history ++ [operation]) name).isSome) :
    Lists (history ++ [operation]) kept where
  distinct := h.distinct.sublist part
  member := member
  arrives name inside := by
    obtain ⟨i, arrives⟩ := h.arrives name (part.subset inside)
    exact ⟨i, arrives.concat ((member name).mp inside)⟩
  ordered := by
    refine (h.ordered.sublist part).imp_of_mem fun first last order i j before after => ?_
    have there {name : Text} (inside : name ∈ kept) : (told history name).isSome :=
      (h.member name).mp (part.subset inside)
    exact order i j (before.of_concat (there first)) (after.of_concat (there last))

/-- A name that is new comes last. -/
theorem Lists.extend (h : Lists history names) (absent : told history name = none)
    (helper : Helper) : Lists (history ++ [.register name helper]) (names ++ [name]) := by
  have new : name ∉ names := by simp [h.member, absent]
  have there {other : Text} (inside : other ∈ names) : (told history other).isSome :=
    (h.member other).mp inside
  have told_other {other : Text} (apart : name ≠ other) :
      told (history ++ [.register name helper]) other = told history other := by
    rw [told_concat, Operation.settles?, if_neg apart, Option.getD_none]
  have told_new : told (history ++ [.register name helper]) name = some helper := by
    rw [told_concat, Operation.settles?, if_pos rfl, Option.getD_some]
  refine ⟨?_, fun other => ?_, fun other inside => ?_, ?_⟩
  · refine List.nodup_append.mpr ⟨h.distinct, by simp, fun other inside last only same => ?_⟩
    obtain rfl := List.mem_singleton.mp only
    exact new (same ▸ inside)
  · by_cases same : name = other
    · subst same
      simp [told_new]
    · rw [told_other same, ← h.member, List.mem_append, List.mem_singleton]
      exact or_iff_left (Ne.symm same)
  · rcases List.mem_append.mp inside with old | last
    · obtain ⟨i, arrives⟩ := h.arrives other old
      have apart : name ≠ other := fun same => new (same ▸ old)
      exact ⟨i, arrives.concat (by rw [told_other apart]; exact there old)⟩
    · obtain rfl := List.mem_singleton.mp last
      exact ⟨history.length, (arrivesAt_concat_iff absent).mpr rfl⟩
  · rw [List.pairwise_append]
    refine ⟨?_, List.pairwise_singleton _ _, fun other old last only i j before after => ?_⟩
    · refine h.ordered.imp_of_mem fun first last order i j before after => ?_
      exact order i j (before.of_concat (there first)) (after.of_concat (there last))
    · obtain rfl := List.mem_singleton.mp only
      rw [(arrivesAt_concat_iff absent).mp after]
      exact (before.of_concat (there old)).bound

structure Follows (history : List Operation) (c : Catalog) : Prop where
  held : ∀ name, c.get? name = told history name
  lists : Lists history c.names

theorem follows_empty : Follows [] .empty where
  held _ := rfl
  lists := ⟨List.nodup_nil, fun _ => by simp [names, Ledger.names, empty, told],
    fun _ inside => (List.not_mem_nil inside).elim, .nil⟩

/-- One operation, on the catalog and in the history. -/
theorem Follows.changed (h : Follows history c) (operation : Operation) :
    Follows (history ++ [operation]) (c.changed operation) := by
  have held (name : Text) :
      (c.changed operation).get? name = told (history ++ [operation]) name := by
    rw [told_concat, ← h.held]
    cases operation with
    | register other helper =>
      simp only [Catalog.changed, register, get?, Ledger.get?_put, Operation.settles?]
      split <;> rfl
    | remove other =>
      simp only [Catalog.changed, remove, get?, Ledger.get?_erase, Operation.settles?]
      split <;> rfl
    | _ => rfl
  have member (name : Text) : name ∈ (c.changed operation).names ↔
      (told (history ++ [operation]) name).isSome := by
    rw [← held]
    exact Ledger.mem_names_iff
  refine ⟨held, ?_⟩
  cases operation with
  | register other helper =>
    by_cases old : other ∈ c.names
    · have same : (c.changed (.register other helper)).names = c.names :=
        Ledger.names_put_of_mem old helper
      exact h.lists.keep (same ▸ List.Sublist.refl _) member
    · have absent : told history other = none := by simpa [h.lists.member] using old
      have longer : (c.changed (.register other helper)).names = c.names ++ [other] :=
        Ledger.names_put_of_not_mem old helper
      rw [longer]
      exact h.lists.extend absent helper
  | remove other =>
    have less : (c.changed (.remove other)).names = c.names.filter (· ≠ other) :=
      Ledger.names_erase other c.helpers
    exact h.lists.keep (less ▸ List.filter_sublist) member
  | clear => exact h.lists.keep (List.nil_sublist c.names) member
  | _ => exact h.lists.keep (List.Sublist.refl c.names) member

theorem follows_foldl (history : List Operation) :
    Follows history (history.foldl Catalog.changed .empty) := by
  -- By the last operation: an arrival looks back on all of the history before it.
  induction history using List.reverseRecOn with
  | nil => exact follows_empty
  | append_singleton history operation ih =>
    rw [List.foldl_append]
    exact ih.changed operation

/-- How a line of the overview documents a helper, whatever is declared under its name. -/
structure Documents (declared? : Option Declaration) (helper : Helper) (line : Listed) : Prop where
  builtin : line.builtin = true ↔ ∃ d, declared? = some d ∧ d.helper.identity = helper.identity
  documented : ∀ d, declared? = some d → d.helper.identity = helper.identity →
    line.description = d.description ∧ line.sample? = d.sample?
  bare : line.builtin = false → line.description = [] ∧ line.sample? = none

/-- The overview of the names that a history leaves: a line for each, by name. -/
structure Overviews (history : List Operation) (declared? : Text → Option Declaration)
    (names : List Text) (listed : List Listed) : Prop where
  lines : (listed.map (·.name)).Perm names
  sorted : listed.Pairwise fun a b => a.name.Before b.name
  documents : ∀ line ∈ listed, ∃ helper, told history line.name = some helper ∧
    Documents (declared? line.name) helper line

theorem entry_name (declared : Declarations) (name : Text) (helper : Helper) :
    (entry declared name helper).name = name := by
  unfold entry
  split
  · split <;> rfl
  · rfl

theorem entry_documents (declared : Declarations) (name : Text) (helper : Helper) :
    Documents (declared.get? name) helper (entry declared name helper) := by
  unfold entry
  cases found : declared.get? name with
  | none => exact ⟨by simp, by simp, fun _ => ⟨rfl, rfl⟩⟩
  | some d =>
    by_cases same : d.helper.identity = helper.identity
    · simp only [if_pos same]
      exact ⟨by simp [same], by simp, by simp⟩
    · simp only [if_neg same]
      exact ⟨by simp [same], by simp [same], fun _ => ⟨rfl, rfl⟩⟩

theorem Follows.overviews (h : Follows history c) (declared : Declarations) :
    Overviews history declared.get? c.names (c.overview declared) := by
  have order (a b : Listed) :
      (!List.lex b.name a.name fun c d => c.toNat < d.toNat) = true ↔ ¬b.name.Before a.name := by
    rw [Bool.not_eq_true', ← Bool.not_eq_true, Text.lex_iff]
  have perm : (c.overview declared).Perm _ := List.mergeSort_perm _ _
  have lines : ((c.overview declared).map (·.name)).Perm c.names := by
    refine (perm.map (·.name)).trans (.of_eq ?_)
    simp [entry_name, Catalog.names, Ledger.names, Function.comp_def]
  refine ⟨lines, ?_, fun line member => ?_⟩
  · have rising : (c.overview declared).Pairwise fun a b => ¬b.name.Before a.name := by
      refine (List.pairwise_mergeSort ?_ ?_ _).imp fun {a b} => (order a b).mp
      · intro a b d first last
        exact (order a d).mpr (Text.not_before_trans ((order a b).mp first) ((order b d).mp last))
      · intro a b
        rw [Bool.or_eq_true, order, order, ← not_and_or]
        exact fun both => both.1.asymm both.2
    have distinct : ((c.overview declared).map (·.name)).Nodup :=
      lines.nodup_iff.mpr h.lists.distinct
    refine (rising.and (List.pairwise_map.mp distinct)).imp fun {a b} both => ?_
    by_contra other
    exact both.2 (Text.eq_of_not_before other both.1)
  · obtain ⟨⟨name, helper⟩, inside, rfl⟩ := List.mem_map.mp (perm.subset member)
    rw [entry_name, ← h.held]
    exact ⟨helper, Ledger.get?_of_mem h.lists.distinct inside, entry_documents declared name helper⟩

end Catalog

section Declared

variable {cs : Catalogs} {declared : Declarations}

/-- The history that stands for the helpers that a catalog starts with. -/
def Declarations.seeding (declared : Declarations) : List Catalog.Operation :=
  declared.map fun (name, d) => .register name d.helper

theorem foldl_seeding (distinct : declared.names.Nodup) :
    declared.seeding.foldl Catalog.changed .empty = .seeded declared := by
  induction declared using List.reverseRecOn with
  | nil => rfl
  | append_singleton declared pair ih =>
    obtain ⟨name, d⟩ := pair
    have split : Ledger.names (declared ++ [(name, d)]) = Ledger.names declared ++ [name] := by
      simp [Ledger.names]
    rw [split, List.nodup_append] at distinct
    have absent : name ∉ Ledger.names (declared.map fun (name, d) => (name, d.helper)) := by
      have same : Ledger.names (declared.map fun (name, d) => (name, d.helper)) =
          Ledger.names declared := by simp [Ledger.names]
      rw [same]
      exact fun inside => distinct.2.2 name inside name (List.mem_singleton_self name) rfl
    rw [Declarations.seeding, List.map_append, List.foldl_append, ← Declarations.seeding,
      ih distinct.1]
    have put := Ledger.put_of_not_mem absent d.helper
    simpa [Catalog.changed, Catalog.register, Catalog.seeded] using put

namespace Catalogs

/-- What a step declares under a name. -/
def Step.declares? (name : Text) : Step → Option Declaration
  | .declare other declaration => if other = name then some declaration else none
  | _ => none

/-- What is declared under a name after some steps: what was declared last, or from the start. -/
def lastDeclared (start : Declarations) (steps : List Step) (name : Text) : Option Declaration :=
  (steps.filterMap (·.declares? name)).getLast?.or (start.get? name)

theorem get?_declared_run (cs : Catalogs) (steps : List Step) (name : Text) :
    (cs.run steps).2.declared.get? name = lastDeclared cs.declared steps name := by
  induction steps generalizing cs with
  | nil => rfl
  | cons step steps ih =>
    refine (ih (cs.perform step).2).trans ?_
    cases step with
    | declare other declaration =>
      by_cases same : other = name
      · simp [lastDeclared, perform, Step.declares?, same, List.getLast?_cons]
      · simp [lastDeclared, perform, Step.declares?, same]
    | _ => rfl

theorem nodup_declared_run (distinct : cs.declared.names.Nodup) (steps : List Step) :
    (cs.run steps).2.declared.names.Nodup := by
  induction steps generalizing cs with
  | nil => exact distinct
  | cons step steps ih =>
    refine ih ?_
    cases step with
    | declare name declaration => exact Ledger.nodup_put distinct name declaration
    | _ => exact distinct

theorem run_append (cs : Catalogs) (first last : List Step) :
    (cs.run (first ++ last)).2 = ((cs.run first).2.run last).2 := by
  induction first generalizing cs with
  | nil => rfl
  | cons step first ih => exact ih (cs.perform step).2

/-- A catalog that is made after some steps, and what it has become after some more. -/
theorem follows_run (distinct : cs.declared.names.Nodup) (withDeclared : Bool) (after : List Step) :
    ∃ c, ((cs.perform (.create withDeclared)).2.run after).2.all[cs.all.length]? = some c ∧
      Catalog.Follows ((if withDeclared then cs.declared.seeding else []) ++
        after.filterMap (·.asked? cs.all.length)) c := by
  have made : (cs.perform (.create withDeclared)).2.all[cs.all.length]? =
      some ((if withDeclared then cs.declared.seeding else []).foldl Catalog.changed .empty) := by
    cases withDeclared with
    | true =>
      rw [if_pos rfl, foldl_seeding distinct]
      exact List.getElem?_concat_length
    | false => exact List.getElem?_concat_length
  refine ⟨_, getElem?_run made after, ?_⟩
  rw [← List.foldl_append]
  exact Catalog.follows_foldl _

/-- All that a catalog answers about its names is told by its history: by what was declared when it
was made, if it started with that, and by the operations that it went through since. Its overview
goes by what is declared now. -/
theorem answers_follow_history (before after : List Step) (withDeclared : Bool) :
    let start := (Catalogs.run ⟨.builtin, []⟩ before).2
    let steps := before ++ .create withDeclared :: after
    let history := (if withDeclared then start.declared.seeding else []) ++
      after.filterMap (·.asked? start.all.length)
    let asked := fun operation =>
      ((Catalogs.run ⟨.builtin, []⟩ steps).2.perform (.ask start.all.length operation)).1
    ∃ names listed, Catalog.Lists history names ∧
      Catalog.Overviews history (lastDeclared .builtin steps) names listed ∧
      asked .names = .names names ∧ asked .count = .number names.length ∧
      asked .overview = .overview listed ∧ listed.length = names.length ∧
      ∀ name, asked (.has name) = .truth (Catalog.told history name).isSome ∧
        asked (.get name) = .helper (Catalog.told history name) ∧
        asked (.remove name) = .truth (Catalog.told history name).isSome := by
  intro start steps history asked
  have distinct : start.declared.names.Nodup := nodup_declared_run (by decide) before
  obtain ⟨c, there, follows⟩ := follows_run distinct withDeclared after
  have now : (Catalogs.run ⟨.builtin, []⟩ steps).2 =
      ((start.perform (.create withDeclared)).2.run after).2 := run_append _ before _
  have answered (operation : Catalog.Operation) : asked operation =
      (answer (Catalogs.run ⟨.builtin, []⟩ steps).2.declared c operation).1 := by
    have held : (Catalogs.run ⟨.builtin, []⟩ steps).2.all.getD start.all.length .empty = c := by
      rw [now, List.getD_eq_getElem?_getD, there]
      rfl
    rw [← held]
    rfl
  have overviews := follows.overviews (Catalogs.run ⟨.builtin, []⟩ steps).2.declared
  have documented : (Catalogs.run ⟨.builtin, []⟩ steps).2.declared.get? =
      lastDeclared .builtin steps := funext fun name => get?_declared_run _ steps name
  rw [documented] at overviews
  refine ⟨c.names, _, follows.lists, overviews, answered .names, ?_, answered .overview, ?_,
    fun name => ⟨?_, ?_, ?_⟩⟩
  · rw [answered .count, answer, Catalog.count, Catalog.names, Ledger.names, List.length_map]
  · rw [← overviews.lines.length_eq, List.length_map]
  · rw [answered, ← follows.held]
    rfl
  · rw [answered, ← follows.held]
    rfl
  · rw [answered, ← follows.held]
    rfl

/-- A catalog with the built-in helpers: one name is written over, another is taken away and comes
back, and the first is declared anew. -/
def sampleHistory : List Step :=
  [.ask 0 (.register "upper".toList (.ofBuiltin .lower)), .ask 0 (.remove "lower".toList),
    .ask 0 (.register "lower".toList (.ofBuiltin .lower)),
    .declare "upper".toList ⟨.ofBuiltin .lower, [], none⟩]

theorem answers_follow_history_sample :
    let now := (Catalogs.run ⟨.builtin, []⟩ (.create true :: sampleHistory)).2
    ∃ names, (now.perform (.ask 0 .names)).1 = .names names ∧
      Catalog.Lists (Declarations.builtin.seeding ++ sampleHistory.filterMap (·.asked? 0)) names ∧
      names.drop 2 = ["upper".toList, "truncate".toList, "lower".toList] := by
  obtain ⟨names, -, lists, -, answered, -⟩ := answers_follow_history [] sampleHistory true
  refine ⟨names, answered, lists, ?_⟩
  cases answered
  rfl

end Catalogs

end Declared

end Stencil
