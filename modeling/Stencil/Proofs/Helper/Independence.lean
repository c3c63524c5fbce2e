import Stencil.Helper.Catalog

/-! Catalogs side by side. What one catalog answers is its own history together with the
declarations; the changes that others went through do not show in it. What it holds is its
own history alone. -/
namespace Stencil

/-- Steps after which a catalog may hold other helpers. -/
def Catalog.Operation.isChange : Catalog.Operation → Bool
  | .register .. | .remove _ | .clear => true
  | _ => false

/-- What a catalog holds after an operation. -/
def Catalog.changed (c : Catalog) : Catalog.Operation → Catalog
  | .register name helper => c.register name helper
  | .remove name => c.remove name
  | .clear => .empty
  | _ => c

namespace Catalogs

variable {cs other : Catalogs} {r : Nat} {step : Step} {steps : List Step}

/-- What a step asks of catalog `r`. -/
def Step.asked? (r : Nat) : Step → Option Catalog.Operation
  | .ask index operation => if index = r then some operation else none
  | _ => none

/-- The step changes what another catalog than `r` holds. -/
def Step.changesOther (r : Nat) : Step → Bool
  | .ask index operation => index != r && operation.isChange
  | _ => false

/-- The operations that catalog `r` goes through, and what it answers to each. -/
def answersOf (r : Nat) (cs : Catalogs) (steps : List Step) :
    List (Catalog.Operation × Answer) :=
  (steps.zip (cs.run steps).1).filterMap fun (step, answer) => (step.asked? r).map (·, answer)

theorem answer_catalog (declared : Declarations) (c : Catalog) (operation : Catalog.Operation) :
    (answer declared c operation).2 = c.changed operation := by
  cases operation <;> rfl

/-- All that a catalog can tell apart: the declarations, how many catalogs there are, and itself. -/
structure SameAt (r : Nat) (cs other : Catalogs) : Prop where
  declared : cs.declared = other.declared
  length : cs.all.length = other.all.length
  catalog : cs.all[r]? = other.all[r]?

theorem SameAt.refl (r : Nat) (cs : Catalogs) : SameAt r cs cs := ⟨rfl, rfl, rfl⟩

theorem SameAt.trans {third : Catalogs} (h : SameAt r cs other) (h' : SameAt r other third) :
    SameAt r cs third :=
  ⟨h.declared.trans h'.declared, h.length.trans h'.length, h.catalog.trans h'.catalog⟩

theorem SameAt.symm (h : SameAt r cs other) : SameAt r other cs :=
  ⟨h.declared.symm, h.length.symm, h.catalog.symm⟩

/-- Nothing asked of another catalog shows. -/
theorem sameAt_perform {index : Nat} (elsewhere : index ≠ r) (operation : Catalog.Operation) :
    SameAt r (cs.perform (.ask index operation)).2 cs where
  declared := rfl
  length := List.length_set
  catalog := List.getElem?_set_ne elsewhere

/-- A step does the same on both sides, to all that catalog `r` can tell apart. -/
theorem SameAt.perform (h : SameAt r cs other) (step : Step) :
    SameAt r (cs.perform step).2 (other.perform step).2 := by
  cases step with
  | create withDeclared =>
    refine ⟨h.declared, ?_, ?_⟩
    · simp only [Catalogs.perform, List.length_append, List.length_singleton, h.length]
    · simp only [Catalogs.perform, List.getElem?_append, h.declared, h.length, h.catalog]
  | declare name declaration =>
    exact ⟨congrArg (Ledger.put name declaration) h.declared, h.length, h.catalog⟩
  | declared => exact h
  | ask index operation =>
    by_cases own : index = r
    · subst own
      refine ⟨h.declared, ?_, ?_⟩
      · simp only [Catalogs.perform, List.length_set, h.length]
      · simp only [Catalogs.perform, List.getElem?_set_self', List.getD_eq_getElem?_getD,
          h.declared, h.catalog]
    · exact ((sameAt_perform own operation).trans h).trans (sameAt_perform own operation).symm

/-- A step on catalog `r` has the same answer on both sides. -/
theorem SameAt.answer (h : SameAt r cs other) {operation : Catalog.Operation}
    (own : step.asked? r = some operation) : (cs.perform step).1 = (other.perform step).1 := by
  cases step with
  | ask index asked =>
    by_cases same : index = r
    · subst same
      simp only [Catalogs.perform, List.getD_eq_getElem?_getD, h.declared, h.catalog]
    · rw [Step.asked?, if_neg same] at own
      cases own
  | _ => cases own

theorem answersOf_cons (r : Nat) (cs : Catalogs) (step : Step) (steps : List Step) :
    cs.answersOf r (step :: steps) =
      ((step.asked? r).map (·, (cs.perform step).1)).toList ++
        (cs.perform step).2.answersOf r steps := by
  simp only [answersOf, run, List.zip_cons_cons, List.filterMap_cons]
  cases step.asked? r <;> rfl

theorem asked?_of_changesOther (elsewhere : step.changesOther r = true) :
    step.asked? r = none := by
  cases step with
  | ask index operation =>
    have apart : index ≠ r := bne_iff_ne.mp (Bool.and_eq_true_iff.mp elsewhere).1
    exact if_neg apart
  | _ => rfl

theorem SameAt.drop (h : SameAt r cs other) (elsewhere : step.changesOther r = true) :
    SameAt r cs (other.perform step).2 := by
  cases step with
  | ask index operation =>
    have apart : index ≠ r := bne_iff_ne.mp (Bool.and_eq_true_iff.mp elsewhere).1
    exact h.trans (sameAt_perform apart operation).symm
  | _ => cases elsewhere

/-- Two runs side by side, one of them without the changes of other catalogs. -/
theorem SameAt.answersOf (h : SameAt r cs other) (steps : List Step) :
    cs.answersOf r (steps.filter (!·.changesOther r)) = other.answersOf r steps := by
  induction steps generalizing cs other with
  | nil => rfl
  | cons step steps ih =>
    by_cases dropped : step.changesOther r = true
    · rw [List.filter_cons_of_neg (by simp [dropped]), answersOf_cons,
        asked?_of_changesOther dropped, ih (h.drop dropped)]
      rfl
    · rw [List.filter_cons_of_pos (by simp [dropped]), answersOf_cons, answersOf_cons,
        ih (h.perform step)]
      cases own : step.asked? r with
      | none => rfl
      | some operation => rw [h.answer own]

/-- One step leaves a catalog as it is, unless it asks for a change of that catalog. -/
theorem getElem?_perform {c : Catalog} (there : cs.all[r]? = some c) (step : Step) :
    (cs.perform step).2.all[r]? = some ((step.asked? r).elim c c.changed) := by
  have bound : r < cs.all.length := (List.getElem?_eq_some_iff.mp there).1
  cases step with
  | create withDeclared => exact (List.getElem?_append_left bound).trans there
  | ask index operation =>
    by_cases own : index = r
    · subst own
      have held : cs.all.getD index .empty = c := by rw [List.getD_eq_getElem?_getD, there]; rfl
      rw [Step.asked?, if_pos rfl, Option.elim_some, ← answer_catalog cs.declared c, ← held]
      exact List.getElem?_set_self bound
    · rw [Step.asked?, if_neg own]
      exact (List.getElem?_set_ne own).trans there
  | _ => exact there

theorem getElem?_run {c : Catalog} (there : cs.all[r]? = some c) (steps : List Step) :
    (cs.run steps).2.all[r]? = some ((steps.filterMap (·.asked? r)).foldl Catalog.changed c) := by
  induction steps generalizing cs c with
  | nil => exact there
  | cons step steps ih =>
    refine (ih (getElem?_perform there step)).trans ?_
    rw [List.filterMap_cons]
    cases step.asked? r <;> rfl

/-- The answers of a catalog are the same without the changes of the others. A catalog that is
there holds at the end what its own operations have made of it, so that no declaration on the way
has given it a helper or taken one from it. -/
theorem answers_independent (cs : Catalogs) (r : Nat) (steps : List Step) :
    cs.answersOf r (steps.filter (!·.changesOther r)) = cs.answersOf r steps ∧
      (∀ c, cs.all[r]? = some c →
        (cs.run steps).2.all[r]? =
          some ((steps.filterMap (·.asked? r)).foldl Catalog.changed c)) ∧
      ∀ name declaration, (cs.perform (.declare name declaration)).2.all[r]? = cs.all[r]? :=
  ⟨(SameAt.refl r cs).answersOf steps, fun _ there => getElem?_run there steps, fun _ _ => rfl⟩

def sampleCatalogs : Catalogs := ⟨.builtin, [.seeded .builtin, .seeded .builtin]⟩

def sampleSteps : List Step :=
  [.ask 0 .clear, .declare "shout".toList ⟨.ofBuiltin .upper, [], none⟩,
    .ask 1 (.has "shout".toList), .ask 0 (.register "shout".toList (.ofBuiltin .lower)),
    .ask 1 (.remove "upper".toList), .ask 0 .count, .ask 1 .count]

theorem answers_independent_sample :
    sampleCatalogs.answersOf 1 sampleSteps =
        [(.has "shout".toList, .truth false), (.remove "upper".toList, .truth true),
          (.count, .number 4)] ∧
      sampleCatalogs.answersOf 1 (sampleSteps.filter (!·.changesOther 1)) =
        sampleCatalogs.answersOf 1 sampleSteps ∧
      (sampleCatalogs.run sampleSteps).2.all[1]? =
        some ((Catalog.seeded .builtin).remove "upper".toList) := by
  obtain ⟨answers, held, -⟩ := answers_independent sampleCatalogs 1 sampleSteps
  exact ⟨rfl, answers, held (.seeded .builtin) rfl⟩

end Catalogs

end Stencil
