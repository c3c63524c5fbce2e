import Mathlib.Data.List.Forall2
import Stencil.Proofs.Render.Loop

/-! What a shelf keeps over a history of calls. A text that is handed to it is made of
letters and of what earlier calls gave back, so what is kept nests. What such a text stands
for is told by the history alone: every answer in it gives way to what its call stood for.
That is what is kept and what one pass restores, whatever is kept later. -/
namespace Stencil.Shelf

open Text

/-- Part of a text that is handed to a shelf: letters, or what an earlier call gave back. -/
inductive Part
  | letters (text : Text)
  | answer (call : Nat)

abbrev Draft := List Part

def Part.fill (texts : List Text) : Part → Text
  | letters text => text
  | answer call => texts[call]?.getD []

/-- The text of a draft, with a text for each call. -/
def Draft.fill (d : Draft) (texts : List Text) : Text := d.flatMap (Part.fill texts)

def Part.Fits (calls : Nat) : Part → Prop
  | letters text => NulFree text
  | answer call => call < calls

instance (calls : Nat) (p : Part) : Decidable (p.Fits calls) :=
  match p with
  | .letters text => inferInstanceAs (Decidable (NulFree text))
  | .answer call => inferInstanceAs (Decidable (call < calls))

/-- A draft that can be handed over after so many calls. -/
def Draft.Fits (d : Draft) (calls : Nat) : Prop := ∀ p ∈ d, p.Fits calls

instance (d : Draft) (calls : Nat) : Decidable (d.Fits calls) :=
  inferInstanceAs (Decidable (∀ p ∈ d, p.Fits calls))

/-- Drafts each of which is made of letters and of the answers to those before it. -/
def Ordered (drafts : List Draft) : Prop := ∀ x ∈ drafts.zipIdx, x.1.Fits x.2

instance (drafts : List Draft) : Decidable (Ordered drafts) :=
  inferInstanceAs (Decidable (∀ x ∈ drafts.zipIdx, x.1.Fits x.2))

/-- What each call stands for: its draft, with what the calls before it stand for. -/
def expansions (drafts : List Draft) : List Text :=
  drafts.foldl (fun fulls d => fulls ++ [d.fill fulls]) []

/-- One call more, with the answers to those before it. -/
def keepNext (before : List Text × Shelf) (d : Draft) : Except Failure (List Text × Shelf) := do
  let (answer, shelf) ← before.2.keep (d.fill before.1)
  return (before.1 ++ [answer], shelf)

/-- The answers to all calls, and the shelf after them. -/
def keepAll (token : Token) (drafts : List Draft) : Except Failure (List Text × Shelf) :=
  drafts.foldlM keepNext ([], empty token)

/-- What a shelf gave for a text: a placeholder under whose number it is kept, or nothing. -/
def Gave (shelf : Shelf) (full answer : Text) : Prop :=
  (full = [] ∧ answer = []) ∨
    ∃ number, shelf.held[number]? = some full ∧ answer = placeholder shelf.token number

/-- A shelf after calls that stand for the texts. -/
structure Serves (shelf : Shelf) (fulls answers : List Text) : Prop where
  gave : List.Forall₂ shelf.Gave fulls answers
  held : shelf.held.toList = fulls.filter (· ≠ [])
  nulFree : ∀ full ∈ fulls, NulFree full

variable {shelf later : Shelf} {fulls answers texts : List Text} {d : Draft} {calls : Nat}
variable {drafts more : List Draft}

@[simp] theorem expansions_nil : expansions [] = [] := rfl

@[simp] theorem expansions_concat (drafts : List Draft) (d : Draft) :
    expansions (drafts ++ [d]) = expansions drafts ++ [d.fill (expansions drafts)] := by
  simp [expansions]

@[simp] theorem length_expansions (drafts : List Draft) :
    (expansions drafts).length = drafts.length := by
  induction drafts using List.reverseRecOn with
  | nil => rfl
  | append_singleton drafts d ih => simp [ih]

theorem keepAll_append (token : Token) (drafts more : List Draft) :
    keepAll token (drafts ++ more) = keepAll token drafts >>= fun r => more.foldlM keepNext r := by
  simp [keepAll]

@[simp] theorem fill_append (a b : Draft) (texts : List Text) :
    Draft.fill (a ++ b) texts = a.fill texts ++ b.fill texts := List.flatMap_append

theorem Ordered.fits (h : Ordered (drafts ++ d :: more)) : d.Fits drafts.length :=
  h (d, drafts.length) (List.mk_mem_zipIdx_iff_getElem?.mpr (by simp))

theorem Gave.mono {full answer : Text} (h : shelf.Gave full answer) (grown : shelf.Later later) :
    later.Gave full answer := by
  rcases h with empty | ⟨number, found, rfl⟩
  · exact .inl empty
  · exact .inr ⟨number, grown.held number full found, by rw [grown.token]⟩

/-- A draft as a script: what an answer stands for is one chunk. -/
def Part.script (fulls : List Text) : Part → Script
  | letters text => Script.ofText text
  | answer call => Script.hold (fulls[call]?.getD [])

def Draft.script (d : Draft) (fulls : List Text) : Script := d.flatMap (Part.script fulls)

@[simp] theorem flatten_script (d : Draft) (fulls : List Text) :
    (d.script fulls).flatten = d.fill fulls := by
  induction d with
  | nil => rfl
  | cons p d ih =>
    have here : (p.script fulls).flatten = p.fill fulls := by
      cases p <;> simp [Part.script, Part.fill]
    rw [Draft.script, List.flatMap_cons, Script.flatten, List.flatMap_append, Draft.fill,
      List.flatMap_cons]
    exact congrArg₂ (· ++ ·) here ih

namespace Serves

theorem length_eq (h : shelf.Serves fulls answers) : fulls.length = answers.length :=
  h.gave.length_eq

theorem sound (h : shelf.Serves fulls answers) : shelf.Sound := by
  intro finished member
  rw [← Array.mem_toList_iff, h.held, List.mem_filter] at member
  exact ⟨of_decide_eq_true member.2, h.nulFree finished member.1⟩

theorem spells_answer (h : shelf.Serves fulls answers) {call : Nat} (inside : call < fulls.length) :
    shelf.Spells (Script.hold (fulls[call]?.getD [])) (answers[call]?.getD []) := by
  have inside' : call < answers.length := h.length_eq ▸ inside
  have gave : shelf.Gave fulls[call] answers[call] := h.gave.get inside inside'
  rw [List.getElem?_eq_getElem inside, List.getElem?_eq_getElem inside', Option.getD_some,
    Option.getD_some]
  rcases gave with ⟨none, nothing⟩ | ⟨number, found, shown⟩
  · rw [none, nothing]
    exact .nil
  · have full : fulls[call] ≠ [] := (h.sound _ (Array.mem_of_getElem? found)).1
    obtain ⟨c, rest, shape⟩ := List.exists_cons_of_ne_nil full
    rw [shape] at found ⊢
    rw [shown, ← List.append_nil (placeholder _ _)]
    exact Spells.nil.chunk found

/-- The text of a draft, filled with the answers, is spelled by its script. -/
theorem spells (h : shelf.Serves fulls answers) (fits : d.Fits fulls.length) :
    shelf.Spells (d.script fulls) (d.fill answers) := by
  induction d with
  | nil => exact .nil
  | cons p d ih =>
    obtain ⟨here, later⟩ := List.forall_mem_cons.mp fits
    refine Spells.append ?_ (ih later)
    cases p with
    | letters text => exact .ofText here
    | answer call => exact h.spells_answer here

theorem restore (h : shelf.Serves fulls answers) (fits : d.Fits fulls.length) :
    shelf.restore (d.fill answers) = .ok (d.fill fulls) := by
  rw [(h.spells fits).restore, flatten_script]

theorem nulFree_fill (h : shelf.Serves fulls answers) (fits : d.Fits fulls.length) :
    NulFree (d.fill fulls) := by
  rw [← flatten_script]
  exact (h.spells fits).nulFree_flatten h.sound

theorem nulFree_concat (h : shelf.Serves fulls answers) (fits : d.Fits fulls.length) :
    ∀ full ∈ fulls ++ [d.fill fulls], NulFree full := by
  rw [List.forall_mem_append, List.forall_mem_singleton]
  exact ⟨h.nulFree, h.nulFree_fill fits⟩

/-- One call more is answered for what it stands for, and leaves what was kept before. -/
theorem keep (h : shelf.Serves fulls answers) (fits : d.Fits fulls.length) :
    ∃ answer later, shelf.keep (d.fill answers) = .ok (answer, later) ∧ shelf.Later later ∧
      later.Serves (fulls ++ [d.fill fulls]) (answers ++ [answer]) := by
  have empty : d.fill fulls = [] ↔ d.fill answers = [] := by
    rw [← flatten_script]
    exact (h.spells fits).flatten_eq_nil_iff h.sound
  have restored := h.restore fits
  have free := h.nulFree_concat fits
  cases handed : d.fill answers with
  | nil =>
    have nothing : d.fill fulls = [] := empty.mpr handed
    refine ⟨[], shelf, rfl, .refl shelf, ?_, ?_, free⟩
    · exact List.rel_append h.gave (.cons (.inl ⟨nothing, rfl⟩) .nil)
    · simp [h.held, nothing]
  | cons c rest =>
    have full : d.fill fulls ≠ [] := fun nothing => by simp [empty.mp nothing] at handed
    let later : Shelf := ⟨shelf.token, shelf.held.push (d.fill fulls)⟩
    have kept : shelf.keep (c :: rest) =
        .ok (placeholder shelf.token shelf.held.size, later) := by
      rw [Shelf.keep, ← handed, restored]
      · rfl
      · simp
    have grown : shelf.Later later := by
      refine ⟨rfl, fun number finished found => ?_⟩
      have inside : number < shelf.held.size := (Array.getElem?_eq_some_iff.mp found).1
      simpa [later, Array.getElem?_push, inside.ne] using found
    refine ⟨_, later, kept, grown, ?_, ?_, free⟩
    · have last : later.Gave (d.fill fulls) (placeholder shelf.token shelf.held.size) :=
        .inr ⟨_, Array.getElem?_push_size, rfl⟩
      exact List.rel_append (h.gave.imp fun _ _ gave => gave.mono grown) (.cons last .nil)
    · simp [later, h.held, full]

/-- Further calls are answered in turn, and leave what was kept before. -/
theorem keepMore (h : shelf.Serves (expansions drafts) answers)
    (ordered : Ordered (drafts ++ more)) :
    ∃ answers' later, more.foldlM keepNext (answers, shelf) = .ok (answers ++ answers', later) ∧
      shelf.Later later ∧ later.Serves (expansions (drafts ++ more)) (answers ++ answers') := by
  induction more generalizing drafts answers shelf with
  | nil => exact ⟨[], shelf, by simp [pure, Except.pure], .refl shelf, by simpa using h⟩
  | cons d more ih =>
    have fits : d.Fits (expansions drafts).length := by
      rw [length_expansions]
      exact ordered.fits
    obtain ⟨answer, next, kept, grown, serves⟩ := h.keep fits
    have step : keepNext (answers, shelf) d = .ok (answers ++ [answer], next) := by
      rw [keepNext, kept]
      rfl
    rw [← expansions_concat] at serves
    rw [List.append_cons] at ordered
    obtain ⟨rest, later, run, grown', serves'⟩ := ih serves ordered
    rw [← List.append_cons] at run serves'
    refine ⟨answer :: rest, later, ?_, grown.trans grown', ?_⟩
    · rw [List.foldlM_cons, step]
      exact run
    · rwa [← List.append_cons] at serves'

end Serves

theorem serves_empty (token : Token) : (empty token).Serves [] [] :=
  ⟨.nil, rfl, by simp⟩

/-- Every call of a history is answered. What is kept is what the calls stand for, in their order
and without what is empty; it has no NUL, and every placeholder that was given out finds its own.
A text made of letters and answers is restored in one pass, part by part; restoring it again, or
keeping it first, changes nothing. What is kept stays as it is, whatever is kept later. -/
theorem keeping_nests (token : Token) (drafts : List Draft) (ordered : Ordered drafts) :
    ∃ answers shelf, keepAll token drafts = .ok (answers, shelf) ∧ shelf.token = token ∧
      shelf.Serves (expansions drafts) answers ∧
      (∀ d : Draft, d.Fits drafts.length →
        shelf.restore (d.fill answers) = .ok (d.fill (expansions drafts)) ∧
        (shelf.restore (d.fill answers) >>= shelf.restore) = shelf.restore (d.fill answers) ∧
        (do let (answer, later) ← shelf.keep (d.fill answers)
            later.restore answer) = shelf.restore (d.fill answers)) ∧
      (∀ a b : Draft, a.Fits drafts.length → b.Fits drafts.length →
        shelf.restore (a.fill answers ++ b.fill answers) =
          return (← shelf.restore (a.fill answers)) ++ (← shelf.restore (b.fill answers))) ∧
      ∀ more, Ordered (drafts ++ more) → ∃ answers' later,
        keepAll token (drafts ++ more) = .ok (answers ++ answers', later) ∧ shelf.Later later := by
  have start : (empty token).Serves (expansions []) [] := serves_empty token
  have whole : Ordered ([] ++ drafts) := ordered
  obtain ⟨answers, shelf, run, grown, serves⟩ := start.keepMore whole
  simp only [List.nil_append] at run serves
  refine ⟨answers, shelf, run, grown.token, serves, fun d fits => ?_, fun a b first last => ?_,
    fun more further => ?_⟩
  · rw [← length_expansions] at fits
    have free := serves.nulFree_fill fits
    refine ⟨serves.restore fits, ?_, keep_restored _ shelf⟩
    rw [serves.restore fits]
    exact restore_of_nulFree free shelf
  · rw [← length_expansions] at first last
    have both : Draft.Fits (a ++ b) (expansions drafts).length :=
      List.forall_mem_append.mpr ⟨first, last⟩
    rw [← fill_append, serves.restore both, serves.restore first, serves.restore last, fill_append]
    rfl
  · obtain ⟨answers', later, rest, grown', -⟩ := serves.keepMore further
    refine ⟨answers', later, ?_, grown'⟩
    rw [keepAll_append, keepAll, run]
    exact rest

/-- Eleven letters, nothing, and a text with a digit between the placeholders of two of them. -/
def nested : List Draft :=
  List.replicate 11 [.letters ['a']] ++ [[], [.answer 10, .letters ['1'], .answer 11, .answer 1]]

theorem keeping_nests_sample :
    Ordered nested ∧ ∃ answers shelf, keepAll (.ofNat 0) nested = .ok (answers, shelf) ∧
      shelf.held.toList = List.replicate 11 ['a'] ++ ["a1a".toList] ∧
      shelf.restore (Draft.fill [.answer 12, .letters ['0'], .answer 12] answers) =
        .ok "a1a0a1a".toList := by
  have ordered : Ordered nested := by decide
  obtain ⟨answers, shelf, run, -, serves, later, -⟩ := keeping_nests (.ofNat 0) nested ordered
  refine ⟨ordered, answers, shelf, run, serves.held.trans (by decide), ?_⟩
  exact (later [.answer 12, .letters ['0'], .answer 12] (by decide)).1.trans
    (congrArg Except.ok (by decide))

end Stencil.Shelf
