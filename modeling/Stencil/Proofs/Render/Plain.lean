import Stencil.Proofs.Markup.Fenced
import Stencil.Proofs.Render.Escaping

/-! Rendering plain templates, and text around a template. In a plain template nothing is
included, repeated, chosen or called: the page is what the variables show, between the
literal texts. Text without braces and NULs is copied by every stage, and nothing in the
template beside it reaches into it: not a tag or a block that is left open, nor a
placeholder. -/
namespace Stencil

section Plain

open Markup

variable {text : Text} {token : Token}

theorem placeholder?_eq_some_iff {digits tail : Text} :
    Shelf.placeholder? token text = some (digits, tail) ↔
      digits ≠ [] ∧ (∀ d ∈ digits, Text.isDigit d = true) ∧
        text = Shelf.lead token ++ (digits ++ '\x00' :: tail) := by
  constructor
  · intro read
    obtain ⟨rest, opened, found⟩ := Option.bind_eq_some_iff.mp read
    split at found
    next c digits tail taken dropped =>
      cases found
      have split := rest.takeWhile_append_dropWhile (p := Text.isDigit)
      rw [taken, dropped] at split
      refine ⟨List.cons_ne_nil c digits, fun d member => List.mem_takeWhile_imp (taken ▸ member), ?_⟩
      rw [split]
      exact Text.after?_eq_some_iff.mp opened
    next => contradiction
  · rintro ⟨full, all, rfl⟩
    obtain ⟨c, more, rfl⟩ := List.exists_cons_of_ne_nil full
    have stop : Text.isDigit '\x00' = false := by decide
    rw [Shelf.placeholder?, Text.after?_eq_some_iff.mpr rfl, Option.bind_some,
      takeWhile_word all stop, dropWhile_word all stop]
    rfl

theorem placeholder?_append {digits tail : Text}
    (read : Shelf.placeholder? token text = some (digits, tail)) (more : Text) :
    Shelf.placeholder? token (text ++ more) = some (digits, tail ++ more) := by
  obtain ⟨full, all, rfl⟩ := placeholder?_eq_some_iff.mp read
  exact placeholder?_eq_some_iff.mpr ⟨full, all, by simp⟩

theorem look_empty (token : Token) (digits : Text) :
    ∃ cause, (Shelf.empty token).look digits = .error cause := by
  have nothing (n : Nat) : (Shelf.empty token).held[n]? = none := Array.getElem?_empty
  rw [Shelf.look, nothing]
  exact ⟨_, rfl⟩

/-- No placeholder of the token stands in the text. -/
def Shelf.Unspelled (token : Token) (text : Text) : Prop :=
  ∀ part, part <:+ text → Shelf.placeholder? token part = none

/-- A text is put back as it is if it has no placeholder, and not at all otherwise. -/
theorem restore_empty_iff {shown : Text} :
    (Shelf.empty token).restore text = .ok shown ↔
      shown = text ∧ Shelf.Unspelled token text := by
  constructor
  · intro h
    induction text generalizing shown with
    | nil =>
      refine ⟨(pure_eq_ok_iff.mp (rewrite_nil.symm.trans h)).symm, fun part inside => ?_⟩
      rw [List.suffix_nil.mp inside]
      rfl
    | cons c rest ih =>
      cases read : Shelf.placeholder? token (c :: rest) with
      | none =>
        obtain ⟨more, later, rfl⟩ := map_eq_ok_iff.mp ((rewrite_copied read).symm.trans h)
        obtain ⟨rfl, lacks⟩ := ih later
        refine ⟨rfl, fun part inside => ?_⟩
        rcases List.suffix_cons_iff.mp inside with rfl | inner
        · exact read
        · exact lacks part inner
      | some found =>
        obtain ⟨digits, tail⟩ := found
        obtain ⟨lexeme, nonempty, split⟩ := consumes_placeholder token read
        obtain ⟨cause, lost⟩ := look_empty token digits
        rw [split] at read h
        obtain ⟨front, looked, -⟩ := bind_eq_ok_iff.mp ((rewrite_found nonempty read).symm.trans h)
        have gone : (Shelf.empty token).look digits = .ok front := looked
        rw [lost] at gone
        contradiction
  · rintro ⟨rfl, lacks⟩
    refine rewrite_idle (consumes_placeholder token) fun lexeme digits tail part found => ?_
    rw [lacks _ part] at found
    contradiction

theorem restore_part (before after : Text) {shown : Text}
    (h : (Shelf.empty token).restore (before ++ (text ++ after)) = .ok shown) :
    (Shelf.empty token).restore text = .ok text := by
  obtain ⟨-, lacks⟩ := restore_empty_iff.mp h
  refine restore_empty_iff.mpr ⟨rfl, fun part inside => ?_⟩
  cases read : Shelf.placeholder? token part with
  | none => rfl
  | some found =>
    obtain ⟨front, rfl⟩ := inside
    have whole := lacks (part ++ after) ⟨before ++ front, by simp⟩
    rw [placeholder?_append read] at whole
    contradiction

section Stages

variable {catalog : Catalog} {context : Value}

/-- A rule that reads nothing leaves the text as it is. -/
theorem rewrite_unread {α : Type} {m : Type → Type} [Monad m] [LawfulMonad m] {rule : Rule α}
    {new : Text → α → m Text} (consumes : rule.Consumes)
    (unread : ∀ ⦃rest⦄, rest <:+ text → opener <+: rest → rule rest = none) :
    rewrite (atOpener rule) new text = pure text :=
  rewrite_idle consumes.atOpener fun lexeme content tail part found => by
    obtain ⟨opens, read⟩ := atOpener_eq_some found
    rw [unread part opens] at read
    contradiction

theorem Markup.Plain.callHelpers (h : Plain text) :
    Render.callHelpers catalog context text = pure text :=
  rewrite_idle consumes_call.atOpener fun lexeme c tail part found => by
    obtain ⟨opens, read⟩ := atOpener_eq_some found
    exact callHelper_idle (.inl ((h.opening part opens).trim_call read))

/-- Of the stages after the inclusions, a flat text goes through the last two. -/
theorem Markup.Flat.finish (h : Flat text) (shelf : Shelf) :
    Render.finish catalog context text shelf =
      (Render.callHelpers catalog context text).run shelf >>= fun (text, shelf) =>
        Render.fillVariables .page context text >>= shelf.restore := by
  have loops : Render.expandLoops catalog context text = pure text :=
    rewrite_unread consumes_loop h.loop
  have choices : Render.chooseBranches .page context text = pure text :=
    rewrite_unread (consumes_choice .page) h.choice
  unfold Render.finish
  rw [loops]
  change (Render.chooseBranches .page context text >>= _) = _
  rw [choices]
  rfl

end Stages

section Engine

variable {e : Engine} {reader : Reader} {tokens : Tokens} {context : Value}

/-- A text in which no inclusion is read asks for no file. -/
theorem render_of_unread
    (unread : ∀ ⦃rest⦄, rest <:+ text → opener <+: rest → inclusion? rest = none)
    (earlier : List FilePath) :
    (e.render reader tokens context text).outcome earlier =
      (Render.finish e.catalog context text (.empty (tokens earlier.length)), earlier) := by
  have assembled (inclusion : Text → Reading (List FilePath) Text) :
      (e.assemble tokens context inclusion text).run earlier =
        (Render.finish e.catalog context text (.empty (tokens earlier.length)), earlier) := by
    have expanded : Engine.expandInclusions inclusion text = pure text :=
      rewrite_unread consumes_inclusion unread
    rw [Engine.run_assemble, expanded]
    simp only [StateT.run_pure, pure_bind]
    cases Render.finish e.catalog context text (.empty (tokens earlier.length)) <;> rfl
  unfold Engine.render
  cases e.maxDepth.toNat with
  | zero => exact assembled _
  | succ depth => exact assembled _

theorem Markup.Flat.render (h : Flat text) (earlier : List FilePath) :
    (e.render reader tokens context text).outcome earlier =
      (Render.finish e.catalog context text (.empty (tokens earlier.length)), earlier) :=
  render_of_unread h.inclusion earlier

/-- What a plain template shows, before placeholders are looked for. -/
theorem Markup.Plain.render (h : Plain text) (earlier : List FilePath) :
    (e.render reader tokens context text).outcome earlier =
      (Render.fillVariables .page context text >>=
        (Shelf.empty (tokens earlier.length)).restore, earlier) := by
  rw [h.flat.render, h.flat.finish, h.callHelpers]
  rfl

/-- The variables on both sides of a literal text are shown as if they stood alone. -/
theorem fillVariables_around {before mark after filled : Text} (first : Plain before)
    (braceless : '{' ∉ mark)
    (h : Render.fillVariables .page context (before ++ mark ++ after) = .ok filled) :
    ∃ front back, Render.fillVariables .page context before = .ok front ∧
      Render.fillVariables .page context after = .ok back ∧ filled = front ++ mark ++ back := by
  rw [Render.fillVariables, List.append_assoc, first.rewrite_append] at h
  obtain ⟨front, here, h⟩ := bind_eq_ok_iff.mp h
  obtain ⟨more, there, same⟩ := bind_eq_ok_iff.mp h
  rw [rewrite_braceless after braceless] at there
  obtain ⟨back, last, rfl⟩ := map_eq_ok_iff.mp there
  obtain rfl := pure_eq_ok_iff.mp same
  exact ⟨front, back, here, last, (List.append_assoc front mark back).symm⟩

/-- A render of two plain templates with a literal text between them shows that text between what
the renders of the two show. -/
theorem render_around {before mark after shown : Text} (first : Plain before) (last : Plain after)
    (braceless : '{' ∉ mark) {earlier : List FilePath}
    (h : ((e.render reader tokens context (before ++ mark ++ after)).outcome earlier).1 =
      .ok shown) :
    ∃ front back, ((e.render reader tokens context before).outcome earlier).1 = .ok front ∧
      ((e.render reader tokens context after).outcome earlier).1 = .ok back ∧
      shown = front ++ mark ++ back := by
  rw [((first.append (plain_of_braceless braceless)).append last).render] at h
  obtain ⟨filled, shows, restored⟩ := bind_eq_ok_iff.mp h
  obtain ⟨front, back, here, there, rfl⟩ := fillVariables_around first braceless shows
  obtain ⟨rfl, -⟩ := restore_empty_iff.mp restored
  rw [first.render, last.render]
  refine ⟨front, back, ?_, ?_, rfl⟩
  · rw [here]
    exact restore_part [] (mark ++ back) (by simpa using restored)
  · rw [there]
    exact restore_part (front ++ mark) [] (by simpa using restored)

/-- Literal text is shown as it is. -/
theorem render_literal {shown : Text} (literal : '{' ∉ text) {earlier : List FilePath}
    (h : ((e.render reader tokens context text).outcome earlier).1 = .ok shown) : shown = text := by
  rw [(plain_of_braceless literal).render] at h
  obtain ⟨filled, shows, restored⟩ := bind_eq_ok_iff.mp h
  obtain rfl := pure_eq_ok_iff.mp ((rewrite_literal literal).symm.trans shows)
  exact (restore_empty_iff.mp restored).1

end Engine

end Plain

open Markup Text

variable {pre post text : Text}

theorem fenced_placeholder (token : Token) :
    (Shelf.placeholder? token).Fenced '\x00' '\x00' where
  reads text digits tail read := by
    obtain ⟨-, -, rfl⟩ := placeholder?_eq_some_iff.mp read
    refine ⟨Shelf.lead token ++ (digits ++ ['\x00']), by simp, token.digits ++ ':' :: digits, ?_⟩
    simp [Shelf.lead]
  settled lexeme digits tail read more := by
    obtain ⟨full, all, split⟩ := placeholder?_eq_some_iff.mp read
    have whole : lexeme = Shelf.lead token ++ (digits ++ ['\x00']) := by
      refine List.append_cancel_right (?_ : _ ++ tail = _ ++ tail)
      rw [split]
      simp
    exact placeholder?_eq_some_iff.mpr ⟨full, all, by simp [whole]⟩

/-- Text that no stage reads, and that ends nothing. -/
structure Inert (pre post : Text) : Prop where
  before : '{' ∉ pre
  after : '{' ∉ post
  ends : '}' ∉ post
  unheld : Text.NulFree pre ∧ Text.NulFree post

/-- What is shown, between the texts around it. -/
def around (pre post shown : Text) : Text := pre ++ (shown ++ post)

section Stages

variable {catalog : Catalog} {context : Value} (inert : Inert pre post)
include inert

theorem rewrite_inert {α : Type} {m : Type → Type} [Monad m] [LawfulMonad m]
    {rule : Rule α} (h : rule.Fenced '{' '}') (new : Text → α → m Text) (text : Text) :
    rewrite (atOpener rule) new (around pre post text) =
      around pre post <$> rewrite (atOpener rule) new text :=
  h.atOpener.rewrite_around inert.before inert.after inert.ends text

theorem restore_around (shelf : Shelf) (text : Text) :
    shelf.restore (around pre post text) = around pre post <$> shelf.restore text :=
  (fenced_placeholder shelf.token).rewrite_around inert.unheld.1 inert.unheld.2 inert.unheld.2 text

theorem finish_around (text : Text) (shelf : Shelf) :
    Render.finish catalog context (around pre post text) shelf =
      around pre post <$> Render.finish catalog context text shelf := by
  have looped : Render.expandLoops catalog context (around pre post text) = _ :=
    rewrite_inert inert fenced_loop _ text
  have chosen (text : Text) : Render.chooseBranches .page context (around pre post text) = _ :=
    rewrite_inert inert (fenced_choice .page) _ text
  have called (text : Text) : Render.callHelpers catalog context (around pre post text) = _ :=
    rewrite_inert inert fenced_call _ text
  have filled (text : Text) : Render.fillVariables .page context (around pre post text) = _ :=
    rewrite_inert inert (fenced_variable .page) _ text
  unfold Render.finish
  rw [looped]
  simp only [StateT.run_map, bind_map_left, chosen, called, filled, restore_around inert, map_bind]
  rfl

end Stages

section Engine

variable {e : Engine} {reader : Reader} {tokens : Tokens} {context : Value}
variable (inert : Inert pre post)
include inert

theorem assemble_around (inclusion : Text → Reading (List FilePath) Text) (template : Text) :
    e.assemble tokens context inclusion (around pre post template) =
      around pre post <$> e.assemble tokens context inclusion template := by
  have expanded : Engine.expandInclusions inclusion (around pre post template) = _ :=
    rewrite_inert inert fenced_inclusion _ template
  unfold Engine.assemble
  rw [expanded]
  simp only [StateT.run_map, bind_map_left, map_bind]
  refine congrArg _ (funext fun earlier => congrArg _ (funext fun expanded => ?_))
  rw [finish_around inert]
  cases Render.finish e.catalog context expanded.1 expanded.2 <;> rfl

theorem renderWithin_around (depth : Nat) (template : Text) :
    e.renderWithin reader tokens context depth (around pre post template) =
      around pre post <$> e.renderWithin reader tokens context depth template := by
  cases depth with
  | zero => exact assemble_around inert _ template
  | succ depth => exact assemble_around inert _ template

end Engine

theorem outcome_map {σ α β : Type} (f : α → β) (x : Reading σ α) (state : σ) :
    (f <$> x).outcome state = (f <$> (x.outcome state).1, (x.outcome state).2) := by
  change (f <$> x).run state = (f <$> (x.run state).1, (x.run state).2)
  rw [map_eq_pure_bind, run_bind]
  rcases x.run state with ⟨_ | a, later⟩ <;> rfl

/-- Texts without braces and NULs around a template stand around its page, and change nothing else:
not the failure, if it fails, nor the files that are asked for. Unless a call that is made has held
output among its arguments, this is so under whatever tokens the two are rendered. -/
theorem render_surrounded (e : Engine) (reader : Reader) (context : Value)
    (pre template post : Text) (earlier : List FilePath) (before : '{' ∉ pre) (after : '{' ∉ post)
    (ends : '}' ∉ post) (preFree : NulFree pre) (postFree : NulFree post) :
    let run := fun (tokens : Tokens) (template : Text) =>
      (e.render reader tokens context template).outcome earlier
    let surround := fun (answer : Except Failure Text × List FilePath) =>
      ((fun page => pre ++ page ++ post) <$> answer.1, answer.2)
    (∀ tokens, run tokens (pre ++ template ++ post) = surround (run tokens template)) ∧
    (e.catalog.NulFree → context.NulFree → NulFree template →
      (∀ earlier path content, reader earlier path = .ok content → NulFree content) →
      (Script.render e reader context template earlier).1 ≠ .error .mixed →
      ∀ first last, run first (pre ++ template ++ post) = surround (run last template)) := by
  intro run surround
  have alike (tokens : Tokens) :
      run tokens (pre ++ template ++ post) = surround (run tokens template) := by
    have inert : Inert pre post := ⟨before, after, ends, preFree, postFree⟩
    have shape : around pre post = fun page => pre ++ page ++ post :=
      funext fun page => (List.append_assoc pre page post).symm
    have same : e.render reader tokens context (pre ++ template ++ post) =
        (fun page => pre ++ page ++ post) <$> e.render reader tokens context template := by
      have rendered : e.render reader tokens context (around pre post template) =
          around pre post <$> e.render reader tokens context template :=
        renderWithin_around inert e.maxDepth.toNat template
      rwa [shape] at rendered
    exact (congrArg (·.outcome earlier) same).trans (outcome_map _ _ _)
  refine ⟨alike, fun clean free plain files unmixed first last => ?_⟩
  rw [alike]
  have answer (tokens : Tokens) := renderWithin_eq_script e reader tokens context
    e.maxDepth.toNat template earlier clean free plain files unmixed
  have same : run first template = run last template :=
    Prod.map_injective.mpr ⟨Refusal.of_injective, Function.injective_id⟩
      ((answer first).symm.trans (answer last))
  rw [same]

/-- A loop, and a tag that is left open at the end. -/
def openTemplate : Text := sampleTemplate ++ opener ++ "a ".toList

theorem render_surrounded_sample :
    let run := fun (tokens : Tokens) (template : Text) =>
      (sampleEngine.render sampleReader tokens sampleContext template).outcome []
    run Token.ofNat (['a', '}'] ++ openTemplate ++ ['b']) =
        ((fun page => ['a', '}'] ++ page ++ ['b']) <$>
          (run (fun n => .ofNat (n + 1)) openTemplate).1,
          (run (fun n => .ofNat (n + 1)) openTemplate).2) ∧
      (run Token.ofNat openTemplate).1.toOption = some "<hi>B<hi>C\x7b\x7ba ".toList :=
  ⟨(render_surrounded sampleEngine sampleReader sampleContext ['a', '}'] openTemplate ['b'] []
    (by decide) (by decide) (by decide) (by decide) (by decide)).2 Catalog.nulFree_builtin
    sampleContext_nulFree (by decide) sampleReader_nulFree (by decide) _ _,
    by decide +kernel⟩

end Stencil
