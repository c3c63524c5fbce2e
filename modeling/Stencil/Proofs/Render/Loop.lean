import Mathlib.Data.List.Infix
import Stencil.Proofs.Render.Expansion
import Stencil.Proofs.Render.Plain

/-! Rendering a template that is one loop. If nothing is included in the body and the loop
is not closed in it, the page is what the rounds of the loop give, with everything put back
that they hold aside. -/
namespace Stencil

open Markup Text

variable {text body part name tail : Text}

theorem suffix_of_append {a b rest : Text} (within : rest <:+ a ++ b) :
    rest <:+ b ∨ ∃ part, part ≠ [] ∧ part <:+ a ∧ rest = part ++ b := by
  obtain ⟨passed, split⟩ := within
  rcases List.append_eq_append_iff.mp split with ⟨part, rfl, rfl⟩ | ⟨cut, rfl, rfl⟩
  · by_cases none : part = []
    · subst none
      exact .inl List.suffix_rfl
    · exact .inr ⟨part, none, List.suffix_append passed part, rfl⟩
  · exact .inl (List.suffix_append cut rest)

theorem opens_of_inclusion {found : Text × Text} (read : inclusion? text = some found) :
    opener <+: text := by
  obtain ⟨rest, opened, -⟩ := Option.bind_eq_some_iff.mp read
  rw [after?_eq_some_iff.mp opened, List.append_assoc]
  exact List.prefix_append opener _

/-- In a text that includes nothing, no inclusion is read anywhere. -/
theorem inclusion?_eq_none (nothing : includedNames text = []) :
    ∀ rest, rest <:+ text → inclusion? rest = none := by
  induction text with
  | nil =>
    intro rest within
    rw [List.suffix_nil.mp within]
    rfl
  | cons c more ih =>
    have lacks : ∀ lexeme name, .found lexeme name ∉ pieces (atOpener inclusion?) (c :: more) := by
      intro lexeme name member
      have included : name ∈ includedNames (c :: more) := mem_spansFrom.mpr ⟨lexeme, member⟩
      rw [nothing] at included
      contradiction
    have here : inclusion? (c :: more) = none := by
      cases read : inclusion? (c :: more) with
      | none => rfl
      | some found =>
        obtain ⟨name, tail⟩ := found
        obtain ⟨lexeme, nonempty, split⟩ := consumes_inclusion read
        have found := (atOpener_of_opens (opens_of_inclusion read)).trans read
        rw [split] at found lacks
        rw [pieces_found nonempty found] at lacks
        exact absurd List.mem_cons_self (lacks lexeme name)
    have later : includedNames more = [] := by
      refine List.eq_nil_iff_forall_not_mem.mpr fun name member => ?_
      obtain ⟨lexeme, inside⟩ := mem_spansFrom.mp member
      have copied : atOpener inclusion? (c :: more) = none := by
        rw [atOpener, here, ite_self]
      rw [pieces_copied copied] at lacks
      exact lacks lexeme name (List.mem_cons_of_mem _ inside)
    intro rest within
    rcases List.suffix_cons_iff.mp within with rfl | inner
    · exact here
    · exact ih later rest inner

/-- In an inclusion no brace opens but its own two. -/
theorem opened_of_inclusion {lexeme cut : Text}
    (named : Names (opener ++ ['>']) isFileChar closer name lexeme)
    (whole : lexeme = part ++ '{' :: cut) : part = [] ∨ cut.head? = some '>' := by
  obtain ⟨⟨before, after, rfl, leads, trails⟩, all⟩ := named
  have braceless : '{' ∉ '>' :: (before ++ (name ++ (after ++ closer))) := by
    simp only [List.mem_cons, List.mem_append, not_or]
    refine ⟨by decide, fun member => ?_, fun member => ?_, fun member => ?_, by decide⟩
    · exact absurd (leads _ member) (by decide)
    · exact absurd (all _ member) (by decide)
    · exact absurd (trails _ member) (by decide)
  cases part with
  | nil => exact .inl rfl
  | cons p part =>
    obtain ⟨-, second⟩ := List.cons.inj whole
    cases part with
    | nil =>
      obtain ⟨-, rfl⟩ := List.cons.inj second
      exact .inr rfl
    | cons q part =>
      have inner : '>' :: (before ++ (name ++ (after ++ closer))) = part ++ '{' :: cut :=
        (List.cons.inj second).2
      exact absurd (inner ▸ List.mem_append_right part List.mem_cons_self) braceless

/-- An inclusion that is read before the end of a loop ends before it. -/
theorem inclusion?_of_closer (full : part ≠ [])
    (read : inclusion? (part ++ eachCloser) = some (name, tail)) :
    ∃ more, inclusion? part = some (name, more) := by
  obtain ⟨lexeme, split, named⟩ := reads_tag read
  have again := named.read (word_of_tag read) (fun _ => isBlank_of_isFileChar) (by decide)
    (by decide)
  rcases List.append_eq_append_iff.mp split with ⟨cut, whole, ends⟩ | ⟨more, rfl, -⟩
  · cases cut with
    | nil =>
      obtain rfl : lexeme = part := whole.trans (List.append_nil part)
      exact ⟨[], List.append_nil lexeme ▸ again []⟩
    | cons c cut =>
      -- The lexeme would have a brace of the closing in it, behind its own two.
      obtain ⟨rfl, second⟩ := List.cons.inj ends
      rcases opened_of_inclusion named whole with none | angle
      · exact absurd none full
      · cases cut with
        | nil => cases angle
        | cons d cut =>
          obtain ⟨rfl, -⟩ := List.cons.inj second
          cases angle
  · exact ⟨more, again more⟩

/-- A template that is one loop. -/
def loopText (path body : Text) : Text := Template.eachTag path ++ (body ++ eachCloser)

/-- What a body has to be so that it is the whole body of a loop, and the first stage leaves it. -/
structure LoopBody (body : Text) : Prop where
  unclosed : ¬eachCloser <:+: body
  unread : ∀ rest, rest <:+ body → inclusion? rest = none

theorem Markup.Plain.loopBody (h : Plain body) : LoopBody body where
  unclosed := by
    rintro ⟨front, back, split⟩
    have within : eachCloser ++ back <:+ body := ⟨front, by rw [← split, List.append_assoc]⟩
    have led : after? eachCloser (eachCloser ++ back) = none :=
      (h.opening within (List.prefix_append opener _)).led (c := '/') (by decide) (by decide)
        (by decide) "each\x7d\x7d".toList
    rw [after?_eq_some_iff.mpr rfl] at led
    contradiction
  unread rest within := by
    cases read : inclusion? rest with
    | none => rfl
    | some found => rw [← read, h.flat.inclusion within (opens_of_inclusion read)]

section Reading

variable {path : Text} (all : ∀ c ∈ path, isPathChar .page c = true)
include all

theorem eachTag_opens {front back rest : Text} (split : Template.eachTag path = front ++ back)
    (left : back ≠ []) (opens : opener <+: back ++ rest) : back = Template.eachTag path := by
  have braceless : '{' ∉ "#each ".toList ++ path ++ closer := by
    simp only [List.mem_append, not_or]
    exact ⟨⟨by decide, fun member => absurd (all _ member) (by decide)⟩, by decide⟩
  have shape : Template.eachTag path = opener ++ ("#each ".toList ++ path ++ closer) :=
    List.append_assoc _ _ _
  exact (eq_of_opens (by simp) braceless (shape.symm.trans split) left opens).trans shape.symm

theorem inclusion?_loopText (h : LoopBody body) ⦃rest : Text⦄ (within : rest <:+ loopText path body)
    (opens : opener <+: rest) : inclusion? rest = none := by
  rcases suffix_of_append within with later | ⟨part, nonempty, ⟨front, split⟩, rfl⟩
  · rcases suffix_of_append later with ending | ⟨part, nonempty, inside, rfl⟩
    · exact (by decide : ∀ rest ∈ eachCloser.tails, inclusion? rest = none) rest
        ((List.mem_tails _ _).mpr ending)
    · cases read : inclusion? (part ++ eachCloser) with
      | none => rfl
      | some found =>
        obtain ⟨more, again⟩ := inclusion?_of_closer nonempty read
        rw [h.unread part inside] at again
        contradiction
  · rw [eachTag_opens all split.symm nonempty opens]
    rfl

end Reading

theorem loop?_loopText {path : Text} (full : path ≠ [])
    (all : ∀ c ∈ path, isPathChar .page c = true) (unclosed : ¬eachCloser <:+: body) :
    loop? (loopText path body) = some (⟨path, body, none⟩, []) := by
  have opened : each? (loopText path body) = some (path, body ++ eachCloser) :=
    spacedTag?_tag full all "#each".toList (body ++ eachCloser)
  have cut : cut? eachCloser (body ++ eachCloser) = some (body, []) := by
    rw [← List.append_nil (body ++ eachCloser)]
    exact cut?_around (not_beginsIn (by decide) unclosed) []
  rw [loop?, block?, opened]
  dsimp only [Option.bind_eq_bind, Option.bind_some]
  rw [cut]
  rfl

theorem keep_restored (text : Text) (shelf : Shelf) :
    (shelf.keep text >>= fun kept => kept.2.restore kept.1) = shelf.restore text := by
  cases text with
  | nil => rfl
  | cons c text =>
    change ((shelf.restore (c :: text) >>= fun held => pure (Shelf.placeholder shelf.token
      shelf.held.size, (⟨shelf.token, shelf.held.push held⟩ : Shelf))) >>= _) = _
    cases restored : shelf.restore (c :: text) with
    | error failure => rfl
    | ok held =>
      let later : Shelf := ⟨shelf.token, shelf.held.push held⟩
      have last : later.held[shelf.held.size]? = some held := Array.getElem?_push_size
      have spelled := (Shelf.Spells.nil.chunk last).restore
      rw [List.append_nil] at spelled
      exact spelled.trans (congrArg Except.ok (List.append_nil held))

theorem braceless_keep {shelf : Shelf} {kept : Text × Shelf} (same : shelf.keep text = .ok kept) :
    '{' ∉ kept.1 := by
  cases text with
  | nil =>
    cases same
    exact List.not_mem_nil
  | cons c text =>
    obtain ⟨held, -, same⟩ := bind_eq_ok_iff.mp same
    cases same
    exact (Shelf.braceless_placeholder shelf.token shelf.held.size).1

section Stages

variable {catalog : Catalog} {context : Value} {path : Text} (full : path ≠ [])
variable (all : ∀ c ∈ path, isPathChar .page c = true)
include full all

theorem expandLoops_loopText (unclosed : ¬eachCloser <:+: body) (shelf : Shelf) :
    (Render.expandLoops catalog context (loopText path body)).run shelf =
      (Render.runLoop catalog context ⟨path, body, none⟩).run shelf >>= fun looped =>
        looped.2.keep looped.1 := by
  have opens : opener <+: loopText path body ++ [] := by
    simp [loopText, Template.eachTag, Template.tag]
  have found : atOpener loop? (loopText path body ++ []) = some (⟨path, body, none⟩, []) := by
    rw [atOpener_of_opens opens, List.append_nil, loop?_loopText full all unclosed]
  have nonempty : loopText path body ≠ [] := by
    simp [loopText, Template.eachTag, Template.tag, opener]
  rw [← List.append_nil (loopText path body), Render.expandLoops, rewrite_found nonempty found,
    rewrite_nil]
  simp only [map_pure, List.append_nil, bind_pure]
  change (_ >>= fun looped : Text × Shelf =>
    (setAside looped.1 : Render.Holding Text) looped.2) = _
  simp only [setAside_holding]
  rfl

/-- After a loop that is all, nothing is left to do but to put back what was held aside. -/
theorem finish_loopText (unclosed : ¬eachCloser <:+: body) (shelf : Shelf) :
    Render.finish catalog context (loopText path body) shelf =
      (Render.runLoop catalog context ⟨path, body, none⟩).run shelf >>= fun looped =>
        looped.2.restore looped.1 := by
  have rest : ∀ kept : Text × Shelf, '{' ∉ kept.1 →
      (Render.chooseBranches .page context kept.1 >>= fun chosen =>
        (Render.callHelpers catalog context chosen).run kept.2 >>= fun called =>
          Render.fillVariables .page context called.1 >>= called.2.restore) =
        kept.2.restore kept.1 := by
    intro kept braceless
    rw [Render.chooseBranches, rewrite_literal braceless, pure_bind, Render.callHelpers,
      rewrite_literal braceless, StateT.run_pure, pure_bind, Render.fillVariables,
      rewrite_literal braceless, pure_bind]
  unfold Render.finish
  rw [expandLoops_loopText full all unclosed, bind_assoc]
  refine congrArg _ (funext fun looped => ?_)
  rw [← keep_restored]
  cases kept : looped.2.keep looped.1 with
  | error failure => rfl
  | ok kept' => exact rest kept' (braceless_keep kept)

end Stages

/-- Rounds that do not see where they are in the loop. -/
theorem runRounds_eq {catalog : Catalog} {m : Mapping} {items : List Value}
    {f : Value → Render.Holding Text}
    (each : ∀ (item : Value) (index : Nat),
      Render.runRound catalog (.mapping (m.withItem item index items.length)) body = f item) :
    Render.runRounds catalog (.mapping m) body items = List.flatten <$> items.mapM f := by
  have round : ∀ (item : Value) (index : Nat),
      (do
        let scope ← itemScope (.mapping m) item index items.length
        Render.runRound catalog scope body : Render.Holding Text) = f item := each
  have firsts : items.zipIdx.map Prod.fst = items := List.zipIdx_map_fst 0 items
  unfold Render.runRounds
  simp only [round]
  conv_rhs => rw [← firsts, List.mapM_map]
  rfl

/-- What a template that is one loop comes to. -/
theorem render_loopText {e : Engine} {reader : Reader} {tokens : Tokens} {context : Value}
    {path : Text} (full : path ≠ []) (all : ∀ c ∈ path, isPathChar .page c = true)
    (h : LoopBody body) (earlier : List FilePath) :
    (e.render reader tokens context (loopText path body)).outcome earlier =
      ((Render.runLoop e.catalog context ⟨path, body, none⟩).run
          (.empty (tokens earlier.length)) >>= fun looped => looped.2.restore looped.1, earlier) := by
  rw [render_of_unread (inclusion?_loopText all h), finish_loopText full all h.unclosed]

end Stencil
