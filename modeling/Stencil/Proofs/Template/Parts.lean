import Stencil.Proofs.Template.Tags

/-! The script of a tree, part by part: what a form of tag passes over, and how a rewriting
of the parts makes one of the whole. -/
namespace Stencil.Template

open Markup Script

variable {catalog : Catalog} {place : Place} {ι α β : Type} {starts : Script → Prop}

/-- The script of a leaf once its inclusion is known. -/
abbrev Leaf.script : Leaf catalog place Text → Script := Leaf.print ofText hold

/-- The script of conditions and what is in them. -/
def flatScript (flat : List (Conditional place (Leaf catalog place Text))) : Script :=
  flat.flatMap (Conditional.print ofText Leaf.script)

theorem Path.opens (path : Path place) : '{' ∉ path.text := path.lacks (isPathChar_brace place)

theorem Call.opens (c : Call catalog) : '{' ∉ c.name.text := c.name.lacks (by decide)

theorem Leaf.skips {c : Char} {more : Text} (led : LedBy (c :: more) starts) (solid : c ≠ ' ')
    (other : c ≠ '{') (included : ι → Script) (l : Leaf catalog place ι)
    (held : ∀ content, Skips starts (included content)) :
    Skips starts (l.print ofText included) := by
  cases l with
  | literal l => exact skips_braceless led.braced l.noOpening
  | shown raw path => exact led.skips_variable solid other raw path.opens
  | call c => exact led.skips_call solid c.opens c.noOpening
  | inclusion content => exact held content

theorem Leaf.skips_script {c : Char} {more : Text} (led : LedBy (c :: more) starts)
    (solid : c ≠ ' ') (other : c ≠ '{') (l : Leaf catalog place Text) : Skips starts l.script :=
  l.skips led solid other hold (skips_hold led.braced)

/-- The tags of conditions are passed over. -/
structure SkipsConditions (starts : Script → Prop) : Prop where
  opening : ∀ {place : Place} (path : Path place), Skips starts (ofText (conditionTag path.text))
  otherwise : Skips starts (ofText otherwise)
  closing : Skips starts (ofText conditionCloser)

theorem skipsConditions_inclusion : SkipsConditions (Found inclusion?) where
  opening path := ledBy_inclusion.skips_tag _ (by simp [path.opens]) fun _ => rfl
  otherwise := ledBy_inclusion.skips_tag "else".toList (by decide) fun _ => rfl
  closing := ledBy_inclusion.skips_tag "/if".toList (by decide) fun _ => rfl

theorem skipsConditions_loop : SkipsConditions (Found loop?) where
  opening path := ledBy_loop.skips_tag _ (by simp [path.opens]) fun _ => rfl
  otherwise := ledBy_loop.skips_tag "else".toList (by decide) fun _ => rfl
  closing := ledBy_loop.skips_tag "/if".toList (by decide) fun _ => rfl

theorem skipsConditions_eachCloser : SkipsConditions (Marked eachCloser) where
  opening path := (ledBy_mark _).skips_tag _ (by simp [path.opens]) fun _ => rfl
  otherwise := (ledBy_mark _).skips_tag "else".toList (by decide) fun _ => rfl
  closing := (ledBy_mark _).skips_tag "/if".toList (by decide) fun _ => rfl

theorem SkipsConditions.print (h : SkipsConditions starts) {part : α → Script}
    (each : ∀ a, Skips starts (part a)) (c : Conditional place α) :
    Skips starts (c.print ofText part) := by
  cases c with
  | plain a => exact each a
  | choice path yes no? =>
    have first := (h.opening path).append (skips_flatMap fun a (_ : a ∈ yes) => each a)
    cases no? with
    | none => exact first.append h.closing
    | some no =>
      have last := skips_flatMap fun a (_ : a ∈ no) => each a
      exact ((first.append h.otherwise).append last).append h.closing

theorem Loop.skips_eachCloser (l : Loop catalog ι) (included : ι → Script)
    (held : ∀ content, Skips (Marked eachCloser) (included content)) :
    Skips (Marked eachCloser)
      (l.body.flatMap (Conditional.print ofText (Leaf.print ofText included))) :=
  skips_flatMap fun c _ => skipsConditions_eachCloser.print
    (fun leaf => leaf.skips (ledBy_mark _) (by decide) (by decide) included held) c

section Rewriting

variable {m : Type → Type} [Monad m] [LawfulMonad m] {γ : Type} {rule : Script.Rule γ}
variable {new : Script → γ → m Script} {p : α → Script} {q : β → Script} {f : α → m β}

theorem rewrites_parts (each : ∀ a, Rewrites rule new (p a) (q <$> f a)) (l : List α) :
    Rewrites rule new (l.flatMap p) ((·.flatMap q) <$> l.mapM f) := by
  have whole := rewrites_flatMap fun a (_ : a ∈ l) => each a
  rw [mapM_map_result] at whole
  simpa [List.flatMap_def, Function.comp_def] using whole

theorem rewrites_conditional (skips : SkipsConditions (Found rule))
    (each : ∀ a, Rewrites rule new (p a) (q <$> f a)) (c : Conditional place α) :
    Rewrites rule new (c.print ofText p) (Conditional.print ofText q <$> c.fill f) := by
  cases c with
  | plain a =>
    have same : Conditional.print ofText q <$> (Conditional.plain a : Conditional place α).fill f =
        q <$> f a := by simp [Conditional.fill, Conditional.print]
    rw [same]
    exact each a
  | choice path yes no? =>
    have opening : Rewrites rule new _ _ := rewrites_skipped (skips.opening path)
    have start := opening.append (rewrites_parts each yes)
    have closing : Rewrites rule new _ _ := rewrites_skipped skips.closing
    cases no? with
    | none =>
      simpa [Conditional.fill, Conditional.print, Functor.map_map] using start.append closing
    | some no =>
      have between : Rewrites rule new _ _ := rewrites_skipped skips.otherwise
      have whole := ((start.append between).append (rewrites_parts each no)).append closing
      simpa [Conditional.fill, Conditional.print, Functor.map_map] using whole

end Rewriting

section Translation

variable {m n : Type → Type} [Monad m] [LawfulMonad m] [Monad n] [LawfulMonad n]
variable (T : Translation m n)

theorem Leaf.read_fill (f : ι → m α) (l : Leaf catalog place ι) :
    T.read (l.fill f) = l.fill fun content => T.read (f content) := by
  cases l with
  | inclusion content => exact T.map _ _
  | _ => exact T.pure _

theorem Conditional.read_fill (f : α → m β) (c : Conditional place α) :
    T.read (c.fill f) = c.fill fun a => T.read (f a) := by
  cases c with
  | plain a => exact T.map _ _
  | choice path yes no? => cases no? <;> simp only [fill, T.bind, T.mapM, T.pure]

theorem Conditional.read_mapM_fill {f : α → m β} {g : α → n β} (each : ∀ a, T.read (f a) = g a)
    (parts : List (Conditional place α)) :
    T.read (parts.mapM (Conditional.fill f)) = parts.mapM (Conditional.fill g) := by
  rw [T.mapM]
  refine congrArg (List.mapM · parts) (funext fun c => ?_)
  rw [c.read_fill, funext each]

theorem Item.read_fill (f : ι → m α) (item : Item catalog ι) :
    T.read (item.fill f) = item.fill fun content => T.read (f content) := by
  cases item with
  | leaf l => simp only [fill, T.map, l.read_fill]
  | loop l =>
    have body := Conditional.read_mapM_fill T (Leaf.read_fill T f) l.body
    simp only [fill, Loop.fill, T.map, T.bind, T.pure, body]

theorem Page.read_fill (f : ι → m α) (page : Page catalog ι) :
    T.read (page.fill f) = page.fill fun content => T.read (f content) :=
  Conditional.read_mapM_fill T (Item.read_fill T f) page

end Translation

theorem ofText_leaf (included : ι → Text) (l : Leaf catalog place ι) :
    ofText (l.print id included) = l.print ofText fun content => ofText (included content) := by
  cases l <;> rfl

theorem ofText_flatMap {f : α → Text} {g : α → Script} (each : ∀ a, ofText (f a) = g a)
    (l : List α) : ofText (l.flatMap f) = l.flatMap g := by
  induction l with
  | nil => rfl
  | cons a l ih => rw [List.flatMap_cons, List.flatMap_cons, ofText_append, each, ih]

theorem ofText_conditional {f : α → Text} {g : α → Script} (each : ∀ a, ofText (f a) = g a)
    (c : Conditional place α) : ofText (c.print id f) = c.print ofText g := by
  cases c with
  | plain a => exact each a
  | choice path yes no? =>
    cases no? <;> simp [Conditional.print, ofText_flatMap each]

theorem ofText_item (included : ι → Text) (item : Item catalog ι) :
    ofText (item.print id included) =
      item.print ofText fun content => ofText (included content) := by
  cases item with
  | leaf l => exact ofText_leaf included l
  | loop l =>
    have body := ofText_flatMap (ofText_conditional (ofText_leaf included)) l.body
    simp [Item.print, Loop.print, body]

theorem ofText_page (included : ι → Text) (page : Page catalog ι) :
    ofText (page.print id included) = page.print ofText fun content => ofText (included content) :=
  ofText_flatMap (ofText_conditional (ofText_item included)) page

end Stencil.Template
