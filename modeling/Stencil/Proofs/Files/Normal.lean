import Mathlib.Algebra.Order.BigOperators.Group.List
import Mathlib.Algebra.Order.Group.Nat
import Stencil.Files.Tree
import Stencil.Proofs.Text.Parts

/-! Normal paths lead to the same files. Where a path is followed to a file, every double
point leaves a directory that was there, so the path without it leads there too. The
converse fails: the path as it is written may go through a directory that is not there. A
written path tells the path. -/
namespace Stencil

/-- A path whose names can be told from what stands around them. -/
def FilePath.Proper (path : FilePath) : Prop :=
  ∀ name ∈ path.names, FilePath.isName name = true ∧ '/' ∉ name

namespace FilePath

theorem proper_ofText (text : Text) : (ofText text).Proper := by
  intro name member
  obtain ⟨part, named⟩ := List.mem_filter.mp member
  exact ⟨named, Text.not_mem_of_mem_parts part⟩

theorem Proper.join {base path : FilePath} (first : base.Proper) (last : path.Proper) :
    (base.join path).Proper := by
  unfold FilePath.join
  split
  · intro name member
    rcases List.mem_append.mp member with before | after
    · exact first name before
    · exact last name after
  · exact last

theorem Proper.child {base : FilePath} (h : base.Proper) (name : Text) : (base.child name).Proper :=
  h.join (proper_ofText name)

theorem ne_nil_of_isName {name : Text} (h : isName name = true) : name ≠ [] := by
  rintro rfl
  contradiction

/-- A name starts with a character that is no slash, and so do names with slashes between them. -/
theorem Proper.start {path : FilePath} (h : path.Proper) {name : Text} {rest : List Text}
    (shape : path.names = name :: rest) :
    ∃ c more, c ≠ '/' ∧ List.intercalate ['/'] path.names = c :: more := by
  obtain ⟨named, free⟩ := h name (by simp [shape])
  obtain ⟨c, letters, rfl⟩ := List.exists_cons_of_ne_nil (ne_nil_of_isName named)
  have solid : c ≠ '/' := fun same => free (same ▸ List.mem_cons_self)
  rw [shape]
  cases rest with
  | nil => exact ⟨c, letters, solid, by simp⟩
  | cons other rest => exact ⟨c, _, solid, by rw [List.intercalate_cons_cons]; rfl⟩

theorem root_ofText {c : Char} (solid : c ≠ '/') (root : Root) (more : Text) :
    Root.ofText (root.text ++ c :: more) = root := by
  cases root with
  | relative => simp [Root.text, Root.ofText, solid]
  | slash => simp [Root.text, Root.ofText, solid]
  | slashes => simp [Root.text, Root.ofText, solid]

theorem names_after_root (root : Root) (t : Text) :
    (Text.parts '/' (root.text ++ t)).filter isName = (Text.parts '/' t).filter isName := by
  cases root with
  | relative => rfl
  | slash => simp [Root.text, Text.parts, isName]
  | slashes => simp [Root.text, Text.parts, isName]

theorem text_of_ne_nil {path : FilePath} (full : path.names ≠ []) :
    path.text = path.root.text ++ List.intercalate ['/'] path.names := by
  unfold FilePath.text
  split
  next empty => exact absurd empty full
  next => rfl

theorem ofText_text {path : FilePath} (h : path.Proper) : ofText path.text = path := by
  cases shape : path.names with
  | nil =>
    obtain ⟨root, names⟩ := path
    obtain rfl : names = [] := shape
    cases root <;> rfl
  | cons name rest =>
    have full : path.names ≠ [] := by simp [shape]
    obtain ⟨c, more, solid, start⟩ := h.start shape
    have named : path.names.filter isName = path.names :=
      List.filter_eq_self.mpr fun name member => (h name member).1
    have parts := Text.parts_intercalate full fun name member => (h name member).2
    rw [text_of_ne_nil full, ofText, names_after_root, parts, named, start, root_ofText solid]

theorem text_injective {path other : FilePath} (h : path.Proper) (h' : other.Proper)
    (same : path.text = other.text) : path = other := by
  rw [← ofText_text h, ← ofText_text h', same]

end FilePath

theorem Views.proper_view {v : Views} (h : v.directory.Proper) (name : Text) :
    (v.view name).Proper := h.child _

theorem Views.proper_layout {v : Views} (h : v.directory.Proper) (name : Text) :
    (v.layout name).Proper := (h.child _).child _

namespace FilePath

/-- Where one name leads from the names reached so far. -/
def enter (reached : List Text) (name : Text) : List Text :=
  if name = up then reached.dropLast else reached ++ [name]

/-- The names reached, last first, with double points that no name was left for. -/
def stack (reached : List Text) (ups : Nat) : List Text :=
  reached.reverse ++ List.replicate ups up

theorem not_mem_enter {reached : List Text} (plain : up ∉ reached) (name : Text) :
    up ∉ enter reached name := by
  unfold enter
  split
  · exact fun member => plain ((List.dropLast_sublist reached).mem member)
  next ne => simp [plain, Ne.symm ne]

theorem push_stack {reached : List Text} (plain : up ∉ reached) (rooted : Bool) (ups : Nat)
    (name : Text) :
    ∃ more, push rooted (stack reached ups) name = stack (enter reached name) more := by
  unfold push enter stack
  by_cases back : name = up
  · subst back
    rcases List.eq_nil_or_concat reached with rfl | ⟨front, last, rfl⟩
    -- No name is left to leave: the double point is kept, but not directly below a root.
    · cases ups with
      | zero => cases rooted with
        | false => exact ⟨1, rfl⟩
        | true => exact ⟨0, rfl⟩
      | succ ups => exact ⟨ups + 2, by simp [List.replicate_succ]⟩
    · have ne : last ≠ up := fun same => plain (by simp [same])
      exact ⟨ups, by simp [ne]⟩
  · exact ⟨ups, by simp [back]⟩

/-- Only names of the path are left in its normal form, in their order. -/
theorem push_sublist (rooted : Bool) (kept : List Text) (name : Text) :
    (push rooted kept name).reverse.Sublist (kept.reverse ++ [name]) := by
  unfold push
  split
  · simp
  next back =>
    have same : name = up := not_not.mp back
    subst same
    split
    · split <;> simp
    next last rest =>
      split
      · simp_all
      · simp

theorem names_normal_sublist (path : FilePath) : path.normal.names.Sublist path.names := by
  have all : ∀ (kept names : List Text),
      (names.foldl (push (path.root ≠ .relative)) kept).reverse.Sublist (kept.reverse ++ names) := by
    intro kept names
    induction names generalizing kept with
    | nil => simp
    | cons name rest ih =>
      have first := (push_sublist (path.root ≠ .relative) kept name).append_right rest
      rw [List.append_assoc] at first
      exact (ih _).trans first
  exact all [] path.names

theorem Proper.normal {path : FilePath} (h : path.Proper) : path.normal.Proper :=
  fun name member => h name (path.names_normal_sublist.mem member)

end FilePath

namespace FileTree

open FilePath

variable {tree : FileTree} {reached r : List Text} {path : FilePath} {content : Text}

/-- Every place on the way to the names is a directory that is there. -/
def Open (tree : FileTree) (names : List Text) : Prop :=
  ∀ front, front <+: names → front ≠ names → tree.isDirectory front = true

theorem isDirectory_root (tree : FileTree) : tree.isDirectory [] = true := rfl

theorem locate?_cons (tree : FileTree) (reached : List Text) (name : Text) (rest : List Text) :
    tree.locate? reached (name :: rest) =
      if rest = [] ∨ tree.isDirectory (enter reached name) = true
        then tree.locate? (enter reached name) rest else none := by
  simp only [locate?, enter, Bool.or_eq_true, decide_eq_true_eq]
  congr

/-- Following a path and working off its double points come to the same names, and what is passed
on the way there is a directory. -/
theorem locate?_normal {names : List Text} (rooted : Bool) (ups : Nat) (plain : up ∉ reached)
    (passed : ∀ front, front <+: reached → tree.isDirectory front = true) (full : names ≠ [])
    (found : tree.locate? reached names = some r) :
    (∃ more, names.foldl (push rooted) (stack reached ups) = stack r more) ∧ up ∉ r ∧
      tree.Open r := by
  -- Along the names, with what is passed so far in `reached`: it is all directories, since only
  -- the last name of the path need not be one.
  induction names generalizing reached ups with
  | nil => contradiction
  | cons name rest ih =>
    rw [locate?_cons] at found
    obtain ⟨more, pushed⟩ := push_stack plain rooted ups name
    have plain' := not_mem_enter plain name
    rw [List.foldl_cons, pushed]
    have before : tree.Open (enter reached name) := by
      intro front starts ne
      by_cases back : name = up
      · rw [enter, if_pos back] at starts
        exact passed front (starts.trans (List.dropLast_prefix reached))
      · rw [enter, if_neg back] at starts ne
        rcases List.prefix_concat_iff.mp starts with same | early
        · exact absurd same ne
        · exact passed front early
    by_cases last : rest = []
    · subst last
      rw [if_pos (.inl rfl)] at found
      cases found
      exact ⟨⟨more, rfl⟩, plain', before⟩
    · split at found
      next entered =>
        have directory := entered.resolve_left last
        refine ih more plain' (fun front starts => ?_) last found
        by_cases whole : front = enter reached name
        · exact whole ▸ directory
        · exact before front starts whole
      next => contradiction

theorem locate?_of_open {names : List Text} (plain : up ∉ names)
    (clear : tree.Open (reached ++ names)) :
    tree.locate? reached names = some (reached ++ names) := by
  induction names generalizing reached with
  | nil => simp [locate?]
  | cons name rest ih =>
    obtain ⟨ne, plain⟩ := not_or.mp (mt List.mem_cons.mpr plain)
    have entered : enter reached name = reached ++ [name] := if_neg (Ne.symm ne)
    have shape : reached ++ name :: rest = (reached ++ [name]) ++ rest := by simp
    rw [shape] at clear ⊢
    rw [locate?_cons, entered, if_pos, ih plain clear]
    by_cases last : rest = []
    · exact .inl last
    · refine .inr (clear _ (List.prefix_append _ rest) ?_)
      simpa using last

/-- Above the root there is only the root. -/
theorem locate?_ups {names : List Text} (ups : Nat) :
    tree.locate? [] (List.replicate ups up ++ names) = tree.locate? [] names := by
  induction ups with
  | zero => rfl
  | succ ups ih =>
    rw [List.replicate_succ, List.cons_append, locate?_cons, ← ih]
    exact if_pos (.inr rfl)

theorem byteCount_le {s t : Text} (h : s.Sublist t) : byteCount s ≤ byteCount t := by
  unfold byteCount
  rw [← List.sum_eq_foldl, ← List.sum_eq_foldl]
  exact (h.map _).sum_le_sum fun _ _ => Nat.zero_le _

theorem intercalate_sublist {names more : List Text} (h : names.Sublist more) (separator : Text) :
    (List.intercalate separator names).Sublist (List.intercalate separator more) := by
  induction h with
  | slnil => exact .refl _
  | @cons names more name h ih =>
    refine ih.trans ?_
    cases more with
    | nil => simp
    | cons other more =>
      rw [List.intercalate_cons_cons]
      exact List.sublist_append_right _ _
  | @cons_cons names more name h ih =>
    cases names with
    | nil =>
      cases more with
      | nil => exact .refl _
      | cons other more =>
        rw [List.intercalate_cons_cons, List.append_assoc, List.intercalate_singleton]
        exact List.sublist_append_left _ _
    | cons first names =>
      cases more with
      | nil => cases h
      | cons other more =>
        rw [List.intercalate_cons_cons, List.intercalate_cons_cons]
        exact ih.append_left _

theorem read_eq_ok_iff :
    tree.read path = .ok content ↔
      (∀ name ∈ path.names, '\x00' ∉ name) ∧ byteCount path.text ≤ maxPathBytes ∧
        ∃ names bytes, tree.locate? [] path.names = some names ∧
          tree.node? names = some (.file bytes) ∧ decode bytes = .ok content := by
  unfold FileTree.read
  by_cases nul : path.names.any (·.contains '\x00') = true
  · rw [if_pos nul]
    refine ⟨nofun, fun ⟨free, _⟩ => ?_⟩
    obtain ⟨name, member, found⟩ := List.any_eq_true.mp nul
    exact absurd (List.contains_iff_mem.mp found) (free name member)
  · have free : ∀ name ∈ path.names, '\x00' ∉ name := by simpa using nul
    rw [if_neg nul]
    by_cases long : maxPathBytes < byteCount path.text
    · rw [if_pos long]
      exact ⟨nofun, fun ⟨_, short, _⟩ => absurd long (Nat.not_lt.mpr short)⟩
    · rw [if_neg long]
      constructor
      · intro read
        split at read
        next bytes found =>
          obtain ⟨names, located, file⟩ := Option.bind_eq_some_iff.mp found
          exact ⟨free, Nat.not_lt.mp long, names, bytes, located, file, read⟩
        next => contradiction
      · rintro ⟨-, -, names, bytes, located, file, decoded⟩
        rw [located, Option.bind_some, file]
        exact decoded

/-- What is read under a path as it is written is read under its normal form. With symbolic links,
which a tree does not have, the two could lead to different files. -/
theorem read_normal (read : tree.read path = .ok content) :
    tree.read path.normal = .ok content := by
  obtain ⟨nulFree, short, r, bytes, located, file, decoded⟩ := read_eq_ok_iff.mp read
  have named : r ≠ [] := by
    rintro rfl
    rw [node?, if_pos rfl] at file
    cases file
  have full : path.names ≠ [] := by
    intro empty
    rw [empty, locate?] at located
    exact named (Option.some.inj located).symm
  obtain ⟨⟨ups, pushed⟩, plain, clear⟩ := locate?_normal (path.root ≠ .relative) 0
    List.not_mem_nil (by simp [isDirectory_root]) full located
  have normal : path.normal.names = List.replicate ups up ++ r :=
    calc path.normal.names
      _ = (stack r ups).reverse := congrArg List.reverse pushed
      _ = List.replicate ups up ++ r := by simp [stack]
  have sub := path.names_normal_sublist
  refine read_eq_ok_iff.mpr ⟨fun name member => nulFree name (sub.mem member), ?_, r, bytes, ?_,
    file, decoded⟩
  · rw [text_of_ne_nil full] at short
    rw [text_of_ne_nil (by simp [normal, named])]
    exact (byteCount_le ((intercalate_sublist sub _).append_left _)).trans short
  · rw [normal, locate?_ups, locate?_of_open plain clear]
    rfl

end FileTree

end Stencil
