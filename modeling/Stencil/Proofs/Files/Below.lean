import Stencil.Proofs.Files.Normal

/-! Files below a place, and files that are replaced by empty ones. A path without double
points leads down from where it starts; the file of a name without points so lies below the
directory of included files, unless the name starts with a slash: then it replaces the
directory. -/
namespace Stencil

namespace FilePath

/-- The path goes on below the other one and never up. -/
def Below (base path : FilePath) : Prop :=
  path.root = base.root ∧ ∃ below, below ≠ [] ∧ up ∉ below ∧ path.names = base.names ++ below

theorem root_eq_relative_iff (text : Text) :
    Root.ofText text = .relative ↔ text.head? ≠ some '/' := by
  unfold Root.ofText
  split
  · simp
  · split <;> simp
  · simp
  next other =>
    cases text with
    | nil => simp
    | cons c rest =>
      by_cases slash : c = '/'
      · subst slash
        exact absurd rfl (other rest)
      · simp [slash]

theorem child_of_relative {name : Text} (relative : name.head? ≠ some '/') (base : FilePath) :
    base.child name = ⟨base.root, base.names ++ (ofText name).names⟩ := by
  have root : (ofText name).root = .relative := (root_eq_relative_iff name).mpr relative
  rw [child, join, root]

theorem child_of_rooted {name : Text} (rooted : name.head? = some '/') (base : FilePath) :
    base.child name = ofText name := by
  have root : (ofText name).root ≠ .relative := fun same =>
    (root_eq_relative_iff name).mp same rooted
  unfold child join
  split
  next relative => exact absurd relative root
  next => rfl

/-- No name can climb where a point stands only once. -/
theorem up_not_mem_ofText {text : Text} (once : text.count '.' ≤ 1) :
    up ∉ (ofText text).names := by
  intro member
  have part : up ∈ Text.parts '/' text := (List.mem_filter.mp member).1
  have points := calc
    2 ≤ (Text.parts '/' text).flatten.count '.' :=
      (List.sublist_flatten_of_mem part).count_le '.'
    _ = (text.filter (· ≠ '/')).count '.' := by rw [Text.flatten_parts]
    _ ≤ text.count '.' := List.filter_sublist.count_le '.'
  omega

theorem names_ofText_ne_nil {text : Text} {c : Char} (member : c ∈ text) (slash : c ≠ '/')
    (point : c ≠ '.') : (ofText text).names ≠ [] := by
  have kept : c ∈ (Text.parts '/' text).flatten := by
    rw [Text.flatten_parts]
    exact List.mem_filter.mpr ⟨member, by simpa using slash⟩
  obtain ⟨part, parted, inside⟩ := List.mem_flatten.mp kept
  have named : isName part = true := by
    unfold isName
    rw [Bool.and_eq_true, decide_eq_true_iff, decide_eq_true_iff]
    refine ⟨List.ne_nil_of_mem inside, ?_⟩
    rintro rfl
    exact point (List.mem_singleton.mp inside)
  exact List.ne_nil_of_mem (List.mem_filter.mpr ⟨parted, named⟩)

end FilePath

namespace FileTree

open FilePath

variable {tree : FileTree} {reached names below place : List Text}

theorem locate?_append (full : below ≠ [])
    (found : tree.locate? reached (names ++ below) = some place) :
    ∃ start, tree.locate? reached names = some start ∧ tree.locate? start below = some place := by
  induction names generalizing reached with
  | nil => exact ⟨reached, rfl, found⟩
  | cons name names ih =>
    rw [List.cons_append, locate?_cons] at found
    split at found
    next entered =>
      have directory := entered.resolve_left (by simp [full])
      obtain ⟨start, before, after⟩ := ih found
      refine ⟨start, ?_, after⟩
      rwa [locate?_cons, if_pos (.inr directory)]
    next => contradiction

theorem eq_of_locate? (plain : up ∉ names) (found : tree.locate? reached names = some place) :
    place = reached ++ names := by
  induction names generalizing reached with
  | nil => simpa [locate?] using found.symm
  | cons name names ih =>
    obtain ⟨ne, plain⟩ := List.ne_and_not_mem_of_not_mem_cons plain
    rw [locate?_cons, enter, if_neg ne.symm] at found
    split at found
    · simpa using ih plain found
    · contradiction

/-- What is found under a path below another one lies below what is found under that. -/
theorem located_below {base path : FilePath} (h : Below base path)
    (found : tree.locate? [] path.names = some place) :
    ∃ start below, tree.locate? [] base.names = some start ∧ below ≠ [] ∧
      place = start ++ below := by
  obtain ⟨-, below, full, plain, split⟩ := h
  rw [split] at found
  obtain ⟨start, before, after⟩ := locate?_append full found
  exact ⟨start, below, before, full, eq_of_locate? plain after⟩

end FileTree

namespace Views

/-- The directory of included files. -/
def inclusions (v : Views) : FilePath := v.directory.child "partials".toList

/-- Where the file of a name has its place, below the directory of included files. -/
def place (v : Views) (name : Text) : FilePath :=
  ⟨v.directory.root,
    v.directory.names ++ "partials".toList :: (FilePath.ofText (fileName name)).names⟩

variable {v : Views} {name : Text}

theorem inclusions_eq (v : Views) :
    v.inclusions = ⟨v.directory.root, v.directory.names ++ ["partials".toList]⟩ :=
  FilePath.child_of_relative (by decide) v.directory

theorem head?_fileName : (fileName name).head? = some '/' ↔ name.head? = some '/' := by
  cases name with
  | nil => decide
  | cons c rest => rfl

theorem names_fileName_ne_nil (name : Text) : (FilePath.ofText (fileName name)).names ≠ [] :=
  FilePath.names_ofText_ne_nil (c := 'h') (by simp [fileName]) (by decide) (by decide)

/-- A name takes its place unless it starts with a slash. -/
theorem inclusion_eq_place_iff : v.inclusion name = v.place name ↔ name.head? ≠ some '/' := by
  constructor
  · intro same rooted
    have moved : v.inclusion name = FilePath.ofText (fileName name) :=
      FilePath.child_of_rooted (head?_fileName.mpr rooted) v.inclusions
    have lengths := congrArg (·.names.length) (moved.symm.trans same)
    simp only [place, List.length_append, List.length_cons] at lengths
    omega
  · intro relative
    have inside : v.inclusion name = _ :=
      FilePath.child_of_relative (mt head?_fileName.mp relative) v.inclusions
    rw [inside, inclusions_eq, place, List.append_assoc, List.singleton_append]

/-- A name without points takes a place that no double point leads out of. -/
theorem place_below (plain : '.' ∉ name) : v.inclusions.Below (v.place name) := by
  have once : (fileName name).count '.' ≤ 1 := by
    rw [fileName, List.count_append, List.count_eq_zero.mpr plain]
    decide
  refine ⟨?_, _, names_fileName_ne_nil name, FilePath.up_not_mem_ofText once, ?_⟩
  · rw [inclusions_eq, place]
  · rw [inclusions_eq, place, List.append_assoc, List.singleton_append]

end Views

/-- As `reader`, but the files at the paths in `S` are there and empty. -/
def Reader.emptied (S : FilePath → Prop) [DecidablePred S] (reader : Reader) : Reader :=
  fun earlier path => if S path then .ok [] else reader earlier path

namespace FileTree

open FilePath

variable {tree : FileTree} {names : List Text} {node : Node}

theorem lookup_remove (other : List Text) :
    (tree.remove names).lookup other = if other = names then none else tree.lookup other := by
  induction tree with
  | nil => simp [remove]
  | cons entry rest ih =>
    obtain ⟨place, held⟩ := entry
    have step : remove ((place, held) :: rest) names =
        if place = names then remove rest names else (place, held) :: remove rest names := by
      by_cases same : place = names <;> simp [remove, same]
    rw [step]
    by_cases same : place = names
    · rw [if_pos same, ih]
      by_cases asked : other = names
      · simp [asked]
      · have ne : (other == place) = false := by simpa [same] using asked
        simp [asked, List.lookup_cons, ne]
    · rw [if_neg same, List.lookup_cons, List.lookup_cons, ih]
      by_cases here : other = place
      · have ne : other ≠ names := here ▸ same
        simp [here, same]
      · have ne : (other == place) = false := by simpa using here
        simp [ne]

theorem node?_put (full : names ≠ []) (other : List Text) :
    (tree.put names node).node? other = if other = names then some node else tree.node? other := by
  unfold node? put
  by_cases root : other = []
  · simp [root, Ne.symm full]
  · rw [if_neg root, if_neg root, List.lookup_cons, lookup_remove]
    by_cases asked : other = names
    · simp [asked]
    · have ne : (other == names) = false := by simpa using asked
      simp [asked, ne]

theorem ne_nil_of_not_isDirectory (place : tree.isDirectory names = false) : names ≠ [] := by
  rintro rfl
  exact absurd place (by simp [isDirectory_root])

theorem isDirectory_put {content : ByteArray} (place : tree.isDirectory names = false)
    (other : List Text) :
    (tree.put names (.file content)).isDirectory other = tree.isDirectory other := by
  rw [isDirectory, node?_put (ne_nil_of_not_isDirectory place)]
  by_cases asked : other = names
  · rw [if_pos asked, asked, place]
  · rw [if_neg asked, isDirectory]

/-- A file put where there is no directory leads no path elsewhere. -/
theorem locate?_put {content : ByteArray} (place : tree.isDirectory names = false)
    (reached path : List Text) :
    (tree.put names (.file content)).locate? reached path = tree.locate? reached path := by
  induction path generalizing reached with
  | nil => rfl
  | cons name rest ih => rw [locate?_cons, locate?_cons, isDirectory_put place, ih]

/-- Holds for paths that can be followed, and lead to the names. -/
def LeadsTo (tree : FileTree) (names : List Text) (path : FilePath) : Prop :=
  ¬path.names.any (·.contains '\x00') ∧ byteCount path.text ≤ maxPathBytes ∧
    tree.locate? [] path.names = some names

instance (tree : FileTree) (names : List Text) : DecidablePred (tree.LeadsTo names) :=
  fun _ => inferInstanceAs (Decidable (_ ∧ _ ∧ _))

theorem decode_empty : decode .empty = .ok [] := by rfl

theorem LeadsTo.read {content : ByteArray} {path : FilePath} (leads : tree.LeadsTo names path)
    (held : tree.node? names = some (.file content)) : tree.read path = decode content := by
  obtain ⟨plain, short, located⟩ := leads
  have found : (tree.locate? [] path.names).bind tree.node? = some (.file content) := by
    rw [located, Option.bind_some, held]
  unfold FileTree.read
  simp only [if_neg plain, if_neg (Nat.not_lt.mpr short), found]

theorem LeadsTo.put {content : ByteArray} {path : FilePath}
    (place : tree.isDirectory names = false) (leads : tree.LeadsTo names path) :
    (tree.put names (.file content)).LeadsTo names path :=
  ⟨leads.1, leads.2.1, (locate?_put place [] path.names).trans leads.2.2⟩

theorem read_put_empty {path : FilePath} (place : tree.isDirectory names = false)
    (leads : tree.LeadsTo names path) : (tree.put names (.file .empty)).read path = .ok [] := by
  have held : (tree.put names (.file .empty)).node? names = some (.file .empty) := by
    rw [node?_put (ne_nil_of_not_isDirectory place), if_pos rfl]
  exact ((leads.put place).read held).trans decode_empty

theorem read_put_other {content : ByteArray} {path : FilePath}
    (place : tree.isDirectory names = false) (elsewhere : ¬tree.LeadsTo names path) :
    (tree.put names (.file content)).read path = tree.read path := by
  unfold read
  by_cases nul : path.names.any (·.contains '\x00')
  · rw [if_pos nul, if_pos nul]
  by_cases long : maxPathBytes < byteCount path.text
  · rw [if_neg nul, if_neg nul, if_pos long, if_pos long]
  have same : (tree.locate? [] path.names).bind (tree.put names (.file content)).node? =
      (tree.locate? [] path.names).bind tree.node? := by
    cases located : tree.locate? [] path.names with
    | none => rfl
    | some found =>
      have ne : found ≠ names := by
        rintro rfl
        exact elsewhere ⟨nul, Nat.not_lt.mp long, located⟩
      rw [Option.bind_some, node?_put (ne_nil_of_not_isDirectory place), if_neg ne]
      rfl
  rw [if_neg nul, if_neg nul, if_neg long, if_neg long, locate?_put place, same]

theorem reader_put_empty (place : tree.isDirectory names = false) :
    (tree.put names (.file .empty)).reader = tree.reader.emptied (tree.LeadsTo names) := by
  funext earlier path
  by_cases leads : tree.LeadsTo names path
  · exact (read_put_empty place leads).trans (if_pos leads).symm
  · exact (read_put_other place leads).trans (if_neg leads).symm

end FileTree

end Stencil
