import Mathlib.Data.List.TakeWhile
import Stencil.Proofs.Number.Numerals
import Stencil.Proofs.Outcome
import Stencil.Site.Basic

/-! Settings are decided field by field: what is wrong with one field neither hides nor
changes what is said of another, and a site can be made from whatever was loaded. -/
namespace Stencil

namespace Whole

/-- The numeral of a positive number is plain. -/
theorem read_ofNat {n : Nat} (positive : 1 ≤ n)
    (short : (Numeral.ofNat n).length ≤ Numeral.maxDigits) :
    read (Numeral.ofNat n) = .number n := by
  have digits : ∀ c ∈ Numeral.ofNat n, c.isDigit = true := fun _ => isDigit_of_mem_ofNat
  have all : (Numeral.ofNat n).all Char.isDigit = true := List.all_eq_true.mpr digits
  have word : (Numeral.ofNat n).takeWhile Char.isDigit = Numeral.ofNat n :=
    List.takeWhile_eq_self_iff.mpr digits
  have unsigned : readPlain (Numeral.ofNat n) = readDigits false (Numeral.ofNat n) := by
    unfold readPlain
    split
    next rest shape =>
      have minus : '-' ∈ Numeral.ofNat n := shape ▸ List.mem_cons_self
      exact absurd (digits '-' minus) (by decide)
    next => rfl
  have plain : readPlain (Numeral.ofNat n) = .number n := by
    rw [unsigned, readDigits, word, if_neg fun zero => Numeral.head?_ofNat positive zero.1,
      if_neg (Nat.not_lt.mpr short), if_pos all, Numeral.ofDigits?_ofNat short]
    rfl
  rw [read, plain]

end Whole

namespace Settings

variable {application : Text} {environment : Ledger Text} {overrides : Ledger Value}

namespace Field

/-- All fields, in the order in which problems are listed. -/
def all : List Field := [viewsDirectory, defaultLayout, contentMarker, maxPartialDepth, logLevel]

/-- What a field holds once its value was accepted. -/
def Content : Field → Type
  | viewsDirectory => FilePath
  | maxPartialDepth => Int
  | defaultLayout | contentMarker | logLevel => Text

/-- A value is accepted for a field or refused, whatever the other fields are. -/
def check : (field : Field) → Value → Except Problem field.Content
  | viewsDirectory => checkPath
  | defaultLayout | contentMarker => checkText 1
  | maxPartialDepth => checkDepth
  | logLevel => checkText 0

theorem key_injective {field other : Field} (same : field.key = other.key) : field = other := by
  cases field <;> cases other <;> first | rfl | exact absurd same (by decide)

theorem check_default (field : Field) : ∃ content, field.check field.default = .ok content := by
  cases field <;> exact ⟨_, rfl⟩

end Field

def get (s : Settings) : (field : Field) → field.Content
  | .viewsDirectory => s.viewsDirectory
  | .defaultLayout => s.defaultLayout
  | .contentMarker => s.contentMarker
  | .maxPartialDepth => s.maxPartialDepth
  | .logLevel => s.logLevel

/-- The value of a field and where it is from: an override, even an empty one, goes before the
environment, and in the environment an empty text is no value. -/
inductive Given (application : Text) (environment : Ledger Text) (overrides : Ledger Value)
    (field : Field) : Value → Prop
  | override {value : Value} (overridden : overrides.get? field.key = some value) :
      Given application environment overrides field value
  | environment {text : Text} (free : overrides.get? field.key = none)
      (set : environment.get? (field.variable application) = some text) (nonempty : text ≠ []) :
      Given application environment overrides field (.text text)
  | default (free : overrides.get? field.key = none)
      (unset : ∀ text, environment.get? (field.variable application) = some text → text = []) :
      Given application environment overrides field field.default

theorem given_raw (application : Text) (environment : Ledger Text) (overrides : Ledger Value)
    (field : Field) : Given application environment overrides field
      (raw application environment overrides field) := by
  unfold raw
  split
  next overridden => exact .override overridden
  next free =>
    split
    next unset => exact .default free fun text set => by simp [unset] at set
    next empty => exact .default free fun text set => by simpa [empty, eq_comm] using set
    next text nonempty set => exact .environment free set fun empty => nonempty (empty ▸ rfl)

theorem Given.eq_raw {field : Field} {value : Value}
    (given : Given application environment overrides field value) :
    value = raw application environment overrides field := by
  cases given with
  | override overridden => rw [raw, overridden]
  | environment free set nonempty =>
    obtain ⟨c, rest, rfl⟩ := List.exists_cons_of_ne_nil nonempty
    simp [raw, free, set]
  | default free unset =>
    cases set : environment.get? (field.variable application) with
    | none => simp [raw, free, set]
    | some text =>
      obtain rfl := unset text set
      simp [raw, free, set]

theorem load_eq_ok_iff {s : Settings} : load application environment overrides = .ok s ↔
    ∀ field : Field, field.check (raw application environment overrides field) =
      .ok (s.get field) := by
  constructor
  · intro loaded
    unfold load at loaded
    dsimp only at loaded
    split at loaded
    next directory layout marker depth level directoryOk layoutOk markerOk depthOk levelOk =>
      cases loaded
      intro field
      cases field with
      | viewsDirectory => exact directoryOk
      | defaultLayout => exact layoutOk
      | contentMarker => exact markerOk
      | maxPartialDepth => exact depthOk
      | logLevel => exact levelOk
    next => contradiction
  · intro accepted
    have directory := accepted .viewsDirectory
    have layout := accepted .defaultLayout
    have marker := accepted .contentMarker
    have depth := accepted .maxPartialDepth
    have level := accepted .logLevel
    simp only [Field.check, get] at directory layout marker depth level
    simp only [load, directory, layout, marker, depth, level]

/-- The problems of a field by itself. -/
def problemsOf (field : Field) (value : Value) : List (Field × Problem) :=
  problem? field (field.check value)

theorem problemsOf_eq_nil_iff {field : Field} {value : Value} :
    problemsOf field value = [] ↔ ∃ content, field.check value = .ok content := by
  unfold problemsOf problem?
  split
  next content accepted => simp [accepted]
  next problem refused => simp [refused]

theorem exists_settings {values : Field → Value}
    (accepted : ∀ field : Field, ∃ content, field.check (values field) = .ok content) :
    ∃ s : Settings, ∀ field : Field, field.check (values field) = .ok (s.get field) := by
  choose content checked using accepted
  refine ⟨⟨content .viewsDirectory, content .defaultLayout, content .contentMarker,
    content .maxPartialDepth, content .logLevel⟩, ?_⟩
  rintro ⟨⟩ <;> exact checked _

theorem fails_iff (result : Except (List (Field × Problem)) Settings) :
    (∃ problems, result = .error problems) ↔ ¬∃ s, result = .ok s := by
  cases result <;> simp

theorem exists_load_iff : (∃ s, load application environment overrides = .ok s) ↔
    ∀ field, problemsOf field (raw application environment overrides field) = [] := by
  simp only [load_eq_ok_iff, problemsOf_eq_nil_iff]
  exact ⟨fun ⟨s, accepted⟩ field => ⟨s.get field, accepted field⟩, exists_settings⟩

theorem problems_of_load {problems : List (Field × Problem)}
    (refused : load application environment overrides = .error problems) :
    problems = Field.all.flatMap fun field =>
      problemsOf field (raw application environment overrides field) := by
  unfold load at refused
  dsimp only at refused
  split at refused
  next => contradiction
  next =>
    cases refused
    simp only [Field.all, List.flatMap_cons, List.flatMap_nil, List.append_nil, List.append_assoc]
    rfl

/-- The settings for one value, given as an override. -/
def alone (application : Text) (field : Field) (value : Value) :
    Except (List (Field × Problem)) Settings :=
  load application [] [(field.key, value)]

section Alone

variable {field : Field} {value : Value}

theorem raw_alone : raw application [] [(field.key, value)] field = value := by
  simp [raw, Ledger.get?]

theorem raw_alone_other {other : Field} (apart : field ≠ other) :
    raw application [] [(field.key, value)] other = other.default := by
  have keys : field.key ≠ other.key := fun same => apart (Field.key_injective same)
  simp [raw, Ledger.get?, keys]

theorem problemsOf_alone (field other : Field) (value : Value) :
    problemsOf other (raw application [] [(field.key, value)] other) =
      if field = other then problemsOf field value else [] := by
  split
  next same =>
    subst same
    rw [raw_alone]
  next apart =>
    rw [raw_alone_other apart]
    exact problemsOf_eq_nil_iff.mpr other.check_default

theorem alone_eq_error {problems : List (Field × Problem)}
    (refused : alone application field value = .error problems) :
    problems = problemsOf field value := by
  have listed := problems_of_load refused
  simp only [problemsOf_alone] at listed
  rw [listed]
  cases field <;> simp [Field.all]

theorem exists_alone_iff :
    (∃ s, alone application field value = .ok s) ↔ problemsOf field value = [] := by
  rw [alone, exists_load_iff]
  simp only [problemsOf_alone]
  constructor
  · intro all
    simpa using all field
  · intro none other
    rw [none, ite_self]

theorem alone_get {s : Settings} (loaded : alone application field value = .ok s) :
    field.check value = .ok (s.get field) := by
  have accepted := load_eq_ok_iff.mp loaded field
  rwa [raw_alone] at accepted

/-- What a load complains of. -/
def refusals : Except (List (Field × Problem)) Settings → List (Field × Problem)
  | .ok _ => []
  | .error problems => problems

theorem refusals_alone : refusals (alone application field value) = problemsOf field value := by
  cases result : alone application field value with
  | ok s => exact (exists_alone_iff.mp ⟨s, result⟩).symm
  | error problems => exact alone_eq_error result

end Alone

theorem ne_nil_of_checkText {value : Value} {text : Text}
    (accepted : checkText 1 value = .ok text) : text ≠ [] := by
  obtain ⟨t, -, checked⟩ := bind_eq_ok_iff.mp accepted
  split at checked
  next => contradiction
  next long =>
    cases checked
    rintro rfl
    exact long Nat.one_pos

theorem pos_of_checkDepth {value : Value} {depth : Int} (accepted : checkDepth value = .ok depth) :
    1 ≤ depth := by
  obtain ⟨z, -, checked⟩ := bind_eq_ok_iff.mp accepted
  split at checked
  next => contradiction
  next large => cases checked; exact Int.not_lt.mp large

theorem checkDepth_ofNat {n : Nat} (positive : 1 ≤ n)
    (short : (Numeral.ofNat n).length ≤ Numeral.maxDigits) :
    checkDepth (.text (Numeral.ofNat n)) = .ok (n : Int) := by
  have large : ¬(n : Int) < 1 := by omega
  simp only [checkDepth, toInteger, readInteger, Whole.read_ofNat positive short, bind, Except.bind,
    if_neg large]
  rfl

theorem ofSettings_eq {s : Settings} (named : s.defaultLayout ≠ []) (marked : s.contentMarker ≠ [])
    (catalog : Catalog) : Site.ofSettings s catalog = .ok ⟨⟨⟨s.viewsDirectory⟩, catalog,
      s.maxPartialDepth⟩, s.defaultLayout, s.contentMarker, []⟩ := by
  simp only [Site.ofSettings, Site.create, Site.useLayout, Site.useMarker, bind, Except.bind,
    if_neg named, if_neg marked]

example : load "SITE".toList [("SITE_MAX_PARTIAL_DEPTH".toList, "0".toList)]
    [("content_annotation".toList, .text [])] =
      .error [(.contentMarker, .tooShort), (.maxPartialDepth, .tooSmall)] := rfl

end Settings

end Stencil
