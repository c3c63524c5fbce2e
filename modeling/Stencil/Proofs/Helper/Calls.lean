import Stencil.Helper.Catalog
import Stencil.Proofs.Value.Reaching

/-! What a call of a helper comes to. It is refused for a name that stands for no helper,
and after that for the first path among the arguments that leads nowhere; no helper has run
then. Otherwise the helper runs once, on the values of the words in their order, and decides
the rest. -/
namespace Stencil

namespace Helper

/-- A word that is a path to nothing. -/
structure Missing (context : Value) (word : Text) : Prop where
  path : Argument.ofWord word = .ok (.path word)
  nowhere : context.follow word = .ok .absent

/-- The value that a word stands for. A null is a value like any other. -/
inductive Stands (context : Value) (word : Text) : Value → Prop
  | literal {v} : Argument.ofWord word = .ok (.literal v) → Stands context word v
  | path {v} : Argument.ofWord word = .ok (.path word) → context.follow word = .ok v →
      v ≠ .absent → Stands context word v

/-- The word is no numeral of too many digits, and as a path has none at its points. -/
structure ReadableWord (word : Text) : Prop where
  numeral : Numeral.read word ≠ .overlong
  positions : Argument.ofWord word = .ok (.path word) → ∀ part ∈ Text.parts '.' word,
    part.all Char.isDigit = true → part.length ≤ Numeral.maxDigits

def Readable (text : Text) : Prop := ∀ word ∈ words text, ReadableWord word

variable {context v : Value} {name word text : Text} {lookup : Lookup}

theorem ofWord_readable (readable : ReadableWord word) :
    (∃ v, Argument.ofWord word = .ok (.literal v)) ∨
      Argument.ofWord word = .ok (.path word) := by
  unfold Argument.ofWord
  cases quotation? word with
  | some inside => exact .inl ⟨_, rfl⟩
  | none =>
    cases read : Numeral.read word with
    | number z => exact .inl ⟨_, rfl⟩
    | overlong => exact absurd read readable.numeral
    | malformed =>
      cases (decimal? word).or (keyword? word) with
      | some v => exact .inl ⟨v, rfl⟩
      | none => exact .inr rfl

theorem argument_literal (read : Argument.ofWord word = .ok (.literal v)) :
    argument name lookup word = .ok v := by
  rw [argument, read]
  rfl

theorem argument_path (read : Argument.ofWord word = .ok (.path word))
    (found : lookup word = .ok v) (there : v ≠ .absent) : argument name lookup word = .ok v := by
  rw [argument, read]
  change (lookup word >>= _) = _
  rw [found]
  cases v <;> first | rfl | contradiction

theorem argument_missing (read : Argument.ofWord word = .ok (.path word))
    (found : lookup word = .ok .absent) :
    argument name lookup word = .error (.undefinedArgument name word) := by
  rw [argument, read]
  change (lookup word >>= _) = _
  rw [found]
  rfl

/-- What a word that can be read comes to. -/
theorem argument_readable (context : Value) (name : Text) (readable : ReadableWord word) :
    (∃ v, Stands context word v ∧
        argument name (fun path => context.follow path) word = .ok v) ∨
      Missing context word ∧ argument name (fun path => context.follow path) word =
        .error (.undefinedArgument name word) := by
  rcases ofWord_readable readable with ⟨v, read⟩ | read
  · exact .inl ⟨v, .literal read, argument_literal read⟩
  · obtain ⟨v, found⟩ := Value.follow_succeeds context (readable.positions read)
    by_cases there : v = .absent
    · subst there
      exact .inr ⟨⟨read, found⟩, argument_missing read found⟩
    · exact .inl ⟨v, .path read found there, argument_path read found there⟩

theorem Stands.argument (h : Stands context word v) :
    argument name (fun path => context.follow path) word = .ok v := by
  cases h with
  | literal read => exact argument_literal read
  | path read found there => exact argument_path read found there

theorem Missing.argument (h : Missing context word) :
    argument name (fun path => context.follow path) word =
      .error (.undefinedArgument name word) :=
  argument_missing h.path h.nowhere

theorem argument_eq_ok_iff (readable : ReadableWord word) :
    argument name (fun path => context.follow path) word = .ok v ↔ Stands context word v := by
  refine ⟨fun h => ?_, Stands.argument⟩
  rcases argument_readable context name readable with
    ⟨w, stands, read⟩ | ⟨-, refused⟩
  · exact Except.ok.inj (read.symm.trans h) ▸ stands
  · rw [refused] at h
    contradiction

theorem argument_eq_error_iff {failure : Failure} (readable : ReadableWord word) :
    argument name (fun path => context.follow path) word = .error failure ↔
      Missing context word ∧ failure = .undefinedArgument name word := by
  constructor
  · intro h
    rcases argument_readable context name readable with
      ⟨v, -, read⟩ | ⟨missing, refused⟩
    · rw [read] at h
      contradiction
    · exact ⟨missing, (Except.error.inj (refused.symm.trans h)).symm⟩
  · rintro ⟨missing, rfl⟩
    exact missing.argument

/-- A word has a value, unless it leads nowhere. -/
theorem argument_succeeds_iff (readable : ReadableWord word) :
    (∃ v, argument name (fun path => context.follow path) word = .ok v) ↔
      ¬Missing context word := by
  constructor
  · rintro ⟨v, read⟩ missing
    rw [missing.argument] at read
    contradiction
  · intro present
    rcases argument_readable context name readable with
      ⟨v, -, read⟩ | ⟨missing, -⟩
    · exact ⟨v, read⟩
    · exact absurd missing present

theorem arguments_eq_ok_iff {values : List Value} (readable : Readable text) :
    arguments name (fun path => context.follow path) text = .ok values ↔
      List.Forall₂ (Stands context) (words text) values := by
  rw [arguments, mapM_eq_ok_iff]
  unfold Readable at readable
  generalize words text = words at readable
  induction words generalizing values with
  | nil => rw [List.forall₂_nil_left_iff, List.forall₂_nil_left_iff]
  | cons word words ih =>
    obtain ⟨here, later⟩ := List.forall_mem_cons.mp readable
    simp only [List.forall₂_cons_left_iff, argument_eq_ok_iff here, ih later]

theorem arguments_eq_error_iff {failure : Failure} (readable : Readable text) :
    arguments name (fun path => context.follow path) text = .error failure ↔
      ∃ before word after, words text = before ++ word :: after ∧
        (∀ word ∈ before, ¬Missing context word) ∧ Missing context word ∧
        failure = .undefinedArgument name word := by
  rw [arguments, mapM_eq_error_iff]
  refine exists_congr fun before => exists_congr fun word => exists_congr fun after => ?_
  refine and_congr_right fun split => ?_
  have front : ∀ other ∈ before, ReadableWord other :=
    fun other member => readable other (split ▸ List.mem_append_left _ member)
  rw [argument_eq_error_iff (readable word (by simp [split]))]
  exact and_congr_left' (forall₂_congr fun other member => argument_succeeds_iff (front other member))

end Helper

namespace Catalog

/-- A call that keeps a record of the helpers that run and the values that they run on. -/
def recorded (c : Catalog) (name text : Text) (lookup : Helper.Lookup) :
    StateM (List (Helper × List Value)) (Except Failure Text) :=
  c.callWith (fun helper values => do
    modify (· ++ [(helper, values)])
    return helper.run values) name text lookup

/-- The course of a call by its documentation: what it comes to, and what runs for it. -/
inductive Conducted (c : Catalog) (context : Value) (name text : Text) :
    Except Failure Text → List (Helper × List Value) → Prop
  | unknown : c.get? name = none → Conducted c context name text (.error (.unknownHelper name)) []
  | undefined {helper before word after} : c.get? name = some helper →
      Helper.words text = before ++ word :: after →
      (∀ word ∈ before, ¬Helper.Missing context word) → Helper.Missing context word →
      Conducted c context name text (.error (.undefinedArgument name word)) []
  | failed {helper values cause} : c.get? name = some helper →
      List.Forall₂ (Helper.Stands context) (Helper.words text) values →
      helper.run values = .error cause →
      Conducted c context name text (.error (.helperFailed name values cause)) [(helper, values)]
  | shown {helper values result shown} : c.get? name = some helper →
      List.Forall₂ (Helper.Stands context) (Helper.words text) values →
      helper.run values = .ok result → result.display = .ok shown →
      Conducted c context name text (.ok shown) [(helper, values)]

section Calls

variable {m : Type → Type} [Monad m] {run : Helper → List Value → m (Except Failure Value)}
variable {c : Catalog} {name text : Text} {lookup : Helper.Lookup} {helper : Helper}

theorem callWith_unknown (unknown : c.get? name = none) :
    c.callWith run name text lookup = pure (.error (.unknownHelper name)) := by
  rw [callWith, unknown]

theorem callWith_refused {failure : Failure} (known : c.get? name = some helper)
    (refused : Helper.arguments name lookup text = .error failure) :
    c.callWith run name text lookup = pure (.error failure) := by
  rw [callWith, known]
  dsimp only
  rw [refused]

/-- Whatever effect it is to run a helper, a call has it once. -/
theorem callWith_runs {values : List Value} (known : c.get? name = some helper)
    (read : Helper.arguments name lookup text = .ok values) :
    c.callWith run name text lookup =
      run helper values >>= fun result => pure (report name values result) := by
  rw [callWith, known]
  dsimp only
  rw [read]

/-- A record changes nothing about the call. -/
theorem fst_recorded (earlier : List (Helper × List Value)) :
    (Id.run ((c.recorded name text lookup).run earlier)).1 = c.call name text lookup := by
  unfold recorded call
  cases known : c.get? name with
  | none =>
    rw [callWith_unknown known, callWith_unknown known]
    rfl
  | some helper =>
    cases read : Helper.arguments name lookup text with
    | error failure =>
      rw [callWith_refused known read, callWith_refused known read]
      rfl
    | ok values =>
      rw [callWith_runs known read, callWith_runs known read]
      rfl

theorem recorded_unknown (unknown : c.get? name = none) :
    Id.run ((c.recorded name text lookup).run []) = (.error (.unknownHelper name), []) := by
  rw [recorded, callWith_unknown unknown]
  rfl

theorem recorded_refused {failure : Failure} (known : c.get? name = some helper)
    (refused : Helper.arguments name lookup text = .error failure) :
    Id.run ((c.recorded name text lookup).run []) = (.error failure, []) := by
  rw [recorded, callWith_refused known refused]
  rfl

theorem recorded_runs {values : List Value} (known : c.get? name = some helper)
    (read : Helper.arguments name lookup text = .ok values) :
    Id.run ((c.recorded name text lookup).run []) =
      (report name values (helper.run values), [(helper, values)]) := by
  rw [recorded, callWith_runs known read]
  rfl

end Calls

/-- A helper that raises what an unknown name would. -/
def touchy : Helper := ⟨.custom 0, fun _ => .error (.unknownHelper ['h'])⟩

def touchyCatalog : Catalog := empty.register ['h'] touchy

def touchyContext : Value := .mapping [(.text ['u'], .mapping [(.text ['n'], .null)])]

theorem readable_of_short {text : Text} (short : ∀ word ∈ Helper.words text,
    Numeral.read word ≠ .overlong ∧ ∀ part ∈ Text.parts '.' word,
      part.length ≤ Numeral.maxDigits) : Helper.Readable text :=
  fun word member => ⟨(short word member).1, fun _ part inside _ => (short word member).2 part inside⟩

theorem touchy_fails (helper : Helper) (values : List Value) (result : Value)
    (known : touchyCatalog.get? ['h'] = some helper) : helper.run values ≠ .ok result := by
  obtain rfl : touchy = helper := Option.some.inj known
  exact nofun

end Catalog

end Stencil
