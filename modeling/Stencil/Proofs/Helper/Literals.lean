import Mathlib.Data.List.Induction
import Stencil.Helper.Catalog
import Stencil.Proofs.Markup.Rewriting
import Stencil.Proofs.Number.Numerals
import Stencil.Proofs.Outcome

/-! The words of an argument text, and literals among them. Written one after another with
blanks between them, literals are read back as the values that they were written for. A text
keeps what it looks like: in its quotes a numeral, a keyword or a path is a text. -/
namespace Stencil.Helper

open Text

section Words

variable {quoted escaped : Bool} {current run rest : Text} {c : Char}

theorem wordsFrom_quote :
    wordsFrom quoted false current ('"' :: rest) =
      wordsFrom (!quoted) false ('"' :: current) rest := by
  rw [wordsFrom.eq_def]
  exact if_pos ⟨rfl, Bool.false_ne_true⟩

theorem wordsFrom_letter (plain : ¬(c = '"' ∧ ¬escaped)) (held : ¬(isBlank c ∧ ¬quoted)) :
    wordsFrom quoted escaped current (c :: rest) =
      wordsFrom quoted (c = '\\') (c :: current) rest := by
  rw [wordsFrom.eq_def]
  exact (if_neg plain).trans (if_neg held)

theorem wordsFrom_blank (blank : isBlank c = true) :
    wordsFrom false escaped current (c :: rest) =
      if current = [] then words rest else current.reverse :: words rest := by
  have plain : ¬(c = '"' ∧ ¬escaped) := by
    rintro ⟨rfl, -⟩
    exact absurd blank (by decide)
  rw [wordsFrom.eq_def]
  refine (if_neg plain).trans ((if_pos ⟨blank, Bool.false_ne_true⟩).trans ?_)
  cases current <;> rfl

theorem words_blank (blank : isBlank c = true) : words (c :: rest) = words rest :=
  wordsFrom_blank blank

/-- A stretch without a quote goes on with the word, if no blank in it stands outside a quotation.
Whether a quote after it counts is for its last character to say. -/
theorem wordsFrom_run (unquoted : '"' ∉ run)
    (solid : quoted = true ∨ ∀ c ∈ run, isBlank c = false) :
    wordsFrom quoted escaped current (run ++ rest) =
      wordsFrom quoted (run.getLast?.elim escaped (decide <| · = '\\')) (run.reverse ++ current)
        rest := by
  induction run generalizing escaped current with
  | nil => rfl
  | cons c run ih =>
    obtain ⟨ne, unquoted⟩ := List.ne_and_not_mem_of_not_mem_cons unquoted
    have held : ¬(isBlank c ∧ ¬quoted) := by
      rintro ⟨blank, outside⟩
      rcases solid with inside | solid
      · exact outside inside
      · simp [solid c List.mem_cons_self] at blank
    have later : quoted = true ∨ ∀ c ∈ run, isBlank c = false :=
      solid.imp_right fun solid c member => solid c (List.mem_cons_of_mem _ member)
    rw [List.cons_append, wordsFrom_letter (fun quote => ne quote.1.symm) held, ih unquoted later,
      List.getLast?_cons]
    cases run.getLast? <;> simp

/-- A quotation is part of the word in which it stands. -/
theorem wordsFrom_quotation (unquoted : '"' ∉ run) (closes : run.getLast? ≠ some '\\') :
    wordsFrom false false current ('"' :: (run ++ '"' :: rest)) =
      wordsFrom false false ('"' :: (run.reverse ++ '"' :: current)) rest := by
  have last : run.getLast?.elim false (decide <| · = '\\') = false := by
    cases shape : run.getLast? with
    | none => rfl
    | some c => simpa [shape] using closes
  rw [wordsFrom_quote, Bool.not_false, wordsFrom_run unquoted (.inl rfl), last, wordsFrom_quote,
    Bool.not_true]

/-- The last word is kept as it is, if it does not end with a blank. -/
theorem wordsFrom_nil (solid : isBlank c = false) :
    wordsFrom quoted escaped (c :: current) [] = [(c :: current).reverse] := by
  have kept : trimEnd (c :: current).reverse = (c :: current).reverse := by
    simp [trimEnd, solid]
  rw [wordsFrom.eq_def]
  dsimp only
  rw [kept]
  cases shape : (c :: current).reverse with
  | nil => simp at shape
  | cons d more => rfl

/-- Outside a quotation a word goes on, so what there is of it does not end with a blank. -/
def Going (quoted : Bool) (current : Text) : Prop :=
  quoted = false → ∀ c ∈ current.head?, isBlank c = false

theorem trimEnd_append_blank (t : Text) (blank : isBlank c = true) :
    trimEnd (t ++ [c]) = trimEnd t := by
  simp [trimEnd, blank]

theorem wordsFrom_append_blank (going : Going quoted current) (blank : isBlank c = true) :
    wordsFrom quoted escaped current (run ++ [c]) = wordsFrom quoted escaped current run := by
  induction run generalizing quoted escaped current with
  | nil =>
    have plain : ¬(c = '"' ∧ ¬escaped) := fun quote => absurd (quote.1 ▸ blank) (by decide)
    cases quoted with
    | true =>
      have held : ¬(isBlank c ∧ ¬true) := fun outside => outside.2 rfl
      rw [List.nil_append, wordsFrom_letter plain held, wordsFrom.eq_def, wordsFrom.eq_def]
      dsimp only
      rw [List.reverse_cons, trimEnd_append_blank _ blank]
    | false =>
      rw [List.nil_append, wordsFrom_blank blank]
      cases current with
      | nil => rfl
      | cons d current => rw [wordsFrom_nil (going rfl d rfl)]; rfl
  | cons d run ih =>
    rw [List.cons_append]
    by_cases quote : d = '"' ∧ ¬escaped
    · have escaped : escaped = false := by simpa using quote.2
      rw [quote.1, escaped, wordsFrom_quote, wordsFrom_quote]
      exact ih fun _ e is => Option.some.inj is ▸ rfl
    · by_cases ends : isBlank d ∧ ¬quoted
      · have outside : quoted = false := by simpa using ends.2
        have later : words (run ++ [c]) = words run := ih fun _ e is => nomatch is
        rw [outside, wordsFrom_blank ends.1, wordsFrom_blank ends.1, later]
      · rw [wordsFrom_letter quote ends, wordsFrom_letter quote ends]
        refine ih fun outside e is => ?_
        obtain rfl := Option.some.inj is
        simpa [outside] using ends

theorem words_trimStart (t : Text) : words (trimStart t) = words t := by
  induction t with
  | nil => rfl
  | cons c rest ih =>
    by_cases blank : isBlank c = true
    · rw [words_blank blank, ← ih, trimStart, trimStart, List.dropWhile_cons_of_pos blank]
    · rw [trimStart, List.dropWhile_cons_of_neg blank]

theorem words_trimEnd (t : Text) : words (trimEnd t) = words t := by
  induction t using List.reverseRecOn with
  | nil => rfl
  | append_singleton t c ih =>
    by_cases blank : isBlank c = true
    · have going : Going false [] := fun _ e is => nomatch is
      rw [trimEnd_append_blank t blank, ih]
      exact (wordsFrom_append_blank going blank).symm
    · simp [trimEnd, blank]

/-- Blanks around an argument text are not part of any word. -/
theorem words_trim (t : Text) : words (trim t) = words t :=
  (words_trimEnd _).trans (words_trimStart t)

end Words

/-- A value that can be written as an argument: a number that is not too long, a truth value, null,
or a text that neither ends its quotation early nor takes the quote at its end away. -/
inductive Literal
  | int (z : Int) (short : Numeral.Writable z)
  | bool (b : Bool)
  | null
  | text (t : Text) (unquoted : '"' ∉ t) (closes : t.getLast? ≠ some '\\')

namespace Literal

def value : Literal → Value
  | int z _ => .int z
  | bool b => .bool b
  | null => .null
  | text t .. => .text t

def written : Literal → Text
  | int z _ => Numeral.ofInt z
  | bool true => "true".toList
  | bool false => "false".toList
  | null => "null".toList
  | text t .. => '"' :: (t ++ ['"'])

/-- What stands in a numeral. -/
theorem mem_ofInt {z : Int} {c : Char} (member : c ∈ Numeral.ofInt z) :
    c = '-' ∨ c.isDigit = true := by
  rw [Numeral.ofInt] at member
  by_cases negative : z < 0
  · rw [if_pos negative] at member
    rcases List.mem_cons.mp member with sign | digit
    · exact .inl sign
    · exact .inr (isDigit_of_mem_ofNat digit)
  · rw [if_neg negative] at member
    exact .inr (isDigit_of_mem_ofNat member)

/-- A word that is no quotation has none of the characters that a word may end with, go on after or
change its reading by. -/
structure Solid (word : Text) : Prop where
  nonempty : word ≠ []
  plain : ∀ c ∈ word, c ≠ '"' ∧ c ≠ '\\' ∧ isBlank c = false

theorem solid_ofInt (z : Int) : Solid (Numeral.ofInt z) where
  nonempty := by
    rw [Numeral.ofInt]
    by_cases negative : z < 0
    · rw [if_pos negative]
      exact List.cons_ne_nil _ _
    · rw [if_neg negative]
      exact Numeral.ofNat_ne_nil _
  plain c member := by
    rcases mem_ofInt member with rfl | digit
    · decide
    · refine ⟨?_, ?_, isBlank_of_isDigit digit⟩ <;> rintro rfl <;> exact absurd digit (by decide)

theorem solid_of_all {word : Text} (nonempty : word ≠ [])
    (letters : word.all Char.isAlphanum = true) : Solid word where
  nonempty := nonempty
  plain c member := by
    have letter := List.all_eq_true.mp letters c member
    refine ⟨?_, ?_, isBlank_of_isAlphanum letter⟩ <;> rintro rfl <;> exact absurd letter (by decide)

theorem solid_keyword (b : Bool) : Solid (written (.bool b)) := by
  cases b <;> exact solid_of_all (List.cons_ne_nil _ _) rfl

theorem solid_null : Solid (written .null) := solid_of_all (List.cons_ne_nil _ _) rfl

/-- Read from the start of a word, a literal is the word so far. -/
theorem wordsFrom_solid {word : Text} (solid : Solid word) (rest : Text) :
    words (word ++ rest) = wordsFrom false false word.reverse rest := by
  have unquoted : '"' ∉ word := fun member => (solid.plain _ member).1 rfl
  have last : word.getLast?.elim false (decide <| · = '\\') = false := by
    rw [List.getLast?_eq_some_getLast solid.nonempty]
    exact decide_eq_false (solid.plain _ (List.getLast_mem solid.nonempty)).2.1
  rw [words, wordsFrom_run unquoted (.inr fun c member => (solid.plain c member).2.2), last,
    List.append_nil]

theorem words_written (l : Literal) (rest : Text) :
    words (l.written ++ rest) = wordsFrom false false l.written.reverse rest := by
  cases l with
  | int z short => exact wordsFrom_solid (solid_ofInt z) rest
  | bool b => exact wordsFrom_solid (solid_keyword b) rest
  | null => exact wordsFrom_solid solid_null rest
  | text t unquoted closes =>
    rw [words, written, List.cons_append, List.append_assoc, List.singleton_append,
      wordsFrom_quotation unquoted closes, List.reverse_cons, List.reverse_concat, List.cons_append]

theorem exists_last (l : Literal) :
    ∃ c before, l.written.reverse = c :: before ∧ isBlank c = false := by
  have of_solid : ∀ {word : Text}, Solid word →
      ∃ c before, word.reverse = c :: before ∧ isBlank c = false := by
    intro word solid
    obtain ⟨c, before, shape⟩ :=
      List.exists_cons_of_ne_nil (mt List.reverse_eq_nil_iff.mp solid.nonempty)
    have member : c ∈ word := List.mem_reverse.mp (shape ▸ List.mem_cons_self)
    exact ⟨c, before, shape, (solid.plain c member).2.2⟩
  cases l with
  | int z short => exact of_solid (solid_ofInt z)
  | bool b => exact of_solid (solid_keyword b)
  | null => exact of_solid solid_null
  | text t unquoted closes => exact ⟨'"', t.reverse ++ ['"'], by simp [written], by decide⟩

/-- A literal at the end of a text is its last word. -/
theorem words_last (l : Literal) : words l.written = [l.written] := by
  obtain ⟨c, before, shape, solid⟩ := l.exists_last
  have whole := l.words_written []
  rw [List.append_nil, shape, wordsFrom_nil solid, ← shape, List.reverse_reverse] at whole
  exact whole

/-- A blank after a literal ends its word. -/
theorem words_next (l : Literal) {c : Char} (blank : isBlank c = true) (rest : Text) :
    words (l.written ++ c :: rest) = l.written :: words rest := by
  obtain ⟨d, before, shape, -⟩ := l.exists_last
  have nonempty : l.written.reverse ≠ [] := shape ▸ List.cons_ne_nil d before
  rw [words_written, wordsFrom_blank blank, if_neg nonempty, List.reverse_reverse]

theorem quotation?_solid {word : Text} (solid : Solid word) : quotation? word = none := by
  obtain ⟨c, more, rfl⟩ := List.exists_cons_of_ne_nil solid.nonempty
  have head : (c :: more).head? ≠ some '"' := fun quote =>
    (solid.plain c List.mem_cons_self).1 (Option.some.inj quote)
  exact if_neg fun quotes => head quotes.1

/-- The word of a literal stands for its value. -/
theorem ofWord_written (l : Literal) : Argument.ofWord l.written = .ok (.literal l.value) := by
  cases l with
  | int z short =>
    rw [Argument.ofWord, written, quotation?_solid (solid_ofInt z), Numeral.read_ofInt short]
    rfl
  | bool b => cases b <;> rfl
  | null => rfl
  | text t unquoted closes =>
    have last : ('"' :: (t ++ ['"'])).getLast? = some '"' := List.getLast?_concat (l := '"' :: t)
    have inside : quotation? ('"' :: (t ++ ['"'])) = some t := by
      rw [quotation?, if_pos ⟨rfl, last⟩, List.drop_one, List.tail_cons, List.dropLast_concat]
    rw [Argument.ofWord, written, inside]
    rfl

end Literal

/-- A text in which the literals are written in this order, with a blank at least between two of
them and any blanks before the first and after the last. -/
inductive Spelled : List Literal → Text → Prop
  | nil : Spelled [] []
  | blank {literals : List Literal} {text : Text} (c : Char) : isBlank c = true →
      Spelled literals text → Spelled literals (c :: text)
  | last (l : Literal) : Spelled [l] l.written
  | next {literals : List Literal} {text : Text} (l : Literal) (c : Char) : isBlank c = true →
      Spelled literals text → Spelled (l :: literals) (l.written ++ c :: text)

theorem Spelled.words {literals : List Literal} {text : Text} (h : Spelled literals text) :
    words text = literals.map Literal.written := by
  induction h with
  | nil => rfl
  | blank c blank _ ih => rw [words_blank blank, ih]
  | last l => exact l.words_last
  | next l c blank _ ih => rw [l.words_next blank, ih, List.map_cons]

theorem argument_written (name : Text) (lookup : Lookup) (l : Literal) :
    argument name lookup l.written = .ok l.value := by
  rw [argument, l.ofWord_written]
  rfl

theorem mapM_written {α : Type} {read : Text → Except Failure α} {value : Literal → α}
    (each : ∀ l : Literal, read l.written = .ok (value l)) (literals : List Literal) :
    (literals.map Literal.written).mapM read = .ok (literals.map value) := by
  have step : read ∘ Literal.written = fun l => pure (value l) := funext each
  rw [List.mapM_map, step, List.mapM_pure]
  rfl

/-- Literals are read back as the values that they were written for. Every word stands for one, so
that no path is looked up and it does not matter where paths lead. -/
theorem arguments_spelled {literals : List Literal} {text : Text} (spelled : Spelled literals text) :
    (words text).mapM Argument.ofWord = .ok (literals.map fun l => .literal l.value) ∧
      ∀ name lookup, arguments name lookup text = .ok (literals.map Literal.value) := by
  constructor
  · rw [spelled.words]
    exact mapM_written Literal.ofWord_written literals
  · intro name lookup
    rw [arguments, spelled.words]
    exact mapM_written (argument_written name lookup) literals

/-- A number, texts that look like one and like a path, and a text with blanks, braces and a
backslash, with several kinds of blanks between them. -/
def sampleLiterals : List Literal :=
  [.int (-12) (by decide), .text "12".toList (by decide) (by decide), .bool true,
    .text "user.name".toList (by decide) (by decide),
    .text " \\\x7b\n\x7d".toList (by decide) (by decide), .null]

def sampleArguments : Text :=
  " -12\t\"12\" true\n\n\"user.name\" \" \\\x7b\n\x7d\" null ".toList

theorem arguments_spelled_sample :
    Spelled sampleLiterals sampleArguments ∧
      ∀ lookup, arguments [] lookup sampleArguments = .ok [.int (-12), .text "12".toList,
        .bool true, .text "user.name".toList, .text " \\\x7b\n\x7d".toList, .null] := by
  have spelled : Spelled sampleLiterals sampleArguments :=
    .blank ' ' rfl (.next _ '\t' rfl (.next _ ' ' rfl (.next _ '\n' rfl (.blank '\n' rfl
      (.next _ ' ' rfl (.next _ ' ' rfl (.next _ ' ' rfl .nil)))))))
  exact ⟨spelled, (arguments_spelled spelled).2 []⟩

end Stencil.Helper
