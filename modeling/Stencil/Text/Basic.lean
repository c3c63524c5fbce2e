/-! Text as a list of code points, and the few cuts made in it: after a lead, around the
first occurrence of a mark, at every separator. Lengths and positions count code points.
Blanks and digits are those of every script. A ledger keeps entries under names, in the
order of their arrival. -/
namespace Stencil

abbrev Text := List Char

namespace Text

/-- What follows `lead`, if the text starts with it. -/
def after? : Text → Text → Option Text
  | [], text => some text
  | _ :: _, [] => none
  | a :: lead, b :: text => if a = b then after? lead text else none

theorem after?_eq_some_iff {lead text rest : Text} :
    after? lead text = some rest ↔ text = lead ++ rest := by
  induction lead generalizing text with
  | nil => simp [after?]
  | cons a lead ih =>
    cases text with
    | nil => simp [after?]
    | cons b text => by_cases h : a = b <;> simp [after?, h, ih, eq_comm]

/-- The text before the first occurrence of `mark`, and the text after that occurrence. -/
def cut? (mark : Text) : Text → Option (Text × Text)
  | [] => (after? mark []).map ([], ·)
  | c :: rest =>
    match after? mark (c :: rest) with
    | some tail => some ([], tail)
    | none => (cut? mark rest).map fun (before, tail) => (c :: before, tail)

theorem eq_of_cut? {mark text before tail : Text} (h : cut? mark text = some (before, tail)) :
    text = before ++ mark ++ tail := by
  induction text generalizing before with
  | nil =>
    obtain ⟨rest, found, same⟩ := Option.map_eq_some_iff.1 h
    cases same
    simpa using after?_eq_some_iff.1 found
  | cons c text ih =>
    unfold cut? at h
    split at h
    next rest found =>
      cases h
      simpa using after?_eq_some_iff.1 found
    next =>
      obtain ⟨⟨before', tail'⟩, found, same⟩ := Option.map_eq_some_iff.1 h
      cases same
      simp [ih found]

/-- Puts `new` in the place of the first occurrence of `mark`, if there is one. -/
def replaceFirst (mark new text : Text) : Text :=
  match cut? mark text with
  | some (before, tail) => before ++ new ++ tail
  | none => text

/-- The parts of a text between its separators: one more than it has separators. -/
def parts (separator : Char) : Text → List Text
  | [] => [[]]
  | c :: rest =>
    if c = separator then [] :: parts separator rest
    else match parts separator rest with
      | [] => [[c]]
      | part :: more => (c :: part) :: more

theorem parts_ne_nil (separator : Char) (text : Text) : parts separator text ≠ [] := by
  cases text with
  | nil => simp [parts]
  | cons c rest =>
    unfold parts
    split
    · simp
    · split <;> simp

/-- A text of at least `width` characters, zeros put before it if need be. -/
def padZero (width : Nat) (text : Text) : Text :=
  List.replicate (width - text.length) '0' ++ text

/-- Holds when a code point lies in one of the closed intervals, which are in rising order. -/
def within (intervals : List (Nat × Nat)) (c : Char) : Bool :=
  match intervals with
  | [] => false
  | (low, high) :: rest => if c.toNat < low then false else c.toNat ≤ high || within rest c

/-- The Unicode spaces, the line and paragraph separators, and the control characters that count as
space, the four information separators among them. -/
def blanks : List (Nat × Nat) :=
  [(0x09, 0x0d), (0x1c, 0x20), (0x85, 0x85), (0xa0, 0xa0), (0x1680, 0x1680), (0x2000, 0x200a),
   (0x2028, 0x2029), (0x202f, 0x202f), (0x205f, 0x205f), (0x3000, 0x3000)]

def isBlank (c : Char) : Bool := within blanks c

/-- The information separators are blank, but not spacing in the narrower sense of the
White_Space property. -/
def isSpacing (c : Char) : Bool := isBlank c && !(0x1c ≤ c.toNat && c.toNat ≤ 0x1f)

def trimStart (text : Text) : Text := text.dropWhile isBlank
def trimEnd (text : Text) : Text := (text.reverse.dropWhile isBlank).reverse
def trim (text : Text) : Text := trimEnd (trimStart text)

/-- Around a number the information separators are no blanks. -/
def trimSpacing (text : Text) : Text :=
  ((text.dropWhile isSpacing).reverse.dropWhile isSpacing).reverse

theorem isBlank_of_isWhitespace {c : Char} (h : c.isWhitespace = true) : isBlank c = true := by
  simp only [Char.isWhitespace, Bool.or_eq_true, decide_eq_true_eq] at h
  rcases h with ((rfl | rfl) | rfl) | rfl <;> decide

/-- The zero of every script; the nine other digits follow it. -/
def zeros : List Nat :=
  [0x30, 0x660, 0x6f0, 0x7c0, 0x966, 0x9e6, 0xa66, 0xae6, 0xb66, 0xbe6, 0xc66, 0xce6, 0xd66,
   0xde6, 0xe50, 0xed0, 0xf20, 0x1040, 0x1090, 0x17e0, 0x1810, 0x1946, 0x19d0, 0x1a80, 0x1a90,
   0x1b50, 0x1bb0, 0x1c40, 0x1c50, 0xa620, 0xa8d0, 0xa900, 0xa9d0, 0xa9f0, 0xaa50, 0xabf0, 0xff10,
   0x104a0, 0x10d30, 0x11066, 0x110f0, 0x11136, 0x111d0, 0x112f0, 0x11450, 0x114d0, 0x11650,
   0x116c0, 0x11730, 0x118e0, 0x11950, 0x11c50, 0x11d50, 0x11da0, 0x16a60, 0x16ac0, 0x16b50,
   0x1d7ce, 0x1d7d8, 0x1d7e2, 0x1d7ec, 0x1d7f6, 0x1e140, 0x1e2f0, 0x1e950, 0x1fbf0]

def digit? (c : Char) : Option Nat :=
  (zeros.find? fun first => first ≤ c.toNat && c.toNat < first + 10).map (c.toNat - ·)

def isDigit (c : Char) : Bool := (digit? c).isSome

theorem isDigit_of_char_isDigit {c : Char} (h : c.isDigit = true) : isDigit c = true := by
  simp only [Char.isDigit, Bool.and_eq_true, decide_eq_true_eq, ge_iff_le,
    UInt32.le_iff_toNat_le] at h
  have latin : (0x30 ≤ c.toNat && c.toNat < 0x30 + 10) = true := by
    simp only [Bool.and_eq_true, decide_eq_true_eq]
    exact ⟨h.1, Nat.lt_succ_of_le h.2⟩
  simp [isDigit, digit?, zeros, latin]

/-- The value of a digit is below ten. -/
theorem digit?_lt {c : Char} {d : Nat} (h : digit? c = some d) : d < 10 := by
  obtain ⟨first, found, rfl⟩ := Option.map_eq_some_iff.1 h
  have within := List.find?_some found
  simp only [Bool.and_eq_true, decide_eq_true_eq] at within
  omega

end Text

/-- Named entries. A new name goes to the end; writing under a name that is there keeps its
place. -/
abbrev Ledger (α : Type) := List (Text × α)

namespace Ledger

variable {α : Type}

def get? : Ledger α → Text → Option α
  | [], _ => none
  | (n, e) :: rest, name => if n = name then some e else get? rest name

def names (ledger : Ledger α) : List Text := ledger.map (·.1)

def put (name : Text) (entry : α) : Ledger α → Ledger α
  | [] => [(name, entry)]
  | (n, e) :: rest => if n = name then (n, entry) :: rest else (n, e) :: put name entry rest

def erase (name : Text) : Ledger α → Ledger α
  | [] => []
  | (n, e) :: rest => if n = name then erase name rest else (n, e) :: erase name rest

@[simp] theorem get?_put (name other : Text) (entry : α) (ledger : Ledger α) :
    get? (put name entry ledger) other =
      if name = other then some entry else get? ledger other := by
  induction ledger with
  | nil => simp [put, get?]
  | cons pair rest ih =>
    obtain ⟨n, e⟩ := pair
    by_cases h : n = name
    · by_cases same : n = other <;> simp_all [put, get?]
    · by_cases same : n = other
      · subst same; simp [put, get?, h, Ne.symm h]
      · simp [put, get?, h, same, ih]

@[simp] theorem get?_erase (name other : Text) (ledger : Ledger α) :
    get? (erase name ledger) other = if name = other then none else get? ledger other := by
  induction ledger with
  | nil => simp [erase, get?]
  | cons pair rest ih =>
    obtain ⟨n, e⟩ := pair
    by_cases h : n = name
    · by_cases same : n = other <;> simp_all [erase, get?]
    · by_cases same : n = other
      · subst same; simp [erase, get?, h, Ne.symm h]
      · simp [erase, get?, h, same, ih]

end Ledger

end Stencil
