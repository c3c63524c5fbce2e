import Stencil.Proofs.Markup.Rewriting
import Stencil.Proofs.Script.Basic
import Stencil.Proofs.Text.NulFree

/-! How a text stands for a script: its letters are those of the script, none of them a
NUL, and for each chunk there is a placeholder under whose number the shelf keeps the
finished text. Reading a class of letters, a fixed text or the text before a mark keeps
both in step. -/
namespace Stencil

open Text

inductive Shelf.Spells (shelf : Shelf) : Script → Text → Prop
  | nil : Spells shelf [] []
  | letter {c : Char} {s : Script} {t : Text} : c ≠ '\x00' → Spells shelf s t →
      Spells shelf (.letter c :: s) (c :: t)
  | chunk {number : Nat} {finished : Text} {s : Script} {t : Text} :
      shelf.held[number]? = some finished → Spells shelf s t →
      Spells shelf (.chunk finished :: s) (Shelf.placeholder shelf.token number ++ t)

namespace Shelf

/-- A shelf on which more may be held. -/
structure Later (shelf later : Shelf) : Prop where
  token : later.token = shelf.token
  held : ∀ (number : Nat) (finished : Text), shelf.held[number]? = some finished →
    later.held[number]? = some finished

theorem Later.refl (shelf : Shelf) : Later shelf shelf := ⟨rfl, fun _ _ h => h⟩

theorem Later.trans {a b c : Shelf} (first : Later a b) (last : Later b c) : Later a c :=
  ⟨last.token.trans first.token, fun n t h => last.held n t (first.held n t h)⟩

/-- Nothing that is held is empty or has a NUL: empty output is dropped, and what is held has
nothing left in it to be put back. -/
def Sound (shelf : Shelf) : Prop := ∀ finished ∈ shelf.held, finished ≠ [] ∧ NulFree finished

theorem sound_empty (token : Token) : (Shelf.empty token).Sound := by
  simp [Sound, Shelf.empty]

theorem placeholder_eq (token : Token) (number : Nat) :
    placeholder token number =
      '\x00' :: (token.digits ++ ':' :: (Numeral.ofNat number ++ ['\x00'])) := by
  simp [placeholder, lead]

/-- A placeholder consists of NULs, a colon and digits. -/
theorem mem_placeholder {token : Token} {number : Nat} {c : Char}
    (member : c ∈ placeholder token number) : c = '\x00' ∨ c = ':' ∨ isHexDigit c = true := by
  simp only [placeholder_eq, List.mem_cons, List.mem_append, List.not_mem_nil, or_false] at member
  rcases member with nul | digit | colon | digit | nul
  · exact .inl nul
  · exact .inr (.inr (token.hex c digit))
  · exact .inr (.inl colon)
  · have decimal := Nat.isDigit_of_mem_toDigits (by decide) (by decide) digit
    simp only [Char.isDigit, Bool.and_eq_true, decide_eq_true_eq, ge_iff_le] at decimal
    refine .inr (.inr ?_)
    simp only [isHexDigit, Bool.or_eq_true, Bool.and_eq_true, decide_eq_true_eq]
    exact .inl decimal
  · exact .inl nul

theorem braceless_placeholder (token : Token) (number : Nat) :
    '{' ∉ placeholder token number ∧ '}' ∉ placeholder token number := by
  constructor
  · intro member
    rcases mem_placeholder member with h | h | h <;> revert h <;> decide
  · intro member
    rcases mem_placeholder member with h | h | h <;> revert h <;> decide

namespace Spells

variable {shelf later : Shelf} {s s' a b : Script} {t t' u v : Text}

theorem mono (h : shelf.Spells s t) (more : Later shelf later) : later.Spells s t := by
  induction h with
  | nil => exact .nil
  | letter ne _ ih => exact .letter ne ih
  | chunk found _ ih =>
    rw [← more.token]
    exact .chunk (more.held _ _ found) ih

theorem append (first : shelf.Spells a u) (last : shelf.Spells b v) :
    shelf.Spells (a ++ b) (u ++ v) := by
  induction first with
  | nil => exact last
  | letter ne _ ih => exact .letter ne ih
  | chunk found _ ih =>
    rw [List.append_assoc]
    exact .chunk found ih

theorem ofText (free : NulFree t) : shelf.Spells (Script.ofText t) t := by
  induction t with
  | nil => exact .nil
  | cons c t ih =>
    obtain ⟨ne, rest⟩ := nulFree_cons.mp free
    exact .letter ne (ih rest)

/-- A script without chunks is spelled as its own text. -/
theorem eq_of_text? (h : shelf.Spells s t) (plain : s.text? = some u) : t = u ∧ NulFree u := by
  induction h generalizing u with
  | nil => cases plain; simp
  | @letter c s t ne _ ih =>
    obtain ⟨w, inner, rfl⟩ := Option.map_eq_some_iff.mp plain
    obtain ⟨rfl, free⟩ := ih inner
    simp [ne, free]
  | chunk => contradiction

theorem eq_nil_iff (h : shelf.Spells s t) : s = [] ↔ t = [] := by
  cases h <;> simp [placeholder_eq]

end Spells

/-- Reading on in step: what was passed over on both sides, and what is left of both. -/
def Passes (shelf : Shelf) (s : Script) (t : Text) (s' : Script) (t' : Text) : Prop :=
  ∃ front lead, s = front ++ s' ∧ t = lead ++ t' ∧ shelf.Spells front lead ∧ shelf.Spells s' t'

namespace Passes

variable {shelf : Shelf} {s s' s'' : Script} {t t' t'' : Text}

theorem refl (h : shelf.Spells s t) : shelf.Passes s t s t := ⟨[], [], rfl, rfl, .nil, h⟩

theorem trans (first : shelf.Passes s t s' t') (last : shelf.Passes s' t' s'' t'') :
    shelf.Passes s t s'' t'' := by
  obtain ⟨front, lead, rfl, rfl, passed, -⟩ := first
  obtain ⟨front', lead', rfl, rfl, passed', rest⟩ := last
  exact ⟨front ++ front', lead ++ lead', by simp, by simp, passed.append passed', rest⟩

theorem rest (h : shelf.Passes s t s' t') : shelf.Spells s' t' := h.choose_spec.choose_spec.2.2.2

theorem letter {c : Char} (ne : c ≠ '\x00') (h : shelf.Passes s t s' t') :
    shelf.Passes (.letter c :: s) (c :: t) s' t' := by
  obtain ⟨front, lead, rfl, rfl, passed, rest⟩ := h
  exact ⟨.letter c :: front, c :: lead, rfl, rfl, .letter ne passed, rest⟩

theorem chunk {number : Nat} {finished : Text} (found : shelf.held[number]? = some finished)
    (h : shelf.Passes s t s' t') :
    shelf.Passes (.chunk finished :: s) (placeholder shelf.token number ++ t) s' t' := by
  obtain ⟨front, lead, rfl, rfl, passed, rest⟩ := h
  exact ⟨.chunk finished :: front, placeholder shelf.token number ++ lead, rfl, by simp,
    .chunk found passed, rest⟩

end Passes

end Shelf

end Stencil
