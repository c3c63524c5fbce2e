import Stencil.Proofs.Markup.Spans
import Stencil.Proofs.Markup.Stray

/-! Rules that look at no more than they read. Every form of tag and of block goes from an
opening brace to a closing one and is read the same whatever comes after it. So text without
braces, before and after another text, is copied and changes nothing in what is found
between. -/
namespace Stencil.Markup

open Text

variable {α β : Type} {rule : Rule α} {opens closes : Char} {opening closing : Text}
variable {allowed : Char → Bool}

/-- What is read is read whatever comes after it. -/
def Rule.Settled (rule : Rule α) : Prop :=
  ∀ ⦃lexeme content tail⦄, rule (lexeme ++ tail) = some (content, tail) →
    ∀ more, rule (lexeme ++ more) = some (content, more)

/-- What is read starts with one character and ends with another, at which the rule stops. -/
structure Rule.Fenced (rule : Rule α) (opens closes : Char) : Prop where
  reads : rule.Reads fun _ lexeme => ∃ inner, lexeme = opens :: (inner ++ [closes])
  settled : rule.Settled

namespace Rule.Fenced

theorem consumes (h : rule.Fenced opens closes) : rule.Consumes := by
  intro text content tail read
  obtain ⟨lexeme, split, inner, rfl⟩ := h.reads read
  exact ⟨_, List.cons_ne_nil _ _, split⟩

theorem starts (h : rule.Fenced opens closes) {c : Char} (other : c ≠ opens) (rest : Text) :
    rule (c :: rest) = none := by
  cases read : rule (c :: rest) with
  | none => rfl
  | some found =>
    obtain ⟨lexeme, split, inner, rfl⟩ := h.reads read
    exact absurd (List.cons.inj split).1 other

/-- What is not read before the end of a text is not read across it, if what follows cannot end
it. -/
theorem unread_append (h : rule.Fenced opens closes) {text post : Text} (ends : closes ∉ post)
    (unread : rule text = none) : rule (text ++ post) = none := by
  cases read : rule (text ++ post) with
  | none => rfl
  | some found =>
    obtain ⟨content, tail⟩ := found
    obtain ⟨lexeme, split, inner, rfl⟩ := h.reads read
    rcases List.append_eq_append_iff.mp split with ⟨cut, whole, rfl⟩ | ⟨more, rfl, -⟩
    · by_cases within : cut = []
      · subst within
        rw [List.append_nil] at whole
        have again := h.settled (whole ▸ read) []
        rw [List.append_nil, whole, unread] at again
        contradiction
      · -- The end of what is read would lie in the text that follows.
        have last : closes ∈ cut := by
          have ending := congrArg List.getLast? whole
          rw [List.getLast?_append_of_ne_nil _ within] at ending
          refine List.mem_of_getLast? (ending.symm.trans ?_)
          rw [← List.cons_append, List.getLast?_concat]
        exact absurd (List.mem_append_left tail last) ends
    · have again := h.settled (by rwa [split] at read) more
      rw [unread] at again
      contradiction

theorem atOpener (h : rule.Fenced opens closes) : (atOpener rule).Fenced opens closes where
  reads := h.reads.atOpener
  settled := by
    intro lexeme content tail read more
    obtain ⟨starts, read⟩ := atOpener_eq_some read
    obtain ⟨inner, rfl⟩ := h.reads.shape read
    have width : opener.length ≤ (opens :: (inner ++ [closes])).length := by simp [opener]
    have within : opener <+: opens :: (inner ++ [closes]) :=
      List.prefix_of_prefix_length_le starts (List.prefix_append _ tail) width
    rw [atOpener_of_opens (within.trans (List.prefix_append _ more))]
    exact h.settled read more

/-- Text in which no match can start or end is copied, before and after another text. -/
theorem rewrite_around {m : Type → Type} [Monad m] [LawfulMonad m] {new : Text → α → m Text}
    (h : rule.Fenced opens closes) {pre post : Text} (before : opens ∉ pre) (after : opens ∉ post)
    (ends : closes ∉ post) (text : Text) :
    rewrite rule new (pre ++ (text ++ post)) =
      (fun shown => pre ++ (shown ++ post)) <$> rewrite rule new text := by
  have passed (lead rest : Text) (clear : opens ∉ lead) :
      rewrite rule new (lead ++ rest) = (lead ++ ·) <$> rewrite rule new rest := by
    refine rewrite_passed fun a c b split => h.starts (fun same => clear ?_) _
    rw [split, same]
    exact List.mem_append_right a List.mem_cons_self
  -- At every place of the text alone the rule finds the same with `post` behind it.
  have kept : rewrite rule new (text ++ post) = (· ++ post) <$> rewrite rule new text := by
    induction ([] : Text), text using scan_induction h.consumes with
    | ended _ =>
      have literal := passed post [] after
      rw [List.append_nil] at literal
      simp [literal]
    | copied _ c rest unread ih =>
      have across : rule (c :: (rest ++ post)) = none := h.unread_append ends unread
      rw [List.cons_append, rewrite_copied across, rewrite_copied unread, ih]
      simp
    | found _ lexeme content tail nonempty read ih =>
      rw [List.append_assoc, rewrite_found nonempty (h.settled read (tail ++ post)),
        rewrite_found nonempty read, ih]
      simp
  rw [passed pre _ before, kept]
  simp

end Rule.Fenced

section Words

variable (solid : ∀ c, allowed c = true → isBlank c = false) (stop : allowed '}' = false)
include solid stop

theorem settled_word (close : Text) : (word? allowed ('}' :: close)).Settled := by
  intro lexeme word tail read more
  obtain ⟨⟨before, after, rfl, leads, trails⟩, all⟩ := reads_word.shape read
  have again : word? allowed ('}' :: close)
      (before ++ (word ++ (after ++ ('}' :: close ++ more)))) = some (word, more) :=
    word?_of_parts leads (full_of_word? read) all solid trails stop (by decide) more
  simpa using again

theorem settled_tag (opening close : Text) : (tag? opening allowed ('}' :: close)).Settled := by
  intro lexeme word tail read more
  exact (reads_tag.shape read).read (word_of_tag read) solid stop (by decide) more

theorem settled_spacedTag (opening close : Text) :
    (spacedTag? opening allowed ('}' :: close)).Settled := by
  intro lexeme word tail read more
  unfold spacedTag? at read
  split at read
  next c rest opened =>
    split at read
    next blank =>
      obtain ⟨inner, rfl, -⟩ := reads_word read
      have split := after?_eq_some_iff.mp opened
      have whole : lexeme = opening ++ c :: inner := by
        refine List.append_cancel_right (?_ : _ ++ tail = _ ++ tail)
        rw [split, List.append_assoc, List.cons_append]
      have again : after? opening (lexeme ++ more) = some (c :: (inner ++ more)) := by
        rw [after?_eq_some_iff, whole, List.append_assoc, List.cons_append]
      rw [spacedTag?, again]
      dsimp only
      rw [if_pos blank]
      exact settled_word solid stop close read more
    next => contradiction
  next => contradiction

end Words

/-- A block ends at the first closing, so that what comes later does not matter. -/
theorem settled_block {separator? : Option Text} {opens : Rule Text} (consumes : opens.Consumes)
    (h : opens.Settled) : (block? opens closing separator?).Settled := by
  intro lexeme b tail read more
  obtain ⟨inside, opened, parted, divided⟩ := block?_eq_some_iff.mp read
  obtain ⟨head, -, split⟩ := consumes opened
  have whole : lexeme = head ++ (inside ++ closing) := by
    refine List.append_cancel_right (?_ : _ ++ tail = _ ++ tail)
    rw [split]
    simp
  have opened' : opens (lexeme ++ more) = some (b.path, inside ++ closing ++ more) := by
    have again := h (split ▸ opened) (inside ++ closing ++ more)
    rwa [whole, List.append_assoc]
  exact block?_eq_some_iff.mpr ⟨inside, opened', cut?_settled parted more, divided⟩

theorem fenced_of_braced {Shape : α → Text → Prop} (reads : rule.Reads Shape)
    (braced : ∀ content lexeme, Shape content lexeme → Braced lexeme) (settled : rule.Settled) :
    rule.Fenced '{' '}' where
  reads text content tail read := by
    obtain ⟨lexeme, split, shape⟩ := reads read
    exact ⟨lexeme, split, braced content lexeme shape⟩
  settled := settled

theorem fenced_inclusion : inclusion?.Fenced '{' '}' :=
  fenced_of_braced reads_tag (fun _ _ => braced_inclusion)
    (settled_tag (fun _ => isBlank_of_isFileChar) (by decide) _ _)

theorem fenced_loop : loop?.Fenced '{' '}' :=
  fenced_of_braced reads_loop (fun _ _ shape => shape.braced braced_eachCloser)
    (settled_block consumes_each
      (settled_spacedTag (fun _ => isBlank_of_isPathChar) (isPathChar_closing .page) _ _))

theorem fenced_choice (place : Place) : (choice? place).Fenced '{' '}' :=
  fenced_of_braced (reads_choice place) (fun _ _ shape => shape.braced braced_conditionCloser)
    (settled_block (consumes_condition place)
      (settled_spacedTag (fun _ => isBlank_of_isPathChar) (isPathChar_closing place) _ _))

theorem fenced_call : call?.Fenced '{' '}' := by
  refine fenced_of_braced reads_call (fun _ _ => CallShape.braced) fun lexeme c tail read => ?_
  exact (reads_call.shape read).read (name_of_call? read)

theorem path_of_variableTag? {place : Place} {v : Variable} {text tail : Text}
    (read : variableTag? place text = some (v, tail)) : v.path ≠ [] := by
  rcases Option.or_eq_some_iff.mp read with raw | ⟨-, escaped⟩
  · obtain ⟨⟨path, rest⟩, read, same⟩ := Option.map_eq_some_iff.mp raw
    cases same
    exact word_of_tag read
  · obtain ⟨⟨path, rest⟩, read, same⟩ := Option.map_eq_some_iff.mp escaped
    cases same
    exact word_of_tag read

theorem fenced_variable (place : Place) : (variableTag? place).Fenced '{' '}' := by
  refine fenced_of_braced (reads_variable place) (fun _ _ => VariableShape.braced)
    fun lexeme v tail read => ?_
  exact ((reads_variable place).shape read).read (path_of_variableTag? read)

end Stencil.Markup
