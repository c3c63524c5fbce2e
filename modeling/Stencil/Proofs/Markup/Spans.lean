import Stencil.Proofs.Markup.Shape
import Stencil.Proofs.Text.Parts

/-! Where the matches of a rule lie in a text, and how a rewrite goes by them: it copies
what stands between two matches and puts what is new in the place of each. Of blocks,
whatever closes them: every opening tag that has a closing after it is in one. -/
namespace Stencil.Markup

section Spans

variable {α : Type} {rule : Rule α} {front rest lexeme tail : Text} {content : α} {i : Nat}

/-- The text that a match covers. -/
def Span.slice (s : Span α) (text : Text) : Text := (text.drop s.start).take (s.finish - s.start)

/-- The text from `last` on, with new texts in the places of the spans. -/
def splice (text : Text) (last : Nat) : List (Span α) → List Text → Text
  | s :: spans, new :: news =>
    (text.drop last).take (s.start - last) ++ new ++ splice text s.finish spans news
  | _, _ => text.drop last

/-- A text is gone through from left to right: where nothing is found one goes on by a character,
where there is a match one goes on behind it. -/
theorem scan_induction (consumes : rule.Consumes) {motive : Text → Text → Prop}
    (ended : ∀ front, motive front [])
    (copied : ∀ front c rest, rule (c :: rest) = none → motive (front ++ [c]) rest →
      motive front (c :: rest))
    (found : ∀ front lexeme content tail, lexeme ≠ [] →
      rule (lexeme ++ tail) = some (content, tail) → motive (front ++ lexeme) tail →
      motive front (lexeme ++ tail))
    (front rest : Text) : motive front rest := by
  induction size : rest.length using Nat.strongRecOn generalizing front rest with
  | ind size ih =>
  subst size
  cases rest with
  | nil => exact ended front
  | cons c rest =>
    cases read : rule (c :: rest) with
    | none => exact copied front c rest read (ih rest.length (Nat.lt_succ_self _) _ rest rfl)
    | some match_ =>
      obtain ⟨content, tail⟩ := match_
      obtain ⟨lexeme, nonempty, split⟩ := consumes read
      rw [split] at read ih ⊢
      have shorter : tail.length < (lexeme ++ tail).length := by
        have := List.length_pos_iff.mpr nonempty
        rw [List.length_append]
        omega
      exact found front lexeme content tail nonempty read (ih tail.length shorter _ tail rfl)

/-- The matches in `rest`, where it comes after `front`. -/
def spansAfter (rule : Rule α) (front rest : Text) : List (Span α) :=
  spansFrom front.length (pieces rule rest)

@[simp] theorem spansAfter_nil : spansAfter rule front [] = [] := rfl

theorem spansAfter_copied {c : Char} (h : rule (c :: rest) = none) :
    spansAfter rule front (c :: rest) = spansAfter rule (front ++ [c]) rest := by
  simp [spansAfter, pieces_copied h, spansFrom]

theorem spansAfter_found (nonempty : lexeme ≠ [])
    (h : rule (lexeme ++ tail) = some (content, tail)) :
    spansAfter rule front (lexeme ++ tail) =
      ⟨front.length, (front ++ lexeme).length, content⟩ ::
        spansAfter rule (front ++ lexeme) tail := by
  simp [spansAfter, pieces_found nonempty h, spansFrom]

/-- A match stands where the rule reads it. -/
structure Span.Reads (rule : Rule α) (text : Text) (s : Span α) : Prop where
  nonempty : s.start < s.finish
  inside : s.finish ≤ text.length
  read : rule (text.drop s.start) = some (s.content, text.drop s.finish)

theorem Span.Reads.split {s : Span α} {text : Text} (h : s.Reads rule text) :
    text.drop s.start = s.slice text ++ text.drop s.finish := by
  have := h.nonempty
  have order : s.finish = s.start + (s.finish - s.start) := by omega
  conv_rhs => rw [order]
  rw [← List.drop_drop, Span.slice, List.take_append_drop]

theorem reads_of_mem_spansAfter (consumes : rule.Consumes) {s : Span α}
    (member : s ∈ spansAfter rule front rest) :
    front.length ≤ s.start ∧ s.Reads rule (front ++ rest) := by
  induction front, rest using scan_induction consumes with
  | ended front => contradiction
  | copied front c rest read ih =>
    rw [spansAfter_copied read] at member
    obtain ⟨after, reads⟩ := ih member
    rw [List.length_append] at after
    exact ⟨by omega, by simpa using reads⟩
  | found front lexeme content tail nonempty read ih =>
    rw [spansAfter_found nonempty read] at member
    rcases List.mem_cons.mp member with rfl | later
    · refine ⟨Nat.le_refl _, ?_, ?_, ?_⟩
      · simpa using List.length_pos_iff.mpr nonempty
      · simp
      · rw [List.drop_left, ← List.append_assoc, List.drop_left]
        exact read
    · obtain ⟨after, reads⟩ := ih later
      rw [List.length_append] at after
      exact ⟨by omega, by simpa using reads⟩

theorem pairwise_spansAfter (consumes : rule.Consumes) (front rest : Text) :
    (spansAfter rule front rest).Pairwise fun s t => s.finish ≤ t.start := by
  induction front, rest using scan_induction consumes with
  | ended front => exact List.Pairwise.nil
  | copied front c rest read ih => rwa [spansAfter_copied read]
  | found front lexeme content tail nonempty read ih =>
    rw [spansAfter_found nonempty read]
    exact List.pairwise_cons.mpr ⟨fun t later => (reads_of_mem_spansAfter consumes later).1, ih⟩

/-- Where the rule reads something, there is a match or one that began before is not at its end. -/
theorem exists_mem_spansAfter (consumes : rule.Consumes) (from_ : front.length ≤ i)
    (reads : (rule ((front ++ rest).drop i)).isSome) :
    ∃ s ∈ spansAfter rule front rest, s.start ≤ i ∧ i < s.finish := by
  induction front, rest using scan_induction consumes with
  | ended front =>
    rw [List.append_nil, List.drop_eq_nil_of_le from_] at reads
    obtain ⟨⟨content, tail⟩, read⟩ := Option.isSome_iff_exists.mp reads
    obtain ⟨lexeme, nonempty, split⟩ := consumes read
    exact absurd (List.append_eq_nil_iff.mp split.symm).1 nonempty
  | copied front c rest read ih =>
    rw [spansAfter_copied read]
    have later : front.length ≠ i := by
      rintro rfl
      rw [List.drop_left, read] at reads
      contradiction
    exact ih (by rw [List.length_append, List.length_singleton]; omega) (by simpa using reads)
  | found front lexeme content tail nonempty read ih =>
    rw [spansAfter_found nonempty read]
    by_cases here : i < (front ++ lexeme).length
    · exact ⟨_, List.mem_cons_self, from_, here⟩
    · obtain ⟨s, member, place⟩ := ih (Nat.le_of_not_lt here) (by simpa using reads)
      exact ⟨s, List.mem_cons_of_mem _ member, place⟩

theorem reads_of_mem_spans (consumes : rule.Consumes) {s : Span α} {text : Text}
    (member : s ∈ spans rule text) : s.Reads rule text := by
  have after : s ∈ spansAfter rule [] text := member
  exact (reads_of_mem_spansAfter consumes after).2

theorem pairwise_spans (consumes : rule.Consumes) (text : Text) :
    (spans rule text).Pairwise fun s t => s.finish ≤ t.start :=
  pairwise_spansAfter consumes [] text

theorem exists_mem_spans (consumes : rule.Consumes) {text : Text}
    (reads : (rule (text.drop i)).isSome) : ∃ s ∈ spans rule text, s.start ≤ i ∧ i < s.finish := by
  have after : (rule (([] ++ text).drop i)).isSome := reads
  exact exists_mem_spansAfter consumes (Nat.zero_le i) after

theorem splice_later {text : Text} {k : Nat} {c : Char} (here : text[k]? = some c)
    {spans : List (Span α)} (later : ∀ s ∈ spans, k + 1 ≤ s.start) (news : List Text) :
    splice text k spans news = c :: splice text (k + 1) spans news := by
  have split : text.drop k = c :: text.drop (k + 1) := by
    obtain ⟨inside, same⟩ := List.getElem?_eq_some_iff.mp here
    rw [List.drop_eq_getElem_cons inside, same]
  match spans, news with
  | [], _ => simpa [splice] using split
  | _ :: _, [] => simpa [splice] using split
  | s :: spans, new :: news =>
    have width : s.start - k = s.start - (k + 1) + 1 := by
      have := later s List.mem_cons_self
      omega
    simp only [splice]
    rw [split, width, List.take_succ_cons, List.cons_append, List.cons_append]

section Rewrite

variable {m : Type → Type} [Monad m] [LawfulMonad m]

theorem rewrite_after (consumes : rule.Consumes) (new : Text → α → m Text) (front rest : Text) :
    rewrite rule new rest =
      splice (front ++ rest) front.length (spansAfter rule front rest) <$>
        (spansAfter rule front rest).mapM fun s => new (s.slice (front ++ rest)) s.content := by
  induction front, rest using scan_induction consumes with
  | ended front => simp [splice]
  | copied front c rest read ih =>
    have after : ∀ s ∈ spansAfter rule (front ++ [c]) rest, front.length + 1 ≤ s.start :=
      fun s member => by simpa using (reads_of_mem_spansAfter consumes member).1
    have here : (front ++ c :: rest)[front.length]? = some c := by simp
    have whole : front ++ [c] ++ rest = front ++ c :: rest := by simp
    rw [rewrite_copied read, ih, spansAfter_copied read, whole, Functor.map_map,
      List.length_append, List.length_singleton]
    congr 1
    funext news
    exact (splice_later here after news).symm
  | found front lexeme content tail nonempty read ih =>
    have whole : front ++ lexeme ++ tail = front ++ (lexeme ++ tail) := List.append_assoc ..
    have slice : (⟨front.length, (front ++ lexeme).length, content⟩ : Span α).slice
        (front ++ (lexeme ++ tail)) = lexeme := by simp [Span.slice]
    rw [rewrite_found nonempty read, ih, spansAfter_found nonempty read, whole, List.mapM_cons,
      slice]
    simp [splice]

/-- A rewrite puts what is new for each match in its place, from left to right. -/
theorem rewrite_eq_splice (consumes : rule.Consumes) (new : Text → α → m Text) (text : Text) :
    rewrite rule new text =
      splice text 0 (spans rule text) <$>
        (spans rule text).mapM fun s => new (s.slice text) s.content :=
  rewrite_after consumes new [] text

end Rewrite

/-- A text with every match put in its own place is the same text. -/
theorem splice_slices (consumes : rule.Consumes) (text : Text) :
    splice text 0 (spans rule text) ((spans rule text).map (·.slice text)) = text := by
  have spliced := rewrite_eq_splice (m := Id) consumes (fun lexeme _ => pure lexeme) text
  have idle : rewrite (m := Id) rule (fun lexeme _ => pure lexeme) text = pure text :=
    rewrite_idle consumes fun _ _ _ _ _ => rfl
  rw [idle] at spliced
  simpa using congrArg Id.run spliced.symm

end Spans

/-- The tags that open a block: of a loop, and of a choice. -/
inductive BlockTag
  | each
  | condition (place : Place)

namespace BlockTag

def read? : BlockTag → Rule Text
  | each => each?
  | condition place => condition? place

def lead : BlockTag → Text
  | each => opener ++ "#each".toList
  | condition _ => opener ++ "#if".toList

/-- Where the path of the tag is told from. -/
def place : BlockTag → Place
  | each => .page
  | condition place => place

theorem reads (kind : BlockTag) :
    kind.read?.Reads (Names kind.lead (isPathChar kind.place) closer) := by
  cases kind <;> exact reads_spacedTag

theorem opener_prefix {kind : BlockTag} {text : Text} {result : Text × Text}
    (read : kind.read? text = some result) : opener <+: text := by
  obtain ⟨head, rfl, ⟨⟨before, after, rfl, -⟩, -⟩⟩ := kind.reads read
  cases kind <;> exact ⟨_, by simp [lead]; rfl⟩

end BlockTag

variable {kind : BlockTag} {text closing : Text} {separator? : Option Text}

/-- The blocks of a text. -/
def blocks (kind : BlockTag) (closing : Text) (separator? : Option Text) (text : Text) :
    List (Span Block) :=
  spans (atOpener (block? kind.read? closing separator?)) text

theorem consumes_blocks : (atOpener (block? kind.read? closing separator?)).Consumes := by
  apply Rule.Consumes.atOpener
  apply consumes_block
  cases kind
  · exact consumes_each
  · exact consumes_condition _

/-- How a block lies in a text: an opening tag with the block's path, what it holds, with no closing
in it, and the closing. -/
structure Lies (kind : BlockTag) (closing : Text) (separator? : Option Text) (text : Text)
    (s : Span Block) : Prop where
  nonempty : s.start < s.finish
  inside : s.finish ≤ text.length
  parts : ∃ head held, s.slice text = head ++ held ++ closing ∧
    Names kind.lead (isPathChar kind.place) closer s.content.path head ∧
    kind.read? (text.drop s.start) =
      some (s.content.path, held ++ closing ++ text.drop s.finish) ∧
    s.content.Holds separator? held ∧ ¬closing <:+: held
  unparted : ∀ separator ∈ separator?, ¬separator <:+: s.content.body

theorem unparted_of_branches {b : Block} {held : Text}
    (parts : ∀ separator ∈ separator?, separator ≠ [])
    (h : branches separator? held = (b.body, b.otherwise?)) :
    ∀ separator ∈ separator?, ¬separator <:+: b.body := by
  rintro separator rfl
  unfold branches at h
  split at h
  next body other divided =>
    obtain ⟨rfl, -⟩ := Prod.mk.inj h
    exact Text.unmarked_of_cut? (parts separator rfl) divided
  next undivided =>
    obtain ⟨rfl, -⟩ := Prod.mk.inj h
    exact Text.cut?_eq_none_iff.mp undivided

/-- An opening tag makes a block if there is a closing after it. -/
theorem block?_isSome {opening : Rule Text} {path rest : Text}
    (opened : opening text = some (path, rest)) (closed : closing <:+: rest) :
    (block? opening closing separator? text).isSome := by
  cases cut : Text.cut? closing rest with
  | none => exact absurd closed (Text.cut?_eq_none_iff.mp cut)
  | some parts =>
    simp only [block?, opened, cut, Option.bind_eq_bind, Option.bind_some]
    split <;> rfl

theorem lies_of_mem_blocks (closes : closing ≠ [])
    (parts : ∀ separator ∈ separator?, separator ≠ []) {s : Span Block}
    (member : s ∈ blocks kind closing separator? text) : Lies kind closing separator? text s := by
  have reads := reads_of_mem_spans consumes_blocks member
  obtain ⟨held, opened, closed, divided⟩ :=
    block?_eq_some_iff.mp (atOpener_eq_some reads.read).2
  refine ⟨reads.nonempty, reads.inside, ?_, unparted_of_branches parts divided⟩
  obtain ⟨head, split, named⟩ := kind.reads opened
  refine ⟨head, held, ?_, named, opened, holds_of_branches divided,
    Text.unmarked_of_cut? closes closed⟩
  refine List.append_cancel_right (?_ : _ ++ text.drop s.finish = _ ++ text.drop s.finish)
  calc s.slice text ++ text.drop s.finish = text.drop s.start := reads.split.symm
    _ = _ := by rw [split]; simp

/-- The blocks of a text do not overlap and each lies there with its tag, what it holds and its
closing. An opening tag is in none of them only if no closing follows it. A rewrite copies what is
around the blocks, and gives the text itself where each block is put in its own place. -/
theorem block_scan_exact (kind : BlockTag) (text closing : Text) (separator? : Option Text)
    (closes : closing ≠ []) (parts : ∀ separator ∈ separator?, separator ≠ []) :
    (blocks kind closing separator? text).Pairwise (fun s t => s.finish ≤ t.start) ∧
    (∀ s ∈ blocks kind closing separator? text, Lies kind closing separator? text s) ∧
    (∀ i path rest, kind.read? (text.drop i) = some (path, rest) →
      (∃ s ∈ blocks kind closing separator? text, s.start ≤ i ∧ i < s.finish) ∨
        ¬closing <:+: rest) ∧
    (∀ (m : Type → Type) [Monad m] [LawfulMonad m] (new : Text → Block → m Text),
      rewrite (atOpener (block? kind.read? closing separator?)) new text =
        splice text 0 (blocks kind closing separator? text) <$>
          (blocks kind closing separator? text).mapM fun s => new (s.slice text) s.content) ∧
    splice text 0 (blocks kind closing separator? text)
      ((blocks kind closing separator? text).map (·.slice text)) = text := by
  refine ⟨pairwise_spans consumes_blocks text, fun s => lies_of_mem_blocks closes parts,
    ?_, fun m _ _ new => rewrite_eq_splice consumes_blocks new text,
    splice_slices consumes_blocks text⟩
  intro i path rest opened
  by_cases closed : closing <:+: rest
  · have found : (atOpener (block? kind.read? closing separator?) (text.drop i)).isSome := by
      rw [atOpener_of_opens (BlockTag.opener_prefix opened)]
      exact block?_isSome opened closed
    exact .inl (exists_mem_spans consumes_blocks found)
  · exact .inr closed

/-- A block with both branches, and an opening tag that is never closed. -/
def sampleBlocks : Text :=
  opener ++ "#if a".toList ++ closer ++ ['y'] ++ otherwise ++ ['n'] ++ conditionCloser ++
    (opener ++ "#if b".toList ++ closer)

theorem block_scan_exact_sample :
    blocks (.condition .page) conditionCloser (some otherwise) sampleBlocks =
        [⟨0, 26, ⟨['a'], ['y'], some ['n']⟩⟩] ∧
      Lies (.condition .page) conditionCloser (some otherwise) sampleBlocks
        ⟨0, 26, ⟨['a'], ['y'], some ['n']⟩⟩ := by
  have found : blocks (.condition .page) conditionCloser (some otherwise) sampleBlocks =
      [⟨0, 26, ⟨['a'], ['y'], some ['n']⟩⟩] := by rfl
  refine ⟨found, ?_⟩
  obtain ⟨-, lie, -⟩ := block_scan_exact (.condition .page) sampleBlocks conditionCloser
    (some otherwise) (by decide) (by rintro _ ⟨⟩; decide)
  exact lie _ (by rw [found]; exact List.mem_singleton_self _)

end Stencil.Markup
