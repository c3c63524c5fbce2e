import Stencil.Proofs.Files.Below
import Stencil.Proofs.Markup.Shape
import Stencil.Proofs.Render.Depth
import Stencil.Proofs.Render.HeldOutput

/-! The files of a render. An included file lies below the directory of included files,
since no point can stand in the name of a tag; the one way out is a slash at the start of
the name. Files that cannot be read are empty files to a render: it comes to the same, and
asks for the same files in the same order. -/
namespace Stencil

open Markup

theorem not_mem_of_included {text name : Text} {c : Char} (included : name ∈ includedNames text)
    (stops : isFileChar c = false) : c ∉ name := by
  obtain ⟨lexeme, found⟩ := mem_spansFrom.mp included
  obtain ⟨rest, tail, read⟩ := exists_of_mem_piecesFrom found
  obtain ⟨tag, -, named⟩ := reads_tag.atOpener read
  intro member
  rw [named.allows c member] at stops
  contradiction

/-- A render asks for no file but those that the tags in the texts that it meets name. Such a file
is asked for in its place, unless its name starts with a slash; and what is found there lies
below what is found for the directory of included files. -/
theorem inclusions_confined (e : Engine) (reader : Reader) (tokens : Tokens) (context : Value)
    (template : Text) :
    let asked := ((e.render reader tokens context template).outcome []).2
    (∀ path ∈ asked, ∃ source name, (source = template ∨ Answered reader [] asked source) ∧
        name ∈ includedNames source ∧ path = e.views.inclusion name) ∧
      ∀ source, ∀ name ∈ includedNames source,
        (e.views.inclusion name = e.views.place name ↔ name.head? ≠ some '/') ∧
          (name.head? ≠ some '/' → e.views.inclusions.Below (e.views.inclusion name) ∧
            ∀ (tree : FileTree) found,
              tree.locate? [] (e.views.inclusion name).names = some found →
                ∃ directory below, tree.locate? [] e.views.inclusions.names = some directory ∧
                  below ≠ [] ∧ found = directory ++ below) := by
  intro asked
  obtain ⟨requests, begins, log, -⟩ := asksFor_render e reader tokens context template []
  rw [List.nil_append] at log
  have logged : asked = requests.map (·.path) := log
  refine ⟨fun path member => ?_, fun source name included => ⟨Views.inclusion_eq_place_iff, ?_⟩⟩
  · rw [logged] at member ⊢
    obtain ⟨r, inside, rfl⟩ := List.mem_map.mp member
    exact request_origin begins r inside
  · intro relative
    have below : e.views.inclusions.Below (e.views.inclusion name) := by
      rw [Views.inclusion_eq_place_iff.mpr relative]
      exact Views.place_below (not_mem_of_included included (by decide))
    exact ⟨below, fun tree found located => FileTree.located_below below located⟩

theorem inclusions_confined_sample :
    let asked := ((cycleEngine.render (fun _ => cycleRead) Token.ofNat (.mapping [])
      cycleTemplate).outcome []).2
    let path := cycleEngine.views.inclusion ['b']
    path ∈ asked ∧ cycleEngine.views.inclusions.Below path ∧
      ∃ source name, (source = cycleTemplate ∨ Answered (fun _ => cycleRead) [] asked source) ∧
        name ∈ includedNames source ∧ path = cycleEngine.views.inclusion name := by
  intro asked path
  have included : ['b'] ∈ includedNames cycleTemplate := by decide
  have member : path ∈ asked := by decide +kernel
  obtain ⟨origin, confined⟩ :=
    inclusions_confined cycleEngine (fun _ => cycleRead) Token.ofNat (.mapping []) cycleTemplate
  exact ⟨member, ((confined cycleTemplate ['b'] included).2 (by decide)).1, origin path member⟩

/-- A name that starts with a slash leaves the directory of included files. -/
theorem rooted_name_escapes :
    let path := FilePath.ofText "/p.html".toList
    ((cycleEngine.render (fun _ => cycleRead) Token.ofNat (.mapping [])
        (Template.inclusionTag "/p".toList)).outcome []).2 = [path] ∧
      path ≠ cycleEngine.views.place "/p".toList ∧ ¬ cycleEngine.views.inclusions.Below path := by
  intro path
  refine ⟨by decide, by decide, ?_⟩
  rintro ⟨-, below, -, -, split⟩
  have lengths := congrArg List.length split
  have full : 2 ≤ cycleEngine.views.inclusions.names.length := by decide
  have single : path.names.length = 1 := by decide
  rw [List.length_append] at lengths
  omega

/-- Every request for a path in `S` is refused, since the file cannot be read or is not UTF-8. -/
def Reader.Refuses (reader : Reader) (S : FilePath → Prop) : Prop :=
  ∀ earlier path, S path →
    reader earlier path = .error .unreadable ∨ reader earlier path = .error .undecodable

section Refused

variable {e : Engine} {reader : Reader} {tokens : Tokens} {context : Value}
variable {S : FilePath → Prop} [DecidablePred S]

theorem assemble_nil (inclusion : Text → Reading (List FilePath) Text) :
    e.assemble tokens context inclusion [] = pure [] := rfl

theorem renderWithin_nil (depth : Nat) :
    e.renderWithin reader tokens context depth [] = pure [] := by
  cases depth <;> exact assemble_nil _

/-- One inclusion: what a refused file adds is what an empty one comes to. -/
theorem includeFile_emptied {inner : Text → Reading (List FilePath) Text}
    (refused : reader.Refuses S) (empty : inner [] = pure []) (name : Text) :
    e.includeFile (reader.emptied S) inner name = e.includeFile reader inner name := by
  funext earlier
  change (e.includeFile (reader.emptied S) inner name).run earlier =
    (e.includeFile reader inner name).run earlier
  rw [Engine.run_includeFile, Engine.run_includeFile, Reader.emptied]
  by_cases inside : S (e.views.inclusion name)
  · rw [if_pos inside]
    rcases refused earlier _ inside with answer | answer
    all_goals
      rw [answer]
      exact congrFun empty _
  · rw [if_neg inside]

theorem renderWithin_emptied (refused : reader.Refuses S) (depth : Nat) :
    e.renderWithin (reader.emptied S) tokens context depth =
      e.renderWithin reader tokens context depth := by
  induction depth with
  | zero => rfl
  | succ depth ih =>
    have same : e.includeFile (reader.emptied S) (e.renderWithin reader tokens context depth) =
        e.includeFile reader (e.renderWithin reader tokens context depth) :=
      funext fun name => includeFile_emptied refused (renderWithin_nil depth) name
    funext template
    unfold Engine.renderWithin
    rw [ih, same]

end Refused

/-- Files that cannot be read count as empty wherever they are included, several at once and at
every depth. -/
theorem render_emptied (e : Engine) (reader : Reader) (tokens : Tokens) (context : Value)
    (S : FilePath → Prop) [DecidablePred S] (refused : reader.Refuses S) (template : Text)
    (earlier : List FilePath) :
    (e.render (reader.emptied S) tokens context template).outcome earlier =
      (e.render reader tokens context template).outcome earlier := by
  unfold Engine.render
  rw [renderWithin_emptied refused]

def garbledName : List Text := ["views".toList, "partials".toList, "g.html".toList]

def garbledTree : FileTree :=
  [(garbledName, .file ⟨#[255]⟩),
    (["views".toList, "partials".toList, "p.html".toList], .file "<{{> g }}>".toUTF8),
    (["views".toList, "partials".toList], .directory), (["views".toList], .directory)]

theorem garbledTree_refuses : garbledTree.reader.Refuses (garbledTree.LeadsTo garbledName) :=
  fun _ _ leads => .inr (leads.read rfl)

theorem render_emptied_sample :
    (sampleEngine.render (garbledTree.put garbledName (.file .empty)).reader Token.ofNat
        sampleContext sampleTemplate).outcome [] =
      (sampleEngine.render garbledTree.reader Token.ofNat sampleContext
        sampleTemplate).outcome [] ∧
    ((sampleEngine.render garbledTree.reader Token.ofNat sampleContext sampleTemplate).outcome
      []).1.toOption = some "<>B<>C".toList :=
  have placed : garbledTree.isDirectory garbledName = false := by decide
  have same := render_emptied sampleEngine garbledTree.reader Token.ofNat sampleContext _
    garbledTree_refuses sampleTemplate []
  ⟨FileTree.reader_put_empty placed ▸ same, by decide +kernel⟩

end Stencil
