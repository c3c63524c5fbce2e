import Stencil.Failure

/-! Paths of files, and how a tree of files answers a reader's request. A path as it is
written is a root and the names below it. Names are followed one by one from the root: every
one but the last has to be a directory that exists, also one that double points leave again
at once. -/
namespace Stencil

/-- One slash or exactly two may stand for different roots. -/
inductive Root
  | relative
  | slash
  | slashes
deriving DecidableEq

def Root.text : Root → Text
  | relative => []
  | slash => ['/']
  | slashes => ['/', '/']

def Root.ofText : Text → Root
  | ['/', '/'] => slashes
  | '/' :: '/' :: c :: _ => if c = '/' then slash else slashes
  | '/' :: _ => slash
  | _ => relative

/-- A path as it is written. Empty names and single points vanish, double points stay, since only
the file system knows what they lead to. -/
structure FilePath where
  root : Root
  names : List Text
deriving DecidableEq

namespace FilePath

def up : Text := ['.', '.']

/-- Holds for parts of a text that are names in a path. -/
def isName (part : Text) : Bool := part ≠ [] && part ≠ ['.']

def ofText (text : Text) : FilePath := ⟨.ofText text, (Text.parts '/' text).filter isName⟩

/-- The empty path is the current directory. -/
def text (path : FilePath) : Text :=
  match path.root, path.names with
  | .relative, [] => ['.']
  | root, names => root.text ++ List.intercalate ['/'] names

/-- A path below another one; a path with a root of its own replaces it. -/
def join (base path : FilePath) : FilePath :=
  match path.root with
  | .relative => ⟨base.root, base.names ++ path.names⟩
  | _ => path

def child (base : FilePath) (name : Text) : FilePath := base.join (ofText name)

/-- One more name on a path in normal form, the last name first: double points take a name away,
unless there is none to take; above a root they vanish. -/
def push (rooted : Bool) (kept : List Text) (name : Text) : List Text :=
  if name ≠ up then name :: kept
  else match kept with
    | [] => if rooted then [] else [up]
    | last :: rest => if last = up then up :: last :: rest else rest

/-- The path with its double points worked off by text alone. -/
def normal (path : FilePath) : FilePath :=
  ⟨path.root, (path.names.foldl (push (path.root ≠ .relative)) []).reverse⟩

end FilePath

/-- Where a site keeps its files. -/
structure Views where
  directory : FilePath

namespace Views

def fileName (name : Text) : Text := name ++ ".html".toList

def view (v : Views) (name : Text) : FilePath := v.directory.child (fileName name)

def layout (v : Views) (name : Text) : FilePath :=
  (v.directory.child "layouts".toList).child (fileName name)

def inclusion (v : Views) (name : Text) : FilePath :=
  (v.directory.child "partials".toList).child (fileName name)

end Views

/-- Why a file gave no text: it cannot be read, it is not UTF-8, or the reader itself failed. -/
inductive ReadError
  | unreadable
  | undecodable
  | failed (cause : Failure)

/-- A reader is told which paths were asked for before, so that it may answer each request
differently. -/
abbrev Reader := List FilePath → FilePath → Except ReadError Text

/-- As `reader`, but with a set answer for some paths. -/
def Reader.withFaults (faults : FilePath → Option ReadError) (reader : Reader) : Reader :=
  fun earlier path =>
    match faults path with
    | some error => .error error
    | none => reader earlier path

/-- Computations that read files and may fail. The state holds the paths asked for so far, and
survives a failure. -/
abbrev Reading (σ α : Type) := ExceptT Failure (StateM σ) α

/-- The result of a computation, and the state that it leaves. -/
def Reading.outcome (x : Reading σ α) (state : σ) : Except Failure α × σ := x.run state

inductive Node
  | directory
  | file (content : ByteArray)

/-- Nodes by the names that lead to them; the root itself is always there. A tree has no symbolic
links, so double points always go back over the name before them. -/
abbrev FileTree := List (List Text × Node)

namespace FileTree

def node? (tree : FileTree) (names : List Text) : Option Node :=
  if names = [] then some .directory else tree.lookup names

def isDirectory (tree : FileTree) (names : List Text) : Bool :=
  match tree.node? names with
  | some .directory => true
  | _ => false

def remove (tree : FileTree) (names : List Text) : FileTree := tree.filter (·.1 ≠ names)

def put (tree : FileTree) (names : List Text) (node : Node) : FileTree :=
  (names, node) :: tree.remove names

/-- Puts a node, and the directories on the way to it that are absent. -/
def write (tree : FileTree) (names : List Text) (node : Node) : FileTree :=
  let parents := (List.range names.length).map names.take
  let ensure (tree : FileTree) (parent : List Text) : FileTree :=
    if (tree.node? parent).isSome then tree else tree.put parent .directory
  (parents.foldl ensure tree).put names node

/-- The names that a path leads to, from a directory that exists. Above the root there is only
the root. -/
def locate? (tree : FileTree) (reached : List Text) : List Text → Option (List Text)
  | [] => some reached
  | name :: rest =>
    let next := if name = FilePath.up then reached.dropLast else reached ++ [name]
    if rest = [] || tree.isDirectory next then tree.locate? next rest else none

/-- Every way to end a line becomes a line feed. -/
def unifyLines : Text → Text
  | '\r' :: '\n' :: rest => '\n' :: unifyLines rest
  | '\r' :: rest => '\n' :: unifyLines rest
  | c :: rest => c :: unifyLines rest
  | [] => []

def decode (content : ByteArray) : Except ReadError Text :=
  match String.fromUTF8? content with
  | some text => .ok (unifyLines text.toList)
  | none => .error .undecodable

/-- The length of a text in UTF-8. -/
def byteCount (text : Text) : Nat := (text.map Char.utf8Size).foldl (· + ·) 0

/-- The longest path that is followed, in bytes. -/
def maxPathBytes : Nat := 4095

/-- A path with a NUL is refused before any file is looked for, and so is one that is too long. -/
def read (tree : FileTree) (path : FilePath) : Except ReadError Text :=
  if path.names.any (·.contains '\x00') then .error (.failed .nulInPath)
  else if maxPathBytes < byteCount path.text then .error .unreadable
  else match (tree.locate? [] path.names).bind tree.node? with
    | some (.file content) => decode content
    | _ => .error .unreadable

def reader (tree : FileTree) : Reader := fun _ path => tree.read path

end FileTree

end Stencil
