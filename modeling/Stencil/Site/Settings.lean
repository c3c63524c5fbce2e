import Stencil.Files.Tree
import Stencil.Text.Case

/-! The settings of a site. Each field is decided on its own: by an override if there is
one, else by its environment variable if that is not empty, else by its default; then it is
checked. What a value is taken for is assumed to be decided laxly: a text may come in
octets, and a whole number as a truth value, in digits or as a floating-point number without
a fraction. With the settings comes the log: its level, and the one handler that writes to
the console. -/
namespace Stencil

structure Settings where
  viewsDirectory : FilePath
  defaultLayout : Text
  contentMarker : Text
  maxPartialDepth : Int
  logLevel : Text

namespace Settings

inductive Field
  | viewsDirectory
  | defaultLayout
  | contentMarker
  | maxPartialDepth
  | logLevel
deriving DecidableEq

/-- The name that an override goes by. -/
def Field.key : Field → Text
  | viewsDirectory => "views_directory".toList
  | defaultLayout => "default_layout".toList
  | contentMarker => "content_annotation".toList
  | maxPartialDepth => "max_partial_depth".toList
  | logLevel => "log_level".toList

/-- The environment variable of a field, under the name of the application in capitals. -/
def Field.variable (application : Text) (field : Field) : Text :=
  application ++ '_' :: match field with
    | viewsDirectory => "VIEWS_DIR".toList
    | defaultLayout => "DEFAULT_LAYOUT".toList
    | contentMarker => "CONTENT_ANNOTATION".toList
    | maxPartialDepth => "MAX_PARTIAL_DEPTH".toList
    | logLevel => "LOG_LEVEL".toList

def defaultMaxDepth : Int := 32
def defaultLayoutName : Text := "main".toList
def defaultMarker : Text := "@content".toList

def Field.default : Field → Value
  | viewsDirectory => .text "views".toList
  | defaultLayout => .text defaultLayoutName
  | contentMarker => .text defaultMarker
  | maxPartialDepth => .int defaultMaxDepth
  | logLevel => .text "INFO".toList

/-- Why a value is refused for its field. -/
inductive Problem
  | notText
  | notUtf8
  | tooShort
  | notPath
  | notInteger
  | malformedInteger
  | longInteger
  | fraction
  | infinite
  | tooSmall
deriving DecidableEq

/-- The value of a field before it is checked. -/
def raw (application : Text) (environment : Ledger Text) (overrides : Ledger Value)
    (field : Field) : Value :=
  match overrides.get? field.key with
  | some value => value
  | none =>
    match environment.get? (field.variable application) with
    | none | some [] => field.default
    | some text => .text text

/-- A path is a text; octets are none. -/
def checkPath : Value → Except Problem FilePath
  | .text t => .ok (.ofText t)
  | _ => .error .notPath

def decode? (octets : List UInt8) : Option Text :=
  (String.fromUTF8? ⟨octets.toArray⟩).map String.toList

/-- A text in a value, be it in octets. That is assumed, like the rules for paths and whole numbers. -/
def toText : Value → Except Problem Text
  | .text t => .ok t
  | .bytes octets =>
    match decode? octets with
    | some t => .ok t
    | none => .error .notUtf8
  | _ => .error .notText

def checkText (least : Nat) (value : Value) : Except Problem Text := do
  let t ← toText value
  if t.length < least then throw .tooShort else return t

def readInteger (text : Text) : Except Problem Int :=
  match Whole.read text with
  | .number z => .ok z
  | .overlong => .error .longInteger
  | .malformed => .error .malformedInteger

/-- A whole number in a value. From a floating-point number only 64 bits are taken. -/
def toInteger : Value → Except Problem Int
  | .bool b => .ok (Value.truthInt b)
  | .int z => .ok z
  | .text t => readInteger t
  | .bytes octets =>
    match decode? octets with
    | some t => readInteger t
    | none => .error .malformedInteger
  | .float x =>
    match x.truncate? with
    | none => .error .infinite
    | some z =>
      if !x.isWhole then .error .fraction
      else if -Int.pow 2 63 < z ∧ z < Int.pow 2 63 then .ok z
      else .error .longInteger
  | _ => .error .notInteger

def checkDepth (value : Value) : Except Problem Int := do
  let depth ← toInteger value
  if depth < 1 then throw .tooSmall else return depth

/-- The problem of a field, if its value is refused. -/
def problem? (field : Field) (check : Except Problem α) : List (Field × Problem) :=
  match check with
  | .ok _ => []
  | .error problem => [(field, problem)]

/-- Either all fields are in order, or the problems of those that are not are listed. -/
def load (application : Text) (environment : Ledger Text) (overrides : Ledger Value) :
    Except (List (Field × Problem)) Settings :=
  let raw := raw application environment overrides
  let directory := checkPath (raw .viewsDirectory)
  let layout := checkText 1 (raw .defaultLayout)
  let marker := checkText 1 (raw .contentMarker)
  let depth := checkDepth (raw .maxPartialDepth)
  let level := checkText 0 (raw .logLevel)
  match directory, layout, marker, depth, level with
  | .ok directory, .ok layout, .ok marker, .ok depth, .ok level =>
    .ok ⟨directory, layout, marker, depth, level⟩
  | _, _, _, _, _ =>
    .error (problem? .viewsDirectory directory ++ problem? .defaultLayout layout ++
      problem? .contentMarker marker ++ problem? .maxPartialDepth depth ++
      problem? .logLevel level)

end Settings

/-- A level is given by its name, in any case, or by its number. -/
inductive LogLevel
  | named (name : Text)
  | number (n : Int)

namespace LogLevel

def information : Int := 20

def names : Ledger Int :=
  [("CRITICAL".toList, 50), ("FATAL".toList, 50), ("ERROR".toList, 40), ("WARNING".toList, 30),
   ("WARN".toList, 30), ("INFO".toList, information), ("DEBUG".toList, 10), ("NOTSET".toList, 0)]

/-- An unknown name stands for the level of information. -/
def value : LogLevel → Int
  | named name => (names.get? (Text.upper name)).getD information
  | number n => n

end LogLevel

structure Log where
  name : Text
  level : Int
  handlers : List Text

namespace Log

def ofApplication (name : Text) : Log := ⟨name, 0, []⟩

def consoleName (log : Log) : Text := log.name ++ "-console".toList

/-- Sets the level. The handler is added the first time only. -/
def configure (log : Log) (level : LogLevel) : Log :=
  { log with
    level := level.value
    handlers :=
      if log.consoleName ∈ log.handlers then log.handlers
      else log.handlers ++ [log.consoleName] }

end Log

end Stencil
