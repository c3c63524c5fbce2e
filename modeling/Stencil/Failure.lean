import Stencil.Value.Basic

/-! What can go wrong, by cause, and the messages that this library words itself. -/
namespace Stencil

inductive Failure
  /-- A numeral with more digits than may be read or written. -/
  | overlong
  /-- A helper was called with a number of arguments that it does not take. -/
  | arity
  /-- An argument is of a kind that the helper cannot use. -/
  | unusable
  /-- An argument is of a usable kind, but is no number or no date. -/
  | malformed
  /-- A loop adds names of its own to its context, which has to be a mapping. -/
  | noMapping
  /-- A number is too large for what is asked of it. -/
  | overflow
  /-- A moment that the clock cannot hold, or that is outside the calendar. -/
  | outsideClock
  | outsideCalendar
  | invalidDate (shown : Text)
  /-- A file that cannot be read, that is not UTF-8, or whose path holds a NUL. -/
  | unreadable
  | undecodable
  | nulInPath
  /-- A failure of a kind of its own. -/
  | raised (kind message : Text)
  | unknownHelper (name : Text)
  | undefinedArgument (name argument : Text)
  | helperFailed (name : Text) (arguments : List Value) (cause : Failure)
  | fileMissing (path : Text)
  | emptyLayoutName
  | emptyMarker

namespace Failure

def inQuotes (text : Text) : Text := '"' :: text ++ ['"']

/-- The message, for causes that have one worded here or by whoever raised them. For the others it
is worded by what runs the library and is not modelled; a helper's failure with such a cause has
none here either. -/
def message? : Failure → Option Text
  | invalidDate shown => some ("Invalid date: ".toList ++ shown)
  | raised _ message => some message
  | unknownHelper name => some ("Helper ".toList ++ inQuotes name ++ " not found".toList)
  | undefinedArgument name argument =>
    some ("Helper ".toList ++ inQuotes name ++ " argument ".toList ++ inQuotes argument ++
      " resolved to undefined".toList)
  | helperFailed name _ cause =>
    cause.message?.map fun message =>
      "Error executing helper ".toList ++ inQuotes name ++ ':' :: ' ' :: message
  | fileMissing path => some ("View file not found: ".toList ++ path)
  | emptyLayoutName => some "Default layout name cannot be empty".toList
  | emptyMarker => some "Content annotation cannot be empty".toList
  | _ => none

/-- The failures that a helper call can have. -/
def isHelperFailure : Failure → Bool
  | unknownHelper _ | undefinedArgument .. | helperFailed .. => true
  | _ => false

end Failure

end Stencil
