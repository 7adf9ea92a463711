import SearchConfig.Text.Quoted
import SearchConfig.Value.Equality
import SearchConfig.Value.Truth

/-!
# Displaying values

A value is displayed in one line, texts inside it quoted. Standing alone a text is shown as it is,
and a record of declared fields without its name. An integer of too many digits cannot be displayed.
-/

namespace SearchConfig.Value

/-- Items with a comma and a blank between each two. -/
def commaJoined (items : List Text) : Text := Text.join ", " items

mutual

/-- The value with every text quoted. -/
def display : Value → Text
  | null => "None"
  | bool true => "True"
  | bool false => "False"
  | int n => Text.ofInt n
  | float x => Text.ofChars (x.display .short)
  | nan _ => "nan"
  | text t => t.quoted
  | bytes b => Text.quotedBytes b
  | buffer b => "bytearray(" ++ Text.quotedBuffer b ++ ")"
  | list items => "[" ++ commaJoined (displayItems items) ++ "]"
  | tuple [item] => "(" ++ display item ++ ",)"
  | tuple items => "(" ++ commaJoined (displayItems items) ++ ")"
  | set [] => "set()"
  | set items => "\x7b" ++ commaJoined (displayItems items) ++ "\x7d"
  | dict entries => "\x7b" ++ commaJoined (displayEntries entries) ++ "\x7d"
  | bare _ => "<object object>"
  | setter => "<function>"
  | endless _ => "[[...]]"
  | again typeName =>
    if typeName = "dict" then "\x7b...\x7d" else if typeName = "list" then "[...]" else "(...)"
  | secret s => s.shown
  | live h => h.kind.name
  | kept _ v => display v
  | record .secret [(_, payload)] => Secret.mask (!payload.isTrue.toOption.getD true)
  | record kind members => kind.name ++ "(" ++ commaJoined (displayMembers members) ++ ")"

def displayItems : List Value → List Text
  | [] => []
  | item :: items => display item :: displayItems items

def displayEntries : List (Value × Value) → List Text
  | [] => []
  | (key, v) :: entries => (display key ++ ": " ++ display v) :: displayEntries entries

/-- The members, each with its name if it has one. -/
def displayMembers : List (Value × Value) → List Text
  | [] => []
  | (null, v) :: members => display v :: displayMembers members
  | (text name, v) :: members => (name ++ "=" ++ display v) :: displayMembers members
  | (key, v) :: members => (display key ++ "=" ++ display v) :: displayMembers members

end

mutual

/-- Is every integer in the value short enough to be written? -/
def isDisplayable : Value → Bool
  | int n => Digits.isWritable n
  | list items => areDisplayable items
  | tuple items => areDisplayable items
  | set items => areDisplayable items
  | dict entries => haveDisplayable entries
  | record .secret _ => true
  | record _ members => haveDisplayable members
  | _ => true

def areDisplayable : List Value → Bool
  | [] => true
  | item :: items => isDisplayable item && areDisplayable items

def haveDisplayable : List (Value × Value) → Bool
  | [] => true
  | (key, v) :: entries => isDisplayable key && isDisplayable v && haveDisplayable entries

end

/-- The value standing alone. -/
def shown : Value → Text
  | text t => t
  | record kind members =>
    if kind.isModel then Text.join " " (displayMembers members)
    else (record kind members).display
  | v => v.display

end SearchConfig.Value
