import SearchConfig.Text.Quoted

/-!
# Misused values

A dynamic value may turn out not to be what an action needs: it has no such member, no length, no
order, or it is no text. Types are named as in the messages for people.
-/

namespace SearchConfig

/-- Why a value cannot be used in some way. -/
inductive Misuse where
  | noMember (typeName member : Text)
  /-- A record has neither a field nor anything else of the name. -/
  | unknownMember (typeName member : Text)
  /-- A type itself has no member of the name. -/
  | noTypeMember (typeName member : Text)
  | readOnly (typeName member : Text)
  /-- A member is part of a value. -/
  | notWritable (typeName member : Text)
  /-- A member is computed and cannot be given a value. -/
  | noSetter (typeName member : Text)
  /-- A record has no field of the name. -/
  | noField (typeName field : Text)
  /-- A member says where a routine belongs. -/
  | fixedMember
  /-- A type cannot be changed. -/
  | fixedType (typeName member : Text)
  /-- A kind of records lacks a member. -/
  | noKindMember (member : Text)
  /-- A kind of records has a member that the records themselves do not have. -/
  | kindOnly (kindName member : Text)
  /-- The kind of an object is no value. -/
  | noKind (typeName : Text)
  /-- The members of an object are those of a dictionary. -/
  | noMembers (typeName : Text)
  /-- A member can only be something of a certain sort. -/
  | wrongSort (member sort : Text)
  /-- A member of a kind can only be something of a certain sort. -/
  | unassignable (sort kindName member typeName : Text)
  | notCallable (typeName : Text)
  | noLength (typeName : Text)
  /-- The items of a value that has none are asked for. -/
  | notIterable (typeName : Text)
  /-- An item is searched for in a value that has none. -/
  | notSearchable (typeName : Text)
  | notSubscriptable (typeName : Text)
  | noItemAssignment (typeName : Text)
  /-- Only integers number the items of the value. -/
  | notIndex (typeName indexName : Text)
  | outOfRange (typeName : Text)
  /-- The number of an item is past all that items could have. -/
  | hugeIndex
  | incomparable (first second : Text)
  | unhashable (typeName : Text)
  /-- A dictionary has nothing under a key, which is shown. -/
  | noKey (shown : Text)
  /-- Something is part of itself. -/
  | endless
  /-- Things that are parts of themselves are compared. -/
  | endlessComparison
  /-- A text is searched for in bytes. -/
  | textInBytes
  /-- Bytes are searched in place of a text. -/
  | bytesForText
  /-- A text is searched for at the beginning of bytes. -/
  | textForBytes
  /-- A text or bytes are required. -/
  | notText (typeName : Text)
  | notConcatenable (typeName : Text)
  | notPath (typeName : Text)
  /-- A path is a text, not bytes. -/
  | bytesForPath
  /-- Only texts name what is given by name. -/
  | unnamed
  /-- Only the entries of a dictionary are given by name. -/
  | notMapping (receiver typeName : Text)
  /-- Something is given twice. -/
  | givenTwice (receiver name : Text)
  /-- Only a text takes the place of a text. -/
  | notReplacement (typeName : Text)
  /-- Something is shown as what is no text. -/
  | notShown (typeName : Text)
  deriving DecidableEq

namespace Misuse

/-- Is it said that something has no member? -/
def isAbsence : Misuse → Bool
  | noMember _ _ | unknownMember _ _ | noTypeMember _ _ | noKindMember _ | kindOnly _ _ => true
  | _ => false

def quotedName (t : Text) : Text := "'" ++ t ++ "'"

/-- The complaint that an object has no such member. -/
def lacks (object member : Text) : Text := object ++ " has no attribute " ++ quotedName member

/-- What the numbers of the items of a value must be. -/
def indexRule (typeName indexName : Text) : Text :=
  if typeName = "str" then "string indices must be integers, not " ++ quotedName indexName
  else if typeName = "bytes" then "byte indices must be integers or slices, not " ++ indexName
  else typeName ++ " indices must be integers or slices, not " ++ indexName

/-- What has ended before the item of a number. -/
def rangeName (typeName : Text) : Text :=
  if typeName = "bytes" then "index"
  else if typeName = "str" then "string index"
  else typeName ++ " index"

def message : Misuse → Text
  | noMember typeName member => lacks (quotedName typeName ++ " object") member
  | unknownMember typeName member =>
    quotedName typeName ++ " object has no attribute " ++ member.quoted
  | noTypeMember typeName member => lacks ("type object " ++ quotedName typeName) member
  | readOnly typeName member =>
    quotedName typeName ++ " object attribute " ++ quotedName member ++ " is read-only"
  | notWritable typeName member =>
    "attribute " ++ quotedName member ++ " of " ++ quotedName typeName ++ " objects is not writable"
  | noSetter typeName member =>
    "property " ++ quotedName member ++ " of " ++ quotedName typeName ++ " object has no setter"
  | noField typeName field => "\"" ++ typeName ++ "\" object has no field \"" ++ field ++ "\""
  | fixedMember => "readonly attribute"
  | fixedType typeName member =>
    "cannot set " ++ member.quoted ++ " attribute of immutable type " ++ quotedName typeName
  | noKindMember member => member
  | kindOnly kindName member =>
    member.quoted ++ " attribute of " ++ quotedName kindName ++ " is class-only"
  | wrongSort member sort => member ++ " must be set to a " ++ sort ++ " object"
  | unassignable sort kindName member typeName =>
    "can only assign " ++ sort ++ " to " ++ kindName ++ "." ++ member ++ ", not " ++ typeName
  | noKind typeName => "__class__ must be set to a class, not " ++ quotedName typeName ++ " object"
  | noMembers typeName => "__dict__ must be set to a dictionary, not a " ++ quotedName typeName
  | notCallable typeName => quotedName typeName ++ " object is not callable"
  | noLength typeName => "object of type " ++ quotedName typeName ++ " has no len()"
  | notIterable typeName => quotedName typeName ++ " object is not iterable"
  | notSearchable typeName => "argument of type " ++ quotedName typeName ++ " is not iterable"
  | notSubscriptable typeName => quotedName typeName ++ " object is not subscriptable"
  | noItemAssignment typeName =>
    quotedName typeName ++ " object does not support item assignment"
  | notIndex typeName indexName => indexRule typeName indexName
  | outOfRange typeName => rangeName typeName ++ " out of range"
  | hugeIndex => "cannot fit 'int' into an index-sized integer"
  | incomparable first second =>
    "'<' not supported between instances of " ++ quotedName first ++ " and " ++ quotedName second
  | unhashable typeName => "unhashable type: " ++ quotedName typeName
  | noKey shown => shown
  | endless => "maximum recursion depth exceeded"
  | endlessComparison => "maximum recursion depth exceeded in comparison"
  | textInBytes => "a bytes-like object is required, not 'str'"
  | textForBytes => "startswith first arg must be bytes or a tuple of bytes, not str"
  | bytesForText => "cannot use a string pattern on a bytes-like object"
  | notText typeName => "expected string or bytes-like object, got " ++ quotedName typeName
  | notPath typeName => "expected str, bytes or os.PathLike object, not " ++ typeName
  | bytesForPath =>
    "argument should be a str object or an os.PathLike object returning str, not <class 'bytes'>"
  | unnamed => "keywords must be strings"
  | notMapping receiver typeName =>
    receiver ++ " argument after ** must be a mapping, not " ++ typeName
  | givenTwice receiver name =>
    receiver ++ " got multiple values for argument " ++ quotedName name
  | notReplacement typeName => "replace() argument 2 must be str, not " ++ typeName
  | notShown typeName => "__str__ returned non-string (type " ++ typeName ++ ")"
  | notConcatenable typeName => "can only concatenate str (not \"" ++ typeName ++ "\") to str"

end Misuse

end SearchConfig
