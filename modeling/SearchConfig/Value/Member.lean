import SearchConfig.Value.Inherited
import SearchConfig.Value.Internals
import SearchConfig.Value.Misuse

/-!
# Members

A member of a value is a value again, a routine that can be called, a type, or something that is
known by the name of its type alone. Routines and types have members of their own: a routine leads
back to what it is called on. This module knows the members of all that is no object of a workspace,
and what is said against giving one of them a value.
-/

namespace SearchConfig

/-- What a member is. -/
inductive Member where
  | value (v : Value)
  /-- A routine that is called on its owner. It may be described, and a signature may tell its
  arguments. -/
  | routine (style : RoutineStyle) (owner : Member) (described signed : Bool)
  /-- A function that needs no owner. -/
  | function (described : Bool)
  /-- A type of plain values, or of anything else that cannot be changed. -/
  | type (name : Text)
  /-- A kind of objects. -/
  | kind (kind : Kind)
  | other (typeName : Text)
  deriving Inhabited

namespace Member

def typeName : Member → Text
  | value v => v.typeName
  | routine .method .. => "method"
  | routine .builtin .. => "builtin_function_or_method"
  | routine .wrapper .. => "method-wrapper"
  | function _ => "function"
  | type _ => "type"
  | kind k => if k.isModel then "ModelMetaclass" else "type"
  | other typeName => typeName

/-- The value that a member is. -/
def value? : Member → Option Value
  | value v => some v
  | _ => none

/-- The kind of objects, where there is one. -/
def ofKind : Kind → Member
  | .dictionary => type Kind.dictionary.name
  | k => kind k

/-- The type that something is of. -/
def typeOf : Member → Member
  | value (.live h) => ofKind h.kind
  | m => type m.typeName

/-- The type that defines the routines of something for operators: objects have those of all values,
and other values have most of their own. -/
def definer : Member → Member
  | value (.live ⟨.dictionary, _⟩) => type Kind.dictionary.name
  | value (.live _) | function _ => type (Value.bare 0).typeName
  | m => m.typeOf

/-- A text, or null if there is none. -/
def textIf (isThere : Bool) : Member := value (if isThere then .text [] else .null)

def aText : Member := textIf true

def aNumber : Member := value (.int 0)

end Member

namespace Value

/-- The member that says of which kind an object is. -/
def kindMember : Text := "__class__"

/-- A routine of values of a shape, called on an owner. -/
def routine (shape : Value) (owner : Member) (name : Text) : Member :=
  let owner := if name = "__new__" then owner.definer
    else if typeLevelNames.contains name then owner.typeOf
    else if name = "maketrans" then .value null
    else owner
  .routine (shape.styleOf name) owner (shape.isDescribed name) (shape.isSigned name)

/-- A member of what has the shape of a plain value. -/
def partAs? (shape : Value) (owner : Member) (name : Text) : Option Member :=
  if name = kindMember then some (.typeOf (.value shape))
  else if name = "__doc__" then some (.textIf !shape.isNull)
  else if name = "__hash__" ∧ shape.isTypeUnhashable then some (.value null)
  else match Entries.get? name shape.numberParts with
    | some part => some (.value part)
    | none => if shape.hasMethod name then some (shape.routine owner name) else none

/-- A value of each type of plain values. -/
def samples : List Value := [
  null, bool false, int 0, float (.finite false 0 0), text [], bytes .empty, buffer .empty, list [],
  tuple [], set [], dict [], bare 0]

end Value

namespace Member

open Value (namesIn)

/-- What everything has. -/
def common? (m : Member) (name : Text) : Option Member :=
  if name = Value.kindMember then some m.typeOf
  else if name = "__doc__" then some aText
  else if Value.commonNames.contains name then some (Value.routine (.bare 0) m name)
  else none

/-- A part of an internal thing. -/
def ofInternal (m : Member) : InternalPart → Member
  | .fixed v | .computed v => value v
  | .function => function true
  | .routine style => routine style m true true

/-- What a routine has of what everything has: how it is copied is not described. -/
def routineCommon? (style : RoutineStyle) (m : Member) (name : Text) : Option Member :=
  if name = "__reduce__" then some (routine .builtin m false (style = .method)) else m.common? name

/-- The parts of a function. -/
def functionPart? (described : Bool) (name : Text) : Option Member :=
  if (namesIn "__name__ __qualname__ __module__").contains name then some aText
  else if name = "__doc__" then some (textIf described)
  else if (namesIn "__globals__ __builtins__ __annotations__ __dict__").contains name then
    some (value (.dict []))
  else if (namesIn "__defaults__ __kwdefaults__ __closure__").contains name then some (value .null)
  else if name = "__code__" then some (other "code")
  else if name = "__call__" ∨ name = "__get__" then
    some (routine .wrapper (function described) true true)
  else none

/-- The numbers of a type that tell how its values lie in memory. -/
def layoutNames : List Text :=
  namesIn "__flags__ __basicsize__ __itemsize__ __dictoffset__ __weakrefoffset__"

/-- What a type has as a type, apart from what its values have. -/
def typePart? (m : Member) (name : Text) : Option Member :=
  if (namesIn "__name__ __qualname__ __module__").contains name then some aText
  else if name = "__mro__" ∨ name = "__bases__" then some (value (.tuple []))
  else if name = "__base__" then some (type "object")
  else if name = "__dict__" then some (other "mappingproxy")
  else if layoutNames.contains name then some aNumber
  else if name = "__text_signature__" then some (value .null)
  else if name = Value.kindMember then some m.typeOf
  else if (namesIn "__call__ __or__ __ror__").contains name then some (routine .wrapper m true true)
  else if (namesIn "mro __subclasses__ __instancecheck__ __subclasscheck__").contains name then
    some (routine .builtin m true true)
  else if name = "__prepare__" then some (routine .builtin m true false)
  else none

/-- A routine of the values of a type, seen from the type. -/
def unboundRoutine (shape : Value) (m : Member) (name : Text) : Member :=
  if Value.typeLevelNames.contains name then
    routine .builtin m (shape.isDescribed name) (shape.isSigned name)
  else match shape.styleOf name with
    | .wrapper => other "wrapper_descriptor"
    | _ => other "method_descriptor"

/-- A member of a type of plain values. -/
def plainTypePart? (typeName name : Text) : Option Member :=
  let m := type typeName
  let shape := (Value.samples.find? fun v => v.typeName = typeName).getD (.bare 0)
  if name = "__doc__" then some (textIf !shape.isNull)
  else if name = "__hash__" ∧ shape.isTypeUnhashable then some (value .null)
  else (typePart? m name).or <|
    if (Entries.get? name shape.numberParts).isSome then some (other "getset_descriptor")
    else if shape.hasMethod name then some (unboundRoutine shape m name)
    else none

/-- The member of kinds of records with what is known of their fields. -/
def fieldTableName : Text := "__fields__"

/-- What objects of a kind have in common, seen from the kind. -/
def kindMember? (k : Kind) (name : Text) : Option Member :=
  let m := kind k
  match k.inherited? name with
  | some (.method d) | some (.function d) => some (function d)
  | some (.kindMethod d) => some (routine .method m d false)
  | some (.value v) => some (value v)
  | some (.other typeName) => some (other typeName)
  | some (.common _) => some ((typePart? m name).getD (unboundRoutine (.bare 0) m name))
  | none => typePart? m name

/-- A member of a kind of objects. -/
def kindPart? (k : Kind) (name : Text) : Option Member :=
  if k.isModel ∧ name = fieldTableName ∨ name = "__annotations__" then some (value (.dict []))
  else ((Entries.get? name k.reserved).map other).or (kindMember? k name)

/-- A member of something that is no object of a workspace. -/
def part? (m : Member) (name : Text) : Option Member :=
  match m with
  | value v => v.partAs? m name
  | routine .method owner described _ =>
    if name = "__self__" then some owner
    else if name = "__func__" then some (function described)
    else (functionPart? described name).or (m.routineCommon? .method name)
  | routine style owner described signed =>
    if name = "__self__" then some owner
    else if name = "__doc__" then some (textIf described)
    else if name = "__text_signature__" then some (textIf signed)
    else if name = "__name__" ∨ name = "__qualname__" then some aText
    else if style = .builtin ∧ name = "__module__" then some (value .null)
    else if style = .wrapper ∧ name = "__objclass__" then some owner.definer
    else if name = "__call__" then some (routine .wrapper m true true)
    else m.routineCommon? style name
  | function described => (functionPart? described name).or (m.common? name)
  | type typeName => plainTypePart? typeName name
  | kind k => kindPart? k name
  | other typeName =>
    ((Entries.get? name (InternalPart.ofType typeName)).map m.ofInternal).or (m.common? name)

/-- What is searched for a member in the end: a method leads to its function. -/
def searched : Member → Member
  | routine .method _ described _ => function described
  | m => m

/-- The complaint that something lacks a member. -/
def lacks (m : Member) (name : Text) : Misuse :=
  match m with
  | type typeName => .noTypeMember typeName name
  | kind k => if k.isModel then .noKindMember name else .noTypeMember k.name name
  | m => .noMember m.typeName name

/-! ## Giving values -/

/-- What is said against a value for the member that holds all others by name, or for another one
that holds a dictionary. -/
def noDictionary? (v : Value) (misuse : Misuse) : Option Misuse :=
  match v with
  | .dict _ | .live ⟨.dictionary, _⟩ => none
  | _ => some misuse

/-- What is said against giving a member of a function a value. -/
def functionRefusal? (name : Text) (v : Value) : Option Misuse :=
  if (namesIn "__name__ __qualname__").contains name then
    if v.text?.isSome then none else some (.wrongSort name "string")
  else if name = "__code__" then some (.wrongSort name "code")
  else if name = "__defaults__" then
    match v with
    | .null | .tuple _ => none
    | _ => some (.wrongSort name "tuple")
  else if name = "__kwdefaults__" ∨ name = "__annotations__" then
    if v.isNull then none else noDictionary? v (.wrongSort name "dict")
  else if name = "__dict__" then noDictionary? v (.noMembers v.typeName)
  else if (namesIn "__globals__ __builtins__ __closure__").contains name then some .fixedMember
  else none

/-- What is said against giving a member of a kind of objects a value. -/
def kindRefusal? (k : Kind) (name : Text) (v : Value) : Option Misuse :=
  if name = "__name__" ∨ name = "__qualname__" then
    if v.text?.isSome then none
    else some (.unassignable "string" k.name name ("'" ++ v.typeName ++ "'"))
  else if name = "__bases__" then some (.unassignable "tuple" k.name name v.typeName)
  else if name = "__mro__" ∨ name = "__base__" ∨ layoutNames.contains name then some .fixedMember
  else if name = "__dict__" ∨ name = "__text_signature__" then some (.notWritable "type" name)
  else if k.isModel ∧ name = fieldTableName then some (.noSetter (kind k).typeName name)
  else none

/-- The members of routines that are part of them. -/
def routineParts : RoutineStyle → List Text
  | .method => ["__doc__"]
  | .builtin => ["__name__", "__qualname__", "__doc__", "__text_signature__", "__self__"]
  | .wrapper => ["__name__", "__qualname__", "__doc__", "__text_signature__", "__objclass__"]

/-- What is said against giving a member a value, of what is no object of a workspace. -/
def refusal? (m : Member) (name : Text) (v : Value) : Option Misuse :=
  let isFixed := match m with
    | type _ => true
    | _ => false
  if name = Value.kindMember ∧ !isFixed then some (.noKind v.typeName)
  else match m with
    | value part =>
      if (Entries.get? name part.numberParts).isSome then some (.notWritable part.partOwner name)
      else if part.hasMethod name then some (.readOnly part.typeName name)
      else some (m.lacks name)
    | routine style .. =>
      if (routineParts style).contains name then some (.notWritable m.typeName name)
      else if name = "__self__" ∨ (style = .method ∧ name = "__func__") then some .fixedMember
      else if style = .builtin ∧ name = "__module__" then none
      else if name = "__call__" ∨ Value.commonNames.contains name then
        some (.readOnly m.typeName name)
      else some (m.lacks name)
    | function _ => functionRefusal? name v
    | type typeName => some (.fixedType typeName name)
    | kind k => kindRefusal? k name v
    | other typeName =>
      match Entries.get? name (InternalPart.ofType typeName) with
      | some (.fixed _) | some .function => some .fixedMember
      | some (.computed _) => some (.notWritable typeName name)
      | some (.routine _) => some (.readOnly typeName name)
      | none =>
        if Value.commonNames.contains name then some (.readOnly typeName name)
        else some (m.lacks name)

end Member

end SearchConfig
