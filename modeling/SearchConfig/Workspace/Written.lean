import SearchConfig.Model.Listing
import SearchConfig.Value.Named
import SearchConfig.Value.Serialize
import SearchConfig.Workspace.Form

/-!
# Writing snapshots

A snapshot whose secrets are sealed is written by the forms of its fields where its members have
their types, and as whatever it is where they do not. Of a record that stands in the place of
another kind only the fields of that kind are written. As JSON, texts and byte strings must be
writable and nothing may be part of itself; as a value everything stays that is no record.
-/

namespace SearchConfig

namespace Form

/-- The form of the values of a dictionary. -/
def ofEntries : Form → Form
  | map kind => record kind
  | _ => any

end Form

/-- Why a snapshot has no form without records. -/
inductive FormFault where
  /-- Something is part of itself. -/
  | circular
  /-- A value is not what it must be. -/
  | mistyped (v : Value) (typeName : Text)

/-- Why a snapshot cannot be written. -/
inductive WriteFault where
  | unencodable (run : LoneSurrogates)
  | undecodable (fault : Utf8.DecodeFault)
  | unsupported (v : Value)
  | undecodableKey (fault : Utf8.DecodeFault)
  | longKey
  | unsupportedKey (v : Value)
  | formless (fault : FormFault)

namespace FormFault

def message : FormFault → Text
  | circular => "Circular reference detected (id repeated)"
  | mistyped v typeName =>
    "'" ++ v.typeName ++ "' object is not an instance of '" ++ typeName ++ "'"

/-- The kind of error that a writer names before the message. -/
def name : FormFault → Text
  | circular => "ValueError"
  | mistyped _ _ => "TypeError"

/-- The fault of a member that stands under what is no name. -/
def unnamed (key : Value) : FormFault := mistyped key (Value.text []).typeName

end FormFault

namespace WriteFault

def ofWriter (reason : Text) : Text := "Error serializing to JSON: " ++ reason

/-- What is said of bytes that are no UTF-8. -/
def undecodableReason (fault : Utf8.DecodeFault) : Text :=
  if fault.reason = .unexpectedEnd then
    "incomplete utf-8 byte sequence from index " ++ Text.ofNat fault.position
  else
    "invalid utf-8 sequence of " ++ Text.ofNat fault.length ++ " bytes from index "
      ++ Text.ofNat fault.position

/-- The complaint about a value of a type that has no written form. -/
def unsupportedMessage (v : Value) : Text :=
  "Unable to serialize unknown type: <class '" ++ v.fullTypeName ++ "'>"

/-- The message of a writer of JSON. -/
def message : WriteFault → Text
  | unencodable run => run.writerMessage
  | undecodable fault => ofWriter (undecodableReason fault)
  | unsupported v => unsupportedMessage v
  | undecodableKey fault => ofWriter ("UnicodeDecodeError: " ++ fault.place ++ ": invalid utf-8")
  | longKey => ofWriter ("ValueError: " ++ tooManyDigitsMessage)
  | unsupportedKey v => ofWriter ("PydanticSerializationError: " ++ unsupportedMessage v)
  | formless fault => ofWriter (fault.name ++ ": " ++ fault.message)

end WriteFault

/-- The kind whose fields are written of an object with members. In the place of a record these are
the fields of that record. Anywhere else a linker has none, and whatever was given a writer would
have to be written by it. -/
def Form.kindOf? (form : Form) (kind : Kind) (members : List (Value × Value)) :
    Except FormFault (Option Kind) :=
  match form, Value.named? Kind.writerMember members with
  | record asked, _ => .ok (some asked)
  | _, some writer => .error (.mistyped writer "SchemaSerializer")
  | _, none => .ok (if kind.isModel then some kind else none)

namespace Value

/-! ## As JSON -/

def quotedText (t : Text) : Text := Text.ofChars (Json.printString .compact t.legible)

def writeText (t : Text) : Except WriteFault Text :=
  match t.characters with
  | .ok cs => .ok (Text.ofChars (Json.printString .compact cs))
  | .error run => .error (.unencodable run)

/-- The text of bytes, which must be UTF-8. -/
def bytesText (b : ByteArray) : Except WriteFault Text :=
  match Utf8.decode? b, Utf8.decodeFault? b with
  | none, some fault => .error (.undecodable fault)
  | cs, _ => .ok (Text.ofChars (cs.getD []))

/-- A number; one that is not finite is written as null. -/
def writeFloat : Binary64 → Text
  | .finite negative significand exponent =>
    Text.ofChars ((Binary64.finite negative significand exponent).display .brief)
  | _ => "null"

def bracketed (left right : Char) (parts : List Text) : Text :=
  .scalar left :: (Text.join "," parts ++ [.scalar right])

def writeObject (entries : List (Text × Text)) : Text :=
  bracketed '\x7b' '\x7d' (entries.map fun (key, v) => quotedText key ++ ":" ++ v)

mutual

/-- The text that a key is written as, not yet quoted. -/
def writtenKey : Value → Except WriteFault Text
  | null => .ok "None"
  | bool b => .ok (if b then "true" else "false")
  | int n => if Digits.isWritable n then .ok (Text.ofInt n) else .error .longKey
  | float (.finite negative significand exponent) =>
    .ok (Text.ofChars ((Binary64.finite negative significand exponent).display .short))
  | float _ => .ok "None"
  | text t =>
    match t.loneSurrogates? with
    | some run => .error (.unencodable run)
    | none => .ok t
  | bytes b =>
    match bytesText b with
    | .error (.undecodable fault) => .error (.undecodableKey fault)
    | result => result
  | tuple items => do return Text.join "," (← writtenKeys items)
  | v => .error (.unsupportedKey v)

def writtenKeys : List Value → Except WriteFault (List Text)
  | [] => .ok []
  | item :: items => do
    let first ← writtenKey item
    return first :: (← writtenKeys items)

end

/-- The text that a key of a dictionary is written as. Where names are expected, a text is one as it
is. -/
def keyFor (form : Form) (key : Value) : Except WriteFault Text :=
  match form, key with
  | .map _, text t => .ok t
  | _, key => writtenKey key

/-- The text of a truth value, which counts as a number where an integer should stand. -/
def boolText (form : Form) (b : Bool) : Text :=
  if form = .integer then Text.ofInt b.toInt else if b then "true" else "false"

mutual

/-- The JSON text of a snapshot in the place of a form. -/
def write (naming : Naming) (form : Form) (v : Value) : Except WriteFault Text :=
  if v.isNull then .ok "null"
  else if form = .masked then .ok "\x7b\x7d"
  else match v with
    | bool b => .ok (boolText form b)
    | int n => .ok (Text.ofInt n)
    | float x => .ok (writeFloat x)
    | text t => writeText t
    | bytes b => do writeText (← bytesText b)
    | buffer b => do writeText (← bytesText b)
    | list items => do return bracketed '[' ']' (← writeItems naming items)
    | tuple items => do return bracketed '[' ']' (← writeItems naming items)
    | set items => do return bracketed '[' ']' (← writeItems naming items)
    | dict entries => do return writeObject (← writeEntries naming form entries)
    | endless _ | again _ => .error (.formless .circular)
    | record kind members => do
      match ← (form.kindOf? kind members).mapError .formless with
      | some kind => return writeObject (← writeMembers naming kind members)
      | none => .error (.unsupported (record kind members))
    | v => .error (.unsupported v)

def writeItems (naming : Naming) : List Value → Except WriteFault (List Text)
  | [] => .ok []
  | item :: items => do
    let first ← write naming .any item
    return first :: (← writeItems naming items)

def writeEntries (naming : Naming) (form : Form) :
    List (Value × Value) → Except WriteFault (List (Text × Text))
  | [] => .ok []
  | (key, v) :: entries => do
    let key ← keyFor form key
    let v ← write naming form.ofEntries v
    return (key, v) :: (← writeEntries naming form entries)

/-- The members that are fields of the kind. -/
def writeMembers (naming : Naming) (kind : Kind) :
    List (Value × Value) → Except WriteFault (List (Text × Text))
  | [] => .ok []
  | (text name, v) :: members =>
    match kind.field? name with
    | none => writeMembers naming kind members
    | some (field, form) => do
      let v ← write naming form v
      return (field.under naming, v) :: (← writeMembers naming kind members)
  | (key, _) :: _ => .error (.formless (.unnamed key))

end

/-! ## As values -/

mutual

/-- The snapshot in the place of a form with its records as dictionaries. -/
def dumped (naming : Naming) (form : Form) (v : Value) : Except FormFault Value :=
  if v.isNull then .ok null
  else if form = .masked then .ok (dict [])
  else match v with
    | list items => (dumpedItems naming items).map list
    | tuple items => (dumpedItems naming items).map tuple
    | set items => (dumpedItems naming items).map set
    | dict entries => (dumpedEntries naming form.ofEntries entries).map dict
    | endless _ | again _ => .error .circular
    | record kind members => do
      match ← form.kindOf? kind members with
      | some kind => (dumpedMembers naming kind members).map dict
      | none => .ok (record kind members)
    | v => .ok v

def dumpedItems (naming : Naming) : List Value → Except FormFault (List Value)
  | [] => .ok []
  | item :: items => do
    let first ← dumped naming .any item
    return first :: (← dumpedItems naming items)

def dumpedEntries (naming : Naming) (form : Form) :
    List (Value × Value) → Except FormFault (List (Value × Value))
  | [] => .ok []
  | (key, v) :: entries => do
    let v ← dumped naming form v
    return (key, v) :: (← dumpedEntries naming form entries)

def dumpedMembers (naming : Naming) (kind : Kind) :
    List (Value × Value) → Except FormFault (List (Value × Value))
  | [] => .ok []
  | (text name, v) :: members =>
    match kind.field? name with
    | none => dumpedMembers naming kind members
    | some (field, form) => do
      let v ← dumped naming form v
      return (text (field.under naming), v) :: (← dumpedMembers naming kind members)
  | (key, _) :: _ => .error (.unnamed key)

end

end Value

end SearchConfig
