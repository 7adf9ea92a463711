import SearchConfig.Text.Search
import SearchConfig.Value.Basic

/-!
# Methods of plain values

A value that is no object has the methods of its type, and a number has parts that are numbers. A
method that stands for an operator is a wrapper, and any other is built in; some belong to the type
as a whole.
-/

namespace SearchConfig

/-- How a routine belongs to what it is called on. -/
inductive RoutineStyle where
  /-- It was written for a kind of objects. -/
  | method
  | builtin
  | wrapper
  deriving DecidableEq

namespace Value

/-- The names in a text, with blanks between them. -/
def namesIn (t : String) : List Text := Text.split (.scalar ' ') t

/-- What every value has. -/
def commonNames : List Text := namesIn <|
  "__delattr__ __dir__ __doc__ __eq__ __format__ __ge__ __getattribute__ __getstate__ "
    ++ "__gt__ __hash__ __init__ __init_subclass__ __le__ __lt__ __ne__ __new__ __reduce__ "
    ++ "__reduce_ex__ __repr__ __setattr__ __sizeof__ __str__ __subclasshook__"

/-- What texts and byte strings of both kinds have. -/
def stringNames : List Text := namesIn <|
  "__add__ __contains__ __getitem__ __iter__ __len__ __mod__ __mul__ __rmod__ __rmul__ "
    ++ "capitalize center count endswith expandtabs find index isalnum isalpha isascii "
    ++ "isdigit islower isspace istitle isupper join ljust lower lstrip maketrans partition "
    ++ "removeprefix removesuffix replace rfind rindex rjust rpartition rsplit rstrip split "
    ++ "splitlines startswith strip swapcase title translate upper zfill"

def textNames : List Text := namesIn <|
  "__getnewargs__ casefold encode format format_map isdecimal isidentifier isnumeric "
    ++ "isprintable"

def bytesNames : List Text := namesIn "__bytes__ __getnewargs__ decode fromhex hex"

def bufferNames : List Text := namesIn <|
  "__alloc__ __delitem__ __iadd__ __imul__ __setitem__ append clear copy decode extend "
    ++ "fromhex hex insert pop remove reverse"

/-- What lists and tuples have. -/
def sequenceNames : List Text := namesIn <|
  "__add__ __class_getitem__ __contains__ __getitem__ __iter__ __len__ __mul__ __rmul__ "
    ++ "count index"

def listNames : List Text := namesIn <|
  "__delitem__ __iadd__ __imul__ __reversed__ __setitem__ append clear copy extend "
    ++ "insert pop remove reverse sort"

def dictNames : List Text := namesIn <|
  "__class_getitem__ __contains__ __delitem__ __getitem__ __ior__ __iter__ __len__ "
    ++ "__or__ __reversed__ __ror__ __setitem__ clear copy fromkeys get items keys pop "
    ++ "popitem setdefault update values"

def setNames : List Text := namesIn <|
  "__and__ __class_getitem__ __contains__ __iand__ __ior__ __isub__ __iter__ __ixor__ "
    ++ "__len__ __or__ __rand__ __ror__ __rsub__ __rxor__ __sub__ __xor__ add clear copy "
    ++ "difference difference_update discard intersection intersection_update isdisjoint "
    ++ "issubset issuperset pop remove symmetric_difference symmetric_difference_update "
    ++ "union update"

/-- What all numbers have. -/
def numberNames : List Text := namesIn <|
  "__abs__ __add__ __bool__ __ceil__ __divmod__ __float__ __floor__ __floordiv__ "
    ++ "__getnewargs__ __int__ __mod__ __mul__ __neg__ __pos__ __pow__ __radd__ __rdivmod__ "
    ++ "__rfloordiv__ __rmod__ __rmul__ __round__ __rpow__ __rsub__ __rtruediv__ __sub__ "
    ++ "__truediv__ __trunc__ as_integer_ratio conjugate"

def integerNames : List Text := namesIn <|
  "__and__ __index__ __invert__ __lshift__ __or__ __rand__ __rlshift__ __ror__ "
    ++ "__rrshift__ __rshift__ __rxor__ __xor__ bit_count bit_length from_bytes to_bytes"

def floatNames : List Text := namesIn "__getformat__ fromhex hex is_integer"

/-- What the values of a type have besides what every value has. -/
def ownNames : Value → List Text
  | null => namesIn "__bool__"
  | bool _ | int _ => numberNames ++ integerNames
  | float _ | nan _ => numberNames ++ floatNames
  | text _ => stringNames ++ textNames
  | bytes _ => stringNames ++ bytesNames
  | buffer _ => stringNames ++ bufferNames
  | list _ | endless _ => sequenceNames ++ listNames
  | tuple _ => sequenceNames ++ namesIn "__getnewargs__"
  | dict _ | again _ => dictNames
  | set _ => setNames
  | _ => []

/-- Has a value that is no object a method of the name? -/
def hasMethod (v : Value) (name : Text) : Bool :=
  commonNames.contains name || v.ownNames.contains name

/-- Names with two underscores in front of methods that are built in for all types. -/
def builtinNames : List Text := namesIn <|
  "__alloc__ __bytes__ __ceil__ __class_getitem__ __dir__ __floor__ __format__ __getformat__ "
    ++ "__getnewargs__ __getstate__ __init_subclass__ __new__ __reduce__ __reduce_ex__ "
    ++ "__reversed__ __round__ __sizeof__ __subclasshook__ __trunc__"

/-- The methods that belong to the type as a whole. -/
def typeLevelNames : List Text := namesIn <|
  "__class_getitem__ __getformat__ __init_subclass__ __new__ __subclasshook__ from_bytes fromhex "
    ++ "fromkeys"

/-- The style of a method of a value. -/
def styleOf (v : Value) (name : Text) : RoutineStyle :=
  let special : List Text := match v with
    | dict _ | again _ => ["__contains__", "__getitem__"]
    | set _ => ["__contains__"]
    | list _ | endless _ => ["__getitem__"]
    | _ => []
  if (special ++ builtinNames).contains name ∨ name.take 2 ≠ "__" then .builtin else .wrapper

/-- Is a method of a value described? -/
def isDescribed (v : Value) (name : Text) : Bool :=
  match v with
  | int _ | bool _ => name != "__getnewargs__" && name != "__format__"
  | _ => name != "__getnewargs__"

/-- Methods of texts and byte strings whose arguments no signature tells. -/
def unsignedStringNames : List Text := namesIn "count endswith find index rfind rindex startswith"

/-- More such methods of byte strings. -/
def unsignedBytesNames : List Text := namesIn <|
  "capitalize isalnum isalpha isascii isdigit islower isspace istitle isupper lower swapcase "
    ++ "title upper"

/-- The methods of a value whose arguments no signature tells. -/
def unsignedNames : Value → List Text
  | bool _ | int _ => namesIn "__ceil__ __floor__ __trunc__ conjugate"
  | text _ => unsignedStringNames ++ namesIn "__getnewargs__ format format_map"
  | bytes _ => unsignedStringNames ++ unsignedBytesNames ++ namesIn "__getnewargs__"
  | buffer _ => unsignedStringNames ++ unsignedBytesNames ++ namesIn "__alloc__"
  | list _ | endless _ => ["__class_getitem__", "__getitem__"]
  | tuple _ => ["__class_getitem__"]
  | dict _ | again _ => namesIn <|
      "__class_getitem__ __getitem__ __sizeof__ clear copy items keys update values"
  | set _ => namesIn <|
      "__class_getitem__ __contains__ __reduce__ __sizeof__ add clear copy difference "
        ++ "difference_update discard intersection intersection_update isdisjoint pop remove "
        ++ "symmetric_difference symmetric_difference_update union update"
  | _ => []

/-- Does a signature tell the arguments of a method of a value? -/
def isSigned (v : Value) (name : Text) : Bool :=
  !((namesIn "__init_subclass__ __subclasshook__") ++ v.unsignedNames).contains name

/-- Can values of the type never stand in a set? -/
def isTypeUnhashable : Value → Bool
  | list _ | endless _ | dict _ | again _ | set _ | buffer _ => true
  | _ => false

/-- The parts of an integer. -/
def integerParts (n : Int) : List (Text × Value) :=
  [("real", int n), ("imag", int 0), ("numerator", int n), ("denominator", int 1)]

/-- The parts of a number, by name. -/
def numberParts : Value → List (Text × Value)
  | int n => integerParts n
  | bool b => integerParts b.toInt
  | float x => [("real", float x), ("imag", float (.finite false 0 Binary64.minExponent))]
  | nan m => [("real", nan m), ("imag", float (.finite false 0 Binary64.minExponent))]
  | _ => []

/-- The type whose parts the parts of a number are: a truth value is an integer. -/
def partOwner : Value → Text
  | bool _ => (int 0).typeName
  | v => v.typeName

end Value

end SearchConfig
