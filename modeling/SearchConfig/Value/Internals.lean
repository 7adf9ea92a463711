import SearchConfig.Value.Methods

/-!
# Parts of internal things

What stands for a member of a type, and what a function consists of, is known by the name of its
type alone. Such a thing has parts of its own, and none of them can be given another value.
-/

namespace SearchConfig

/-- A part of an internal thing. -/
inductive InternalPart where
  /-- A value that is kept in the thing. -/
  | fixed (v : Value)
  /-- A value that is computed from the thing. -/
  | computed (v : Value)
  /-- A function that the thing was made of. -/
  | function
  | routine (style : RoutineStyle)
  deriving Inhabited

namespace InternalPart

open Value (namesIn)

def aText : Value := .text []

/-- Parts of one sort under several names. -/
def each (names : String) (part : InternalPart) : List (Text × InternalPart) :=
  (namesIn names).map fun name => (name, part)

/-- What all that stands for a member has. -/
def descriptorParts : List (Text × InternalPart) :=
  each "__name__" (fixed aText) ++ each "__qualname__" (computed aText)
    ++ each "__get__" (routine .wrapper)

/-- What has to do with giving the member that something stands for a value. -/
def storeParts : List (Text × InternalPart) := each "__set__ __delete__" (routine .wrapper)

def routineParts : List (Text × InternalPart) :=
  descriptorParts ++ each "__doc__ __text_signature__" (computed aText)
    ++ each "__call__" (routine .wrapper)

/-- The parts of a computed member, which is described and can only be read. -/
def propertyParts : List (Text × InternalPart) :=
  each "fget" function ++ each "fset fdel" (fixed .null)
    ++ each "__isabstractmethod__" (computed (.bool false)) ++ each "__get__" (routine .wrapper)
    ++ storeParts ++ each "__set_name__ getter setter deleter" (routine .builtin)

def codeParts : List (Text × InternalPart) :=
  each "co_filename co_name co_qualname" (fixed aText)
    ++ each ("co_argcount co_firstlineno co_flags co_kwonlyargcount co_nlocals "
      ++ "co_posonlyargcount co_stacksize") (fixed (.int 0))
    ++ each "co_consts co_names" (fixed (.tuple []))
    ++ each "co_exceptiontable co_linetable" (fixed (.bytes .empty))
    ++ each "co_cellvars co_freevars co_varnames" (computed (.tuple []))
    ++ each "_co_code_adaptive co_code co_lnotab" (computed (.bytes .empty))
    ++ each "_varname_from_oparg co_lines co_positions replace" (routine .builtin)

/-- The parts of the members of a type, by name. -/
def tableParts : List (Text × InternalPart) :=
  each "__contains__ __getitem__ __ior__ __iter__ __len__ __or__ __ror__" (routine .wrapper)
    ++ each "__class_getitem__ __reversed__ copy get items keys values" (routine .builtin)

/-- The parts of a set that cannot be changed. -/
def fixedSetParts : List (Text × InternalPart) :=
  each ("__and__ __iter__ __len__ __or__ __rand__ __ror__ __rsub__ __rxor__ __sub__ __xor__")
      (routine .wrapper)
    ++ each ("__class_getitem__ __contains__ copy difference intersection isdisjoint issubset "
      ++ "issuperset symmetric_difference union") (routine .builtin)

/-- The parts of the things of a type. -/
def ofType (typeName : Text) : List (Text × InternalPart) :=
  (Entries.get? typeName [
    ("wrapper_descriptor", routineParts),
    ("method_descriptor", routineParts),
    ("getset_descriptor", descriptorParts ++ storeParts ++ each "__doc__" (computed aText)),
    ("member_descriptor", descriptorParts ++ storeParts ++ each "__doc__" (computed .null)),
    ("property", propertyParts),
    ("code", codeParts),
    ("mappingproxy", tableParts),
    ("frozenset", fixedSetParts)]).getD []

end InternalPart

end SearchConfig
