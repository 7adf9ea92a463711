import SearchConfig.Value.Methods

/-!
# What objects of a kind have in common

Objects of one kind have the same methods and some values that describe the kind. All records of
declared fields share most of these.
-/

namespace SearchConfig

/-- What objects of a kind have in common under a name. -/
inductive Inherited where
  /-- A method, which may be described. -/
  | method (described : Bool)
  /-- A method of the kind as a whole. -/
  | kindMethod (described : Bool)
  /-- A function that needs no object. -/
  | function (described : Bool)
  | value (v : Value)
  /-- What is no value, by the name of its type. -/
  | other (typeName : Text)
  /-- A routine that all values have. -/
  | common (style : RoutineStyle)

namespace Kind

open Value (namesIn)

/-- The methods of a kind of its own, those that are described first. -/
def methods : Kind → List Text × List Text
  | config => (["to_json_string"], [])
  | repository => (["poll_updates_enabled", "push_updates_enabled", "vcs_config"], [])
  | pattern => ([], [])
  | linker => (["resolve"], ["__init__"])
  | secret =>
    (["get_secret_value", "encode"], ["__init__", "__eq__", "__hash__", "__len__", "__repr__"])
  | dictionary => ([], [])

def kindMethods : Kind → List Text × List Text
  | config => ([], ["null_as_empty", "null_as_zero", "null_as_no_repos"])
  | repository => ([], ["null_as_empty", "null_as_zero", "null_as_false"])
  | pattern => ([], ["null_as_empty"])
  | secret => (["decode"], ["__get_pydantic_core_schema__"])
  | _ => ([], [])

/-- The functions of a kind that need no object. -/
def functions : Kind → List Text × List Text
  | linker => (["_expand", "_normalize_remote_url"], [])
  | secret => ([], ["_mask"])
  | _ => ([], [])

/-- The methods that all records of declared fields have. -/
def modelMethods : List Text × List Text := (
  namesIn <|
    "__init__ model_copy model_dump model_dump_json model_post_init __copy__ __deepcopy__ "
      ++ "_setattr_handler __iter__ copy __repr_name__ __repr_recursion__ __pretty__ "
      ++ "__rich_repr__",
  namesIn <|
    "__getattr__ __setattr__ __delattr__ __replace__ __getstate__ __setstate__ __eq__ __repr__ "
      ++ "__repr_args__ __repr_str__ __str__ dict json _iter _copy_and_set_values "
      ++ "_calculate_keys")

def modelKindMethods : List Text × List Text := (
  namesIn <|
    "model_construct model_json_schema model_parametrized_name model_rebuild model_validate "
      ++ "model_validate_json model_validate_strings __get_pydantic_json_schema__ "
      ++ "__pydantic_init_subclass__ __pydantic_on_complete__",
  namesIn <|
    "__get_pydantic_core_schema__ __class_getitem__ parse_obj parse_raw parse_file from_orm "
      ++ "construct schema schema_json validate update_forward_refs _get_value")

/-- The values that all records of declared fields have. -/
def modelValues : List (Text × Value) :=
  let dictionaries := namesIn <|
    "model_config model_fields model_computed_fields __annotations__ __private_attributes__ "
      ++ "__pydantic_fields__ __pydantic_computed_fields__ __pydantic_generic_metadata__ "
      ++ "__pydantic_setattr_handlers__ __pydantic_core_schema__"
  let others : List (Text × Value) := [
    ("__slots__", .tuple []), ("__hash__", .null), ("__class_vars__", .set []),
    ("__pydantic_post_init__", .null), ("__pydantic_parent_namespace__", .null),
    ("__pydantic_complete__", .bool true), ("__pydantic_custom_init__", .bool false),
    ("__pydantic_root_model__", .bool false)]
  dictionaries.map (fun name => (name, Value.dict [])) ++ others

/-- What all records of declared fields have and is no value, by the names of the types. -/
def modelOthers : List (Text × Text) := [
  ("__pydantic_decorators__", "DecoratorInfos"),
  ("__pydantic_serializer__", "pydantic_core._pydantic_core.SchemaSerializer"),
  ("__pydantic_validator__", "pydantic_core._pydantic_core.SchemaValidator"),
  ("__abstractmethods__", "frozenset"),
  ("_abc_impl", "_abc._abc_data")]

/-- What each object of a kind has for itself, by the name of what the kind has in its place. -/
def reserved : Kind → List (Text × Text)
  | secret => [("_payload", "member_descriptor")]
  | linker => [("__weakref__", "getset_descriptor")]
  | dictionary => []
  | _ => [
    ("__weakref__", "getset_descriptor"),
    ("__pydantic_fields_set__", "member_descriptor"),
    ("__pydantic_extra__", "member_descriptor"),
    ("__pydantic_private__", "member_descriptor"),
    ("__fields_set__", "property"),
    ("model_fields_set", "property"),
    ("model_extra", "property")]

/-- The texts that describe a kind. -/
def descriptions : List Text := ["__doc__", "__module__"]

/-- A name among those that are described or those that are not. -/
def among? (names : List Text × List Text) (name : Text) : Option Bool :=
  if names.1.contains name then some true
  else if names.2.contains name then some false
  else none

/-- What objects of a kind that is none of dictionaries have in common under a name. -/
def inherited? (kind : Kind) (name : Text) : Option Inherited :=
  let own :=
    ((among? kind.methods name).map .method).or
      (((among? kind.kindMethods name).map .kindMethod).or
        ((among? kind.functions name).map .function))
  let shared := if !kind.isModel then none else
    ((among? modelMethods name).map .method).or
      (((among? modelKindMethods name).map .kindMethod).or
        (((Entries.get? name modelValues).map .value).or
          ((Entries.get? name modelOthers).map .other)))
  let described : Option Inherited :=
    if descriptions.contains name then some (.value (.text []))
    else if kind = .secret ∧ name = "__slots__" then some (.value (.tuple []))
    else none
  let common : Option Inherited :=
    if Value.commonNames.contains name then some (.common (Value.null.styleOf name)) else none
  own.or (shared.or (described.or common))

end Kind

end SearchConfig
