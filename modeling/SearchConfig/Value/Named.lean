import SearchConfig.Value.Basic
import SearchConfig.Value.Misuse

/-!
# Values given by name

What is given by name is the entries of a dictionary, all of whose keys are texts.
-/

namespace SearchConfig

/-- The full name of a kind. -/
def Kind.fullName : Kind → Text
  | config => "hound.core.models.config." ++ config.name
  | repository => "hound.core.models.repository." ++ repository.name
  | pattern => "hound.core.models.repository." ++ pattern.name
  | linker => "hound.git.url_resolver." ++ linker.name
  | secret => "hound.core.models.secret." ++ secret.name
  | dictionary => dictionary.name

namespace Value

/-- The full name of a value's type. -/
def fullTypeName : Value → Text
  | secret _ => Kind.secret.fullName
  | live h => h.kind.fullName
  | record kind _ => kind.fullName
  | v => v.typeName

/-- What a value gives to a receiver by name. -/
def namedEntries (receiver : Text) : Value → Except Misuse (List (Text × Value))
  | dict entries => entries.mapM fun
    | (text name, v) => .ok (name, v)
    | _ => .error .unnamed
  | v => .error (.notMapping (receiver ++ "()") v.typeName)

end Value

end SearchConfig
