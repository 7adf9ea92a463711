import SearchConfig.Text.Search

/-!
# Templates

A template is a text with placeholders, names between braces. The names are filled in one after the
other, each time in the whole text that has come about so far; placeholders of other names stay.
-/

namespace SearchConfig.Template

/-- A name between braces. -/
def placeholder (name : Text) : Text := .scalar '\x7b' :: (name ++ [.scalar '\x7d'])

/-- Fills in the values of the names in turn. -/
def expand (template : Text) (values : List (Text × Text)) : Text :=
  values.foldl (fun filled (name, value) => filled.replaceAll (placeholder name) value) template

end SearchConfig.Template
