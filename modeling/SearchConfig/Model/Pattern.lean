import SearchConfig.Schema.Field
import SearchConfig.Document

/-!
# URL patterns

The templates from which a link to a line of a file is made. The base URL may hold the placeholders
`{url}`, `{path}` and `{anchor}`, and the anchor may hold `{line}`.
-/

namespace SearchConfig

structure UrlPattern where
  baseUrl : Text
  anchor : Text
  deriving DecidableEq, Inhabited

namespace UrlPattern

def baseUrlField : FieldName := ⟨"base-url", "base_url"⟩

def anchorField : FieldName := .same "anchor"

def decode {α : Type} [Source α] : α → Decoded UrlPattern :=
  Schema.record fun entries =>
    UrlPattern.mk
      <$> Schema.optional baseUrlField [] Schema.text entries
      <*> Schema.optional anchorField [] Schema.text entries

def document (naming : Naming) (p : UrlPattern) : Document :=
  .object [
    (baseUrlField.under naming, .text p.baseUrl),
    (anchorField.under naming, .text p.anchor)]

end UrlPattern

end SearchConfig
