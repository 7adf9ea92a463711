import SearchConfig.Model.Repository
import SearchConfig.Json.Printer
import SearchConfig.Json.Reader

/-!
# Configurations

A configuration names the place of the search database and the repositories. The repositories
stand in the order in which they were named.
-/

namespace SearchConfig

structure ConfigOf (ρ : Type) where
  dbPath : Text
  title : Text
  repos : List (Text × ρ)
  maxConcurrentIndexers : Int
  healthCheckUri : Text
  deriving DecidableEq, Inhabited

abbrev Config := ConfigOf Repository

namespace ConfigOf

variable {α ρ : Type} [Source α]

def dbPathField : FieldName := ⟨"dbpath", "db_path"⟩

def titleField : FieldName := .same "title"

def reposField : FieldName := .same "repos"

def maxConcurrentIndexersField : FieldName := ⟨"max-concurrent-indexers", "max_concurrent_indexers"⟩

def healthCheckUriField : FieldName := ⟨"health-check-uri", "health_check_uri"⟩

open Schema in
/-- Decodes a configuration, given how its repositories are decoded. -/
def decode (repository : α → Decoded ρ) : α → Decoded (ConfigOf ρ) :=
  record fun entries =>
    ConfigOf.mk
      <$> optional dbPathField [] text entries
      <*> optional titleField [] text entries
      <*> optional reposField [] (nullableMap repository) entries
      <*> optional maxConcurrentIndexersField 0 integer entries
      <*> optional healthCheckUriField [] text entries

/-- Writes a map of repositories, given how each is written. -/
def reposDocument (repository : ρ → Document) (repos : List (Text × ρ)) : Document :=
  .object (Entries.mapValues repository repos)

/-- Writes a configuration, given how its repositories are written. -/
def document (repository : ρ → Document) (naming : Naming) (c : ConfigOf ρ) : Document :=
  .object [
    (dbPathField.under naming, .text c.dbPath),
    (titleField.under naming, .text c.title),
    (reposField.under naming, reposDocument repository c.repos),
    (maxConcurrentIndexersField.under naming, .integer c.maxConcurrentIndexers),
    (healthCheckUriField.under naming, .text c.healthCheckUri)]

end ConfigOf

namespace Config

def decode {α : Type} [Source α] : α → Decoded Config := ConfigOf.decode Repository.decode

def document (naming : Naming) : Config → Document :=
  ConfigOf.document (Repository.document naming) naming

/-- Decodes a map of names to repositories that stands alone. -/
def decodeRepos {α : Type} [Source α] : α → Decoded (List (Text × Repository)) :=
  Schema.map Repository.decode

/-- Writes a map of names to repositories. -/
def reposDocument (naming : Naming) : List (Text × Repository) → Document :=
  ConfigOf.reposDocument (Repository.document naming)

end Config

/-- Decodes what a text holds, which must be JSON. -/
def Decoded.ofBytes {β : Type} (decode : Json → Decoded β) (bytes : ByteArray) : Decoded β :=
  match Json.ofBytes? bytes with
  | some v => decode v
  | none => .fail .malformed

end SearchConfig
