import SearchConfig.Failure
import SearchConfig.Log.Record
import SearchConfig.Model.Config

/-!
# The listing of repositories

The map of the repositories is written for outside readers in the order of their names and with
every secret masked. A text with lone surrogates cannot be written, and then the whole map is not.
-/

namespace SearchConfig

/-- The message of a writer that met lone surrogates. -/
def LoneSurrogates.writerMessage (run : LoneSurrogates) : Text :=
  "Error serializing to JSON: UnicodeEncodeError: " ++ run.message

namespace Document

/-- The JSON text of a written form. -/
def print (d : Document) : Except LoneSurrogates Text :=
  d.toJson.map fun v => Text.ofChars (v.print .compact)

end Document

namespace ConfigOf

variable {ρ : Type}

/-- The repositories in the order of their names. -/
def sortedRepos (c : ConfigOf ρ) : List (Text × ρ) := c.repos.mergeSort fun a b => a.1.le b.1

end ConfigOf

namespace Config

/-- The text of the repository map for outside readers. -/
def listing (c : Config) : Except LoneSurrogates Text :=
  (reposDocument .outer c.sortedRepos).print

/-- The failure to write a map of so many repositories. -/
def unlistable (count : Nat) : Failure where
  kind := .configEncode
  message := "Unable to serialize repository map"
  details := [("repos", .int count)]
  cause := some .unwritable

/-- What is logged when the repository map cannot be written. -/
def unlistableRecord (reason : Text) : LogRecord :=
  ⟨.error, "hound.core.models.config", .text "Failed to serialize repos", [("error", .text reason)]⟩

end Config

end SearchConfig
