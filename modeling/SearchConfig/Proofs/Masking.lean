import SearchConfig.Load
import SearchConfig.Model.Listing

/-!
# Veiled records

A record is veiled by giving each of its secrets the bytes of the written form of all secrets. The
written forms of a record and of its veiled one are the same (`Config.document_veiled`), and so is
what is listed of it (`Config.listing_veiled`); filling in defaults commutes with veiling.
-/

namespace SearchConfig

/-- The secret that holds the bytes of the empty object. -/
def Secret.veil : Secret := ⟨⟨#[0x7B, 0x7D]⟩⟩

theorem Secret.ofJson_masked : Secret.ofJson Secret.masked = Secret.veil := by decide

namespace Repository

/-- The repository with the bytes of its secret replaced by those of the empty object. -/
def veiled (r : Repository) : Repository := { r with vcsConfig := r.vcsConfig.map fun _ => .veil }

theorem document_veiled (naming : Naming) (r : Repository) :
    r.veiled.document naming = r.document naming := by
  rcases r with ⟨_, _, _, _ | s, _, _, _, _⟩ <;> rfl

theorem normalized_veiled (r : Repository) : r.veiled.normalized = r.normalized.veiled := rfl

end Repository

namespace Config

/-- The configuration with all its repositories veiled. -/
def veiled (c : Config) : Config :=
  { c with repos := Entries.mapValues Repository.veiled c.repos }

theorem reposDocument_veiled (naming : Naming) (repos : List (Text × Repository)) :
    reposDocument naming (Entries.mapValues Repository.veiled repos)
      = reposDocument naming repos := by
  simp [reposDocument, ConfigOf.reposDocument, Entries.mapValues, Function.comp_def,
    Repository.document_veiled]

theorem document_veiled (naming : Naming) (c : Config) :
    c.veiled.document naming = c.document naming := by
  have hrepos := reposDocument_veiled naming c.repos
  simp only [reposDocument] at hrepos
  simp only [document, ConfigOf.document, veiled, hrepos]

theorem normalized_veiled (c : Config) : c.veiled.normalized = c.normalized.veiled := by
  simp [normalized, veiled, ConfigOf.withDefaults, ConfigOf.withTitle, Entries.mapValues,
    Function.comp_def, Repository.normalized_veiled]

theorem sortedRepos_veiled (c : Config) :
    c.veiled.sortedRepos = Entries.mapValues Repository.veiled c.sortedRepos := by
  refine (List.map_mergeSort (f := fun entry : Text × Repository => (entry.1, entry.2.veiled))
    (r := fun a b => a.1.le b.1) (s := fun a b => a.1.le b.1) fun _ _ _ _ => rfl).symm

/-- What is listed of a configuration does not tell its secrets. -/
theorem listing_veiled (c : Config) : c.veiled.listing = c.listing := by
  rw [listing, sortedRepos_veiled, reposDocument_veiled, listing]

end Config

end SearchConfig
