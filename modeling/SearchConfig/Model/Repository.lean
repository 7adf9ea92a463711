import SearchConfig.Model.Pattern

/-!
# Repositories

A repository to be searched: where it is, how often to poll it, which version control system it is
in, and how to link to its files. A flag may be unset, and then polling counts as enabled and
pushing as not. The secret and the URL pattern are held as values in `Repository`; other holders may
keep references instead, which is why the record is made for any types of them.
-/

namespace SearchConfig

structure RepositoryOf (σ π : Type) where
  url : Text
  msBetweenPoll : Int
  vcs : Text
  vcsConfig : Option σ
  urlPattern : Option π
  excludeDotFiles : Bool
  enablePollUpdates : Option Bool
  enablePushUpdates : Option Bool
  deriving DecidableEq, Inhabited

abbrev Repository := RepositoryOf Secret UrlPattern

namespace RepositoryOf

variable {α σ π ρ : Type} [Source α]

def urlField : FieldName := .same "url"

def msBetweenPollField : FieldName := ⟨"ms-between-poll", "ms_between_poll"⟩

def vcsField : FieldName := .same "vcs"

def vcsConfigField : FieldName := ⟨"vcs-config", "vcs_config_message"⟩

def urlPatternField : FieldName := ⟨"url-pattern", "url_pattern"⟩

def excludeDotFilesField : FieldName := ⟨"exclude-dot-files", "exclude_dot_files"⟩

def enablePollUpdatesField : FieldName := ⟨"enable-poll-updates", "enable_poll_updates"⟩

def enablePushUpdatesField : FieldName := ⟨"enable-push-updates", "enable_push_updates"⟩

open Schema in
/-- Decodes a repository, given how its secret and its URL pattern are decoded. -/
def decode (secret : α → Decoded σ) (pattern : α → Decoded π) : α → Decoded (RepositoryOf σ π) :=
  record fun entries =>
    RepositoryOf.mk
      <$> required urlField text entries
      <*> optional msBetweenPollField 0 integer entries
      <*> optional vcsField [] text entries
      <*> optional vcsConfigField none (nullable secret) entries
      <*> optional urlPatternField none (nullable pattern) entries
      <*> optional excludeDotFilesField false truth entries
      <*> optional enablePollUpdatesField none (nullable strictTruth) entries
      <*> optional enablePushUpdatesField none (nullable strictTruth) entries

/-- The repository with its pattern replaced. -/
def withPattern (pattern : Option ρ) (r : RepositoryOf σ π) : RepositoryOf σ ρ :=
  { r with urlPattern := pattern }

/-- Are polling based updates enabled? -/
def pollUpdatesEnabled (r : RepositoryOf σ π) : Bool := r.enablePollUpdates.getD true

/-- Are push based updates enabled? -/
def pushUpdatesEnabled (r : RepositoryOf σ π) : Bool := r.enablePushUpdates.getD false

end RepositoryOf

namespace Repository

open RepositoryOf

def decode {α : Type} [Source α] : α → Decoded Repository :=
  RepositoryOf.decode Schema.secret UrlPattern.decode

/-- Writes a repository. The secret is masked. -/
def document (naming : Naming) (r : Repository) : Document :=
  .object [
    (urlField.under naming, .text r.url),
    (msBetweenPollField.under naming, .integer r.msBetweenPoll),
    (vcsField.under naming, .text r.vcs),
    (vcsConfigField.under naming, .ofOption Secret.document r.vcsConfig),
    (urlPatternField.under naming, .ofOption (UrlPattern.document naming) r.urlPattern),
    (excludeDotFilesField.under naming, .truth r.excludeDotFiles),
    (enablePollUpdatesField.under naming, .ofOption .truth r.enablePollUpdates),
    (enablePushUpdatesField.under naming, .ofOption .truth r.enablePushUpdates)]

end Repository

end SearchConfig
