import SearchConfig.Model.Config
import SearchConfig.Text.Search

/-!
# Defaults

Fields that are left out, or have the empty text or zero, are filled with defaults. The URL
pattern depends on the host: a repository on Azure DevOps that has none is browsed by a query, any
other under a branch; a pattern that is given is only completed.
-/

namespace SearchConfig

namespace Defaults

def msBetweenPoll : Int := 30000

def vcs : Text := "git"

def title : Text := "Hound"

def maxConcurrentIndexers : Int := 2

def healthCheckUri : Text := "/healthz"

def pattern : UrlPattern where
  baseUrl := "\x7burl\x7d/blob/master/\x7bpath\x7d\x7banchor\x7d"
  anchor := "#L\x7bline\x7d"

/-- The mark of Azure DevOps in a remote. -/
def azureMarker : Text := "visualstudio.com"

def azurePattern : UrlPattern where
  baseUrl := "\x7burl\x7d/?path=%2F\x7bpath\x7d&version=GBmaster&line=\x7banchor\x7d"
  anchor := "&line=\x7bline\x7d"

/-- The text, or the default if it is empty. -/
def orText (default t : Text) : Text := if t.isEmpty then default else t

/-- The number, or the default if it is zero. -/
def orNumber (default n : Int) : Int := if n = 0 then default else n

/-- The pattern of a repository that has none. -/
def patternFor (url : Text) : UrlPattern :=
  if Text.occursIn azureMarker url then azurePattern else pattern

end Defaults

namespace UrlPattern

/-- The pattern with its empty templates filled. -/
def completed (p : UrlPattern) : UrlPattern where
  baseUrl := Defaults.orText Defaults.pattern.baseUrl p.baseUrl
  anchor := Defaults.orText Defaults.pattern.anchor p.anchor

end UrlPattern

namespace Repository

/-- The repository with its poll interval and version control system filled. -/
def withScalarDefaults (r : Repository) : Repository :=
  { r with
    msBetweenPoll := Defaults.orNumber Defaults.msBetweenPoll r.msBetweenPoll
    vcs := Defaults.orText Defaults.vcs r.vcs }

/-- The repository with everything filled. -/
def normalized (r : Repository) : Repository :=
  r.withScalarDefaults.withPattern <| some <| match r.urlPattern with
    | none => Defaults.patternFor r.url
    | some pattern => pattern.completed

end Repository

namespace ConfigOf

variable {ρ : Type}

/-- The configuration with the number of indexers and the health check filled. -/
def withDefaults (c : ConfigOf ρ) : ConfigOf ρ :=
  { c with
    maxConcurrentIndexers :=
      Defaults.orNumber Defaults.maxConcurrentIndexers c.maxConcurrentIndexers
    healthCheckUri := Defaults.orText Defaults.healthCheckUri c.healthCheckUri }

/-- The configuration with its title filled. -/
def withTitle (c : ConfigOf ρ) : ConfigOf ρ :=
  { c with title := Defaults.orText Defaults.title c.title }

end ConfigOf

end SearchConfig
