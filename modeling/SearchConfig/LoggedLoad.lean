import SearchConfig.Load

/-!
# Loading with a log

A load logs as it goes: each repository when it has been completed, and at the end what was loaded.
What has been logged stays logged if a later step fails.
-/

namespace SearchConfig

/-- A computation that may fail and logs on its way. What it logged before it failed stays logged.
-/
abbrev Logged (α : Type) : Type := ExceptT LoadError (StateM (List LogRecord)) α

namespace Logged

/-- Logs a record. -/
def log (r : LogRecord) : Logged Unit := modify fun records => records ++ [r]

/-- How a computation ends that begins with an empty log, and what it has logged then. -/
def outcome {α : Type} (x : Logged α) : Except LoadError α × List LogRecord := x.run.run []

end Logged

namespace Config

/-- What is logged of a configuration that has been completed. -/
def loadedRecord (path : Path) (c : Config) : LogRecord :=
  ⟨.info, logger, .text "Config loaded", [
    ("path", .text path.toText),
    ("repos", .int c.repos.length),
    ("dbpath", .text c.dbPath)]⟩

/-- Completes a repository and logs it. -/
def complete : Text × Repository → Logged (Text × Repository)
  | (name, r) => do
    let r := r.normalized
    Logged.log (repositoryRecord (name, r))
    return (name, r)

/-- Loads a configuration step by step. -/
def loadLogged (files : Files) (name : Text) : Logged Config := do
  let path := Path.ofText name
  let c ← ofFile files path
  let c := c.withTitle
  let place ← resolveDbPath files c.dbPath path
  let repos ← c.repos.mapM complete
  let c := { c with dbPath := place, repos := repos }.withDefaults
  Logged.log (loadedRecord path c)
  return c

end Config

end SearchConfig
