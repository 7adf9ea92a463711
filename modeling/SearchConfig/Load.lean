import SearchConfig.Failure
import SearchConfig.Files.Canonical
import SearchConfig.Log.Record
import SearchConfig.Model.Defaults

/-!
# Loading

A configuration is loaded from a file: its bytes are read, decoded and completed with defaults,
and a database path that is not absolute is taken from the directory of the file. What is wrong
with the file, its content or the database path is reported as a failure; a text that the operating
system takes for no path is a fault of its own. Only a load that succeeds is logged.
-/

namespace SearchConfig

/-- Why a configuration was not loaded. -/
inductive LoadError where
  | failure (f : Failure)
  | unusable (fault : PathFault)

namespace Config

/-- The failure to read a file. -/
def unreadable (path : Path) (error : SystemError) : Failure where
  kind := .configRead
  message := "Unable to read config file: " ++ path.toText
  details := [("path", .text path.toText), ("reason", .text error.message)]
  cause := some (.system error)

/-- The failure to decode a file, with the number of problems in it. -/
def undecodable (path : Path) (problems : List Problem) : Failure where
  kind := .configDecode
  message := "Invalid config file: " ++ path.toText
  details := [("path", .text path.toText), ("errors", .int problems.length)]
  cause := none

/-- The failure to find the place of a database path. -/
def unresolvable (dbPath : Text) (config : Path) (cause : Cause) : Failure where
  kind := .pathResolution
  message := "Unable to resolve dbpath: " ++ dbPath
  details := [("dbpath", .text dbPath), ("config", .text config.toText)]
  cause := some cause

/-- The place of the database: an absolute path stays as it is, any other is taken from the
directory of the configuration file. -/
def resolveDbPath (files : Files) (dbPath : Text) (config : Path) : Except LoadError Text :=
  if (Path.ofText dbPath).isAbsolute then .ok dbPath
  else
    match files.canonical (config.parent.append (Path.ofText dbPath)) with
    | .ok place => .ok place
    | .error (.unusable fault) => .error (.unusable fault)
    | .error .endlessLinks => .error (.failure (unresolvable dbPath config .endlessLinks))
    | .error .deepLinks => .error (.failure (unresolvable dbPath config .deepLinks))

/-- Reads and decodes a file. -/
def ofFile (files : Files) (path : Path) : Except LoadError Config :=
  match files.read path.toText with
  | .error (.unusable fault) => .error (.unusable fault)
  | .error (.system error) => .error (.failure (unreadable path error))
  | .ok bytes =>
    match Decoded.ofBytes Config.decode bytes with
    | .refused problems => .error (.failure (undecodable path problems))
    | .accepted c => .ok c

/-- The configuration with everything filled but the database path. -/
def normalized (c : Config) : Config :=
  { c.withTitle.withDefaults with repos := Entries.mapValues Repository.normalized c.repos }

/-- Loads a configuration. -/
def load (files : Files) (name : Text) : Except LoadError Config := do
  let path := Path.ofText name
  let c ← ofFile files path
  let place ← resolveDbPath files c.dbPath path
  return { c.normalized with dbPath := place }

/-- The logger of this module. -/
def logger : Text := "hound.core.loader"

/-- What is logged of a repository. -/
def repositoryRecord : Text × Repository → LogRecord
  | (name, r) =>
    ⟨.debug, logger, .text "Repository configured",
      [("repo", .text name), ("vcs", .text r.vcs)]⟩

/-- What is logged of a load. -/
def loadRecords (name : Text) : Except LoadError Config → List LogRecord
  | .error _ => []
  | .ok c =>
    c.repos.map repositoryRecord ++ [⟨.info, logger, .text "Config loaded", [
      ("path", .text (Path.ofText name).toText),
      ("repos", .int c.repos.length),
      ("dbpath", .text c.dbPath)]⟩]

end Config

end SearchConfig
