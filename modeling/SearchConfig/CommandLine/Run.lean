import SearchConfig.CommandLine.Command
import SearchConfig.Link.Linker
import SearchConfig.Load
import SearchConfig.Log.Renderer
import SearchConfig.Model.Listing
import SearchConfig.Settings.Read
import SearchConfig.Text.Terminal

/-!
# Runs of the program

A run ends with an exit code and what was written on the way. Wrong usage ends it with code two
and a failure with code one; an error that is neither, as of an unknown log level, ends it as a
crash, with code one and without a message of its own. The settings are read, and logging is set
up by them, before the arguments of the command are looked at. What a command answers from a
configuration is text; how it is printed comes after.
-/

namespace SearchConfig

/-- An error that ends a run without a message. -/
inductive Crash where
  | settings (e : SettingsError)
  | failure (f : Failure)
  | unknownLevel (name : Text)
  | unusable (fault : PathFault)
  | longLine

def Crash.message : Crash → Text
  | settings e => e.message
  | failure f => f.shown
  | unknownLevel name => Threshold.unknownMessage name
  | unusable fault => fault.message
  | longLine => tooManyDigitsMessage

structure Outcome where
  exitCode : Nat
  stdout : Text
  stderr : Text
  crash : Option Crash

namespace Outcome

/-- A printed line. -/
def echo (t : Text) : Text := (t ++ "\n").withoutSequences

def succeeded (stdout stderr : Text) : Outcome := ⟨0, stdout, stderr, none⟩

/-- A failure with a message behind what is on standard error already. -/
def failed (stderr message : Text) : Outcome := ⟨1, [], stderr ++ echo ("Error: " ++ message), none⟩

def crashed (stderr : Text) (crash : Crash) : Outcome := ⟨1, [], stderr, some crash⟩

/-- Wrong usage, with the hint where it is shown. -/
def misused (stderr hint : Text) (fault : UsageFault) : Outcome :=
  let shownHint := if fault.showsUsage then hint else []
  ⟨2, [], stderr ++ shownHint ++ echo ("Error: " ++ fault.message), none⟩

end Outcome

/-- What a command works with: the files, how to log, and what was written before. -/
structure Session where
  files : Files
  settings : Settings
  logging : Logging
  timestamp : Text
  stderr : Text

namespace Session

def log (s : Session) (records : List LogRecord) : Session :=
  { s with stderr := s.stderr ++ s.logging.lines s.timestamp records }

/-- The configuration file to use: the named one, unless its name is empty. -/
def configPath (s : Session) : Option Text → Text
  | none => s.settings.configPath
  | some [] => s.settings.configPath
  | some path => path

/-- What is logged of a load that failed. -/
def loadFailed (path : Text) (f : Failure) : LogRecord :=
  ⟨.debug, "hound.cli", .text "Config load failed",
    [("path", .text path), ("error_type", .text f.kind.name)]⟩

def onOff (b : Bool) : Text := if b then "on" else "off"

/-- The line of a repository in an overview. -/
def overviewLine : Text × Repository → Text
  | (name, r) =>
    "  - " ++ name ++ " [" ++ r.vcs ++ "] every " ++ Text.ofInt r.msBetweenPoll ++ "ms poll="
      ++ onOff r.pollUpdatesEnabled ++ " push=" ++ onOff r.pushUpdatesEnabled

/-- The lines of the overview of a configuration. -/
def overview (c : Config) : List Text := [
  c.title,
  "  DB path:       " ++ c.dbPath,
  "  Indexers:      " ++ Text.ofInt c.maxConcurrentIndexers,
  "  Health check:  " ++ c.healthCheckUri,
  "  Repositories:  " ++ Text.ofNat c.repos.length] ++ c.sortedRepos.map overviewLine

def repos (s : Session) (c : Config) : Outcome :=
  match c.listing with
  | .ok t => .succeeded (Outcome.echo t) s.stderr
  | .error run =>
    .failed (s.log [Config.unlistableRecord run.writerMessage]).stderr
      (Config.unlistable c.repos.length).shown

def url (s : Session) (repo path : Text) (line : Option Int) (c : Config) : Outcome :=
  match Entries.get? repo c.repos with
  | none => .failed s.stderr ("Unknown repository: " ++ repo)
  | some r =>
    match Linker.ofRepository r with
    | .error f => .crashed s.stderr (.failure f)
    | .ok linker =>
      match linker.link? path line with
      | some link => .succeeded (Outcome.echo link) s.stderr
      | none => .crashed s.stderr .longLine

/-- Reads the arguments of a command. If they make no request, the run ends here. -/
def request (s : Session) (c : Command) (arguments : List Text) : Except Outcome Request :=
  match c.read arguments with
  | .error fault => .error (.misused s.stderr (Command.hint c.usage c.path) fault)
  | .ok .help => .error (.succeeded c.help s.stderr)
  | .ok (.request r) => .ok r

end Session

namespace Command

/-- The notes about the lines of the environment file that are passed over. -/
def warnings (around : Surroundings) : Text :=
  (EnvFile.brokenLinesOf around).flatMap fun line =>
    "python-dotenv could not parse statement starting at line " ++ Text.ofNat line ++ "\n"

/-- Reads the settings and sets up logging. -/
def session (around : Surroundings) (timestamp : Text) (verbose : Bool) : Except Outcome Session :=
  let stderr := warnings around
  match Settings.fresh around with
  | .error e => .error (.crashed stderr (.settings e))
  | .ok settings =>
    let level : Text := if verbose then "DEBUG" else settings.logLevel
    match Logging.ofName? level settings.isProduction with
    | none => .error (.crashed stderr (.unknownLevel level))
    | some logging => .ok ⟨around.files, settings, logging, timestamp, stderr⟩

def programHint : Text := hint programUsage program

/-- A word in the place of a command that is none. It may be an option that was passed over. -/
def unknown (word : Text) (arguments : List Text) : Outcome :=
  match Arguments.read programRules (word :: arguments) with
  | .error fault => .misused [] programHint fault
  | .ok a =>
    if a.has .help then .succeeded programHelp []
    else .misused [] programHint (.noSuchCommand word)

/-- The command that is named, with what stands before and behind it. If there is none, the run ends
here. -/
def select (arguments : List Text) : Except Outcome (Arguments × Command × List Text) :=
  if arguments.isEmpty then .error ⟨2, [], programHelp, none⟩
  else match Arguments.read programRules arguments with
    | .error fault => .error (.misused [] programHint fault)
    | .ok a =>
      if a.has .help then .error (.succeeded programHelp [])
      else match a.positional with
        | [] => .error (.misused [] programHint .commandMissing)
        | word :: rest =>
          match ofName? word with
          | some c => .ok (a, c, rest)
          | none => .error (unknown word rest)

/-- All that comes before a request is carried out. -/
def prepare (around : Surroundings) (timestamp : Text) (arguments : List Text) :
    Except Outcome (Session × Request) := do
  let (a, c, rest) ← select arguments
  let s ← session around timestamp (a.has .verbose)
  let r ← s.request c rest
  return (s, r)

end Command

end SearchConfig
