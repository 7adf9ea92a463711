import SearchConfig.CommandLine.Arguments
import SearchConfig.Text.Integer

/-!
# Commands

There are three commands, each with its options and positional arguments. Arguments are read as a
whole before any of them is looked at, a call for help is answered before a value is, and the
value of an option is looked at before the positional arguments.
-/

namespace SearchConfig

inductive Command where
  | check
  | repos
  | url
  deriving DecidableEq

/-- A command with what its arguments say. -/
inductive Request where
  | check (config : Option Text)
  | repos (config : Option Text)
  | url (config : Option Text) (repo path : Text) (line : Option Int)
  deriving DecidableEq

namespace Request

def config : Request → Option Text
  | check config => config
  | repos config => config
  | url config _ _ _ => config

end Request

namespace Command

def all : List Command := [check, repos, url]

def name : Command → Text
  | check => "check"
  | repos => "repos"
  | url => "url"

def ofName? (name : Text) : Option Command := all.find? fun c => c.name == name

/-- The name of the program. -/
def program : Text := "hound"

def rules : Command → OptionRules
  | url => ⟨[("--config", .config), ("-c", .config), ("--line", .line), ("-l", .line),
      ("--help", .help)], true⟩
  | _ => ⟨[("--help", .help)], true⟩

/-- The options that stand before the command. -/
def programRules : OptionRules :=
  ⟨[("--verbose", .verbose), ("-v", .verbose), ("--help", .help)], false⟩

def usage : Command → Text
  | check => "Usage: hound check [OPTIONS] [CONFIG_PATH]\n"
  | repos => "Usage: hound repos [OPTIONS] [CONFIG_PATH]\n"
  | url => "Usage: hound url [OPTIONS] REPO_NAME PATH\n"

def programUsage : Text := "Usage: hound [OPTIONS] COMMAND [ARGS]...\n"

/-- What the command does, in a line. -/
def summary : Command → Text
  | check => "Load a config file and print the effective settings."
  | repos => "Print the repository map as JSON, with vcs-config masked."
  | url => "Print the browse URL for PATH in REPO_NAME."

def optionHelp : Command → Text
  | url =>
    "  -c, --config TEXT   Config file (default: HOUND_CONFIG_PATH)\n"
      ++ "  -l, --line INTEGER  Line number to link to\n"
      ++ "  --help              Show this message and exit.\n"
  | _ => "  --help  Show this message and exit.\n"

def help (c : Command) : Text :=
  c.usage ++ "\n  " ++ c.summary ++ "\n\nOptions:\n" ++ c.optionHelp

/-- The line of a command in the help of the program. -/
def summaryLine (c : Command) : Text := "  " ++ c.name.padRight 5 ++ "  " ++ c.summary ++ "\n"

def programHelp : Text :=
  programUsage ++ "\n  Hound: inspect and validate search configuration.\n\nOptions:\n"
    ++ "  -v, --verbose  Enable verbose logging\n"
    ++ "  --help         Show this message and exit.\n\nCommands:\n"
    ++ all.flatMap summaryLine

/-- The usage and how to get help, in front of the message of a fault. -/
def hint (usage path : Text) : Text := usage ++ "Try '" ++ path ++ " --help' for help.\n\n"

/-- The path by which the command is called. -/
def path (c : Command) : Text := program ++ " " ++ c.name

/-- What is asked for: help, or something to be done. -/
inductive Reading where
  | help
  | request (r : Request)

/-- The value of the line option as an integer. -/
def lineOf (a : Arguments) : Except UsageFault (Option Int) :=
  match a.value? .line with
  | none => .ok none
  | some value =>
    match value.integer? with
    | some n => .ok (some n)
    | none => .error (.invalidInteger "'--line' / '-l'" value)

/-- The configuration file that may be named. -/
def optionalConfig (request : Option Text → Request) : List Text → Except UsageFault Reading
  | [] => .ok (.request (request none))
  | [config] => .ok (.request (request (some config)))
  | _ :: unexpected => .error (.argumentsUnexpected unexpected)

/-- The request that the arguments of a command make. -/
def requestOf (c : Command) (a : Arguments) : Except UsageFault Reading := do
  match c with
  | check => optionalConfig .check a.positional
  | repos => optionalConfig .repos a.positional
  | url =>
    let line ← lineOf a
    match a.positional with
    | [] => throw (.argumentMissing "REPO_NAME")
    | [_] => throw (.argumentMissing "PATH")
    | [repo, path] => return .request (.url (a.value? .config) repo path line)
    | _ :: _ :: unexpected => throw (.argumentsUnexpected unexpected)

/-- Reads the arguments of a command. -/
def read (c : Command) (arguments : List Text) : Except UsageFault Reading := do
  let a ← Arguments.read c.rules arguments
  if a.has .help then return .help else c.requestOf a

end Command

end SearchConfig
