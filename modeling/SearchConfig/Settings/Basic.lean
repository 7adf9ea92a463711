import SearchConfig.Files.Walk
import SearchConfig.Schema.Problem
import SearchConfig.Text.Encoding
import SearchConfig.Text.Quoted
import SearchConfig.Value.Misuse

/-!
# Settings

The settings of the command line: the kind of environment it runs in, the log level, and the
configuration file to use when none is named. They are read from what surrounds a process: the
files, the environment variables and the users of the system.
-/

namespace SearchConfig

structure Settings where
  environment : Text
  logLevel : Text
  configPath : Text
  deriving DecidableEq

inductive Setting where
  | environment
  | logLevel
  | configPath
  deriving DecidableEq

/-- Why an environment variable cannot be set. -/
inductive VariableFault where
  /-- The character that ends texts of the system stands in the name or in the value. -/
  | nullByte
  /-- The character that ends a name stands in the name. -/
  | illegalName
  | nameless
  deriving DecidableEq

/-- Why settings cannot be read. -/
inductive SettingsError where
  | unsettable (fault : VariableFault)
  | undecodable (fault : EncodingFault)
  | unknownEncoding (name : Text)
  /-- What is named changes bytes but stands for no text. -/
  | noTextEncoding (name : Text)
  /-- An encoding is named by what is no text. -/
  | unnamedEncoding (typeName : Text)
  /-- The name of an encoding cannot be written. -/
  | unwritableName (run : LoneSurrogates)
  /-- The name of an encoding holds the character that ends names. -/
  | nullCharacter
  | nameTooLong (path : Text)
  /-- A path begins at the home directory of a user who has none. -/
  | homeless
  /-- The system takes the name of such a user for no name. -/
  | unusable (fault : PathFault)
  /-- The names of variables are to be cut by a number that is none. -/
  | uncuttable (typeName : Text)
  /-- A source cannot be asked for a setting. -/
  | unanswered (s : Setting) (source : Text)
  /-- Secrets are looked for in a file. -/
  | noDirectory
  /-- The words of a command line are no list of texts. -/
  | noWords (typeName : Text)
  /-- The names of the options of a command line cannot begin like this. -/
  | badLead (lead : Text)
  | badWords (complaint : Text)
  /-- A command line ends the process. -/
  | ended (exitCode : Nat)
  /-- An argument is not of the type that it must be. -/
  | misused (misuse : Misuse)
  | refused (problems : List Problem)

namespace Setting

def all : List Setting := [environment, logLevel, configPath]

def name : Setting → Text
  | environment => "environment"
  | logLevel => "log_level"
  | configPath => "config_path"

def default : Setting → Text
  | environment => "development"
  | logLevel => "INFO"
  | configPath => "config.json"

end Setting

namespace Settings

def isProduction (s : Settings) : Bool := s.environment.lower == "production"

def isDevelopment (s : Settings) : Bool := s.environment.lower == "development"

end Settings

/-- What settings are read from: the files, the environment variables in the order of their setting,
and the home directories of the users by name, that of the own user under the empty name. -/
structure Surroundings where
  files : Files
  environment : List (Text × Text)
  homes : List (Text × Text)

/-- What keeps a variable from being set. -/
def VariableFault.of? (name value : Text) : Option VariableFault :=
  if name.holdsNull || value.holdsNull then some nullByte
  else if name.contains (.scalar '=') then some illegalName
  else if name.isEmpty then some nameless
  else none

def VariableFault.message : VariableFault → Text
  | nullByte => nullByteMessage
  | illegalName => "illegal environment variable name"
  | nameless => "[Errno 22] Invalid argument"

namespace Surroundings

/-- Sets variables in their order, up to the first that cannot be set. -/
def setVariables (around : Surroundings) :
    List (Text × Text) → Surroundings × Option VariableFault
  | [] => (around, none)
  | (name, value) :: rest =>
    match VariableFault.of? name value with
    | some fault => (around, some fault)
    | none =>
      setVariables { around with environment := around.environment ++ [(name, value)] } rest

end Surroundings

namespace SettingsError

/-- The message of an error; refused settings have none. -/
def message : SettingsError → Text
  | undecodable fault => fault.message
  | unknownEncoding name => "unknown encoding: " ++ name
  | noTextEncoding name =>
    name.quoted ++ " is not a text encoding; use codecs.open() to handle arbitrary codecs"
  | unnamedEncoding typeName => "open() argument 'encoding' must be str or None, not " ++ typeName
  | unwritableName run => run.message
  | nullCharacter => "embedded null character"
  | unsettable fault => fault.message
  | unusable fault => fault.message
  | uncuttable typeName =>
    "unsupported operand type(s) for -: " ++ Misuse.quotedName typeName ++ " and 'int'"
  | unanswered s source =>
    "error getting value for field \"" ++ s.name ++ "\" from source \"" ++ source ++ "\""
  | noDirectory => "secrets_dir must reference a directory, not a file"
  | noWords typeName =>
    "cli_parse_args must be a list or tuple of strings, received <class "
      ++ Misuse.quotedName typeName ++ ">"
  | badLead lead => "CLI settings source prefix is invalid: " ++ lead
  | badWords complaint => "error parsing CLI: " ++ complaint
  | ended exitCode => Text.ofNat exitCode
  | misused misuse => misuse.message
  | homeless => "Could not determine home directory."
  | nameTooLong path => "[Errno 36] " ++ SystemError.nameTooLong.message ++ ": " ++ path.quoted
  | refused _ => []

end SettingsError

end SearchConfig
