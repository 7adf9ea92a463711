import SearchConfig.CommandLine.Printout
import Std.Time.Format

/-!
# The program

What the run looks at is read from the disk first: the environment file, then the configuration
file that is to be loaded, then the place of its database. The run itself works on what was read.
A link to nothing is seen as missing.
-/

namespace SearchConfig.Main

open IO.FS in
/-- Reads what a path leads to, step by step from a directory, given as its real path. -/
def examine (directory : String) (files : Files) : List Text → IO Files
  | [] => return files
  | name :: rest => do
    if Path.isIdle name then examine directory files rest
    else
      let spelled := directory ++ "/" ++ name.toString
      let at_ (path : String) : List Text := (Path.ofText path).parts
      let keep (files : Files) (real : String) : IO Files := do
        try
          let bytes ← readBinFile real
          return files.plant (at_ real) (.file bytes)
        catch _ =>
          return if (files.at? (at_ real)).isSome then files
            else files.plant (at_ real) (.directory [])
      try
        let real := (← realPath spelled).toString
        let files ← keep files real
        let files := if name = Path.above ∨ at_ real = at_ directory ++ [name] then files
          else files.plant (at_ directory ++ [name]) (.link real)
        examine real files rest
      catch _ =>
        try
          let _ ← readBinFile spelled
          return files
        catch
          | .noFileOrDirectory .. => return files
          | _ => return files.plant (at_ directory ++ [name]) (.link spelled)

/-- Reads what a path leads to. -/
def examinePath (here : String) (files : Files) (path : Text) : IO Files :=
  if path.pathFault?.isSome then return files
  else examine (if (Path.ofText path).isAbsolute then "" else here) files (Path.ofText path).parts

/-- The environment variables. -/
def environment : IO (List (Text × Text)) := do
  try
    let bytes ← IO.FS.readBinFile "/proc/self/environ"
    let t := Text.ofChars ((Utf8.decode? bytes).getD [])
    return (t.split (.scalar '\x00')).filterMap fun v =>
      let name := v.takeWhile (· != .scalar '=')
      if name.length < v.length then some (name, v.drop (name.length + 1)) else none
  catch _ =>
    let names := ["HOUND_ENVIRONMENT", "HOUND_LOG_LEVEL", "HOUND_CONFIG_PATH"]
    return (← names.mapM fun name => do
      return (← IO.getEnv name).map fun v => (Text.ofString name, Text.ofString v)).filterMap id

/-- The present time in the form of log records. -/
def timestamp : IO Text := do
  let now ← Std.Time.Timestamp.now
  let t := Std.Time.DateTime.ofTimestampWithZone now Std.Time.TimeZone.UTC
  return Text.ofString (t.format "uuuu-MM-dd'T'HH:mm:ss.SSSSSS'Z'")

/-- How many calls more the process has for links in links than the system follows. -/
def extraDepth : Nat := 945

/-- What the run works on. -/
def surroundings (arguments : List Text) : IO Surroundings := do
  let here := (← IO.FS.realPath ".").toString
  let workingDirectory := (Path.ofText here).parts
  let files := Files.plant ⟨[], workingDirectory, extraDepth⟩ workingDirectory (.directory [])
  let files ← examinePath here files EnvFile.standardName
  let around : Surroundings := ⟨files, ← environment, []⟩
  match Command.prepare around [] arguments with
  | .error _ => return around
  | .ok (s, r) =>
    let path := s.configPath r.config
    let files ← examinePath here files (Path.ofText path).toText
    match Config.ofFile files (Path.ofText path) with
    | .error _ => return { around with files := files }
    | .ok c =>
      let database := (Path.ofText path).parent.append (Path.ofText c.dbPath)
      return { around with files := ← examinePath here files database.toText }

end SearchConfig.Main

open SearchConfig in
def main (arguments : List String) : IO UInt32 := do
  let arguments := arguments.map Text.ofString
  let around ← Main.surroundings arguments
  let printout := Command.print around (← Main.timestamp) arguments
  IO.print printout.stdout.toString
  IO.eprint printout.stderr.toString
  if let some crash := printout.crash then IO.eprintln crash.message.toString
  if let some fault := printout.fault then IO.eprintln fault.message.toString
  return printout.exitCode.toUInt32
