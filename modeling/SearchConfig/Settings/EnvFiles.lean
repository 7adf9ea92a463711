import SearchConfig.Settings.Variables

/-!
# Reading environment files

Environment files are named by paths, of which a leading `~` stands for a home directory. They are
read one after the other; what is missing or no file counts as empty.
-/

namespace SearchConfig

namespace Surroundings

/-- The variable that names the home directory of the own user. -/
def homeVariable : Text := "HOME"

def tilde : CodePoint := .scalar '~'

/-- The home directory of a user, without slashes at its end. -/
def home? (around : Surroundings) (user : Text) : Option Text :=
  let named := if user.isEmpty then Entries.last? homeVariable around.environment else none
  (named.or (Entries.get? user around.homes)).map fun home =>
    (home.reverse.dropWhile (· == Path.slash)).reverse

/-- The path with a leading `~`, or `~` and the name of a user, replaced by the home directory. -/
def expandHome (around : Surroundings) (path : Path) : Except SettingsError Path :=
  match path.anchor, path.parts with
  | .relative, (c :: user) :: parts =>
    if c ≠ tilde then .ok path
    else match Text.pathFault? user, home? around user with
      | some fault, _ => .error (.unusable fault)
      | none, none => .error .homeless
      | none, some home =>
        let home := if home.isEmpty then [Path.slash] else home
        if home.head? = some tilde then .error .homeless
        else .ok ((Path.ofText home).append ⟨.relative, parts⟩)
  | _, _ => .ok path

/-- The path that a value stands for. -/
def pathOf (around : Surroundings) (v : Value) : Except SettingsError Path := do
  around.expandHome (Path.ofText (← v.path.mapError .misused))

end Surroundings

namespace EnvFile

/-- The environment file that is read if no other is named. -/
def standardName : Text := ".env"

/-- The argument that names other environment files. -/
def argumentName : Text := "_env_file"

/-- The argument that names their encoding. -/
def encodingName : Text := "_env_file_encoding"

/-- The paths that a value names: none, one, or all that it holds. -/
def namedIn : Value → Except Misuse (List Value)
  | .null => .ok []
  | .text t => .ok [.text t]
  | .list items | .tuple items | .set items => .ok items
  | .dict entries => .ok (entries.map Prod.fst)
  | .bytes b | .buffer b => .ok (b.toList.map fun x => .int x.toNat)
  | .endless m => .ok [.endless m]
  | v => .error (.notIterable v.typeName)

/-- The encoding that a value names; that of null is UTF-8. -/
def encodingOf : Value → Except SettingsError Encoding
  | .null => .ok .utf8
  | .text name =>
    match name.loneSurrogates? with
    | some run => .error (.unwritableName run)
    | none =>
      if name.holdsNull then .error .nullCharacter
      else match Encoding.ofName? name with
        | some encoding => .ok encoding
        | none =>
          .error <| if Encoding.otherNames.contains (Encoding.plainName name) then
            .noTextEncoding name else .unknownEncoding name
  | v => .error (.unnamedEncoding v.typeName)

/-- The text of an environment file. A file that is missing or no file at all counts as empty. -/
def read (around : Surroundings) (encoding : Value) (path : Path) : Except SettingsError Text := do
  match around.files.read path.toText with
  | .ok bytes => ((← encodingOf encoding).decode bytes).mapError .undecodable
  | .error (.system .nameTooLong) => .error (.nameTooLong path.toText)
  | .error _ => .ok []

/-- The texts of the environment files that arguments name. -/
def readAll (around : Surroundings) (arguments : SettingsArguments) :
    Except SettingsError (List Text) := do
  let named := (Entries.last? argumentName arguments).getD (.text standardName)
  let encoding := (Entries.last? encodingName arguments).getD .null
  (← (namedIn named).mapError .misused).mapM fun v => do
    read around encoding (← around.pathOf v)

/-- The lines of the standard environment file that are passed over. -/
def brokenLinesOf (around : Surroundings) : List Nat :=
  match read around .null (Path.ofText standardName) with
  | .ok text => brokenLines text
  | .error _ => []

end EnvFile

end SearchConfig
