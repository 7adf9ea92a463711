import SearchConfig.Settings.Variables
import SearchConfig.Text.Search
import SearchConfig.Value.Named

/-!
# Settings on a command line

A setting may be given by an option of its name: the next word, or the rest of the word behind an
equals sign, is its value, and the last one counts. A word that begins with a dash, or with another
mark that is asked for, is an option unless it is a negative number or holds a blank; behind two
dashes nothing is one. Words that are neither options nor values are not accepted.
-/

namespace SearchConfig

/-- How a command line gives settings. -/
structure WordRules where
  /-- What options begin with. -/
  mark : CodePoint
  /-- What stands in front of the names of settings. -/
  lead : Text
  /-- Are names compared with regard to case? -/
  exact : Bool
  /-- Are the words of a name joined by dashes? -/
  dashed : Bool
  /-- Are words that mean nothing passed over? -/
  lenient : Bool
  /-- Is a fault told as an error, rather than by the end of the process? -/
  tells : Bool
  /-- The value that stands for null. -/
  nullText : Text

/-- What a word is in front of the first pair of dashes that stands alone. -/
inductive Word where
  | plain
  | option (s : Setting)
  | given (s : Setting) (value : Text)
  | help
  /-- The option for help with a value, which it does not take. -/
  | badHelp (value : Text)
  | unknown

namespace WordRules

def argumentName : Text := "_cli_parse_args"

def dash : CodePoint := .scalar '-'

def equals : CodePoint := .scalar '='

/-- A name as it stands in an option. -/
def form (rules : WordRules) (name : Text) : Text :=
  if rules.dashed then name.map fun c => if c = .scalar '_' then dash else c else name

/-- The option of a setting. -/
def option (rules : WordRules) (s : Setting) : Text :=
  rules.mark :: rules.mark :: rules.form (rules.lead ++ s.name)

/-- The setting of an option. -/
def setting? (rules : WordRules) (name : Text) : Option Setting :=
  Setting.all.find? fun s => rules.option s = name

/-- The short option for help. -/
def shortHelp (rules : WordRules) : Text := rules.mark :: "h"

def helpOptions (rules : WordRules) : List Text :=
  [rules.shortHelp, rules.mark :: rules.mark :: "help"]

/-- Is a word a negative number? -/
def isNegativeNumber (t : Text) : Bool :=
  match t with
  | c :: t =>
    let whole := t.takeWhile (·.digit?.isSome)
    let rest := t.drop whole.length
    c = dash && match rest with
      | [] => !whole.isEmpty
      | d :: fraction =>
        d = .scalar '.' && !fraction.isEmpty && fraction.all (·.digit?.isSome)
  | [] => false

/-- What a word is. -/
def word (rules : WordRules) (t : Text) : Word :=
  let name := t.takeWhile (· != equals)
  let value := t.drop (name.length + 1)
  let hasValue := name.length < t.length
  if t.head? ≠ some rules.mark ∨ t.length = 1 then .plain
  else if rules.helpOptions.contains t then .help
  else match rules.setting? name with
    | some s => if hasValue then .given s value else .option s
    | none =>
      if hasValue ∧ rules.helpOptions.contains name then .badHelp value
      else if t.take 2 = rules.shortHelp then .help
      else if isNegativeNumber t ∨ t.contains (.scalar ' ') then .plain
      else .unknown

/-- How a fault of the words ends. -/
def fault (rules : WordRules) (complaint : Text) : SettingsError :=
  if rules.tells then .badWords complaint else .ended 2

/-- An option stands without its value. -/
def valueless (rules : WordRules) (s : Setting) : SettingsError :=
  rules.fault ("argument " ++ rules.option s ++ ": expected one argument")

/-- What is given if some words mean nothing. -/
def close (rules : WordRules) (given : List (Setting × Text)) (unused : List Text) :
    Except SettingsError (List (Setting × Text)) :=
  if unused.isEmpty || rules.lenient then .ok given
  else .error (rules.fault ("unrecognized arguments: " ++ Text.join " " unused))

/-- What words give besides what was given before. The first of them may be the value of an option
that waits for it. -/
def read (rules : WordRules) (given : List (Setting × Text)) (unused : List Text)
    (waiting : Option Setting) : List Text → Except SettingsError (List (Setting × Text))
  | [] =>
    match waiting with
    | some s => .error (rules.valueless s)
    | none => rules.close given unused
  | t :: words =>
    match waiting with
    | some s =>
      if t ≠ "--" ∧ (rules.word t matches .plain) then
        read rules (Entries.put s t given) unused none words
      else .error (rules.valueless s)
    | none =>
      if t = "--" then rules.close given (unused ++ t :: words)
      else match rules.word t with
        | .help => .error (.ended 0)
        | .badHelp value =>
          .error <| rules.fault <|
            "argument " ++ Text.join "/" rules.helpOptions ++ ": ignored explicit argument "
              ++ value.quoted
        | .given s value => read rules (Entries.put s value given) unused none words
        | .option s => read rules given unused (some s) words
        | .plain | .unknown => read rules given (unused ++ [t]) none words

/-! ## Arguments -/

/-- May a lead stand in front of names? -/
def isLead (lead : Text) : Bool :=
  let isNamePoint (c : CodePoint) : Bool :=
    c = .scalar '_' || 0x80 ≤ c.value || c.char?.any Char.isAlphanum
  let name := lead.filter (· != .scalar '.')
  lead.head? != some (.scalar '.') && lead.getLast? != some (.scalar '.') && !name.isEmpty
    && name.all isNamePoint && !(name.head?.any fun c => c.char?.any Char.isDigit)

/-- What stands in front of names by the arguments. -/
def leadOf (arguments : SettingsArguments) : Except SettingsError Text :=
  match arguments.option? "_cli_prefix" with
  | none => .ok []
  | some (.text lead) =>
    if lead.isEmpty then .ok []
    else if isLead lead then .ok (lead ++ ".") else .error (.badLead lead)
  | some v =>
    if v.isTrue.toOption = some false then .ok []
    else .error (.misused (Value.notName v))

/-- The text that stands for null by the arguments. -/
def nullTextOf (arguments : SettingsArguments) : Text :=
  let named (name : Text) : Option Text :=
    ((arguments.option? name).bind Value.text?).filter (!·.isEmpty)
  let standard := match arguments.option? "_cli_avoid_json" with
    | some (.bool true) => "None"
    | _ => "null"
  ((named "_env_parse_none_str").or (named "_cli_parse_none_str")).getD standard

/-- The mark that arguments ask for. -/
def markOf (arguments : SettingsArguments) : CodePoint :=
  match arguments.option? "_cli_flag_prefix_char" with
  | some (.text [c]) => c
  | _ => dash

/-- The rules that arguments ask for. -/
def ofArguments (arguments : SettingsArguments) : Except SettingsError WordRules := do
  return {
    mark := markOf arguments
    lead := ← leadOf arguments
    exact := arguments.isSet "_case_sensitive"
    dashed := arguments.isSet "_cli_kebab_case"
    lenient := arguments.isSet "_cli_ignore_unknown_args"
    tells :=
      (arguments.option? "_cli_exit_on_error").isSome && !arguments.isSet "_cli_exit_on_error"
    nullText := nullTextOf arguments }

/-- A word with the name of an option in it in lower case; what stands behind the line is lost. -/
def foldOption (rules : WordRules) (t : Text) : Text :=
  let marks := (t.take 2).takeWhile (· == rules.mark)
  let name := (t.drop marks.length).takeWhile fun c => !c.isBlank && c != equals
  if marks.isEmpty || (name.isEmpty && marks.length < 2) then t
  else
    marks ++ Text.lower name
      ++ (t.drop (marks.length + name.length)).takeWhile (· != .scalar '\n')

/-- The words that a value holds. -/
def wordsOf (rules : WordRules) (items : List Value) : Except SettingsError (List Text) :=
  items.mapM fun
    | .text t => .ok (if rules.exact then t else rules.foldOption t)
    | v =>
      if v.isTrue.toOption = some false then .ok []
      else .error <| .misused <| match v with
        | .bytes _ | .buffer _ => .bytesForText
        | v => .notText v.typeName

/-- What the command line that arguments give says of each setting. -/
def given (arguments : SettingsArguments) : Except SettingsError (List (Setting × Value)) := do
  match arguments.option? argumentName with
  | none => return []
  | some v =>
    let rules ← ofArguments arguments
    let words ← match v with
      | .list items | .tuple items => wordsOf rules items
      | .endless _ => wordsOf rules [v]
      | .bool true => pure []
      | v => if v.isZero then pure [] else throw (.noWords v.fullTypeName)
    let given ← rules.read [] [] none words
    return given.map fun (s, t) => (s, if t = rules.nullText then .null else .text t)

end WordRules

end SearchConfig
