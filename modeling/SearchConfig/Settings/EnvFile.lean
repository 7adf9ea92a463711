import SearchConfig.Entries
import SearchConfig.Text.Category
import SearchConfig.Text.Basic

/-!
# Environment files

An environment file assigns values to names, one assignment to a line. A value stands bare, and
then a comment behind a blank ends it, or between quotes, and then it may go over several lines
and has escapes. A name without a value is listed only. A line that is none of this is broken and
is passed over; a line break is a line feed, a carriage return, or both. A mark of the order of
bytes in front of the file means nothing.

In a value `${name}` stands for another value: one assigned above, or one of the environment.
-/

namespace SearchConfig.EnvFile

/-- What one statement of the file says. -/
inductive Statement where
  | assigned (name value : Text)
  | listed (name : Text)
  | empty
  | broken

def newline : CodePoint := .scalar '\n'

def hash : CodePoint := .scalar '#'

def equals : CodePoint := .scalar '='

def singleQuote : CodePoint := .scalar '\''

def doubleQuote : CodePoint := .scalar '"'

def backslash : CodePoint := .scalar '\\'

/-- The text with every line break as a line feed. -/
def unifyLines : Text → Text
  | [] => []
  | .scalar '\r' :: .scalar '\n' :: t => newline :: unifyLines t
  | .scalar '\r' :: t => newline :: unifyLines t
  | c :: t => c :: unifyLines t

/-- A blank that does not end the line. -/
def isInnerBlank (c : CodePoint) : Bool := c.isBlank && c != newline

def skipInnerBlanks (t : Text) : Text := t.dropWhile isInnerBlank

/-- What follows the line. -/
def nextLine (t : Text) : Text := (t.dropWhile (· != newline)).drop 1

/-- The text without the word `export` in front. -/
def skipExport (t : Text) : Text :=
  let word : Text := "export"
  let rest := t.drop word.length
  if word.isPrefixOf t && (rest.head?.any isInnerBlank) then skipInnerBlanks rest else t

/-- What stands before and behind the closing quote: the first quote that is not the second half of
a pair. A backslash makes a pair with whatever follows it. -/
def quoted? (quote : CodePoint) : Text → Option (Text × Text)
  | [] => none
  | c :: [] => if c = quote then some ([], []) else none
  | c :: d :: t =>
    if c = quote then some ([], d :: t)
    else if c = backslash then (quoted? quote t).map fun (body, rest) => (c :: d :: body, rest)
    else (quoted? quote (d :: t)).map fun (body, rest) => (c :: body, rest)

/-- The code point that an escape letter stands for, between double quotes. -/
def escaped? : CodePoint → Option CodePoint
  | .scalar 'a' => some (.scalar '\x07')
  | .scalar 'b' => some (.scalar '\x08')
  | .scalar 'f' => some (.scalar '\x0c')
  | .scalar 'n' => some (.scalar '\n')
  | .scalar 'r' => some (.scalar '\r')
  | .scalar 't' => some (.scalar '\t')
  | .scalar 'v' => some (.scalar '\x0b')
  | c => if c = backslash ∨ c = singleQuote ∨ c = doubleQuote then some c else none

/-- The code point that an escaped one stands for, between single quotes. -/
def plainEscaped? (c : CodePoint) : Option CodePoint :=
  if c = backslash ∨ c = singleQuote then some c else none

/-- Resolves the escapes; a backslash before anything else stands for itself. -/
def unescape (resolve? : CodePoint → Option CodePoint) : Text → Text
  | [] => []
  | c :: [] => [c]
  | c :: d :: t =>
    if c = backslash then
      match resolve? d with
      | some e => e :: unescape resolve? t
      | none => c :: unescape resolve? (d :: t)
    else c :: unescape resolve? (d :: t)

/-- Cuts off a comment that stands behind a blank. -/
def withoutComment : Text → Text
  | [] => []
  | c :: t =>
    if c.isBlank && (t.dropWhile CodePoint.isBlank).head? == some hash then []
    else c :: withoutComment t

def trimEnd (t : Text) : Text := (t.reverse.dropWhile CodePoint.isBlank).reverse

/-- A bare value: the rest of the line without a comment and the blanks at its end. -/
def bare (t : Text) : Text := trimEnd (withoutComment (t.takeWhile (· != newline)))

/-- A value, which may have blanks in front, and what follows it. A comment behind such blanks
leaves the value empty. -/
def value? (t : Text) : Option (Text × Text) :=
  let value := skipInnerBlanks t
  match value with
  | [] => some ([], [])
  | c :: rest =>
    if c = singleQuote then
      (quoted? c rest).map fun (body, rest) => (unescape plainEscaped? body, rest)
    else if c = doubleQuote then
      (quoted? c rest).map fun (body, rest) => (unescape escaped? body, rest)
    else if c = hash ∧ value.length < t.length then some ([], value)
    else some (bare value, value.dropWhile (· != newline))

/-- A name and what follows it. -/
def name? (t : Text) : Option (Text × Text) :=
  match t with
  | [] => none
  | c :: rest =>
    if c = singleQuote then
      let name := rest.takeWhile (· != singleQuote)
      match rest.drop name.length with
      | [] => none
      | _ :: rest => if name.isEmpty then none else some (name, rest)
    else
      let isName (c : CodePoint) : Bool := c != equals && c != hash && !c.isBlank
      let name := t.takeWhile isName
      if name.isEmpty then none else some (name, t.drop name.length)

/-- Closes a statement, behind which only a comment may stand on the line. -/
def close (s : Statement) (t : Text) : Statement × Text :=
  let t := skipInnerBlanks t
  let t := if t.head? = some hash then t.dropWhile (· != newline) else t
  if t.isEmpty || t.head? = some newline then (s, t.drop 1) else (.broken, nextLine t)

/-- One statement and what follows it. Only the word `export` makes a statement that lacks its
name. -/
def statement (t : Text) : Statement × Text :=
  let t := t.dropWhile CodePoint.isBlank
  if t.isEmpty then (.empty, [])
  else
    let t := skipExport t
    if t.head? = some hash then close .empty t
    else match name? t with
      | none => (.broken, nextLine t)
      | some (name, rest) =>
        let rest := skipInnerBlanks rest
        if rest.head? = some equals then
          let rest := rest.drop 1
          match value? rest with
          | none => (.broken, nextLine rest)
          | some (value, rest) => close (.assigned name value) rest
        else close (.listed name) rest

/-- How many lines end in the text. -/
def lineCount (t : Text) : Nat := t.count newline

/-- All statements, each with the number of the line at which the reading of it began. -/
def statementsFrom (line : Nat) (t : Text) : List (Nat × Statement) :=
  if t.isEmpty then []
  else
    let (s, rest) := statement t
    if rest.length < t.length then
      (line, s) :: statementsFrom (line + lineCount (t.take (t.length - rest.length))) rest
    else [(line, s)]
termination_by t.length

/-- The mark of the order of bytes, which may stand in front of a text. -/
def byteOrderMark : CodePoint := .scalar '\uFEFF'

/-- All statements of a text. A mark in front of it is no part of it. -/
def statements (t : Text) : List (Nat × Statement) :=
  statementsFrom 1 (unifyLines (if t.head? = some byteOrderMark then t.drop 1 else t))

/-- The lines that are passed over. -/
def brokenLines (t : Text) : List Nat :=
  (statements t).filterMap fun
    | (line, .broken) => some line
    | _ => none

/-! ## Values that stand for others -/

/-- A part of a value: text as it is, or the value of a name. -/
inductive Piece where
  | point (c : CodePoint)
  | reference (name : Text) (default : Option Text)

def closingBrace : CodePoint := .scalar '\x7d'

def colon : CodePoint := .scalar ':'

/-- The name, the default and the rest of a reference behind its opening brace. -/
def reference? (t : Text) : Option (Text × Option Text × Text) :=
  let name := t.takeWhile fun c => c != closingBrace && c != colon
  match t.drop name.length with
  | [] => none
  | c :: rest =>
    if c = closingBrace then some (name, none, rest)
    else if rest.head? = some (.scalar '-') then
      let default := (rest.drop 1).takeWhile (· != closingBrace)
      match (rest.drop 1).drop default.length with
      | [] => none
      | _ :: rest => some (name, some default, rest)
    else none

/-- The parts of a value. -/
def pieces (t : Text) : List Piece :=
  match t with
  | [] => []
  | .scalar '$' :: .scalar '\x7b' :: t' =>
    match reference? t' with
    | some (name, default, rest) =>
      if rest.length ≤ t'.length then .reference name default :: pieces rest
      else [.reference name default]
    | none => .point (.scalar '$') :: pieces (.scalar '\x7b' :: t')
  | c :: t' => .point c :: pieces t'
termination_by t.length

/-- The text of a part. -/
def Piece.text (lookup : Text → Option (Option Text)) : Piece → Text
  | .point c => [c]
  | .reference name default => ((lookup name).getD (some (default.getD []))).getD []

/-- The value with every reference resolved: by a value given above, or by the environment. -/
def resolved (environment : List (Text × Text)) (above : List (Text × Option Text)) (value : Text) :
    Text :=
  let lookup (name : Text) : Option (Option Text) :=
    (Entries.get? name above).or ((Entries.last? name environment).map some)
  (pieces value).flatMap (Piece.text lookup)

/-- The names of the file with their last values, in the order of the names' first places; a name
that is only listed has none. -/
def entries (environment : List (Text × Text)) (t : Text) : List (Text × Option Text) :=
  (statements t).foldl (fun above (_, s) => match s with
    | .assigned name value => Entries.put name (some (resolved environment above value)) above
    | .listed name => Entries.put name none above
    | _ => above) []

end SearchConfig.EnvFile
