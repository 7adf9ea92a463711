import SearchConfig.Json.Token
import SearchConfig.Text.Utf8

/-!
# Reading JSON

The reader takes the tokens one by one. Its state is the stack of the containers that are open
around the place it has come to and what may follow there; a completed value goes into the
innermost open container, or is the result. At most `nesting` containers may be open around a
value, so one more may be opened only to be closed at once.
-/

namespace SearchConfig.Json

/-- The nesting that config files may have. -/
def maxNesting : Nat := 200

/-- An open container, its items in reverse; `field` holds the key whose value is to come. -/
inductive Frame where
  | items (done : List Json)
  | fields (done : List (List Char × Json))
  | field (done : List (List Char × Json)) (key : List Char)

/-- What may follow inside the innermost container. -/
inductive Focus where
  /-- A value. -/
  | value
  /-- A value, or the end of an array just opened. -/
  | valueOrEnd
  /-- A key. -/
  | key
  /-- A key, or the end of an object just opened. -/
  | keyOrEnd
  /-- The colon behind a key. -/
  | colon
  /-- A comma or the end of the container. -/
  | commaOrEnd

inductive Progress where
  | inside (focus : Focus) (stack : List Frame)
  | finished (v : Json)

/-- Puts a completed value where it belongs. -/
def complete? (v : Json) : List Frame → Option Progress
  | [] => some (.finished v)
  | .items done :: outer => some (.inside .commaOrEnd (.items (v :: done) :: outer))
  | .field done key :: outer => some (.inside .commaOrEnd (.fields ((key, v) :: done) :: outer))
  | .fields _ :: _ => none

/-- Begins or completes a value. -/
def beginValue? (nesting : Nat) (t : Token) (stack : List Frame) : Option Progress :=
  if nesting < stack.length then none
  else match t with
    | .openArray => some (.inside .valueOrEnd (.items [] :: stack))
    | .openObject => some (.inside .keyOrEnd (.fields [] :: stack))
    | .string s => complete? (.string s) stack
    | .literal v => complete? v stack
    | _ => none

/-- Takes a key into the innermost object. -/
def beginField? (nesting : Nat) (t : Token) (stack : List Frame) : Option Progress :=
  if nesting < stack.length then none
  else match t, stack with
    | .string key, .fields done :: outer => some (.inside .colon (.field done key :: outer))
    | _, _ => none

/-- Takes one token. -/
def step? (nesting : Nat) (t : Token) : Progress → Option Progress
  | .finished _ => none
  | .inside .value stack => beginValue? nesting t stack
  | .inside .valueOrEnd stack =>
    match t, stack with
    | .closeArray, .items done :: outer => complete? (.array done.reverse) outer
    | t, stack => beginValue? nesting t stack
  | .inside .key stack => beginField? nesting t stack
  | .inside .keyOrEnd stack =>
    match t, stack with
    | .closeObject, .fields done :: outer => complete? (.object done.reverse) outer
    | t, stack => beginField? nesting t stack
  | .inside .colon stack =>
    match t with
    | .colon => some (.inside .value stack)
    | _ => none
  | .inside .commaOrEnd stack =>
    match t, stack with
    | .comma, .items done :: outer => some (.inside .value (.items done :: outer))
    | .comma, .fields done :: outer => some (.inside .key (.fields done :: outer))
    | .closeArray, .items done :: outer => complete? (.array done.reverse) outer
    | .closeObject, .fields done :: outer => complete? (.object done.reverse) outer
    | _, _ => none

/-- Takes all tokens. -/
def run? (nesting : Nat) : List Token → Progress → Option Progress
  | [], p => some p
  | t :: ts, p => (step? nesting t p).bind (run? nesting ts)

/-- The value that a text is written form of. -/
def read? (nesting : Nat) (cs : List Char) : Option Json :=
  match (tokens? cs).bind fun ts => run? nesting ts (.inside .value []) with
  | some (.finished v) => some v
  | _ => none

/-- The value that a file holds. -/
def ofBytes? (bytes : ByteArray) : Option Json := (Utf8.decode? bytes).bind (read? maxNesting)

end SearchConfig.Json
