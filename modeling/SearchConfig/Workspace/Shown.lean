import SearchConfig.Workspace.Member

/-!
# Objects as they are shown

A record is shown by its fields, in the order in which it holds them, and by what is no field of it.
It asks its own members how, if it was given members that stand before those of its kind, and then
the showing may fail. A secret is shown by whether its payload counts as true.
-/

namespace SearchConfig.Workspace

/-- The methods by which a record inside of something else is shown: its name comes first. -/
def showingMethods : List Text := ["__repr_name__", "__repr_str__", "__repr_args__"]

/-- The member that tells which members are computed to be shown. -/
def computedMember : Text := "__pydantic_computed_fields__"

/-- The member that tells which members are fields. -/
def fieldTableMember : Text := "__pydantic_fields__"

/-- Is an entry of a record shown as a field? -/
def isShown (w : Workspace) (h : Handle) (key : Value) : Except Misuse Bool := do
  match w.member? h fieldTableMember with
  | none => return h.kind.isField key
  | some fields =>
    match w.laidOpen fields, key with
    | .dict entries, .text name =>
      let field := (Value.named? name entries).getD .null
      if !(← w.isTrue field) then return false
      w.isTrue (← w.memberValue field "repr")
    | .dict _, _ => return false
    | fields, _ => do
      w.call fields "get"
      return false

/-- The entries of a record that are shown, by the methods of the given names. -/
def shownEntries (w : Workspace) (h : Handle) (methods : List Text) :
    Except Misuse (List (Value × Value)) := do
  methods.forM (w.call (.live h))
  let computed ← w.entriesOf (← w.memberValue (.live h) computedMember)
  computed.forM fun (_, v) => (w.memberValue v "repr").map fun _ => ()
  let fields ← (w.entries h).filterM fun (key, _) => w.isShown h key
  let extra := w.hidden h Kind.extraMember
  if extra.isNull then return fields else return fields ++ (← w.entriesOf extra)

/-- Are the items of a value that is no object shown between brackets? -/
def isBracketed : Value → Bool
  | .list _ | .tuple _ | .dict _ => true
  | _ => false

/-- A value as it is shown, with objects opened to a depth. Between brackets nothing is shown that
holds these brackets, which stand on the path from the whole value under the number of a member. -/
def shownFrom (w : Workspace) (whole : Value) :
    Nat → List (Handle × Nat) → Value → Except Misuse Value
  | 0, _, _ => .error .endless
  | n + 1, path, v =>
    let shownAt (step : Handle × Nat) (v : Value) : Except Misuse Value :=
      if isBracketed v ∧ path.contains step then .ok (.again v.typeName)
      else shownFrom w whole n (step :: path) v
    let opened (h : Handle) : Except Misuse Value := do
      match h.kind with
      | .dictionary => shownAt (h, 0) (.dict (w.entries h))
      | .secret =>
        let isFull ← w.isTrue (w.payloadOf h)
        return .record h.kind [(.text Secret.payloadMember, .bool isFull)]
      | .linker => return .record h.kind []
      | kind =>
        let methods := if whole.isIdentical (.live h) then showingMethods.drop 1 else showingMethods
        let entries ← w.shownEntries h methods
        return .record kind <| ← entries.zipIdx.mapM fun ((key, v), number) => do
          let key ← shownFrom w whole n path key
          return (key, ← shownAt (h, number) v)
    v.replaceLive opened opened

/-- A value as it is shown at this moment. An object is come to again below itself at most once for
each of the members of all objects, unless it is shown without end. -/
def shown (w : Workspace) (v : Value) : Except Misuse Value :=
  let members := w.objects.flatMap fun o => match o.holding with
    | .own entries => entries
    | .common _ => []
  w.shownFrom v ((members.length + 1) * (w.objects.length + 1) + 1) [] v

end SearchConfig.Workspace
