import SearchConfig.Workspace.Member

/-!
# What objects tell

An object is told as a value: of a record its fields, whatever they are, of a secret its payload,
and of a dictionary its entries. The fields are asked for one by one, in their order, a map of names
after the others, and the first that is missing or cannot be told ends the telling. An integer of
too many digits cannot be told, and neither can what is part of itself.
-/

namespace SearchConfig

/-- Why a value cannot be told. -/
inductive TellFault where
  | longNumber
  | misused (misuse : Misuse)

/-- The fields of a record in the order of telling. -/
def Kind.toldFields (kind : Kind) : List (FieldName × Form) :=
  let (maps, others) := kind.fields.partition fun (_, form) => form matches .map _
  others ++ maps

namespace Value

mutual

/-- The value as it is told, by a rule for objects. -/
def tellWith (object : Handle → Except TellFault Value) : Value → Except TellFault Value
  | int n => if Digits.isWritable n then .ok (int n) else .error .longNumber
  | nan _ => .ok (float .nan)
  | kept _ v => tellWith object v
  | list items => return list (← tellItems object items)
  | tuple items => return tuple (← tellItems object items)
  | dict entries => return dict (← tellEntries object entries)
  | endless _ | again _ => .error (.misused .endless)
  | live h => object h
  | v => .ok v

def tellItems (object : Handle → Except TellFault Value) :
    List Value → Except TellFault (List Value)
  | [] => .ok []
  | item :: items => do
    let item ← tellWith object item
    return item :: (← tellItems object items)

def tellEntries (object : Handle → Except TellFault Value) :
    List (Value × Value) → Except TellFault (List (Value × Value))
  | [] => .ok []
  | (key, v) :: entries => do
    let key ← tellWith object key
    let v ← tellWith object v
    return (key, v) :: (← tellEntries object entries)

end

end Value

namespace Workspace

/-- The secret of a payload, which is asked for its text. -/
def toldSecret (w : Workspace) : Value → Except Misuse Value
  | .bytes b | .buffer b => .ok (.secret ⟨b⟩)
  | payload => do
    w.call payload "decode"
    .error (.noMember payload.typeName "decode")

/-- A value as it is told, with the objects in it opened to a depth. -/
def toldFrom (w : Workspace) : Nat → Value → Except TellFault Value
  | 0, _ => .error (.misused .endless)
  | n + 1, v =>
    let tellField (h : Handle) (field : FieldName × Form) : Except TellFault (Value × Value) := do
      let name := field.1.inner
      let v ← (w.memberValue (.live h) name).mapError .misused
      let v ←
        if field.2 matches .map _ then ((w.entriesOf v).mapError .misused).map .dict else .ok v
      return (.text name, ← toldFrom w n v)
    v.tellWith fun h => match h.kind with
      | .dictionary => toldFrom w n (.dict (w.entries h))
      | .secret => (w.toldSecret (w.payloadOf h)).mapError .misused
      | .linker => .ok (.record .linker [])
      | kind => return .record kind (← kind.toldFields.mapM (tellField h))

/-- A value as it is told. -/
def told (w : Workspace) (v : Value) : Except TellFault Value :=
  w.toldFrom (w.objects.length + 1) v

end Workspace

end SearchConfig
