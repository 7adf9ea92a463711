import SearchConfig.Value.Hash

/-!
# Items

The items of texts, byte strings, lists and tuples are numbered, those of sets and the keys of
dictionaries only stand in them.
-/

namespace SearchConfig.Value

/-- The items of a value that numbers its items. -/
def numbered? : Value → Option (List Value)
  | text t => some (t.map fun c => text [c])
  | bytes b | buffer b => some (b.toList.map fun x => int x.toNat)
  | list items | tuple items => some items
  | endless mark => some [endless mark]
  | _ => none

/-- The items of a value one by one. -/
def items : Value → Except Misuse (List Value)
  | set items => .ok (items.map unkept)
  | dict entries => .ok (entries.map fun (key, _) => key.unkept)
  | v =>
    match v.numbered? with
    | some items => .ok items
    | none => .error (.notIterable v.typeName)

/-- The item of a number, counted from the end if the number is negative. -/
def item (typeName : Text) (items : List Value) (index : Value) : Except Misuse Value :=
  match index.integer? with
  | none => .error (.notIndex typeName index.typeName)
  | some n =>
    if n < -wordLimit ∨ wordLimit ≤ n then .error .hugeIndex
    else
      let place := if n < 0 then n + items.length else n
      match if place < 0 then none else items[place.toNat]? with
      | some v => .ok v
      | none => .error (.outOfRange typeName)

end SearchConfig.Value
