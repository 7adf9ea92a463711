import SearchConfig.Value.Hash

/-!
# Finding keys

A dictionary keeps its keys in a table whose size is a power of two, at places that their hash codes
lead to. A key is searched for at these places in turn, up to a free one: it is found where it
stands itself, or where an equal key stands that was put there with the same code. So a key that has
changed may still be found or not. Where a code is not known as a number, a key whose code has
changed is taken not to be found.
-/

namespace SearchConfig

/-- Places, each with the number of the key that stands there. Their number is a power of two. -/
abbrev KeyTable := List (Option Nat)

namespace KeyTable

/-- How many keys stand in a table of a size before it is made larger. -/
def room (size : Nat) : Nat := size * 2 / 3

/-- The least size of a table. -/
def leastSize : Nat := 8

/-- The size of the table that follows one with so many keys. -/
def sizeAfter (keys : Nat) : Nat :=
  1 <<< (((keys * 3 ||| leastSize) - 1 ||| (leastSize - 1)).log2 + 1)

/-- The places for a code, in turn, so many of them. All bits of the code are used up after a few,
and every place comes up later. -/
def places (size : Nat) : Nat → Nat → Nat → List Nat
  | 0, _, _ => []
  | n + 1, place, rest =>
    let rest := rest >>> 5
    place :: places size n ((place * 5 + rest + 1) % size) rest

/-- The places for a code in a table. -/
def placesFor (table : KeyTable) (code : UInt64) : List Nat :=
  places table.length (table.length + 16) (code.toNat % table.length) code.toNat

def ofSize (size : Nat) : KeyTable := List.replicate size none

/-- Puts the number of a key at the first free place for its code. -/
def insert (table : KeyTable) (number : Nat) (code : UInt64) : KeyTable :=
  match (table.placesFor code).find? fun place => table[place]? == some none with
  | some place => table.set place (some number)
  | none => table

/-- The table of keys with their codes, after the first of them were put there. A full table is
replaced by a larger one. -/
def build (codes : List UInt64) : KeyTable :=
  let insertAll (table : KeyTable) (codes : List UInt64) : KeyTable :=
    (codes.zipIdx.foldl (fun table (code, number) => table.insert number code)) table
  let step (state : KeyTable × List UInt64) (code : UInt64) : KeyTable × List UInt64 :=
    let (table, earlier) := state
    let table :=
      if earlier.length < room table.length then table
      else insertAll (ofSize (sizeAfter earlier.length)) earlier
    (table.insert earlier.length code, earlier ++ [code])
  (codes.foldl step (ofSize leastSize, [])).1

/-- The numbers of the keys that stand at the places for a code, up to a free place. -/
def candidates (table : KeyTable) (code : UInt64) : List Nat :=
  ((table.placesFor code).map fun place => table[place]?.join).takeWhile Option.isSome
    |>.filterMap id

end KeyTable

namespace Value

/-- The entries that are looked at in turn for a key with a code. -/
def candidates (entries : List (Value × Value)) (code : HashCode) :
    Except Misuse (List (HashCode × Value × Value)) := do
  let coded ← entries.mapM fun entry => return ((← entry.1.foundBy), entry)
  match code.number?, coded.mapM fun (code, _) => code.number? with
  | some n, some numbers =>
    return ((KeyTable.build numbers).candidates n).filterMap (coded[·]?)
  | _, _ => return coded.filter fun (other, _) => other.same code

/-- The value under a key with a code, by rules for what is the key itself and for what is equal to
it. -/
def lookup? (isKey : Value → Bool) (isEqual : Value → Except Misuse Bool)
    (entries : List (Value × Value)) (code : HashCode) : Except Misuse (Option Value) := do
  let found ← (← candidates entries code).findM? fun (other, key, _) =>
    if isKey key.unkept then .ok true
    else if other.same code then isEqual key.unkept
    else .ok false
  return found.map (·.2.2)

end Value

end SearchConfig
