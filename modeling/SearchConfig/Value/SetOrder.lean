import SearchConfig.Value.Hash

/-!
# The order of sets

The members of a set stand in the order of their places in a table whose size is a power of two. A
member is put at the remainder of its code by the size, or at one of the next places if that one is
taken, and if those are taken too it goes on from a place that depends on more of the code. A table
that is three fifths full is replaced by one at least four times as large as the set. Where a code
is known by content alone, the members stand in the order in which they were added.
-/

namespace SearchConfig

/-- Places, of which some are taken. Their number is a power of two. -/
abbrev PlaceTable := List (Option (Nat × Value))

namespace PlaceTable

/-- How many places are tried besides the first, if the table has so many behind it. -/
def run : Nat := 9

def isFree (table : PlaceTable) (place : Nat) : Bool :=
  match table[place]? with
  | some none => true
  | _ => false

/-- The first free place of those that are tried at once. -/
def freeInRun? (table : PlaceTable) (place : Nat) : Option Nat :=
  let tried := if place + run < table.length then run + 1 else 1
  ((List.range tried).map (place + ·)).find? table.isFree

/-- The place for a number, whose rest decides where to go on. -/
def freePlace (table : PlaceTable) (place rest : Nat) : Nat → Nat
  | 0 => 0
  | fuel + 1 =>
    match table.freeInRun? place with
    | some free => free
    | none =>
      let rest := rest / 32
      freePlace table ((place * 5 + 1 + rest) % table.length) rest fuel

/-- Puts a value with its number into the table. There is a free place, and it is found at the
latest when the rest of the number is used up and every place was tried. -/
def insert (table : PlaceTable) (entry : Nat × Value) : PlaceTable :=
  let place := table.freePlace (entry.1 % table.length) entry.1 (table.length + 16)
  table.set place (some entry)

def ofSize (size : Nat) : PlaceTable := List.replicate size none

/-- The least size from the given one on, in doublings, that is more than enough. -/
def sizeAbove (enough size : Nat) : Nat → Nat
  | 0 => size
  | fuel + 1 => if size ≤ enough then sizeAbove enough (size * 2) fuel else size

/-- The least size of a table. -/
def leastSize : Nat := 8

/-- Puts a value into the table and makes the table larger if it is too full. -/
def add (table : PlaceTable) (entry : Nat × Value) : PlaceTable :=
  let table := table.insert entry
  let taken := table.filterMap id
  if taken.length * 5 < (table.length - 1) * 3 then table
  else taken.foldl insert (ofSize (sizeAbove (taken.length * 4) leastSize taken.length))

end PlaceTable

/-- The members of a set with their codes, given in the order in which they were added, in the order
of the set. -/
def Value.setOrder (members : List (HashCode × Value)) : List Value :=
  match members.mapM fun (code, v) => code.number?.map fun n => (n.toNat, v) with
  | some entries =>
    let table := entries.foldl PlaceTable.add (PlaceTable.ofSize PlaceTable.leastSize)
    (table.filterMap id).map Prod.snd
  | none => members.map Prod.snd

end SearchConfig
