/-!
# Ordered entries

A list of keys with values, in the order of writing. Put together one by one, the entries of a key
become one entry: it stands where the key first stood and has the value that came last.
-/

namespace SearchConfig.Entries

variable {κ α β : Type} [BEq κ]

/-- Gives the key the value, in its place or, if it is new, at the end. -/
def put (key : κ) (value : α) : List (κ × α) → List (κ × α)
  | [] => [(key, value)]
  | (k, v) :: entries =>
    if k == key then (k, value) :: entries else (k, v) :: put key value entries

/-- One entry for each key, at its first place and with its last value. -/
def collapse (entries : List (κ × α)) : List (κ × α) :=
  entries.foldl (fun kept (key, value) => put key value kept) []

/-- The last value of a key. -/
def last? (key : κ) (entries : List (κ × α)) : Option α :=
  entries.foldl (fun found (k, v) => if k == key then some v else found) none

/-- The first value of a key. -/
def get? (key : κ) (entries : List (κ × α)) : Option α :=
  (entries.find? fun (k, _) => k == key).map Prod.snd

omit [BEq κ] in
/-- The same keys with changed values. -/
def mapValues (f : α → β) (entries : List (κ × α)) : List (κ × β) :=
  entries.map fun (key, value) => (key, f value)

end SearchConfig.Entries
