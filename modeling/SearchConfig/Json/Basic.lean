import SearchConfig.Decimal.Binary64
import SearchConfig.Entries

/-!
# JSON values

Integers and floating-point numbers are kept apart, integers have any size, and `NaN` and the
infinities are numbers. An object is the list of its entries as written, so a key may stand in it
more than once; `Json.collapse` leaves one entry for each key, in every object at every depth.
-/

namespace SearchConfig

inductive Json where
  | null
  | bool (b : Bool)
  | int (n : Int)
  | float (x : Binary64)
  | string (s : List Char)
  | array (items : List Json)
  | object (entries : List (List Char × Json))
  deriving Inhabited

namespace Json

mutual

/-- The value with one entry for each key, at its first place and with its last value. -/
def collapse : Json → Json
  | array items => array (collapseItems items)
  | object entries => object (Entries.collapse (collapseEntries entries))
  | null => null
  | bool b => bool b
  | int n => int n
  | float x => float x
  | string s => string s

def collapseItems : List Json → List Json
  | [] => []
  | item :: items => collapse item :: collapseItems items

def collapseEntries : List (List Char × Json) → List (List Char × Json)
  | [] => []
  | (key, value) :: entries => (key, collapse value) :: collapseEntries entries

end

end Json

end SearchConfig
