/-!
# Sorting by runs

A list is cut into runs, the longest ascending or strictly descending beginnings, and a short run is
filled up by inserting the next elements. Neighbouring runs are merged in an order that depends on
where they stand alone. Equal elements keep their order, and nothing is asked of the test but which
of two elements comes first: where its answers contradict each other, or where it fails, the order
of the questions decides the outcome.

`RunSort.sort` is the sorted list or the first failure of the test.
-/

namespace SearchConfig.RunSort

variable {α ε : Type}

/-- Does the first of two elements come before the second? -/
abbrev Before (α ε : Type) := α → α → Except ε Bool

/-! ## Places -/

/-- The end of the numbers from `low` on that pass a test, looked for by halving up to `high`. -/
def bisect (passes : Nat → Except ε Bool) (low high : Nat) : Except ε Nat :=
  if low < high then do
    let middle := low + (high - low) / 2
    if ← passes middle then bisect passes (middle + 1) high else bisect passes low middle
  else .ok low
termination_by high - low

/-- Steps that grow until the test fails or the limit is reached: the last distance that passed and
the first beyond it. -/
def widen (passes : Nat → Except ε Bool) (limit last next : Nat) : Except ε (Nat × Nat) :=
  if next < limit then do
    if ← passes next then widen passes limit next (2 * next + 1) else return (last, next)
  else .ok (last, min next limit)
termination_by limit - next

/-- The end of the numbers below `count` that pass a test, looked for from a hint on. -/
def gallop (passes : Nat → Except ε Bool) (count hint : Nat) : Except ε Nat := do
  if ← passes hint then
    let (last, next) ← widen (fun far => passes (hint + far)) (count - hint) 0 1
    bisect passes (hint + last + 1) (hint + next)
  else
    let (last, next) ← widen (fun far => return !(← passes (hint - far))) (hint + 1) 0 1
    bisect passes (hint + 1 - next) (hint - last)

/-- A question about the element of a number. -/
def ask (elements : Array α) (test : α → Except ε Bool) (place : Nat) : Except ε Bool :=
  match elements[place]? with
  | some a => test a
  | none => .ok false

/-! ## Runs -/

/-- How many elements go on ascending behind one. -/
def ascent (before : Before α ε) (last : α) : List α → Except ε Nat
  | [] => .ok 0
  | a :: others => do
    if ← before a last then return 0 else return (← ascent before a others) + 1

/-- How many elements go on strictly descending behind one. -/
def descent (before : Before α ε) (last : α) : List α → Except ε Nat
  | [] => .ok 0
  | a :: others => do
    if ← before a last then return (← descent before a others) + 1 else return 0

/-- The longest run at the beginning, in ascending order, and the rest. -/
def splitRun (before : Before α ε) : List α → Except ε (List α × List α)
  | a :: b :: others => do
    if ← before b a then
      let count := (← descent before b others) + 2
      let elements := a :: b :: others
      return ((elements.take count).reverse, elements.drop count)
    else
      let count := (← ascent before b others) + 2
      let elements := a :: b :: others
      return (elements.take count, elements.drop count)
  | elements => .ok (elements, [])

/-- Inserts an element behind those that do not come after it. -/
def insert (before : Before α ε) (run : List α) (a : α) : Except ε (List α) := do
  let elements := run.toArray
  let place ← bisect (fun k => return !(← ask elements (before a) k)) 0 run.length
  return run.take place ++ a :: run.drop place

/-- The least length of a run in a list of so many elements: the number of its first six binary
digits, rounded up, or of all that there are. -/
def leastRun (count rest : Nat) : Nat :=
  if 64 ≤ count then leastRun (count / 2) (max rest (count % 2)) else count + rest
termination_by count

/-! ## Merging -/

/-- At which end two runs are merged: the shorter one is emptied from there. -/
inductive Side where
  | front
  | back
  deriving DecidableEq

/-- Two neighbouring runs that are being merged at one side, what is merged already, and how often
one of them has to win in a row before its winners are looked for from afar. -/
structure Merge (α : Type) where
  side : Side
  first : List α
  second : List α
  merged : List α
  patience : Nat

namespace Merge

/-- Is the shorter run used up, but for the one element that comes last, or the longer one? -/
def isDone (m : Merge α) : Bool :=
  match m.side with
  | .front => m.second.isEmpty || m.first.length ≤ 1
  | .back => m.first.isEmpty || m.second.length ≤ 1

/-- All elements, when nothing is left to be compared. -/
def result (m : Merge α) : List α :=
  match m.side with
  | .front => m.merged ++ (m.second ++ m.first)
  | .back => m.second ++ m.first ++ m.merged

/-- The elements that are left of a run and those that are taken at the side. -/
def cut (side : Side) (count : Nat) (run : List α) : List α × List α :=
  match side with
  | .front => (run.drop count, run.take count)
  | .back => (run.take (run.length - count), run.drop (run.length - count))

def join (side : Side) (merged taken : List α) : List α :=
  match side with
  | .front => merged ++ taken
  | .back => taken ++ merged

/-- Takes elements of the first run. -/
def takeFirst (m : Merge α) (count : Nat) : Merge α :=
  let (left, taken) := cut m.side count m.first
  { m with first := left, merged := join m.side m.merged taken }

/-- Takes elements of the second run. -/
def takeSecond (m : Merge α) (count : Nat) : Merge α :=
  let (left, taken) := cut m.side count m.second
  { m with second := left, merged := join m.side m.merged taken }

/-- The element of a run at the side. -/
def tip? (side : Side) (run : List α) : Option α :=
  match side with
  | .front => run.head?
  | .back => run.getLast?

/-- How many elements at the side belong to one of two parts, of which the first has `place`. -/
def countAt (side : Side) (count place : Nat) : Nat :=
  match side with
  | .front => place
  | .back => count - place

/-- Where the search in a run of so many elements begins. -/
def hint (side : Side) (count : Nat) : Nat :=
  match side with
  | .front => 0
  | .back => count - 1

/-- How many elements of the first run are to be taken before one of the second. -/
def winsOfFirst (before : Before α ε) (m : Merge α) : Except ε Nat := do
  match tip? m.side m.second with
  | none => return 0
  | some key =>
    let run := m.first.toArray
    let place ← gallop (fun k => return !(← ask run (before key) k)) run.size
      (hint m.side run.size)
    return countAt m.side run.size place

/-- How many elements of the second run are to be taken before one of the first. -/
def winsOfSecond (before : Before α ε) (m : Merge α) : Except ε Nat := do
  match tip? m.side m.first with
  | none => return 0
  | some key =>
    let run := m.second.toArray
    let place ← gallop (fun k => ask run (before · key) k) run.size (hint m.side run.size)
    return countAt m.side run.size place

/-- So many winners found from afar make it worth while to go on so. -/
def manyWins : Nat := 7

mutual

/-- Takes one element after the other, until a run has won often enough in a row. -/
def compareEach (before : Before α ε) (m : Merge α) (wonFirst wonSecond : Nat) :
    Nat → Except ε (Merge α)
  | 0 => .ok m
  | fuel + 1 => do
    if m.isDone then return m
    if m.patience ≤ wonFirst || m.patience ≤ wonSecond then
      search before { m with patience := m.patience + 1 } fuel
    else
      match tip? m.side m.first, tip? m.side m.second with
      | some a, some b =>
        let isBefore ← before b a
        if isBefore = (m.side = .front) then
          compareEach before (m.takeSecond 1) 0 (wonSecond + 1) fuel
        else compareEach before (m.takeFirst 1) (wonFirst + 1) 0 fuel
      | _, _ => return m

/-- Looks for winners from afar, as long as there are many. -/
def search (before : Before α ε) (m : Merge α) : Nat → Except ε (Merge α)
  | 0 => .ok m
  | fuel + 1 => do
    let m := { m with patience := if 1 < m.patience then m.patience - 1 else m.patience }
    let winsFirst ← m.winsOfFirst before
    let m := m.takeFirst winsFirst
    if m.isDone then return m
    let m := m.takeSecond 1
    if m.isDone then return m
    let winsSecond ← m.winsOfSecond before
    let m := m.takeSecond winsSecond
    if m.isDone then return m
    let m := m.takeFirst 1
    if m.isDone then return m
    if manyWins ≤ winsFirst || manyWins ≤ winsSecond then search before m fuel
    else compareEach before { m with patience := m.patience + 1 } 0 0 fuel

end

end Merge

/-- Sorting with the patience that merges have by now. -/
abbrev Sorting (ε : Type) := StateT Nat (Except ε)

/-- Merges two runs, of which the beginning of the first and the end of the second may be in place
already. -/
def merge (before : Before α ε) (first second : List α) : Sorting ε (List α) := do
  match second.head? with
  | none => return first
  | some key =>
    let run := first.toArray
    let start ← gallop (fun k => return !(← ask run (before key) k)) run.size 0
    let left := first.drop start
    match left.getLast? with
    | none => return first ++ second
    | some key =>
      let run := second.toArray
      let stop ← gallop (fun k => ask run (before · key) k) run.size (run.size - 1)
      if stop = 0 then return first ++ second
      let right := second.take stop
      let side := if left.length ≤ right.length then Side.front else .back
      let m : Merge α := ⟨side, left, right, [], ← get⟩
      let m := match side with
        | .front => m.takeSecond 1
        | .back => m.takeFirst 1
      let m ← m.compareEach before 0 0 (3 * (left.length + right.length))
      set m.patience
      return first.take start ++ m.result ++ second.drop stop

/-! ## The order of merges -/

/-- How deep the border between two runs lies when a list of `count` elements is halved again and
again; `twiceA` and `twiceB` are twice the middles of the runs. -/
def depth (twiceA twiceB count : Nat) : Nat → Nat
  | 0 => 0
  | fuel + 1 =>
    if count ≤ twiceA then
      depth (2 * (twiceA - count)) (2 * (twiceB - count)) count fuel + 1
    else if count ≤ twiceB then 1
    else depth (2 * twiceA) (2 * twiceB) count fuel + 1

/-- A run with the depth of the border behind it. -/
abbrev Pending (α : Type) := List α × Nat

/-- Merges the last runs as long as the border between them lies deeper. -/
def settle (before : Before α ε) (limit : Nat) (last : List α) :
    List (Pending α) → Sorting ε (List α × List (Pending α))
  | [] => return (last, [])
  | (run, border) :: pending => do
    if limit < border then settle before limit (← merge before run last) pending
    else return (last, (run, border) :: pending)

/-- Adds a run behind the last one, which starts at a place. -/
def push (before : Before α ε) (count : Nat) (last : List α) (pending : List (Pending α))
    (run : List α) : Sorting ε (List (Pending α)) := do
  let start := (pending.map fun p => p.1.length).foldl (· + ·) 0
  let twiceA := 2 * start + last.length
  let border := depth twiceA (twiceA + last.length + run.length) count (count + 64)
  let (last, pending) ← settle before border last pending
  return (last, border) :: pending

/-- Merges all runs, given from the last one on. -/
def mergeAll (before : Before α ε) : List (List α) → Sorting ε (List α)
  | [] => return []
  | [run] => return run
  | [last, run] => merge before run last
  | last :: middle :: run :: runs => do
    if run.length < last.length then
      mergeAll before (last :: (← merge before run middle) :: runs)
    else mergeAll before ((← merge before middle last) :: run :: runs)
termination_by runs => runs.length

/-- Cuts the elements into runs and merges them. -/
def sortFrom (before : Before α ε) (count least : Nat) (last : List α)
    (pending : List (Pending α)) (elements : List α) : Nat → Sorting ε (List α)
  | 0 => mergeAll before (last :: pending.map Prod.fst)
  | fuel + 1 => do
    if elements.isEmpty then mergeAll before (last :: pending.map Prod.fst)
    else
      let (run, rest) ← splitRun before elements
      let more := least - run.length
      let run ← liftM ((rest.take more).foldlM (insert before) run)
      let pending ← if last.isEmpty then pure [] else push before count last pending run
      sortFrom before count least run pending (rest.drop more) fuel

/-- The elements in order. -/
def sort (before : Before α ε) (elements : List α) : Except ε (List α) :=
  let count := elements.length
  (sortFrom before count (leastRun count 0) [] [] elements count).run' Merge.manyWins

end SearchConfig.RunSort
