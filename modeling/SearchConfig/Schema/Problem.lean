import SearchConfig.Value.Serialize

/-!
# Problems with data

Data that does not have the required form is refused with a list of problems, each naming its
place by the steps that lead there from the outside. Parts that do not depend on each other are
all looked at, so the problems of one part do not hide those of another, and they stand in the
order in which the parts are looked at.
-/

namespace SearchConfig

/-- A step from a value to a part of it. -/
inductive Step where
  | key (name : Text)
  | number (n : Int)
  deriving DecidableEq

abbrev Place := List Step

/-- What is wrong at a place. -/
inductive Fault where
  /-- The text as a whole is not JSON. -/
  | malformed
  | notText
  /-- A text is required, and bytes were given that are not UTF-8. -/
  | notUnicode
  | notInteger
  | notTruth
  | notMap
  /-- A record of fields is required. -/
  | notRecord
  | missing
  | notCaptured (fault : CaptureFault)
  deriving DecidableEq

structure Problem where
  place : Place
  fault : Fault
  deriving DecidableEq

/-- A value that data stands for, or all reasons why it stands for none. -/
inductive Decoded (α : Type) where
  | accepted (value : α)
  | refused (problems : List Problem)
  deriving DecidableEq

namespace Decoded

variable {α β : Type}

/-- Refuses for a single reason, at the place itself. -/
def fail (fault : Fault) : Decoded α := refused [⟨[], fault⟩]

def problems : Decoded α → List Problem
  | accepted _ => []
  | refused problems => problems

def map (f : α → β) : Decoded α → Decoded β
  | accepted a => accepted (f a)
  | refused problems => refused problems

/-- Takes both parts, or the problems of both. -/
def both (f : Decoded (α → β)) (x : Decoded α) : Decoded β :=
  match f, x with
  | accepted f, accepted a => accepted (f a)
  | f, x => refused (f.problems ++ x.problems)

/-- The part that a step leads to. -/
def under (step : Step) : Decoded α → Decoded α
  | accepted a => accepted a
  | refused problems => refused (problems.map fun p => { p with place := step :: p.place })

instance : Functor Decoded where
  map := map

instance : Applicative Decoded where
  pure := accepted
  seq f x := both f (x ())

/-- Takes all of several parts. -/
def all : List (Decoded α) → Decoded (List α)
  | [] => accepted []
  | x :: xs => both (x.map List.cons) (all xs)

end Decoded

end SearchConfig
