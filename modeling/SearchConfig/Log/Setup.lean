import SearchConfig.Log.Renderer

/-!
# Setting up the log

A record passes two filters: it is made only from one rank on, and its line is taken only from one
rank on. Setting up the log puts both to the rank of the given name, in place of whatever was there;
a name that is none of a level changes nothing.
-/

namespace SearchConfig

/-- What is set up: which records are made and how they are rendered, from which rank on their lines
are taken, and how many outlets these go to. -/
structure LogSetup where
  made : Logging
  taken : Threshold
  outlets : Nat

namespace LogSetup

/-- Puts one outlet in place of all others, and a rank from which on lines are taken. -/
def takeFrom (threshold : Threshold) : StateM LogSetup Unit :=
  modify fun s => { s with taken := threshold, outlets := 1 }

def make (logging : Logging) : StateM LogSetup Unit := modify fun s => { s with made := logging }

/-- Sets up the log for the name of a level. The failure is a message. -/
def configure (name : Text) (json : Bool) : ExceptT Text (StateM LogSetup) Unit := do
  match Logging.ofName? name json with
  | none => throw (Threshold.unknownMessage name)
  | some logging =>
    takeFrom logging.threshold
    make logging

/-- What is written of a record: its line, if it is made and taken, to each outlet. -/
def entry (s : LogSetup) (timestamp : Text) (r : LogRecord) : Except LogFault Text :=
  (s.made.entry timestamp r).map fun line =>
    if s.taken.admits r.level then (List.replicate s.outlets line).flatten else []

/-- What is written of several records, up to the first fault. -/
def entries (s : LogSetup) (timestamp : Text) (records : List LogRecord) : Except LogFault Text :=
  (records.mapM (s.entry timestamp)).map List.flatten

end LogSetup

end SearchConfig
