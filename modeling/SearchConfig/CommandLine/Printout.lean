import SearchConfig.CommandLine.Run
import SearchConfig.LoggedLoad

/-!
# Printing line by line

A command prints its lines one after the other, and each of them may fail: a number may be too long
to be written, and a text with lone surrogates has no bytes on standard output. A line that fails
ends the run with code one. The lines before it stay printed, and what was logged on the way stays
logged.

Standard output is taken to be strict UTF-8, and the limit of digits to be the one that a process
begins with. Both are set for the interpreter and not for the program, and are the same in all
surroundings here.
-/

namespace SearchConfig

/-- Why a line cannot be printed. -/
inductive LineFault where
  | tooManyDigits
  | unencodable (run : LoneSurrogates)

def LineFault.message : LineFault → Text
  | tooManyDigits => tooManyDigitsMessage
  | unencodable run => run.message

/-- A line that is to be printed, if all that stands in it can be written. -/
abbrev Line := Except LineFault Text

namespace Line

/-- The line with numbers in it. -/
def withNumbers (numbers : List Int) (t : Text) : Line :=
  if numbers.all Digits.isWritable then .ok t else .error .tooManyDigits

/-- What is written of a text on standard output. -/
def written (t : Text) : Line :=
  match t.loneSurrogates? with
  | some run => .error (.unencodable run)
  | none => .ok t

/-- What stands on standard output of lines, up to the first that cannot be printed. -/
def printed : List Line → Text × Option LineFault
  | [] => ([], none)
  | line :: lines =>
    match line.bind fun t => written (Outcome.echo t) with
    | .error fault => ([], some fault)
    | .ok t =>
      let (others, fault) := printed lines
      (t ++ others, fault)

end Line

/-- How a run ends whose last line may not have been printed. -/
structure Printout extends Outcome where
  fault : Option LineFault

namespace Printout

/-- The end of a run by a line that cannot be printed. -/
def broken (stdout stderr : Text) (fault : LineFault) : Printout :=
  ⟨⟨1, stdout, stderr, none⟩, some fault⟩

/-- The end of a run that prints lines at last. -/
def ofLines (stderr : Text) (lines : List Line) : Printout :=
  match Line.printed lines with
  | (stdout, none) => ⟨.succeeded stdout stderr, none⟩
  | (stdout, some fault) => broken stdout stderr fault

/-- The end of a run that prints all of standard output at once. -/
def atOnce (o : Outcome) : Printout :=
  match Line.written o.stdout with
  | .ok _ => ⟨o, none⟩
  | .error fault => broken [] o.stderr fault

end Printout

namespace Session

/-- The numbers on the lines of an overview. How many repositories there are is never too long. -/
def overviewNumbers (c : Config) : List (List Int) :=
  [[], [], [c.maxConcurrentIndexers], [], []]
    ++ c.sortedRepos.map fun entry => [entry.2.msBetweenPoll]

def overviewLines (c : Config) : List Line :=
  List.zipWith Line.withNumbers (overviewNumbers c) (overview c)

/-- Prints the answer to a request. -/
def printAnswer (s : Session) (c : Config) : Request → Printout
  | .check _ => .ofLines s.stderr (overviewLines c)
  | .repos _ => .atOnce (s.repos c)
  | .url _ repo path line => .atOnce (s.url repo path line c)

/-- Loads the configuration and prints the answer. -/
def print (s : Session) (r : Request) : Printout :=
  let path := s.configPath r.config
  let (loaded, records) := (Config.loadLogged s.files path).outcome
  let s := s.log records
  match loaded with
  | .ok c => s.printAnswer c r
  | .error (.unusable fault) => .atOnce (.crashed s.stderr (.unusable fault))
  | .error (.failure f) => .atOnce (.failed (s.log [loadFailed path f]).stderr f.shown)

end Session

/-- Runs the program. -/
def Command.print (around : Surroundings) (timestamp : Text) (arguments : List Text) : Printout :=
  match prepare around timestamp arguments with
  | .error outcome => .atOnce outcome
  | .ok (s, r) => s.print r

end SearchConfig
