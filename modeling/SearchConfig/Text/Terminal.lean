import SearchConfig.Text.Search

/-!
# Control sequences

Texts that are printed lose the sequences that would change colours or move the cursor of a
terminal: an escape character, an opening bracket, parameters, intermediates, and one final
character.
-/

namespace SearchConfig

namespace CodePoint

/-- A parameter of a control sequence: a digit or one of `:;<=>?`. -/
def isParameter (c : CodePoint) : Bool := 0x30 ≤ c.value && c.value ≤ 0x3F

/-- A character between the parameters and the end: a blank or a mark before the digits. -/
def isIntermediate (c : CodePoint) : Bool := 0x20 ≤ c.value && c.value ≤ 0x2F

/-- The end of a control sequence: any printable character of ASCII from `@` on. -/
def isFinal (c : CodePoint) : Bool := 0x40 ≤ c.value && c.value ≤ 0x7E

end CodePoint

namespace Text

/-- The length of the control sequence at the beginning of the text; zero if there is none. -/
def sequenceLength (t : Text) : Nat :=
  match t.dropBeginning? "\x1b[" with
  | none => 0
  | some rest =>
    let parameters := rest.takeWhile CodePoint.isParameter
    let intermediates := (rest.drop parameters.length).takeWhile CodePoint.isIntermediate
    match rest.drop (parameters.length + intermediates.length) with
    | c :: _ => if c.isFinal then parameters.length + intermediates.length + 3 else 0
    | [] => 0

/-- Removes the control sequences; `skip` code points of one are still to be passed over. -/
def withoutSequencesFrom (skip : Nat) : Text → Text
  | [] => []
  | c :: t =>
    match skip, sequenceLength (c :: t) with
    | n + 1, _ => withoutSequencesFrom n t
    | 0, n + 1 => withoutSequencesFrom n t
    | 0, 0 => c :: withoutSequencesFrom 0 t

def withoutSequences (t : Text) : Text := withoutSequencesFrom 0 t

end Text

end SearchConfig
