import SearchConfig.Text.Basic

/-!
# Finding, replacing and cutting

All searches go from left to right and take the first match. `replaceAll` goes on behind the
inserted text, so what it inserts is not searched again in the same pass.
-/

namespace SearchConfig.Text

/-- What follows the given beginning. -/
def dropBeginning? : Text → Text → Option Text
  | t, [] => some t
  | [], _ :: _ => none
  | a :: t, b :: beginning => if a = b then dropBeginning? t beginning else none

/-- What stands before the given ending. -/
def dropEnding? (t ending : Text) : Option Text :=
  (dropBeginning? t.reverse ending.reverse).map List.reverse

def occursIn (needle : Text) : Text → Bool
  | [] => needle.isEmpty
  | c :: t => needle.isPrefixOf (c :: t) || occursIn needle t

/-- Replaces every occurrence of `old`, which is not empty; `skip` code points of the last
occurrence are still to be passed over. -/
def replaceFrom (old new : Text) (skip : Nat) : Text → Text
  | [] => []
  | c :: t =>
    match skip with
    | n + 1 => replaceFrom old new n t
    | 0 =>
      if old.isPrefixOf (c :: t) then new ++ replaceFrom old new (old.length - 1) t
      else c :: replaceFrom old new 0 t

/-- Replaces every occurrence of a text that is not empty. -/
def replaceAll (t old new : Text) : Text := replaceFrom old new 0 t

/-- The pieces between the separators: one more than there are separators. -/
def split (separator : CodePoint) : Text → List Text
  | [] => [[]]
  | c :: t =>
    if c = separator then [] :: split separator t
    else match split separator t with
      | [] => [[c]]
      | piece :: pieces => (c :: piece) :: pieces

end SearchConfig.Text
