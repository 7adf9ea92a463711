import SearchConfig.Text.Search
import SearchConfig.Text.Utf8

/-!
# Paths

A path has an anchor and parts. Repeated slashes, a slash at the end and the part `.` mean nothing
and are dropped; the part `..` stays, because what it means depends on the files. A path may begin
with one slash or with exactly two, which are kept apart; more than two count as one.

The operating system takes names as bytes. A lone surrogate from `U+DC80` to `U+DCFF` stands for a byte
that is part of no character; a text with any other lone surrogate is no path, and neither is one
that holds the character that ends names.
-/

namespace SearchConfig

inductive Anchor where
  | relative
  | root
  | doubleRoot
  deriving DecidableEq

structure Path where
  anchor : Anchor
  parts : List Text
  deriving DecidableEq

namespace Path

def slash : CodePoint := .scalar '/'

/-- The part for a directory itself. -/
def here : Text := "."

/-- The part for the directory above. -/
def above : Text := ".."

/-- Stands a part for no step at all? -/
def isIdle (part : Text) : Bool := part.isEmpty || part == here

def anchorOf (t : Text) : Anchor :=
  match (t.takeWhile (· == slash)).length with
  | 0 => .relative
  | 2 => .doubleRoot
  | _ => .root

def ofText (t : Text) : Path where
  anchor := anchorOf t
  parts := (t.split slash).filter fun part => !isIdle part

def isAbsolute (p : Path) : Bool := p.anchor != .relative

/-- The parts with a slash between each two. -/
def joined (parts : List Text) : Text := Text.join [slash] parts

def toText (p : Path) : Text :=
  match p.anchor with
  | .relative => if p.parts.isEmpty then here else joined p.parts
  | .root => slash :: joined p.parts
  | .doubleRoot => slash :: slash :: joined p.parts

/-- The path without its last part. -/
def parent (p : Path) : Path := { p with parts := p.parts.dropLast }

/-- The second path as seen from the first. -/
def append (p q : Path) : Path :=
  if q.isAbsolute then q else { p with parts := p.parts ++ q.parts }

/-- Takes the steps upwards by name alone, stopping at the root. -/
def cleanParts (parts : List Text) : List Text :=
  parts.foldl (fun cleaned part => if part = above then cleaned.dropLast else cleaned ++ [part]) []

/-- The absolute path without any step upwards. -/
def clean (p : Path) : Path := { p with parts := cleanParts p.parts }

end Path

/-- Why a text is no path for the operating system. -/
inductive PathFault where
  | nullByte
  | unencodable (run : LoneSurrogates)
  deriving DecidableEq

def nullByteMessage : Text := "embedded null byte"

namespace PathFault

def message : PathFault → Text
  | nullByte => nullByteMessage
  | unencodable run => run.message

/-- The fault as seen from the beginning of a text, given the number of code points in front. -/
def behind (count : Nat) : PathFault → PathFault
  | nullByte => nullByte
  | unencodable run => unencodable { run with position := count + run.position }

end PathFault

namespace CodePoint

/-- Stands the code point for a byte that is part of no character? -/
def isByte (c : CodePoint) : Bool := 0xDC80 ≤ c.value && c.value < 0xDD00

/-- The number of bytes of the code point in a path. -/
def size (c : CodePoint) : Nat :=
  match c with
  | scalar c => c.utf8Size
  | surrogate _ => 1

end CodePoint

namespace Text

/-- The number of bytes of the text in a path. -/
def size : Text → Nat
  | [] => 0
  | c :: t => c.size + size t

/-- Holds the text the character that ends names in the operating system? -/
def holdsNull (t : Text) : Bool := t.contains (.scalar '\x00')

/-- The first lone surrogate that stands for no byte, with those behind it, counting places from
`position`. -/
def unencodableFrom? (position : Nat) : Text → Option LoneSurrogates
  | [] => none
  | c :: t =>
    match c with
    | .scalar _ => unencodableFrom? (position + 1) t
    | .surrogate _ =>
      if c.isByte then unencodableFrom? (position + 1) t
      else some ⟨position, c, 1 + (t.takeWhile fun d => d.char?.isNone).length⟩

/-- Why the text is no path. -/
def pathFault? (t : Text) : Option PathFault :=
  match unencodableFrom? 0 t with
  | some run => some (.unencodable run)
  | none => if t.holdsNull then some .nullByte else none

end Text

end SearchConfig
