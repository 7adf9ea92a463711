import SearchConfig.Entries
import SearchConfig.Files.Path

/-!
# File trees

What a process sees of the disk: files with their bytes, symbolic links with their targets, and
directories. A place is the list of names that leads from the root to an entry; the working
directory is such a place and has no links on its way. How deep a process can follow links in links
by itself depends on how many calls it stands in already.
-/

namespace SearchConfig

inductive Node where
  | file (bytes : ByteArray)
  | link (target : Text)
  | directory (entries : List (Text × Node))
  deriving Inhabited

structure Files where
  entries : List (Text × Node)
  workingDirectory : List Text
  /-- How many links deeper than the operating system the process can go. -/
  extraDepth : Nat
  deriving Inhabited

namespace Node

/-- The entry that is reached by names alone. -/
def at? (node : Node) : List Text → Option Node
  | [] => some node
  | name :: names =>
    match node with
    | directory entries => (Entries.get? name entries).bind (·.at? names)
    | _ => none

/-- The target, if the entry is a link. -/
def target? : Node → Option Text
  | link target => some target
  | _ => none

def entries : Node → List (Text × Node)
  | directory entries => entries
  | _ => []

/-- Puts an entry at a place, making the directories on the way. -/
def plant (new : Node) : List Text → Node → Node
  | [], _ => new
  | name :: names, node =>
    let child := (Entries.get? name node.entries).getD (directory [])
    directory (Entries.put name (plant new names child) node.entries)

end Node

namespace Files

def root (files : Files) : Node := .directory files.entries

def at? (files : Files) (place : List Text) : Option Node := files.root.at? place

/-- Puts an entry at a place. -/
def plant (files : Files) (place : List Text) (node : Node) : Files :=
  { files with entries := (Node.plant node place files.root).entries }

end Files

end SearchConfig
