import OrderBroker.Config

/-!
# File trees

The files of a rehearsal, as a tree of named directories and files, and how a path is followed
through it. A path is a list of steps between slashes; each step leads from a directory to what goes
by that name in it, to itself or to the directory above. The first step that fails decides what the
path is refused for.
-/

namespace OrderBroker.Rehearsal

/-- A file, or a directory of files by name. -/
inductive FileTree where
  | file (content : ByteArray)
  | directory (entries : List (String × FileTree))

namespace FileTree

/-- The longest name of a file, in bytes. -/
def maxName : Nat := 255

/-- No path has as many bytes. -/
def pathLimit : Nat := 4096

/-- An empty directory. -/
def empty : FileTree := .directory []

/-- A place in a tree: what stands there, and the directories above it, the root last. -/
structure Place where
  here : FileTree
  above : List FileTree := []

/-- The directory above, which above the root is the root itself. -/
def Place.up : Place → Place
  | ⟨_, parent :: above⟩ => ⟨parent, above⟩
  | root => root

/-- Takes one step of a path. Nothing leads on from a file. -/
def Place.step (p : Place) (name : String) : Except FileFault Place :=
  match p.here with
  | .file _ => .error .notDirectory
  | .directory entries =>
    if name = "" ∨ name = "." then .ok p
    else if name = ".." then .ok p.up
    else if maxName < name.utf8ByteSize then .error .nameTooLong
    else match entries.lookup name with
      | some t => .ok ⟨t, p.here :: p.above⟩
      | none => .error .missing

/-- What is read at a place. -/
def Place.content (p : Place) : Except FileFault ByteArray :=
  match p.here with
  | .file content => .ok content
  | .directory _ => .error .isDirectory

/-- Reads the file at a path. A path that does not start at the root starts in an empty directory
right below it. -/
def read (root : FileTree) (path : String) : Except FileFault ByteArray :=
  if path.toList.contains (Char.ofNat 0) then .error .nullInName
  else if pathLimit ≤ path.utf8ByteSize then .error .nameTooLong
  else
    let start : Place := if path.startsWith "/" then ⟨root, []⟩ else ⟨empty, [root]⟩
    ((path.splitOn "/").foldlM Place.step start).bind Place.content

/-- The directories at the top of every tree, apart from those that hold something. -/
def topNames : List String := [
  "bin", "boot", "home", "lib", "media", "mnt", "opt", "proc", "root", "run", "sbin", "srv", "sys",
  "usr", "var"]

/-- The small files that are in every tree; none of them is PEM. -/
def settingsNames : List String := ["group", "hostname", "hosts", "passwd", "resolv.conf"]

/-- A tree of the usual shape with nothing in it but an empty device, some settings, and what is
given as the content of the directory for short-lived files. -/
def usual (shortLived : List (String × FileTree)) : FileTree :=
  .directory <| [
    ("dev", .directory [("null", .file .empty), ("shm", empty)]),
    ("etc", .directory (settingsNames.map (·, .file ("\n".toUTF8)))),
    ("tmp", .directory shortLived)] ++ topNames.map (·, empty)

end FileTree

end OrderBroker.Rehearsal
