import Std.Data.ExtTreeMap
import TinyForth.FileName
import TinyForth.Text.Quoted

/-!
# File trees

A file tree is a finite map from locations to directories and files.  A location is the
list of the names on the way to it from the working directory, in which `..` stands at
the front only and climbs above the working directory.  An absolute name leads to a
location that starts with `/`.  The working directory, the directories above it and the
root are always there.

There are no links, and every file has one location.  A name that climbs out of the working
directory or starts at the root never leads back into it, since the working directory has no
name of its own here.  So `../w/f` and `f` are different files whatever `w` is.

Opening a file resolves its name part by part.  Before each part the location reached so
far has to be a directory, and it is here that a missing directory and a file used as a
directory are told apart.  So `f/` is refused for a file `f`, and `d/../f` needs `d`.  A
part that is too long is refused where it is reached, a whole name that is too long before
anything is looked up.

Resolving changes nothing, and `write` changes the tree at the one location it resolves
to.  No operation makes or removes a directory.
-/

namespace TinyForth

/-- What stands at a location. -/
inductive Node where
  /-- A directory. -/
  | directory
  /-- A file with its bytes. -/
  | file (bytes : List UInt8)
deriving DecidableEq, Repr

/-- The way to a file or a directory. -/
abbrev Location := List Text

/-- A tree of directories and files. -/
abbrev FileTree := Std.ExtTreeMap Location Node

namespace FileTree

/-! ## Errors -/

/-- Why a file cannot be opened. -/
inductive Problem where
  /-- The name holds a NUL character. -/
  | nulInName
  /-- Nothing has this name, or a directory on the way is missing. -/
  | missing
  /-- The name is that of a directory. -/
  | isDirectory
  /-- The name goes through a file as if it were a directory. -/
  | notDirectory
  /-- The name, or a part of it, has too many bytes. -/
  | tooLong
deriving DecidableEq, Repr

/-- A problem and the name it arose with. -/
structure Error where
  /-- What is wrong. -/
  problem : Problem
  /-- The name as it was given. -/
  name : Text
deriving DecidableEq, Repr

/-- The wording of an error. -/
def Error.message (e : Error) : Text :=
  match e.problem with
  | .nulInName => "embedded null byte".toList
  | .missing => "[Errno 2] No such file or directory: ".toList ++ e.name.quoted
  | .isDirectory => "[Errno 21] Is a directory: ".toList ++ e.name.quoted
  | .notDirectory => "[Errno 20] Not a directory: ".toList ++ e.name.quoted
  | .tooLong => "[Errno 36] File name too long: ".toList ++ e.name.quoted

/-! ## Names and locations -/

/-- The part of a name that leads to the directory above. -/
def parent : Text := ['.', '.']

/-- What the location of an absolute name starts with. -/
def root : Text := ['/']

/-- The location is the working directory, a directory above it, or the root. -/
def isAnchor (here : Location) : Bool := here.all fun part => part == parent || part == root

/-- The location is neither above the working directory nor absolute. -/
def isInside (here : Location) : Bool := here.head? != some parent && here.head? != some root

/-- What stands at a location. -/
def node? (tree : FileTree) (here : Location) : Option Node :=
  if isAnchor here then some .directory else tree[here]?

/-- The location above a location.  The root is above itself. -/
def ascend (here : Location) : Location :=
  match here.getLast? with
  | none => [parent]
  | some last =>
      if last = parent then here ++ [parent] else if last = root then here else here.dropLast

/-- The location one part of a name further on. -/
def descend (here : Location) (part : Text) : Location :=
  if part = [] ∨ part = ['.'] then here
  else if part = parent then ascend here
  else here ++ [part]

/-- The location that the parts of a name lead to. -/
def walk (tree : FileTree) : Location → List Text → Except Problem Location
  | here, [] => .ok here
  | here, part :: parts =>
      match tree.node? here with
      | none => .error .missing
      | some (.file _) => .error .notDirectory
      | some .directory =>
          if FileName.isPartTooLong part then .error .tooLong
          else walk tree (descend here part) parts

/-- The location a name leads to. -/
def resolve (tree : FileTree) (name : Text) : Except Problem Location :=
  if name.contains (Char.ofNat 0) then .error .nulInName
  else if name.isEmpty then .error .missing
  else if FileName.isTooLong name then .error .tooLong
  else tree.walk (if name.head? = some '/' then [root] else []) (FileName.parts name)

/-! ## Reading and writing -/

/-- The bytes of the file of a name. -/
def read (tree : FileTree) (name : Text) : Except Error (List UInt8) :=
  match tree.resolve name with
  | .error p => .error ⟨p, name⟩
  | .ok here =>
      match tree.node? here with
      | none => .error ⟨.missing, name⟩
      | some .directory => .error ⟨.isDirectory, name⟩
      | some (.file bytes) => .ok bytes

/-- The tree with a file at a location, in place of what stood there. -/
def put (tree : FileTree) (here : Location) (bytes : List UInt8) : FileTree :=
  tree.insert here (.file bytes)

/-- The tree with the file of a name written, in place of what it held before. -/
def write (tree : FileTree) (name : Text) (bytes : List UInt8) : Except Error FileTree :=
  match tree.resolve name with
  | .error p => .error ⟨p, name⟩
  | .ok here =>
      match tree.node? here with
      | some .directory => .error ⟨.isDirectory, name⟩
      | _ => .ok (tree.put here bytes)

/-! ## Trees from lists -/

/-- The locations on the way to a location, without the first and the last. -/
def above (here : Location) : List Location := ((List.range here.length).drop 1).map here.take

/-- The tree with a node at a location and directories on the way to it. -/
def place (tree : FileTree) (here : Location) (node : Node) : FileTree :=
  ((above here).foldl (fun t up => t.insert up .directory) tree).insert here node

/-- The tree of the nodes with the given names. -/
def ofList (nodes : List (Text × Node)) : FileTree :=
  nodes.foldl (fun tree (name, node) => tree.place ((FileName.parts name).foldl descend []) node) ∅

/-- The nodes inside the working directory with their names, in ascending order of locations. -/
def listing (tree : FileTree) : List (Text × Node) :=
  (tree.toList.filter fun (here, _) => isInside here).map fun (here, node) =>
    (List.intercalate ['/'] here, node)

end FileTree

end TinyForth
