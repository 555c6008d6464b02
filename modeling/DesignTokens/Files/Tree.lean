import DesignTokens.Files.Basic
import DesignTokens.Path.Basic

/-
  This file defines trees of files as values, on which a run can
  work in place of the system's files.

  Key definitions include:
    * `FileNode`
    * `FileTree`
    * `FileTree.locate?`
    * `FileTree.makeDirectory`
    * `FileTree.writeFile`

  Places are lists of names from the root, which is always a
  directory.  Of several entries for one place the first counts.
  Names and paths have limits in bytes: a longer one leads
  nowhere, and nothing can be made there.

  Links, devices and permissions are not modelled.  A place
  holds a directory, a file or nothing, no other names lead to
  it, and nothing is refused for want of rights or of room.
-/

------------------------------------------------------------
-- Trees
------------------------------------------------------------

namespace DesignTokens

/- A directory, or a file whose bytes are a text or are not. -/
inductive FileNode where
| directory
| text (content : String)
| binary (bytes : List UInt8)
deriving DecidableEq, Repr

/- What stands at each place, and where relative paths start. -/
structure FileTree where
  entries : List (List String × FileNode)
  current : List String
deriving DecidableEq, Repr

namespace FileTree

/- What stands at a place. -/
def node?
    (t : FileTree)
    (place : List String) : Option FileNode :=
  if place = [] then some .directory else t.entries.lookup place

/- Put something at a place. -/
def put
    (t : FileTree)
    (place : List String)
    (node : FileNode) : FileTree :=
  { t with entries := (place, node) :: t.entries }

/- Take away what stands at a place. -/
def erase
    (t : FileTree)
    (place : List String) : FileTree :=
  { t with entries := t.entries.filter (fun e => e.1 ≠ place) }

/- A directory stands at a place. -/
def IsDirectory
    (t : FileTree)
    (place : List String) : Prop :=
  t.node? place = some .directory

instance
    (t : FileTree)
    (place : List String) :
    Decidable (t.IsDirectory place) := by
  unfold IsDirectory
  infer_instance

/- A file stands at a place. -/
def IsFile
    (t : FileTree)
    (place : List String) : Prop :=
  (t.node? place).isSome ∧ ¬ t.IsDirectory place

instance
    (t : FileTree)
    (place : List String) :
    Decidable (t.IsFile place) := by
  unfold IsFile
  infer_instance

/- The places of all files. -/
def filePlaces (t : FileTree) : List (List String) :=
  ((t.entries.map Prod.fst).eraseDups).filter (fun p => t.IsFile p)

/- What was put at a place stands there. -/
theorem node?_put_self
    (t : FileTree)
    (place : List String)
    (node : FileNode)
    (h : place ≠ []) :
    (t.put place node).node? place = some node := by
  simp [node?, put, h]

/- Putting something at a place changes no other place. -/
theorem node?_put_of_ne
    (t : FileTree)
    (place other : List String)
    (node : FileNode)
    (h : other ≠ place) :
    (t.put place node).node? other = t.node? other := by
  have hb : (other == place) = false := by simp [h]
  simp [node?, put, List.lookup_cons, hb]

end FileTree

end DesignTokens

------------------------------------------------------------
-- Paths
------------------------------------------------------------

namespace DesignTokens

namespace FileTree

/- The place that a part of a path leads to. -/
def follow
    (place : List String)
    (part : String) : List String :=
  if part = "" || part = "." then
    place
  else if part = ".." then
    place.dropLast
  else
    place ++ [part]

/- How many bytes the name of a file or directory may have. -/
def maxNameBytes : Nat :=
  255

/- How many bytes a path may have. -/
def maxPathBytes : Nat :=
  4095

/- A name that a file or directory may have. -/
def IsName (part : String) : Prop :=
  part.utf8ByteSize ≤ maxNameBytes

instance (part : String) : Decidable (IsName part) := by
  unfold IsName
  infer_instance

/- Follow the parts of a path; all but the last lead to directories. -/
def followAll?
    (t : FileTree) :
    List String → List String → Option (List String)
| place, [] => some place
| place, part :: parts =>
    if t.IsDirectory place ∧ IsName part then
      t.followAll? (follow place part) parts
    else
      none

/- A path that the system takes. -/
def IsUsable (path : String) : Prop :=
  path ≠ ""
    ∧ '\x00' ∉ path.toList
    ∧ path.utf8ByteSize ≤ maxPathBytes

instance (path : String) : Decidable (IsUsable path) := by
  unfold IsUsable
  infer_instance

/- Where the parts of a path start. -/
def base
    (t : FileTree)
    (path : String) : List String :=
  if Path.IsAbsolute path then [] else t.current

/- The place that a path leads to, whether anything is there. -/
def locate?
    (t : FileTree)
    (path : String) : Option (List String) :=
  if IsUsable path then
    t.followAll? (t.base path) (Text.split '/' path)
  else
    none

/- What stands where a path leads to. -/
def nodeAt?
    (t : FileTree)
    (path : String) : Option FileNode :=
  (t.locate? path).bind t.node?

end FileTree

end DesignTokens

------------------------------------------------------------
-- Reading and Writing
------------------------------------------------------------

namespace DesignTokens

namespace FileTree

/- A file stands where a path leads to. -/
def isFileAt
    (t : FileTree)
    (path : String) : Bool :=
  match t.locate? path with
  | some place => t.IsFile place
  | none => false

/- The text of the file at a path. -/
def readText?
    (t : FileTree)
    (path : String) : Option String :=
  match t.nodeAt? path with
  | some (.text content) => some content
  | _ => none

/-
  Make the directories along the parts of a path.  Tells whether
  no file and no name that is too long stood in the way; what was
  made stays in any case.
-/
def makeDirectories :
    List String → List String → FileTree → Bool × FileTree
| _, [], t => (true, t)
| place, part :: parts, t =>
    let next := follow place part
    match t.node? next with
    | some .directory => makeDirectories next parts t
    | some _ => (false, t)
    | none =>
        if IsName part then
          makeDirectories next parts (t.put next .directory)
        else
          (false, t)

/-
  Make the directory at a path and those that lead to it.  The
  empty path names none, so there is nothing to make.
-/
def makeDirectory
    (path : String)
    (t : FileTree) : Bool × FileTree :=
  if IsUsable path then
    makeDirectories (t.base path) (Text.split '/' path) t
  else
    (path = "", t)

/- Write a text where its directory is there. -/
def writeFile
    (path content : String)
    (t : FileTree) : Bool × FileTree :=
  match t.locate? path with
  | none => (false, t)
  | some place =>
      if t.IsDirectory place then
        (false, t)
      else
        (true, t.put place (.text content))

end FileTree

instance : Files (StateM FileTree) where
  readText? path := do
    return (← get).readText? path
  isFile path := do
    return (← get).isFileAt path
  makeDirectory path := modifyGet (FileTree.makeDirectory path)
  writeFile path content := modifyGet (FileTree.writeFile path content)

/- Write a document to a tree, and tell whether it succeeded. -/
def FileTree.writeText
    (path content : String)
    (t : FileTree) : Bool × FileTree :=
  ((writeDocument path content : StateM FileTree Bool).run t).run

end DesignTokens
