import DesignTokens.Text.Split

/-
  This file defines operations on the texts of paths.

  Key definitions include:
    * `Path.join`
    * `Path.parent?`
    * `Path.fileName?`
    * `Path.extension?`

  Paths are kept as they are written: joining does not simplify
  them.  Taking them apart passes over empty parts and parts
  that are a single dot, except for a dot at the very front.
-/

------------------------------------------------------------
-- Joining
------------------------------------------------------------

namespace DesignTokens

namespace Path

/- Paths that start at the root. -/
def IsAbsolute (path : String) : Prop :=
  path.toList.head? = some '/'

instance (path : String) : Decidable (IsAbsolute path) := by
  unfold IsAbsolute
  infer_instance

/- The path needs a slash before anything is appended to it. -/
def NeedsSlash (path : String) : Prop :=
  path ≠ "" ∧ path.toList.getLast? ≠ some '/'

instance (path : String) : Decidable (NeedsSlash path) := by
  unfold NeedsSlash
  infer_instance

/- A path seen from a base; an absolute path stays as it is. -/
def join
    (base path : String) : String :=
  if IsAbsolute path then
    path
  else if NeedsSlash base then
    base ++ "/" ++ path
  else
    base ++ path

end Path

end DesignTokens

------------------------------------------------------------
-- Taking Apart
------------------------------------------------------------

namespace DesignTokens

namespace Path

/-
  What stands before the parts of a path: the root, a single dot
  that starts it, or nothing.
-/
def start : List Char → List Char
| '/' :: _ => ['/']
| ['.'] => ['.']
| '.' :: '/' :: _ => ['.']
| _ => []

/- Parts that name nothing. -/
def isIdle (part : List Char) : Bool :=
  part = [] || part = ['.']

/- Drop the parts at the end that name nothing. -/
def dropIdle (parts : List (List Char)) : List (List Char) :=
  (parts.reverse.dropWhile isIdle).reverse

/- The start of a path and its parts up to the last that names. -/
def parts (path : String) : List Char × List (List Char) :=
  let cs := path.toList
  let head := start cs
  (head, dropIdle (Text.splitChars '/' (cs.drop head.length)))

/- The path without its last part, unless it has none. -/
def parent? (path : String) : Option String :=
  match parts path with
  | (head, []) => if head = ['.'] then some "" else none
  | (head, ps) =>
      some (String.ofList
        (head ++ Text.joinChars '/' (dropIdle ps.dropLast)))

/- The last part of the path, unless it leads upwards. -/
def fileName? (path : String) : Option String :=
  match (parts path).2.getLast? with
  | none => none
  | some part =>
      if part = ['.', '.'] then none else some (String.ofList part)

/-
  What follows the last dot of the last part.  A dot at the
  front of the part does not count.
-/
def extension? (path : String) : Option String :=
  match fileName? path with
  | none => none
  | some name =>
      match (Text.splitChars '.' name.toList).reverse with
      | [] => none
      | [_] => none
      | [_, []] => none
      | ext :: _ => some (String.ofList ext)

end Path

end DesignTokens
