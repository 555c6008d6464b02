import DesignTokens.Path.Basic

/-
  This file defines what a run needs of the files it works on,
  and how a document is written with it.

  Key definitions include:
    * `Files`
    * `writeDocument`

  A run reads texts, asks whether a file is there, makes
  directories and writes files.  It never learns why the system
  refused something.
-/

------------------------------------------------------------
-- Files
------------------------------------------------------------

namespace DesignTokens

/-
  Actions on files by their paths.  Reading gives nothing where
  there is no file or its bytes are no text.  A directory is
  made with those that lead to it, a file is written where its
  directory is there, and both tell whether they succeeded.
-/
class Files (m : Type → Type) where
  readText? : String → m (Option String)
  isFile : String → m Bool
  makeDirectory : String → m Bool
  writeFile : String → String → m Bool

end DesignTokens

------------------------------------------------------------
-- Documents
------------------------------------------------------------

namespace DesignTokens

variable {m : Type → Type}
variable [Monad m]
variable [Files m]

/- Make the directory that a path stands in, if it names one. -/
def makeParent (path : String) : m Bool :=
  match (Path.parent? path).filter (· ≠ "") with
  | some parent => Files.makeDirectory parent
  | none => pure true

/-
  Write a document, in place of a file that is there already.
  The directories that are missing are made first.
-/
def writeDocument (path content : String) : m Bool := do
  if ← makeParent path then
    Files.writeFile path content
  else
    return false

end DesignTokens
