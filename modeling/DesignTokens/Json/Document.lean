import DesignTokens.Json.Reader

/-
  This file defines documents, values in which no object
  repeats a key.

  Key definitions include:
    * `Document`
    * `Document.settled`
    * `Document.ofJsonText?`
-/

------------------------------------------------------------
-- Documents
------------------------------------------------------------

namespace DesignTokens

/- A value in which no object repeats a key. -/
structure Document where
  root : Json
  uniqueKeys : root.UniqueKeys

namespace Document

/- The document of a value as it is written. -/
def settled (j : Json) : Document :=
  ⟨j.settle, Json.uniqueKeys_settle j⟩

/- The document of a JSON text. -/
def ofJsonText? (s : String) : Option Document :=
  (Json.read? s).map settled

/- The document without members. -/
def empty : Document :=
  ⟨.object [], Json.uniqueKeys_emptyObject⟩

end Document

end DesignTokens
