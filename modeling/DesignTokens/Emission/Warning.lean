import DesignTokens.Literal.ValueText
import DesignTokens.Reference.Resolution

/-
  This file defines warnings, the reports of tokens that are
  left out of the output.

  Key definitions include:
    * `DropCause`
    * `Warning`
    * `Warning.message`
-/

------------------------------------------------------------
-- Warnings
------------------------------------------------------------

namespace DesignTokens

/-
  Why a token is left out.  The path of the first token with an
  identifier is kept as its keys, and shown as a dotted text.
-/
inductive DropCause where
| malformed (e : RecordError)
| unresolved (identifier : String) (e : ResolveError)
| unformattable (identifier : String) (e : FormatError)
| duplicate (identifier : String) (firstPath : List String)
deriving DecidableEq, Repr

/-
  A token that is left out, and why.  `path` is the keys that
  lead to its leaf; the message shows their dotted text.
-/
structure Warning where
  collection : Collection
  path : List String
  cause : DropCause
deriving DecidableEq, Repr

namespace DropCause

/- The identifier of the token, unless it has no record. -/
def identifier? : DropCause → Option String
| malformed _ => none
| unresolved identifier _ => some identifier
| unformattable identifier _ => some identifier
| duplicate identifier _ => some identifier

/- The text of the cause. -/
def message : DropCause → String
| malformed e => "malformed record: " ++ e.message
| unresolved _ e => e.message
| unformattable _ e => e.message
| duplicate identifier firstPath =>
    "identifier " ++ identifier ++ " already emitted for '"
      ++ dotted firstPath ++ "'"

/- The chain of the token's references loops. -/
def IsCycle : DropCause → Prop
| unresolved _ e => e.IsCycle
| _ => False

instance (cause : DropCause) : Decidable cause.IsCycle := by
  cases cause <;> unfold IsCycle <;> infer_instance

end DropCause

namespace Warning

/- The text of the warning. -/
def message (w : Warning) : String :=
  w.collection.name ++ " token '" ++ dotted w.path ++ "' dropped: "
    ++ w.cause.message

end Warning

end DesignTokens
