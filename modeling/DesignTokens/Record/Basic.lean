import DesignTokens.Collection
import DesignTokens.Record.Deprecation
import DesignTokens.Record.TokenType

/-
  This file defines token records, the objects of a document
  that carry a value.

  Key definitions include:
    * `Record`
    * `Record.IsRecord`
    * `Record.ofJson`
    * `RecordError`

  Keys that start with a dollar sign hold what a record says of
  itself.  They are reserved and never name a token.
-/

------------------------------------------------------------
-- Reserved Keys
------------------------------------------------------------

namespace DesignTokens

/- Reserved keys start with a dollar sign. -/
def IsReserved (key : String) : Prop :=
  key.toList.head? = some '$'

instance (key : String) : Decidable (IsReserved key) := by
  unfold IsReserved
  infer_instance

namespace Record

/- The key of a record's value. -/
def valueKey : String := "$value"

/- The key of a record's declared type. -/
def typeKey : String := "$type"

/- The key of a record's description. -/
def descriptionKey : String := "$description"

/- The key of a record's collection hint. -/
def collectionKey : String := "$collection"

/- The key of a record's extensions. -/
def extensionsKey : String := "$extensions"

end Record

end DesignTokens

------------------------------------------------------------
-- Errors
------------------------------------------------------------

namespace DesignTokens

/- Why a node cannot be read as a record. -/
inductive RecordError where
| missingValue
| invalidType (found : Json.Kind)
| invalidCollection (found : Json.Kind)
| unknownCollection (hint : String)
| notARecord (found : Json.Kind)
deriving DecidableEq, Repr

namespace RecordError

/- The text of the error. -/
def message : RecordError → String
| missingValue => "record declares $type but has no $value"
| invalidType found =>
    "$type must be a string, found " ++ found.name
| invalidCollection found =>
    "$collection must be a string, found " ++ found.name
| unknownCollection hint => Collection.unknownMessage hint
| notARecord found =>
    "expected a token record or namespace, found " ++ found.name

end RecordError

end DesignTokens

------------------------------------------------------------
-- Records
------------------------------------------------------------

namespace DesignTokens

/- What a record says: its value and what steers its use. -/
structure Record where
  value : Json
  type : TokenType
  hint : Option Collection
  description : Option String
  deprecation : Option Deprecation

namespace Record

/- Nodes with a value are records, not namespaces. -/
def IsRecord (node : Json) : Prop :=
  (node.get? valueKey).isSome = true

instance (node : Json) : Decidable (IsRecord node) := by
  unfold IsRecord
  infer_instance

/- Read the declared type; only a string declares one. -/
def readType : Option Json → Except RecordError TokenType
| none => .ok .unspecified
| some (.text name) => .ok (TokenType.ofName name)
| some j => .error (.invalidType j.kind)

/- Read the collection hint; null counts as absent. -/
def readHint :
    Option Json → Except RecordError (Option Collection)
| none => .ok none
| some .null => .ok none
| some (.text hint) =>
    match Collection.ofHint? hint with
    | some c => .ok (some c)
    | none => .error (.unknownCollection hint)
| some j => .error (.invalidCollection j.kind)

/- The deprecation that a node declares, record or not. -/
def deprecationOf? (node : Json) : Option Deprecation :=
  (node.get? extensionsKey).bind Deprecation.ofExtensions?

/-
  Read a record.  A missing value is reported before a bad
  type, and a bad type before a bad hint; descriptions and
  extensions are never at fault.
-/
def ofJson (node : Json) : Except RecordError Record :=
  match node with
  | .object _ =>
      match node.get? valueKey with
      | none => .error .missingValue
      | some value =>
          match readType (node.get? typeKey) with
          | .error e => .error e
          | .ok type =>
              match readHint (node.get? collectionKey) with
              | .error e => .error e
              | .ok hint =>
                  .ok {
                    value := value
                    type := type
                    hint := hint
                    description :=
                      (node.get? descriptionKey).bind Json.asText?
                    deprecation := deprecationOf? node }
  | _ => .error (.notARecord node.kind)

/- Only objects are records. -/
theorem isObject_of_isRecord
    {node : Json}
    (h : IsRecord node) :
    node.IsObject := by
  cases node <;>
    simp_all [IsRecord, Json.get?, Json.members, Json.IsObject,
      Json.kind]

end Record

end DesignTokens
