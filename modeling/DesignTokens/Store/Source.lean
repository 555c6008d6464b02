import DesignTokens.Path.Basic
import DesignTokens.Store.Basic
import DesignTokens.Yaml.Document

/-
  This file defines building a store from the texts of its
  documents.

  Key definitions include:
    * `DocumentSyntax`
    * `SourceText`
    * `LoadError`
    * `Store.ofSources`

  The extension of a document's path picks its syntax: `yaml`
  and `yml` are YAML and everything else is JSON.
-/

------------------------------------------------------------
-- Syntax
------------------------------------------------------------

namespace DesignTokens

/- The syntax of a document. -/
inductive DocumentSyntax where
| json
| yaml
deriving DecidableEq, Repr

namespace DocumentSyntax

/- The syntax of the document at a path. -/
def ofPath (path : String) : DocumentSyntax :=
  match Path.extension? path with
  | some "yaml" => .yaml
  | some "yml" => .yaml
  | _ => .json

/- Read a document of the syntax. -/
def read?
    (stx : DocumentSyntax)
    (content : String) : Option Document :=
  match stx with
  | .json => Document.ofJsonText? content
  | .yaml => Document.ofYamlText? content

end DocumentSyntax

/- The text of a document and where it stands. -/
structure SourceText where
  path : String
  content : String
deriving DecidableEq, Repr

end DesignTokens

------------------------------------------------------------
-- Errors
------------------------------------------------------------

namespace DesignTokens

/- Why the documents of a store cannot be loaded. -/
inductive LoadError where
| unreadable (c : Collection) (path : String)
| unparsable (c : Collection) (path : String)
| notAnObject (root : RootError)
deriving DecidableEq, Repr

namespace LoadError

/- The layer whose document is at fault. -/
def collection : LoadError → Collection
| unreadable c _ => c
| unparsable c _ => c
| notAnObject root => root.collection

/-
  The text of the error.  What the system or a parser adds to it
  is not part of the text.
-/
def message : LoadError → String
| unreadable c path =>
    "cannot read " ++ c.name ++ " tokens from " ++ path
| unparsable c path =>
    "cannot parse " ++ c.name ++ " tokens in " ++ path
| notAnObject root =>
    root.collection.name
      ++ " tokens must be an object at the document root, found "
      ++ root.found.name

end LoadError

end DesignTokens

------------------------------------------------------------
-- Loading
------------------------------------------------------------

namespace DesignTokens

/- Read the document of a layer. -/
def SourceText.read
    (c : Collection)
    (source : SourceText) : Except LoadError Document :=
  match (DocumentSyntax.ofPath source.path).read? source.content with
  | some document => .ok document
  | none => .error (.unparsable c source.path)

namespace Store

/- The store of three documents, which must be objects. -/
def build
    (documents : Layers Document) : Except LoadError Store :=
  match ofDocuments documents with
  | .ok store => .ok store
  | .error e => .error (.notAnObject e)

/-
  The store of the texts of three documents.  They are read in
  the order of the layers, and the first that cannot be read is
  reported before a root that is no object.
-/
def ofSources
    (sources : Layers SourceText) : Except LoadError Store := do
  let primitives ← sources.primitives.read .primitives
  let semantic ← sources.semantic.read .semantic
  let component ← sources.component.read .component
  build ⟨primitives, semantic, component⟩

/- The store of a text of primitives, without upper layers. -/
def ofPrimitives
    (source : SourceText) : Except LoadError Store := do
  let primitives ← source.read .primitives
  build (primitivesOnly primitives)

end Store

end DesignTokens
