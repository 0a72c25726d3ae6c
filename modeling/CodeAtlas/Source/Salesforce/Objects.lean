import CodeAtlas.Scan
import CodeAtlas.Xml.Reader

/-!
# Objects in Salesforce metadata

A file of metadata describes an object, or one field of the object in whose folder it stands. What
several files say about an object goes into one model.
-/

namespace CodeAtlas.Source.Salesforce

open Text

/-- What a file of metadata describes. -/
inductive Subject where
  | object (name : String)
  | field (object : String)
  deriving DecidableEq, Repr

/-- The object in whose folder for fields a file stands. -/
def folderObject? (rel : Path) : Option String :=
  match rel.reverse with
  | _ :: "fields" :: object :: _ => some object
  | _ => none

/-- What an entry describes, by its name. -/
def subject? (e : Repository.Entry) : Option Subject :=
  let name := e.name.toList
  let object? := (before? ".object-meta.xml".toList name).or (before? ".object".toList name)
  match object? with
  | some object => some (.object (String.ofList object))
  | none =>
      if endsWith name ".field-meta.xml".toList then (folderObject? e.rel).map .field else none

/-- The text that describes a node. -/
def descriptionOf (n : Xml.Node) : Option String := (n.textOf? "description").or (n.textOf? "label")

/-- The field that a node describes. -/
def metadataField (n : Xml.Node) : Field :=
  let type := (n.textOf? "type").getD "Text"
  { name := (n.textOf? "fullName").getD "unknown"
    type := match n.textOf? "referenceTo" with
      | some target => type ++ "(" ++ target ++ ")"
      | none => type
    description := descriptionOf n
    required := n.textOf? "required" == some "true"
    default := n.textOf? "defaultValue" }

/-- An object about which nothing is said yet. -/
def newObject (name file : String) : Model where
  name
  kind := .schema
  file
  line := 1
  decorators := ["custom_object"]

/-- Changes the model of an object, which is made if there is none. -/
def changeObject (models : List Model) (name file : String) (change : Model → Model) : List Model :=
  if models.any (·.name == name) then models.map fun m => if m.name == name then change m else m
  else models ++ [change (newObject name file)]

/-- The model with more fields, as far as there is room. -/
def addFields (fields : List Field) (m : Model) : Model :=
  { m with fields := (m.fields ++ fields).take (max maxFields m.fields.length) }

/-- Adds what a file of metadata says. -/
def addMetadata (r : Repository) (models : List Model) (e : Repository.Entry) : List Model :=
  let f := Repository.load e
  match subject? e, Xml.Node.ofText? f.content with
  | some (.object name), some root =>
      changeObject models name f.rel fun m =>
        { addFields ((root.elements "fields").map metadataField) m with
          file := f.rel
          description := descriptionOf root
          sourceLink := r.sourceLink f.rel 1 }
  | some (.field object), some root =>
      changeObject models object f.rel (addFields [metadataField root])
  | _, _ => models

/-- The objects that files of metadata describe, by name. -/
def objects (r : Repository) : List Model :=
  let models := (r.entries fun e => (subject? e).isSome).foldl (addMetadata r) []
  models.mergeSort fun a b => !(b.name < a.name)

end CodeAtlas.Source.Salesforce
