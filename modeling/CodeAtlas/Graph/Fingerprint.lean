import CodeAtlas.Digest.Sha256
import CodeAtlas.Graph.Query
import CodeAtlas.Json.Printer
import CodeAtlas.Text.Utf8

/-!
# Fingerprints of entities

The fingerprint of entities is the beginning of the digest of their documents, sorted by id and
without the times at which they were made and changed.
-/

namespace CodeAtlas.Graph

/-- The number of digits of a fingerprint. -/
def fingerprintLength : Nat := 16

/-- The document of an entity without its times. -/
def Entity.timeless (e : Entity) : Json :=
  match e.toJson with
  | .obj members =>
      Json.sorted (.obj (members.filter fun m => m.1 != "created_at" && m.1 != "updated_at"))
  | other => other

/-- The text of which the digest is taken. -/
def canonicalText (entities : List Entity) : List Char :=
  (Json.arr ((sortById entities).map Entity.timeless)).write

/-- The fingerprint of entities. -/
def fingerprint (entities : List Entity) : String :=
  String.ofList ((Digest.hexText (Text.encode (canonicalText entities))).toList.take
    fingerprintLength)

end CodeAtlas.Graph
