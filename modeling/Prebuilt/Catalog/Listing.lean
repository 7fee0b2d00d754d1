import Prebuilt.Catalog
import Prebuilt.Json.Value

/-! Targets listed for a reader or for a program. -/

namespace Prebuilt

namespace Target

def toJson (t : Target) : JsonValue :=
  .object [
    ("platform", .string t.platform),
    ("arch", .string t.arch),
    ("abi", (t.abi.map .string).getD .null),
    ("short_id", .string t.shortId),
    ("raw_triples", .array (t.rawTriples.map .string))]

end Target

def listingText (targets : List Target) : String :=
  (JsonValue.array (targets.map Target.toJson)).text

def columnWidth : Nat := 28

/-- One line of a table: a short id filled up with spaces, a space, and what goes with it. -/
def tableLine (shortId rest : String) : String :=
  let fill := String.ofList (List.replicate (columnWidth - shortId.length) ' ')
  shortId ++ fill ++ " " ++ rest ++ "\n"

end Prebuilt
