import ViewWiring.Diagnostic
import ViewWiring.Text.JsonString

namespace ViewWiring.Diagnostic

/-- The fields of the record in order; an absent anchor and an empty list of notes are left out. -/
def recordFields (d : Diagnostic) : List (String × String) :=
  [("severity", JsonString.encode "error"),
    ("code", JsonString.encode d.kind.code),
    ("kind", JsonString.encode d.kind.name),
    ("message", JsonString.encode d.message)] ++
  (match d.anchor with
    | some a => [("anchor", JsonString.encode a.text)]
    | none => []) ++
  (if d.notes.isEmpty then []
    else [("notes", "[" ++ ",".intercalate (d.notes.map JsonString.encode) ++ "]")])

/-- The diagnostic as one line of JSON. -/
def record (d : Diagnostic) : String :=
  "\x7b" ++ ",".intercalate (d.recordFields.map fun (name, value) =>
    JsonString.encode name ++ ":" ++ value) ++ "\x7d"

end ViewWiring.Diagnostic
