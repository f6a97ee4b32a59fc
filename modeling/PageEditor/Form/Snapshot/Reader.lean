import PageEditor.Form.Snapshot
import PageEditor.Json.Typed
/-!
# PageEditor.Form.Snapshot.Reader

Reading a snapshot back from JSON.

The text must be an object. Each member's value must be a string, which becomes a text field,
or an array of strings, which becomes a multiple field; anything else is refused once the
value has been read. A name given twice keeps its first place and its last value.
-/

namespace PageEditor.Form

open Json

/-- The text of a JSON string. -/
def stringOf? : Json.Value → Option String
  | .string s => some s
  | _ => none

/-- The field a JSON value stands for: a string is a text, an array of strings a multiple. -/
def FieldValue.ofJson? : Json.Value → Option FieldValue
  | .string s => some (.text s)
  | .array items =>
    (items.mapM stringOf?).map .multiple
  | _ => none

/-- The refusal of a value that is neither a string nor an array of strings. -/
def noVariant : Fault := .custom "data did not match any variant of untagged enum FieldValue"

/-- The members of a snapshot object, after its opening brace. -/
def snapshotMembers : Snapshot → Bool → Nat → Scan Snapshot
  | _, _, 0 => failHere .eofObject
  | s, first, fuel + 1 => do
    match ← nextKey first with
    | none => pure s
    | some name =>
      colon
      let v ← value fuel (depthLimit - 1)
      match FieldValue.ofJson? v with
      | some f => snapshotMembers (s.insert name f) false fuel
      | none => failUnplaced noVariant

/-- Reads a snapshot from its JSON text. -/
def Snapshot.read (text : String) : Except String Snapshot :=
  match readAll text (fun fuel => mapValue "a map" (snapshotMembers Snapshot.empty true fuel)) with
  | .ok s => .ok s
  | .error e => .error (e.render text)

end PageEditor.Form
