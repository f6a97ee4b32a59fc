import PageEditor.Form.Control
import PageEditor.Json.Value
/-!
# PageEditor.Form.Snapshot

The snapshot of a form: one value per field name, in the order the names first appear.

1. Only controls with a name that are not disabled take part.
2. Text and file inputs give their text; a checkbox gives its value when checked and the empty
   text when not; a radio group starts as the empty text and takes the value of each checked
   member; a single select gives the value of its first selected option, or the empty text; a
   multiple select gives what each selected option sends.
3. A later value for a name replaces the earlier one and keeps its place.

Written as JSON the snapshot is an object with one member per field, in field order: text and
selected values as strings, multiple values as arrays of strings.
-/

namespace PageEditor.Form

/-- The value a field name carries. -/
inductive FieldValue where
  | text (s : String)
  | selected (s : String)
  | multiple (values : List String)
  deriving Repr, DecidableEq

/-- The single text of a field, if it has one. -/
def FieldValue.asText? : FieldValue → Option String
  | .text s => some s
  | .selected s => some s
  | .multiple _ => none

/-- Every text a field sends, in order. -/
def FieldValue.values : FieldValue → List String
  | .text s => [s]
  | .selected s => [s]
  | .multiple vs => vs

/-- Named field values in the order their names first appeared, no name twice. -/
structure Snapshot where
  fields : List (String × FieldValue)
  distinct : (fields.map (·.1)).Nodup

/-- The names of a snapshot's fields, in order. -/
def Snapshot.names (s : Snapshot) : List String :=
  s.fields.map (·.1)

/-- The snapshot with no fields. -/
def Snapshot.empty : Snapshot := ⟨[], List.nodup_nil⟩

/-- Replaces the value of every entry with this name. -/
def replaceValue (name : String) (v : FieldValue) (fields : List (String × FieldValue)) :
    List (String × FieldValue) :=
  fields.map fun (n, w) => if n = name then (n, v) else (n, w)

theorem names_replaceValue (name : String) (v : FieldValue) (fields : List (String × FieldValue)) :
    (replaceValue name v fields).map (·.1) = fields.map (·.1) := by
  induction fields with
  | nil => rfl
  | cons hd tl ih =>
    obtain ⟨n, w⟩ := hd
    by_cases h : n = name <;> simp_all [replaceValue]

/-- Sets the value of a name: in place when the name is present, at the end otherwise. -/
def Snapshot.insert (s : Snapshot) (name : String) (v : FieldValue) : Snapshot :=
  if h : name ∈ s.names then
    ⟨replaceValue name v s.fields, by rw [names_replaceValue]; exact s.distinct⟩
  else
    ⟨s.fields ++ [(name, v)], by
      rw [List.map_append]
      exact List.nodup_append.mpr ⟨s.distinct, by simp, by
        intro a ha b hb; simp at hb; subst hb; intro hab; subst hab; exact h ha⟩⟩

/-- The value of a name. -/
def Snapshot.get? (s : Snapshot) (name : String) : Option FieldValue :=
  (s.fields.find? (·.1 == name)).map (·.2)

/-- The number of fields. -/
def Snapshot.size (s : Snapshot) : Nat := s.fields.length

/-- Every `(name, text)` pair the snapshot sends, one per value, in field order. -/
def Snapshot.pairs (s : Snapshot) : List (String × String) :=
  s.fields.flatMap fun (n, v) => v.values.map (n, ·)

/-- What one control adds to the snapshot. -/
def Snapshot.record (s : Snapshot) (c : Control) : Snapshot :=
  if !c.contributes then s
  else
    match c.state with
    | .text v | .file v => s.insert c.name (.text v)
    | .checkbox v checked => s.insert c.name (.text (if checked then v else ""))
    | .radio v checked =>
      if checked then s.insert c.name (.text v)
      else if c.name ∈ s.names then s
      else s.insert c.name (.text "")
    | .select options true => s.insert c.name (.multiple ((selectedOptions options).map (·.submitted)))
    | .select options false =>
      s.insert c.name (.selected (((selectedOptions options).head?.map (·.value)).getD ""))

/-- The snapshot of a list of controls, taken in order. -/
def Snapshot.ofControls (cs : List Control) : Snapshot :=
  cs.foldl Snapshot.record Snapshot.empty

/-! ## JSON -/

/-- A field value as JSON: a string, or an array of strings. -/
def FieldValue.toJson : FieldValue → Json.Value
  | .text s => .string s
  | .selected s => .string s
  | .multiple vs => .strings vs

/-- The snapshot as a JSON object, members in field order. -/
def Snapshot.toJson (s : Snapshot) : Json.Value :=
  .object (s.fields.map fun (n, v) => (n, v.toJson))

/-- The compact JSON text of a snapshot. -/
def Snapshot.write (s : Snapshot) : String :=
  s.toJson.write

end PageEditor.Form
