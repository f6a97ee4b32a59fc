import PageEditor.Form.Control
import PageEditor.Json.Value
/-!
# PageEditor.Form.Body

The body a native submission of a form sends: `(name, text)` entries in control order.

Only controls with a name that are not disabled take part. Text inputs always send their text; a
checkbox or radio button sends its value only when checked; a file input sends nothing; a
select sends the value of each selected option, and a single select only its first.

Written as JSON the body is an array of two-element arrays.
-/

namespace PageEditor.Form

/-- The entries of a submission, in order. -/
structure Body where
  entries : List (String × String)
  deriving Repr, DecidableEq

/-- The body with no entries. -/
def Body.empty : Body := ⟨[]⟩

/-- Adds an entry at the end. -/
def Body.push (b : Body) (name value : String) : Body :=
  ⟨b.entries ++ [(name, value)]⟩

/-- Every text sent under a name, in order. -/
def Body.getAll (b : Body) (name : String) : List String :=
  (b.entries.filter (·.1 == name)).map (·.2)

/-- Whether some entry has this name. -/
def Body.contains (b : Body) (name : String) : Bool :=
  b.entries.any (·.1 == name)

/-- The number of entries. -/
def Body.size (b : Body) : Nat := b.entries.length

/-- The entries one control sends. -/
def Control.submitted (c : Control) : List (String × String) :=
  if !c.contributes then []
  else
    match c.state with
    | .text v => [(c.name, v)]
    | .checkbox v checked | .radio v checked => if checked then [(c.name, v)] else []
    | .file _ => []
    | .select options multiple =>
      let chosen := selectedOptions options
      ((if multiple then chosen else chosen.take 1).map fun o => (c.name, o.value))

/-- The body of a list of controls, taken in order. -/
def Body.ofControls (cs : List Control) : Body :=
  ⟨cs.flatMap Control.submitted⟩

/-- The body as a JSON array of `[name, text]` arrays. -/
def Body.toJson (b : Body) : Json.Value :=
  .array (b.entries.map fun (n, v) => .strings [n, v])

/-- The compact JSON text of a body. -/
def Body.write (b : Body) : String :=
  b.toJson.write

end PageEditor.Form
