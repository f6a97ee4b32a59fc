import PageEditor.Markup.Document
import PageEditor.Form.Control
/-!
# PageEditor.Markup.Controls

The values of form controls as the document holds them.

1. The options of a select are the `option` elements below it, in document order. An option's
   value is its `value` attribute, or its text when it has none.
2. A multiple select has selected exactly the options marked `selected`. A single select has
   selected the first marked option, or its first option when none is marked.
3. The value of a select is the value of its first selected option; of a textarea, its `value`
   attribute or else its text; of anything else, its `value` attribute or the empty text.
4. Setting the value of a select marks exactly the options with that value as selected; of
   anything else, sets its `value` attribute.
5. The controls of a form are its `input`, `textarea` and `select` descendants in document order.
   An input's type is lowercased and defaults to `text`; a checkbox or radio button without a
   value is `on`; every other input type is a text control, file inputs apart.
-/

namespace PageEditor.Markup.Document

variable {σ : Type}

/-- The options of a select, in document order. -/
def options (d : Document σ) (select : Nat) : List Nat :=
  (d.descendants select).filter fun i => (d.node i).tag == "option"

/-- The value of an option: its `value` attribute, else its text. -/
def optionValue (d : Document σ) (option : Nat) : String :=
  (d.attribute? option "value").getD (d.textContent option)

/-- The selected options of a select. -/
def selectedOptions (d : Document σ) (select : Nat) : List Nat :=
  let opts := d.options select
  let marked := opts.filter fun i => (d.attribute? i "selected").isSome
  let multiple := (d.attribute? select "multiple").isSome
  if multiple then marked
  else if marked.isEmpty then opts.take 1
  else marked.take 1

/-- The value of a control. -/
def value (d : Document σ) (i : Nat) : String :=
  match (d.node i).tag with
  | "select" => ((d.selectedOptions i).head?.map d.optionValue).getD ""
  | "textarea" => (d.attribute? i "value").getD (d.textContent i)
  | _ => (d.attribute? i "value").getD ""

/-- Sets the value of a control. -/
def setValue (d : Document σ) (i : Nat) (v : String) : Document σ :=
  if (d.node i).tag != "select" then d.setAttribute i "value" v
  else
    (d.options i).foldl (fun d o =>
      if d.optionValue o == v then d.setAttribute o "selected" "" else d.removeAttribute o "selected") d

/-- The text of a select's first selected option. -/
def selectedOptionText (d : Document σ) (i : Nat) : Option String :=
  (d.selectedOptions i).head?.map d.textContent

/-- Sets or clears the `checked` attribute. -/
def setChecked (d : Document σ) (i : Nat) (checked : Bool) : Document σ :=
  if checked then d.setAttribute i "checked" "" else d.removeAttribute i "checked"

/-- The state of one element as a control, if it is one. -/
def controlState (d : Document σ) (i : Nat) : Option Form.ControlState :=
  let n := d.node i
  match n.tag with
  | "input" =>
    let kind := (n.attribute? "type").getD "text" |>.toLower
    let checked := (n.attribute? "checked").isSome
    match kind with
    | "checkbox" => some (.checkbox ((n.attribute? "value").getD "on") checked)
    | "radio" => some (.radio ((n.attribute? "value").getD "on") checked)
    | "file" => some (.file ((n.attribute? "value").getD ""))
    | _ => some (.text ((n.attribute? "value").getD ""))
  | "textarea" => some (.text ((n.attribute? "value").getD (d.textContent i)))
  | "select" =>
    let chosen := d.selectedOptions i
    some (.select ((d.options i).map fun o => ⟨d.optionValue o, d.textContent o, chosen.contains o⟩)
      (n.attribute? "multiple").isSome)
  | _ => none

/-- The controls of a form, in document order. -/
def formControls (d : Document σ) (form : Nat) : List Form.Control :=
  (d.descendants form).filterMap fun i =>
    (d.controlState i).map fun state =>
      ⟨(d.attribute? i "name").getD "", (d.attribute? i "disabled").isSome, state⟩

end PageEditor.Markup.Document
