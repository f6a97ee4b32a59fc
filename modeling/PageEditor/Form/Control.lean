/-!
# PageEditor.Form.Control

The controls of an edit form as the document reports them.

A control has a name, may be disabled, and holds one of five kinds of state: free text, a
checkbox or radio button with its value and whether it is checked, a file input with the
browser's file name, or a select with its options and whether several may be chosen. A select
option carries its effective value (its value attribute, else its label), its label and whether
it is selected.
-/

namespace PageEditor.Form

/-- One option of a select control. -/
structure SelectOption where
  value : String
  text : String
  selected : Bool
  deriving Repr, DecidableEq

/-- The value a multiple select sends for an option: its value, or its label when the value is
empty. -/
def SelectOption.submitted (o : SelectOption) : String :=
  if o.value.isEmpty then o.text else o.value

/-- The state of a control. -/
inductive ControlState where
  | text (value : String)
  | checkbox (value : String) (checked : Bool)
  | radio (value : String) (checked : Bool)
  | file (value : String)
  | select (options : List SelectOption) (multiple : Bool)
  deriving Repr, DecidableEq

/-- A control of an edit form. -/
structure Control where
  name : String
  disabled : Bool
  state : ControlState
  deriving Repr, DecidableEq

/-- Whether a control takes part in what the form sends: it has a name and is enabled. -/
def Control.contributes (c : Control) : Bool :=
  !c.name.isEmpty && !c.disabled

/-- The options of a select that are selected, in option order. -/
def selectedOptions (options : List SelectOption) : List SelectOption :=
  options.filter (·.selected)

end PageEditor.Form
