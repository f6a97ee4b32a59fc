import PageEditor.Page.Coordinator
import PageEditor.EditorMode
/-!
# PageEditor.Page.Block

Code blocks: a code editor in place of a textarea of the edit form, and the mode it highlights.

A block's mode key is either a mode (`html`, `md`, ...) or `$name`, which follows the type
selector `i_name` of the form:

1. without such a selector the block takes the mode of the file's extension, when there is one,
   and otherwise the mode of the key itself;
2. with one, the selector is first set to the extension (when there is one), the label of the
   block (the textarea's id with its first `i_` made `l_`) shows the selected option's text,
   and from then on each change of the selector sets the editor's mode and the label again.
   The label falls back to the text it had at attach time when no option text is shown.

An editor may be told of edits: each change in it then marks its coordinator dirty, while the
coordinator is alive. The editors outlive the blocks that made them, since a selector keeps
following its editor for as long as the page exists.
-/

namespace PageEditor.Ui

/-- How a code block is set up. -/
structure BlockOptions where
  textareaId : String
  mode : String
  extension : String
  focus : Bool
  deriving Repr, DecidableEq

/-- A text with the first occurrence of a pattern replaced. -/
def replaceFirst (s pat rep : String) : String :=
  match Markup.findSub pat.toList s.toList with
  | some k => String.ofList (s.toList.take k ++ rep.toList ++ s.toList.drop (k + pat.length))
  | none => s

/-- The id of the type selector a mode key follows, if it follows one. -/
def BlockOptions.selectorId? (o : BlockOptions) : Option String :=
  if o.mode.startsWith "$" then some ("i_" ++ String.ofList (o.mode.toList.drop 1)) else none

/-- The id of a block's label: the textarea's id with its first `i_` made `l_`. -/
def BlockOptions.labelId (o : BlockOptions) : String := replaceFirst o.textareaId "i_" "l_"

/-- Shows the selected option's text in the label, or the fallback when there is none. -/
def refreshLabel (selector : Nat) (label : Option Nat) (fallback : String) : Act Unit := do
  match label with
  | none => pure ()
  | some l =>
    let text := match (← doc).selectedOptionText selector with
      | some t => if t.isEmpty then fallback else t
      | none => fallback
    onDoc (·.setText l text)

/-- Sets an editor's mode. -/
def setMode (editor : Nat) (mode : Option String) : Act Unit :=
  updateEditor editor fun e => { e with modes := e.modes ++ [mode] }

/-- Sets an editor's mode from the selector it follows, and refreshes the label. -/
def followSelector (editor selector : Nat) (label : Option Nat) (fallback : String) :
    Act Unit := do
  setMode editor (editorMode ((← doc).value selector))
  refreshLabel selector label fallback

/-- Makes an editor follow a type selector; answers the selector's mode. -/
def watchSelector (editor : Nat) (o : BlockOptions) (selector : Nat) : Act (Option String) := do
  let d ← doc
  let label := d.elementById o.labelId
  let fallback := match label with
    | some l => d.textContent l
    | none => ""
  if !o.extension.isEmpty then onDoc (·.setValue selector o.extension)
  refreshLabel selector label fallback
  onDoc (·.listen selector .change (.followSelector editor selector label fallback))
  pure (editorMode ((← doc).value selector))

/-- Attaches a code block with a new editor that tells its edits to a coordinator, if one is
given; answers the block's index and the mode the editor was left in. -/
def attachBlock (o : BlockOptions) (onChange : Option Nat) : Act (Nat × Option String) := do
  let editor := (← get).editors.size
  modify fun p => { p with
    editors := p.editors.push ⟨[], if o.focus then 1 else 0, onChange.toList⟩ }
  let mode ← match o.selectorId? with
    | none => pure (editorMode o.mode)
    | some sid =>
      match (← doc).elementById sid with
      | none => pure (if o.extension.isEmpty then editorMode o.mode else editorMode o.extension)
      | some selector => watchSelector editor o selector
  setMode editor mode
  let p ← get
  set { p with blocks := p.blocks ++ [editor] }
  pure (p.blocks.length, mode)

/-- Tells an editor's listeners of a change: each marks its coordinator dirty. -/
def editorChanged (editor : Nat) : Act Unit := do
  match (← get).editors[editor]? with
  | none => pure ()
  | some e => e.listeners.forM markDirty

end PageEditor.Ui
