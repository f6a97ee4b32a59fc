import PageEditor.Page.Board
import PageEditor.Form.Body
/-!
# PageEditor.Page.Coordinator

Save coordinators: the editing session of one form, and how its submits are saved.

A coordinator attaches to the form the settings name. A form whose new-resource attribute is
absent, or holds anything but `0` once trimmed, edits a new resource: its submits navigate, so
the coordinator only watches for edits. For an existing resource it also watches the reload
fields of the form and intercepts submits:

* an edit marks the session dirty, and the first edit shows the unsaved notice;
* a submit that the session sends in the background is prevented and becomes a save job;
  a submit while a save is in flight is only prevented;
* when the save is answered, a saved page clears the notice and replaces the message region
  with the server's fragment, and a failed one shows an error message on the coordinator's
  own board.
-/

namespace PageEditor.Ui

/-- Attaches a coordinator to the page's edit form; answers whether the page has one. -/
def attachCoordinator : Act Bool := do
  let s ← settings
  match (← doc).elementById s.formId with
  | none => pure false
  | some form =>
    let fresh := match (← doc).attribute? form s.newResourceAttribute with
      | some v => Text.trim v != "0"
      | none => true
    let id ← freshId
    onDoc (·.listen form .input (.markDirty id))
    if !fresh then
      let fields := (← doc).elementsByClassWithin form s.reloadClass
      onDoc fun d => fields.foldl (fun d f => d.listen f .change (.requireReload id)) d
      onDoc (·.listen form .submit (.interceptSubmit id))
    let executor := (← get).executor
    modify fun p => { p with
      coordinators := p.coordinators ++ [⟨id, form, Save.Session.start fresh, ⟨[]⟩, executor⟩] }
    pure true

/-- Records an edit in a coordinator's session; the first edit shows the unsaved notice. -/
def markDirty (id : Nat) : Act Unit := do
  match ← coordinator? id with
  | none => pure ()
  | some c =>
    let (turned, session) := c.session.recordEdit
    updateCoordinator id fun c => { c with session }
    if turned then
      let s ← settings
      match (← doc).elementById s.warningId with
      | some w => onDoc (·.setText w s.unsavedNotice)
      | none => pure ()

/-- Records that the next save of a coordinator's form must reload the page. -/
def requireReload (id : Nat) : Act Unit :=
  updateCoordinator id fun c => { c with session := c.session.requireReload }

/-- The save request for a form: its action and method, and the body its controls submit. -/
def saveRequest (d : Markup.Document Reaction) (form : Nat) : Save.Request :=
  Save.Request.make ((d.attribute? form "action").getD "") (d.attribute? form "method")
    (Form.Body.ofControls (d.formControls form))

/-- Handles a submit of a coordinator's form; answers whether the submit's default is
prevented. A background save that cannot be spawned fails at once. -/
def interceptSubmit (id : Nat) : Act Bool := do
  match ← coordinator? id with
  | none => pure false
  | some c =>
    let (decision, session) := c.session.beginSubmit
    updateCoordinator id fun c => { c with session }
    match decision with
    | .navigate => pure false
    | .suppressed => pure true
    | .background =>
      let spawned ← spawn c.executor (.save id (saveRequest (← doc) c.form))
      if !spawned then
        updateCoordinator id fun c => { c with session := c.session.fail }
      pure true

/-- Changes a coordinator's board by a board action. -/
def onCoordinatorBoard (c : Coordinator) (f : Board → Act (Bool × Board)) : Act Unit := do
  let (_, b) ← f c.board
  updateCoordinator c.id fun c => { c with board := b }

/-- Completes a background save with the transport's answer, if the coordinator is alive. -/
def completeSave (id : Nat) (a : Answer) : Act Unit := do
  match ← coordinator? id with
  | none => pure ()
  | some c =>
    let s ← settings
    match a with
    | .saved fragment =>
      updateCoordinator id fun c => { c with session := c.session.acknowledge }
      match (← doc).elementById s.warningId with
      | some w => onDoc (·.setText w "")
      | none => pure ()
      onCoordinatorBoard c (·.replaceRegion fragment)
    | .failed =>
      updateCoordinator id fun c => { c with session := c.session.fail }
      onCoordinatorBoard c (·.pushError s.saveFailedNotice)

end PageEditor.Ui
