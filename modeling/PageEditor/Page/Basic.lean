import PageEditor.Markup.Fragment
import PageEditor.Markup.Controls
import PageEditor.Save.Request
import PageEditor.Save.Session
import PageEditor.Settings
import PageEditor.Timeline
/-!
# PageEditor.Page.Basic

A page of the editor with its components, as one value.

The page holds the document, the timeline of timers, the settings, and the components attached
to it: save coordinators, overlay stacks, message boards, copy fields and code blocks. A
listener in the document or a timer on the timeline is data naming what it does and the
component it belongs to; a dropped component is gone from the page, so what names it does
nothing.

Background work (sending a save, writing to the clipboard) waits as a job until the executor
runs. Components spawn jobs into the executor that was current when they were attached; after
the executor is shut down and replaced, their spawns fail.

The save transport and the clipboard are scripted: each answers from a queue given with the
page, and records what it was asked.
-/

namespace PageEditor.Ui

/-- What a listener does, naming the component it belongs to. -/
inductive Reaction where
  /-- An edit in a coordinator's form. -/
  | markDirty (coordinator : Nat)
  /-- A change of a reload field of a coordinator's form. -/
  | requireReload (coordinator : Nat)
  /-- A submit of a coordinator's form. -/
  | interceptSubmit (coordinator : Nat)
  /-- A click on an overlay stack's backdrop. -/
  | dismissOverlays (stack : Nat)
  /-- A click on a close trigger: the click's default is prevented even when the stack is
  gone. -/
  | closeOverlays (stack : Nat)
  /-- A click on a copyable field. -/
  | copyField (component field : Nat)
  /-- A change of a code block's type selector; it lives as long as the document. -/
  | followSelector (editor selector : Nat) (label : Option Nat) (fallback : String)
  deriving Repr, DecidableEq

/-- What a timer does when it fires. -/
inductive Chore where
  /-- Takes a node out of its parent. -/
  | detach (node : Nat)
  /-- Marks a modal active if it is still attached. -/
  | activate (node : Nat) (cls : String)
  deriving Repr, DecidableEq

/-- Work waiting for the executor. -/
inductive Job where
  | save (coordinator : Nat) (request : Save.Request)
  | copy (component field : Nat) (text : String)
  deriving Repr, DecidableEq

/-- How the save transport answers a request. -/
inductive Answer where
  | saved (fragment : String)
  | failed
  deriving Repr, DecidableEq

/-- A board of system messages: the removal timers it scheduled, until it cancels them. -/
structure Board where
  timers : List TimerKey
  deriving Repr, DecidableEq

/-- A coordinator of background saves for one form. -/
structure Coordinator where
  id : Nat
  form : Nat
  session : Save.Session
  board : Board
  executor : Nat
  deriving Repr

/-- A stack of overlays: its activation timers and the elements it has wired. -/
structure OverlayStack where
  id : Nat
  timers : List TimerKey
  wired : List Nat
  deriving Repr, DecidableEq

/-- The copyable fields wired at one attach. -/
structure CopyFields where
  id : Nat
  timers : List TimerKey
  executor : Nat
  deriving Repr, DecidableEq

/-- A code editor: the modes it was set to, how often it was focused, and the coordinators
whose edit listener it calls on change. -/
structure Editor where
  modes : List (Option String)
  focused : Nat
  listeners : List Nat
  deriving Repr, DecidableEq

/-- A page with its components. -/
structure Page where
  doc : Markup.Document Reaction
  timeline : Timeline Chore
  settings : Settings
  nextId : Nat
  coordinators : List Coordinator
  overlays : List OverlayStack
  boards : List Board
  copies : List CopyFields
  editors : Array Editor
  blocks : List Nat
  jobs : List Job
  executor : Nat
  answers : List Answer
  sent : List Save.Request
  clipboardAnswers : List Bool
  written : List String
  handles : List Nat

/-- Page actions: they change the page, and fail when a timer would be due past the largest
word. -/
abbrev Act (α : Type) := StateT Page (Except DueOverflow) α

/-- A fresh page over a document, with one overlay stack and one message board. -/
def Page.start (doc : Markup.Document Reaction) (settings : Settings) (answers : List Answer)
    (clipboardAnswers : List Bool) : Page :=
  ⟨doc, Timeline.empty, settings, 1, [], [⟨0, [], []⟩], [⟨[]⟩], [], #[], [], [], 0, answers, [],
    clipboardAnswers, [], []⟩

/-! ## Small actions -/

/-- Reads the document. -/
def doc : Act (Markup.Document Reaction) := return (← get).doc

/-- Reads the settings. -/
def settings : Act Settings := return (← get).settings

/-- Changes the document. -/
def onDoc (f : Markup.Document Reaction → Markup.Document Reaction) : Act Unit :=
  modify fun p => { p with doc := f p.doc }

/-- Changes the document and answers what the change answers. -/
def withDoc {α : Type} (f : Markup.Document Reaction → α × Markup.Document Reaction) : Act α := do
  let (a, d) := f (← get).doc
  modify fun p => { p with doc := d }
  pure a

/-- A fresh component id. -/
def freshId : Act Nat := do
  let p ← get
  set { p with nextId := p.nextId + 1 }
  pure p.nextId

/-- Schedules a chore after a delay; answers the timer's key. -/
def schedule (delay : Nat) (c : Chore) : Act TimerKey := do
  let p ← get
  match p.timeline.scheduleChecked delay c with
  | .ok (key, t) => set { p with timeline := t }; pure key
  | .error e => throw e

/-- Cancels timers. -/
def cancelTimers (keys : List TimerKey) : Act Unit :=
  modify fun p => { p with timeline := p.timeline.cancelAll keys }

/-- The live coordinator with an id. -/
def coordinator? (id : Nat) : Act (Option Coordinator) :=
  return (← get).coordinators.find? (·.id == id)

/-- Changes the live coordinator with an id. -/
def updateCoordinator (id : Nat) (f : Coordinator → Coordinator) : Act Unit :=
  modify fun p => { p with coordinators := p.coordinators.map fun c => if c.id == id then f c else c }

/-- The live overlay stack with an id. -/
def stack? (id : Nat) : Act (Option OverlayStack) :=
  return (← get).overlays.find? (·.id == id)

/-- Changes the live overlay stack with an id. -/
def updateStack (id : Nat) (f : OverlayStack → OverlayStack) : Act Unit :=
  modify fun p => { p with overlays := p.overlays.map fun s => if s.id == id then f s else s }

/-- The live copy component with an id. -/
def copies? (id : Nat) : Act (Option CopyFields) :=
  return (← get).copies.find? (·.id == id)

/-- Changes the live copy component with an id. -/
def updateCopies (id : Nat) (f : CopyFields → CopyFields) : Act Unit :=
  modify fun p => { p with copies := p.copies.map fun c => if c.id == id then f c else c }

/-- Changes an editor. -/
def updateEditor (i : Nat) (f : Editor → Editor) : Act Unit :=
  modify fun p => { p with editors := p.editors.modify i f }

/-- Spawns a job into an executor: it waits when that executor is the current one, and the
spawn fails otherwise. -/
def spawn (executor : Nat) (j : Job) : Act Bool := do
  let p ← get
  if executor == p.executor then
    set { p with jobs := p.jobs ++ [j] }
    pure true
  else pure false

end PageEditor.Ui
