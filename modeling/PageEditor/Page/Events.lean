import PageEditor.Page.Overlay
import PageEditor.Page.Copy
import PageEditor.Page.Block
/-!
# PageEditor.Page.Events

How the page moves: events through the document, timers through time, and jobs through the
executor.

1. An event fired at a node runs, for the node and then each of its ancestors, the listeners of
   its kind that the node has when the event reaches it, in the order they were added. One flag
   records whether any of them prevented the event's default.
2. Advancing time fires the timers that fall due, earliest first and in scheduling order among
   equals, also those scheduled while advancing; the clock then stands at the target.
3. Running the executor runs the waiting jobs in the order they were spawned: a save goes to the
   transport, which records it and answers from its queue (then `saved ""` once the queue is
   used up), and the coordinator, if alive, completes it; a copy goes to the clipboard, which
   answers from its queue (then success) and keeps the text only when the write succeeds, and
   the copy component, if alive, shows its indicator.
4. Shutting the executor down drops the waiting jobs, and the components attached before can
   no longer spawn.
-/

namespace PageEditor.Ui

/-- Runs one listener; answers whether the event's default is prevented afterwards. -/
def react (prevented : Bool) : Reaction → Act Bool
  | .markDirty c => do markDirty c; pure prevented
  | .requireReload c => do requireReload c; pure prevented
  | .interceptSubmit c => do
    let p ← interceptSubmit c
    pure (prevented || p)
  | .dismissOverlays st => do
    let _ ← dismiss st
    pure prevented
  | .closeOverlays st => do
    let _ ← dismiss st
    pure true
  | .copyField k f => do copyField k f; pure prevented
  | .followSelector e sel label fallback => do
    followSelector e sel label fallback
    pure prevented

/-- Fires an event at a node; answers whether its default was prevented. -/
def dispatch (node : Nat) (kind : Markup.EventKind) : Act Bool := do
  let path := (← doc).path node
  path.foldlM (fun prevented i => do
    let listeners := (← doc).listenersOf i kind
    listeners.foldlM react prevented) false

/-- Carries out a timer's chore on a page. -/
def Chore.perform : Chore → Page → Page
  | .detach n, p => { p with doc := (p.doc.remove n).2 }
  | .activate n cls, p => if p.doc.isConnected n then { p with doc := p.doc.addClass n cls } else p

/-- Advances the clock by some milliseconds, firing the timers that fall due. -/
def advance (ms : Nat) : Act Unit := do
  let p ← get
  let target := p.timeline.target ms
  let p' ← StateT.lift <| Timeline.runDue Page.timeline
    (fun p t => { p with timeline := t }) (fun c p => .ok (c.perform p)) target
    (p.timeline.pending + 1) p
  set p'

/-- The transport's next answer. -/
def nextAnswer : Act Answer := do
  let p ← get
  match p.answers with
  | a :: rest => set { p with answers := rest }; pure a
  | [] => pure (.saved "")

/-- The clipboard's next answer. -/
def nextClipboardAnswer : Act Bool := do
  let p ← get
  match p.clipboardAnswers with
  | a :: rest => set { p with clipboardAnswers := rest }; pure a
  | [] => pure true

/-- Runs one job. -/
def Job.run : Job → Act Unit
  | .save c request => do
    modify fun p => { p with sent := p.sent ++ [request] }
    let a ← nextAnswer
    completeSave c a
  | .copy k field text => do
    let ok ← nextClipboardAnswer
    if ok then modify fun p => { p with written := p.written ++ [text] }
    if (← copies? k).isSome then showIndicator k field ok

/-- Runs the waiting jobs until none is left. -/
def runJobs : Act Unit := do
  let jobs := (← get).jobs
  modify fun p => { p with jobs := [] }
  jobs.forM Job.run

/-- Drops the waiting jobs and starts a new executor. -/
def shutdownExecutor : Act Unit :=
  modify fun p => { p with jobs := [], executor := p.executor + 1 }

end PageEditor.Ui
