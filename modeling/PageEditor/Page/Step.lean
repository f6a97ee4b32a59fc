import PageEditor.Page.Target
import PageEditor.Page.Events
import PageEditor.Form.Snapshot
/-!
# PageEditor.Page.Step

The steps a page takes, what each answers, and a whole run of steps.

Steps fall into groups: events fired at nodes, changes and questions of the document, the
passing of time and the executor, and the components (save coordinators, overlay stacks,
message boards, copy fields and code blocks). A step that is refused answers why and leaves the
page as it was; the run goes on with the next step. After every step the run reports the state
of the page: the body's markup, the clock, the waiting timers, what was sent and copied, and the
sessions of the live coordinators.

A run stops as a whole only when a timer would fall due past the largest word of time.
-/

namespace PageEditor.Ui

/-- A kind of component, as a whole. -/
inductive Component where
  | coordinators
  | overlays
  | boards
  | copies
  | blocks
  deriving Repr, DecidableEq

/-- Which message board a step uses. -/
inductive BoardRef where
  /-- A board of the page. -/
  | page (p : Pick)
  /-- The board of the last live coordinator. -/
  | coordinator
  deriving Repr, DecidableEq

/-- A step of a page. -/
inductive Step where
  | typeText (t : Target) (value : String)
  | choose (t : Target) (value : String)
  | click (t : Target)
  | submit (t : Option Target)
  | fire (t : Target) (kind : Markup.EventKind) (tellKind : Bool)
  | setChecked (t : Target) (checked : Bool)
  | setValue (t : Target) (value : String)
  | setText (t : Target) (text : String)
  | setInnerHtml (t : Target) (html : String)
  | setAttribute (t : Target) (name value : String)
  | setClassName (t : Target) (cls : String)
  | addClass (t : Target) (cls : String)
  | remove (t : Target)
  | append (parent child : Target)
  | insertBefore (parent child reference : Target)
  | create (tag : String)
  | hold (t : Target)
  | setViewport (height : Float)
  | setClassHeight (cls : String) (height : Float)
  | outerHtml (t : Target)
  | text (t : Target)
  | value (t : Target)
  | tag (t : Target)
  | attribute (t : Target) (name : String)
  | className (t : Target)
  | hasClass (t : Target) (cls : String)
  | isConnected (t : Target)
  | style (t : Target) (property : String)
  | parent (t : Target)
  | children (t : Target)
  | byId (id : String)
  | byClass (cls : String) (within : Option Target)
  | countClass (cls : String)
  | selectedOptionText (t : Target)
  | selection
  | formControls (t : Target)
  | formData (t : Target)
  | submitBody (t : Target)
  | run
  | shutdown
  | advance (ms : Nat)
  | requests
  | clipboard
  | attachCoordinator
  | markDirty (which : Pick)
  | dirtyListener (which : Pick)
  | form (which : Pick)
  | drop (what : Component)
  | overlayNew
  | openModal (content : String) (variant : Option String) (which : Pick)
  | openLoader (which : Pick)
  | loader (status : Bool) (which : Pick)
  | closeLoader (which : Pick)
  | dismiss (which : Pick)
  | isOpen (which : Pick)
  | messagesNew
  | scheduleBatch (board : BoardRef)
  | replaceRegion (html : String) (board : BoardRef)
  | pushError (text : String) (board : BoardRef)
  | messagesPending (board : BoardRef)
  | messagesCancel (board : BoardRef)
  | attachCopy
  | copyPending
  | attachBlock (o : BlockOptions) (dirty : Bool)
  | editorChange (block : Nat)
  | editor (block : Nat)

/-- What a step answers. -/
inductive Reply where
  | nothing
  | flag (b : Bool)
  | count (n : Nat)
  | text (s : String)
  | text? (s : Option String)
  | texts (l : List String)
  | counts (l : List Nat)
  | prevented (b : Bool)
  | event (prevented : Bool) (kind : Markup.EventKind)
  | modal (handle : Nat) (top bottom : Option String)
  | loader (handle : Nat)
  | block (index : Nat) (mode : Option String)
  | editor (e : Editor)
  | controls (l : List Form.Control)
  | snapshot (s : Form.Snapshot)
  | body (b : Form.Body)
  | requests (l : List Save.Request)

/-! ## Components of a step -/

/-- A live coordinator. -/
def pickCoordinator (which : Pick) : StepAct Coordinator := do
  pick (← get).coordinators which "coordinator"

/-- A live overlay stack. -/
def pickStack (which : Pick) : StepAct Nat := do
  return (← pick (← get).overlays which "overlay").id

/-- The editor of a live code block. -/
def pickBlock (block : Nat) : StepAct Nat := do
  required (← get).blocks[block]? (.noComponent "block")

/-- Runs a board action on the board a step names, and keeps the changed board. -/
def onBoard {α : Type} (r : BoardRef) (f : Board → Act (α × Board)) : StepAct α := do
  let p ← get
  match r with
  | .coordinator =>
    let c ← required p.coordinators.getLast? (.noComponent "coordinator")
    let (a, b) ← f c.board
    updateCoordinator c.id fun c => { c with board := b }
    pure a
  | .page which =>
    let i ← required (which.index? p.boards.length) (.noComponent "board")
    let b ← required p.boards[i]? (.noComponent "board")
    let (a, b) ← f b
    modify fun p => { p with boards := p.boards.set i b }
    pure a

/-- What a step looks up before it reads the rest of its fields. -/
inductive Lookup where
  | target (t : Target)
  | coordinator (which : Pick)
  | overlay (which : Pick)
  | board (r : BoardRef)
  | block (k : Nat)
  deriving Repr, DecidableEq

/-- Looks something up, refusing the step when it is not there. -/
def Lookup.perform : Lookup → StepAct Unit
  | .target t => do let _ ← node t
  | .coordinator which => do let _ ← pickCoordinator which
  | .overlay which => do let _ ← pickStack which
  | .board r => onBoard r fun b => pure ((), b)
  | .block k => do let _ ← pickBlock k

/-- Drops every component of a kind: their timers are cancelled, and what names them does
nothing from then on. Editors stay, for the selectors that follow them. -/
def dropAll : Component → Act Unit
  | .coordinators => do
    (← get).coordinators.forM fun c => cancelTimers c.board.timers
    modify fun p => { p with coordinators := [] }
  | .overlays => do
    (← get).overlays.forM fun s => cancelTimers s.timers
    modify fun p => { p with overlays := [] }
  | .boards => do
    (← get).boards.forM fun b => cancelTimers b.timers
    modify fun p => { p with boards := [] }
  | .copies => do
    (← get).copies.forM fun c => cancelTimers c.timers
    modify fun p => { p with copies := [] }
  | .blocks => modify fun p => { p with blocks := [] }

/-- The timers one component holds: the coordinator, overlay stack or copy component with an
id, or the message board at a position. A code block holds none. -/
def Page.heldBy (p : Page) : Component → Nat → List TimerKey
  | .coordinators, i => (p.coordinators.filter (·.id == i)).flatMap (·.board.timers)
  | .overlays, i => (p.overlays.filter (·.id == i)).flatMap (·.timers)
  | .boards, i => (p.boards[i]?.map (·.timers)).getD []
  | .copies, i => (p.copies.filter (·.id == i)).flatMap (·.timers)
  | .blocks, _ => []

/-- The page without one component: the coordinator, overlay stack or copy component with an
id, or the message board or code block at a position. -/
def Page.without (p : Page) : Component → Nat → Page
  | .coordinators, i => { p with coordinators := p.coordinators.filter (·.id != i) }
  | .overlays, i => { p with overlays := p.overlays.filter (·.id != i) }
  | .boards, i => { p with boards := p.boards.eraseIdx i }
  | .copies, i => { p with copies := p.copies.filter (·.id != i) }
  | .blocks, i => { p with blocks := p.blocks.eraseIdx i }

/-- Drops one component, as a page does with the board or the copy fields it replaces by new
ones: the timers it holds are cancelled and it leaves the page, so what names it does nothing
from then on. Every other component, of its kind too, stays as it was. -/
def dropOne (k : Component) (i : Nat) : Act Unit := do
  cancelTimers ((← get).heldBy k i)
  modify (·.without k i)

/-! ## One step -/

/-- Fires an event at a target; answers whether its default was prevented. -/
def fireAt (t : Target) (kind : Markup.EventKind) : StepAct Bool := do
  let n ← node t
  dispatch n kind

/-- Changes the document at a target. -/
def change (t : Target) (f : Nat → Markup.Document Reaction → Markup.Document Reaction) :
    StepAct Reply := do
  let n ← node t
  onDoc (f n)
  pure .nothing

/-- Asks the document about a target. -/
def ask (t : Target) (f : Nat → Markup.Document Reaction → Reply) : StepAct Reply := do
  let n ← node t
  pure (f n (← doc))

/-- Takes one step. -/
def Step.perform : Step → StepAct Reply
  | .typeText t v => do
    let n ← node t
    onDoc (·.setValue n v)
    return .prevented (← dispatch n .input)
  | .choose t v => do
    let n ← node t
    onDoc (·.setValue n v)
    let _ ← dispatch n .input
    return .prevented (← dispatch n .change)
  | .click t => return .prevented (← fireAt t .click)
  | .submit t => do
    let n ← match t with
      | some t => node t
      | none => do required ((← doc).elementById (← settings).formId) (.noTarget "form")
    return .prevented (← dispatch n .submit)
  | .fire t kind tellKind => do
    let b ← fireAt t kind
    return if tellKind then .event b kind else .prevented b
  | .setChecked t b => change t fun n d => d.setChecked n b
  | .setValue t v => change t fun n d => d.setValue n v
  | .setText t s => change t fun n d => d.setText n s
  | .setInnerHtml t h => change t fun n d => d.setInnerHtml n h
  | .setAttribute t k v => change t fun n d => d.setAttribute n k v
  | .setClassName t c => change t fun n d => d.setClassName n c
  | .addClass t c => change t fun n d => d.addClass n c
  | .remove t => do
    let n ← node t
    return .flag (← (withDoc (·.remove n) : Act Bool))
  | .append pt ct => do
    let pn ← node pt
    let cn ← node ct
    onDoc (·.append pn cn)
    pure .nothing
  | .insertBefore pt ct rt => do
    let pn ← node pt
    let cn ← node ct
    let rn ← node rt
    onDoc (·.insertBefore pn cn rn)
    pure .nothing
  | .create name => do
    let n ← (withDoc (·.createElement name) : Act Nat)
    return .count (← keepHandle n)
  | .hold t => do
    let n ← node t
    return .count (← keepHandle n)
  | .setViewport h => do
    onDoc fun d => { d with viewport := h }
    pure .nothing
  | .setClassHeight c h => do
    onDoc fun d => { d with classHeights := d.classHeights ++ [(c, h)] }
    pure .nothing
  | .outerHtml t => ask t fun n d => .text (d.outerHtml n)
  | .text t => ask t fun n d => .text (d.textContent n)
  | .value t => ask t fun n d => .text (d.value n)
  | .tag t => ask t fun n d => .text (d.node n).tag
  | .attribute t k => ask t fun n d => .text? (d.attribute? n k)
  | .className t => ask t fun n d => .text (d.className n)
  | .hasClass t c => ask t fun n d => .flag (d.hasClass n c)
  | .isConnected t => ask t fun n d => .flag (d.isConnected n)
  | .style t k => ask t fun n d => .text? (d.style? n k)
  | .parent t => ask t fun n d => .text? ((d.node n).parent.map d.outerHtml)
  | .children t => ask t fun n d => .texts ((d.elementChildren n).map d.outerHtml)
  | .byId s => do
    let d ← doc
    return .text? ((d.elementById s).map d.outerHtml)
  | .byClass c within => do
    let r ← match within with
      | some t => node t
      | none => pure Markup.Document.root
    let d ← doc
    return .texts ((d.elementsByClassWithin r c).map d.outerHtml)
  | .countClass c => do return .count ((← doc).elementsByClass c).length
  | .selectedOptionText t => ask t fun n d => .text? (d.selectedOptionText n)
  | .selection => do
    let d ← doc
    return .text? (d.selection.map d.outerHtml)
  | .formControls t => ask t fun n d => .controls (d.formControls n)
  | .formData t => ask t fun n d => .snapshot (Form.Snapshot.ofControls (d.formControls n))
  | .submitBody t => ask t fun n d => .body (Form.Body.ofControls (d.formControls n))
  | .run => do runJobs; pure .nothing
  | .shutdown => do shutdownExecutor; pure .nothing
  | .advance ms => do Ui.advance ms; pure .nothing
  | .requests => do return .requests (← get).sent
  | .clipboard => do return .texts (← get).written
  | .attachCoordinator => do return .flag (← Ui.attachCoordinator)
  | .markDirty i => do
    let c ← pickCoordinator i
    Ui.markDirty c.id
    pure .nothing
  | .dirtyListener i => do
    let c ← pickCoordinator i
    Ui.markDirty c.id
    pure .nothing
  | .form i => do
    let c ← pickCoordinator i
    return .text ((← doc).outerHtml c.form)
  | .drop what => do dropAll what; pure .nothing
  | .overlayNew => do
    let id ← freshId
    modify fun p => { p with overlays := p.overlays ++ [⟨id, [], []⟩] }
    pure .nothing
  | .openModal content variant i => do
    let s ← pickStack i
    let m ← Ui.openModal s content variant
    let k ← keepHandle m
    let d ← doc
    return .modal k (d.style? m "top") (d.style? m "bottom")
  | .openLoader i => do
    let s ← pickStack i
    let l ← Ui.openLoader s
    return .loader (← keepHandle l)
  | .loader status i => do
    let s ← pickStack i
    showLoader s status
    pure .nothing
  | .closeLoader i | .dismiss i => do
    let s ← pickStack i
    return .count (← Ui.dismiss s)
  | .isOpen i => do
    let _ ← pickStack i
    return .flag (← overlayOpen)
  | .messagesNew => do
    modify fun p => { p with boards := p.boards ++ [⟨[]⟩] }
    pure .nothing
  | .scheduleBatch r => do return .count (← onBoard r Board.scheduleBatch)
  | .replaceRegion h r => do return .flag (← onBoard r (·.replaceRegion h))
  | .pushError s r => do return .flag (← onBoard r (·.pushError s))
  | .messagesPending r => do return .count (← onBoard r fun b => pure (b.pending, b))
  | .messagesCancel r => do
    onBoard r fun b => do return ((), ← b.cancel)
    pure .nothing
  | .attachCopy => do Ui.attachCopy; pure .nothing
  | .copyPending => do return .counts ((← get).copies.map (·.timers.length))
  | .attachBlock o dirty => do
    let p ← get
    let onChange := if dirty then p.coordinators.getLast?.map (·.id) else none
    let (k, mode) ← Ui.attachBlock o onChange
    return .block k mode
  | .editorChange k => do
    let e ← pickBlock k
    editorChanged e
    pure .nothing
  | .editor k => do
    let e ← pickBlock k
    required ((← get).editors[e]?.map Reply.editor) (.noComponent "block")

/-! ## A run of steps -/

/-- A page whose body holds a fragment of markup, with the viewport's height, the heights that
layout gives elements by class, and the scripted answers of the transport and the clipboard. -/
def Page.load (html : String) (settings : Settings) (viewport : Float)
    (heights : List (String × Float)) (answers : List Answer) (clipboard : List Bool) : Page :=
  let d : Markup.Document Reaction := Markup.Document.withBody html
  Page.start { d with viewport, classHeights := heights } settings answers clipboard

/-- What the page shows after a step. -/
structure View where
  html : String
  now : Nat
  pending : Nat
  sent : Nat
  copied : Nat
  sessions : List Save.Session

/-- The state of a page as a run reports it. -/
def Page.view (p : Page) : View :=
  ⟨p.doc.outerHtml Markup.Document.body, p.timeline.now, p.timeline.pending, p.sent.length,
    p.written.length, p.coordinators.map (·.session)⟩

/-- Takes a step, and reports the page after it. A step that could not be read in full makes
the lookups read before the field that failed, which may refuse it first, and is then refused
with the reason. A refused step leaves the page as it was. -/
def Page.step (p : Page) (s : Except (List Lookup × String) Step) :
    Except DueOverflow ((Except Refusal Reply × View) × Page) := do
  let act : StepAct Reply := match s with
    | .ok s => s.perform
    | .error (looks, reason) => do
      looks.forM Lookup.perform
      throw (.badInput reason)
  let (r, p') ← (act.run).run p
  match r with
  | .ok reply => pure ((.ok reply, p'.view), p')
  | .error e => pure ((.error e, p.view), p)

/-- Runs steps in order; answers what each answered and the page after it. -/
def Page.runSteps (p : Page) : List (Except (List Lookup × String) Step) →
    Except DueOverflow (List (Except Refusal Reply × View))
  | [] => .ok []
  | s :: rest => do
    let (out, p') ← p.step s
    let outs ← p'.runSteps rest
    pure (out :: outs)

end PageEditor.Ui
