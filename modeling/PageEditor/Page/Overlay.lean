import PageEditor.Page.Basic
import PageEditor.Decimal.Shortest
/-!
# PageEditor.Page.Overlay

Overlay stacks: one backdrop, with any number of modals and loaders over it.

Every overlay element carries the overlay tag, so that one pass removes them all:

1. opening a modal or a loader first makes sure of a backdrop (the first element on the page
   with the backdrop class that is also an overlay, or a new one at the end of the body), and a
   click on the backdrop dismisses the stack;
2. a modal is a close link and a content layer; it becomes active a moment after it opens,
   if it is still on the page, and it is centered at once (below);
3. every close trigger on the page dismisses the stack when clicked, and the click's default is
   prevented even once the stack is gone; a stack wires each backdrop and trigger once, and
   forgets those no longer on the page;
4. dismissing cancels the pending activations and removes every overlay element, answering how
   many were attached.

A modal is centered by its height `h`, rounded to hundredths: when it is at least the
viewport's height it is pinned by the margin at top and bottom, otherwise its top is
`calc(50% - h/2 px)`, with `h/2` written in the fewest digits that read back.
-/

namespace PageEditor.Ui

/-- The backdrop on a page: the first element with the backdrop class that is also an
overlay. -/
def backdrop? (s : Settings) (d : Markup.Document Reaction) : Option Nat :=
  (d.elementsByClass s.backdropClass).find? fun n => d.hasClass n s.overlayTag

/-- Marks a node as wired by a stack, adding its listener, unless the stack wired it already. -/
def wire (id node : Nat) (r : Reaction) : Act Unit := do
  match ← stack? id with
  | none => pure ()
  | some st =>
    if !st.wired.contains node then
      onDoc (·.listen node .click r)
      updateStack id fun st => { st with wired := st.wired ++ [node] }

/-- Finds or makes the backdrop, and wires it to dismiss the stack. -/
def ensureBackdrop (id : Nat) : Act Unit := do
  let s ← settings
  let b ← match backdrop? s (← doc) with
    | some b => pure b
    | none =>
      let b ← withDoc (·.createElement "div")
      onDoc fun d =>
        (d.setClassName b (s.backdropClass ++ " " ++ s.overlayTag)).append Markup.Document.body b
      pure b
  wire id b (.dismissOverlays id)

/-- How a style writes a length: a tie goes to the larger digit, the point is never moved into
an exponent, and a whole number has no point. -/
def lengthNotation : Decimal.Notation := ⟨.up, none, false, false⟩

/-- The top of a modal of height `h` centered in the viewport. -/
def centeredTop (h : Float) : String :=
  "calc(50% - " ++ lengthNotation.write (h / 2.0) ++ "px)"

/-- Centers a modal by its height, or pins it by the margin when it does not fit. -/
def center (modal : Nat) : Act Unit := do
  let s ← settings
  let d ← doc
  let h := (d.offsetHeight modal * 100.0).round / 100.0
  if d.viewport ≤ h then
    let margin := toString s.modalMarginPx ++ "px"
    onDoc fun d => (d.setStyle modal "top" margin).setStyle modal "bottom" margin
  else onDoc (·.setStyle modal "top" (centeredTop h))

/-- Wires every close trigger on the page, after forgetting the wired nodes that left it. -/
def wireCloseTriggers (id : Nat) : Act Unit := do
  let s ← settings
  let d ← doc
  let triggers := d.elementsByClass s.closeTag
  updateStack id fun st => { st with wired := st.wired.filter d.isConnected }
  triggers.forM fun t => wire id t (.closeOverlays id)

/-- The class of a modal: the modal class, the overlay tag, and the trimmed variant if it is not
empty. -/
def modalClass (s : Settings) (variant : Option String) : String :=
  let base := s.modalClass ++ " " ++ s.overlayTag
  match variant.map Text.trim with
  | some v => if v.isEmpty then base else base ++ " " ++ v
  | none => base

/-- Opens a modal holding an HTML fragment; answers the modal. -/
def openModal (id : Nat) (content : String) (variant : Option String) : Act Nat := do
  ensureBackdrop id
  let s ← settings
  let modal ← withDoc (·.createElement "div")
  onDoc (·.setClassName modal (modalClass s variant))
  let close ← withDoc (·.createElement "a")
  onDoc fun d =>
    ((d.setClassName close ("modal-close " ++ s.closeTag)).setInnerHtml close
      "<span>Close</span>").setAttribute close "href" "#"
  let inner ← withDoc (·.createElement "div")
  onDoc fun d => (d.setClassName inner "modal-inner").setInnerHtml inner content
  onDoc fun d => ((d.append modal close).append modal inner).append Markup.Document.body modal
  let key ← schedule s.modalActivationMs (.activate modal s.modalActiveClass)
  updateStack id fun st => { st with timers := st.timers ++ [key] }
  center modal
  wireCloseTriggers id
  pure modal

/-- Opens a loader over the backdrop; answers the loader. -/
def openLoader (id : Nat) : Act Nat := do
  ensureBackdrop id
  let s ← settings
  let loader ← withDoc (·.createElement "div")
  onDoc fun d =>
    (d.setClassName loader (s.loaderClass ++ " " ++ s.overlayTag)).append Markup.Document.body loader
  pure loader

/-- Dismisses a live stack: cancels its activations and removes every overlay element;
answers how many were attached. -/
def dismiss (id : Nat) : Act Nat := do
  match ← stack? id with
  | none => pure 0
  | some st =>
    cancelTimers st.timers
    let s ← settings
    let overlays := (← doc).elementsByClass s.overlayTag
    let removed ← overlays.foldlM (fun n o => do
      let r ← withDoc (·.remove o)
      pure (if r then n + 1 else n)) 0
    let d ← doc
    updateStack id fun st => { st with timers := [], wired := st.wired.filter d.isConnected }
    pure removed

/-- Shows the loader, or dismisses the whole stack. -/
def showLoader (id : Nat) (status : Bool) : Act Unit :=
  if status then do let _ ← openLoader id
  else do let _ ← dismiss id

/-- Whether any overlay element is on the page. -/
def overlayOpen : Act Bool := do
  let s ← settings
  pure !((← doc).elementsByClass s.overlayTag).isEmpty

end PageEditor.Ui
