import PageEditor.Page.Basic
/-!
# PageEditor.Page.Copy

Click-to-copy fields.

Attaching wires every element with the copy class that is on the page at that moment. A click
on one selects its text and writes its value to the clipboard in the background; when the
clipboard answers, an indicator saying whether the copy worked appears just before the field,
if the field still has a parent, and goes away after the indicator delay. A click does nothing
visible when the component's executor has been shut down.
-/

namespace PageEditor.Ui

/-- Wires every copyable field on the page to a new copy component. -/
def attachCopy : Act Unit := do
  let s ← settings
  let id ← freshId
  let fields := (← doc).elementsByClass s.copyClass
  onDoc fun d => fields.foldl (fun d f => d.listen f .click (.copyField id f)) d
  let executor := (← get).executor
  modify fun p => { p with copies := p.copies ++ [⟨id, [], executor⟩] }

/-- Selects a field's text and spawns the clipboard write of its value, if the component is
alive; a spawn into a shut-down executor is dropped. -/
def copyField (id field : Nat) : Act Unit := do
  match ← copies? id with
  | none => pure ()
  | some c =>
    onDoc (·.selectText field)
    let text := (← doc).value field
    let _ ← spawn c.executor (.copy id field text)

/-- The class and text of the indicator after a copy that worked or failed. -/
def indicatorLook (s : Settings) (ok : Bool) : String × String :=
  if ok then (s.copiedClass, s.copiedNotice)
  else (s.copiedClass ++ " copy-failed", s.copyFailedNotice)

/-- Shows the indicator before a field that still has a parent, and schedules its removal. -/
def showIndicator (id field : Nat) (ok : Bool) : Act Unit := do
  match ((← doc).node field).parent with
  | none => pure ()
  | some parent =>
    let s ← settings
    let (cls, text) := indicatorLook s ok
    let indicator ← withDoc (·.createElement "div")
    onDoc fun d => ((d.setClassName indicator cls).setText indicator text).insertBefore parent indicator field
    let key ← schedule s.copiedIndicatorMs (.detach indicator)
    updateCopies id fun c => { c with timers := c.timers ++ [key] }

end PageEditor.Ui
