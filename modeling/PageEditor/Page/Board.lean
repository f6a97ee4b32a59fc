import PageEditor.Page.Basic
/-!
# PageEditor.Page.Board

Boards of system messages.

A board shows the messages of the page for a while and then takes them away:

1. a batch of messages already on the page leaves one by one, the `i`-th after
   `Settings.removalDelay i`;
2. a fragment the server sends replaces the message region, and the messages in it leave
   together after the saved-message delay;
3. an error is a new message appended to the region, which leaves after the same delay.

Each removal is a timer the board keeps, so that cancelling the board (or dropping it) takes
its pending removals with it. A page without a message region answers `false` to (2) and (3)
and schedules nothing.
-/

namespace PageEditor.Ui

namespace Board

/-- Takes a message away after a delay; the board keeps the timer. -/
def removeLater (b : Board) (message delay : Nat) : Act Board := do
  let key ← schedule delay (.detach message)
  pure ⟨b.timers ++ [key]⟩

/-- Schedules every message of the page for removal, staggered; answers how many there are. -/
def scheduleBatch (b : Board) : Act (Nat × Board) := do
  let s ← settings
  let messages := (← doc).elementsByClass s.messageClass
  let b ← ((List.range messages.length).zip messages).foldlM
    (fun b (i, m) => b.removeLater m (s.removalDelay i)) b
  pure (messages.length, b)

/-- Replaces the message region by a fragment and schedules the messages in it for removal;
answers whether the page has a message region. -/
def replaceRegion (b : Board) (html : String) : Act (Bool × Board) := do
  let s ← settings
  match (← doc).elementById s.messageRegionId with
  | none => pure (false, b)
  | some region =>
    onDoc (·.setInnerHtml region html)
    let messages := (← doc).elementsByClassWithin region s.messageClass
    let b ← messages.foldlM (fun b m => b.removeLater m s.savedMessageDelayMs) b
    pure (true, b)

/-- Appends an error message to the message region and schedules it for removal; answers
whether the page has a message region. -/
def pushError (b : Board) (text : String) : Act (Bool × Board) := do
  let s ← settings
  match (← doc).elementById s.messageRegionId with
  | none => pure (false, b)
  | some region =>
    let m ← withDoc (·.createElement "div")
    onDoc fun d => ((d.setClassName m (s.messageClass ++ " error")).setText m text).append region m
    let b ← b.removeLater m s.savedMessageDelayMs
    pure (true, b)

/-- The removals the board has scheduled and not cancelled, fired ones included. -/
def pending (b : Board) : Nat := b.timers.length

/-- Cancels every removal the board scheduled. -/
def cancel (b : Board) : Act Board := do
  cancelTimers b.timers
  pure ⟨[]⟩

end Board

end PageEditor.Ui
