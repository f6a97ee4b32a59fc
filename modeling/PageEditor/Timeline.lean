/-!
# PageEditor.Timeline

Virtual time and the timers waiting on it.

A timer is due at the time it was scheduled plus its delay. Timers are told apart by their key:
the due time and the sequence number handed out when scheduling, so of two timers due at once
the one scheduled first runs first.

1. Time only moves on `advance`. Advancing by `ms` runs, one by one, every timer whose due time
   is at most the old time plus `ms` (capped at the largest 64-bit word), earliest key first, with
   the clock set to each timer's due time while it runs; timers scheduled by a running timer run
   in the same advance when they fall due within it. Then the clock is set to the target.
2. Cancelling a key removes its timer if it is still waiting; a timer that ran or was cancelled
   is gone already, so cancelling it again changes nothing.
3. A due time must fit in a 64-bit word; `fits` tells whether it does.
-/

namespace PageEditor

/-- The largest 64-bit word: time stops there. -/
def wordLimit : Nat := Nat.pow 2 64 - 1

/-- Identifies a timer: its due time, then the order of scheduling. -/
structure TimerKey where
  due : Nat
  seq : Nat
  deriving Repr, DecidableEq

/-- Key order: earlier due time first, then earlier scheduling. -/
def TimerKey.before (a b : TimerKey) : Bool :=
  a.due < b.due || (a.due == b.due && a.seq < b.seq)

/-- A waiting timer and the task it runs. -/
structure Timer (α : Type) where
  key : TimerKey
  task : α

/-- The clock, the next sequence number, and the waiting timers in scheduling order. -/
structure Timeline (α : Type) where
  now : Nat
  nextSeq : Nat
  timers : List (Timer α)

/-- Why a timer could not be scheduled: its due time passes the largest 64-bit word. -/
structure DueOverflow where
  now : Nat
  delay : Nat
  deriving Repr, DecidableEq

/-- The message of a due time that does not fit. -/
def DueOverflow.message (_ : DueOverflow) : String := "attempt to add with overflow"

namespace Timeline

variable {α : Type}

/-- A timeline at time zero with nothing waiting. -/
def empty : Timeline α := ⟨0, 0, []⟩

/-- The number of waiting timers. -/
def pending (t : Timeline α) : Nat := t.timers.length

/-- Whether a timer with this delay would be due at a time that fits in a 64-bit word. -/
def fits (t : Timeline α) (delay : Nat) : Bool := t.now + delay ≤ wordLimit

/-- Schedules a task after a delay; answers the new timer's key. -/
def schedule (t : Timeline α) (delay : Nat) (task : α) : TimerKey × Timeline α :=
  let key : TimerKey := ⟨t.now + delay, t.nextSeq⟩
  (key, { t with nextSeq := t.nextSeq + 1, timers := t.timers ++ [⟨key, task⟩] })

/-- Schedules a task after a delay, refusing a due time that does not fit in a word. -/
def scheduleChecked (t : Timeline α) (delay : Nat) (task : α) :
    Except DueOverflow (TimerKey × Timeline α) :=
  if t.fits delay then .ok (t.schedule delay task) else .error ⟨t.now, delay⟩

/-- Removes the timer with this key, if it is still waiting. -/
def cancel (t : Timeline α) (key : TimerKey) : Timeline α :=
  { t with timers := t.timers.filter (·.key != key) }

/-- Removes the timers with these keys. -/
def cancelAll (t : Timeline α) (keys : List TimerKey) : Timeline α :=
  keys.foldl cancel t

/-- Whether a timer with this key is waiting. -/
def waiting (t : Timeline α) (key : TimerKey) : Bool :=
  t.timers.any (·.key == key)

/-- The earlier of two timers by key. -/
def earlier (a b : Timer α) : Timer α :=
  if b.key.before a.key then b else a

/-- The waiting timer with the earliest key. -/
def earliest? (t : Timeline α) : Option (Timer α) :=
  match t.timers with
  | [] => none
  | x :: rest => some (rest.foldl earlier x)

/-- The time an advance by `ms` runs to. -/
def target (t : Timeline α) (ms : Nat) : Nat := min (t.now + ms) wordLimit

/-- Takes the earliest timer if it is due by `target`, setting the clock to its due time. -/
def popDue (t : Timeline α) (target : Nat) : Option (α × Timeline α) :=
  match t.earliest? with
  | some tm =>
    if tm.key.due ≤ target then
      some (tm.task, { t with now := tm.key.due, timers := t.timers.filter (·.key != tm.key) })
    else none
  | none => none

/-- Runs the timers due by `target` on a world holding the timeline, then sets the clock to
`target`. `fire` runs one task and may fail. `fuel` bounds the number of timers run; callers pass
more than can ever fall due. -/
def runDue {σ ε : Type} (view : σ → Timeline α) (update : σ → Timeline α → σ)
    (fire : α → σ → Except ε σ) (target : Nat) : Nat → σ → Except ε σ
  | 0, s => .ok (update s { view s with now := target })
  | fuel + 1, s =>
    match (view s).popDue target with
    | none => .ok (update s { view s with now := target })
    | some (task, t') => do
      let s' ← fire task (update s t')
      runDue view update fire target fuel s'

end Timeline

end PageEditor
