import PageEditor.Timeline
/-!
# PageEditor.Timeline.Script

A script of timer operations against one timeline, for exercising it.

A script and the tasks it schedules make the same calls: schedule a task, whose handle is kept
under the task's id (replacing and so cancelling an older one), detached, dropped at once (which
cancels the task) or put into a group that can cancel all its members together; cancel or detach
a kept handle; cancel the group. A task that runs logs its id, then makes its calls in order,
with the clock at its due time, so tasks schedule tasks to any depth. A script also advances the
clock and describes kept handles; a kept handle stays armed even after its task ran.
-/

namespace PageEditor.TimerScript

/-- What becomes of a new task's handle. -/
inductive HandleUse where
  | keep
  | detach
  | drop
  | group
  deriving Repr, DecidableEq

/-- A call on the timeline and the handles, made by a script or by a running task. -/
inductive Call (α : Type) where
  /-- Schedules a task after a delay, doing `use` with its handle. -/
  | schedule (delay : Nat) (use : HandleUse) (task : α)
  /-- Cancels the handle kept under an id. -/
  | cancel (id : Nat)
  /-- Detaches the handle kept under an id. -/
  | detach (id : Nat)
  /-- Cancels every handle of the group. -/
  | cancelGroup
  deriving Repr

/-- A scheduled task: the id it logs when it runs, then the calls it makes. -/
structure Job where
  id : Nat
  calls : List (Call Job)
  deriving Repr

/-- One operation of a script. -/
inductive Step where
  | call (c : Call Job)
  | advance (ms : Nat)
  | describe (id : Nat)
  deriving Repr

/-- The answer of one operation. -/
inductive Reply where
  | nothing
  | flag (b : Bool)
  | text (s : String)
  deriving Repr, DecidableEq

/-- The timeline with the handles kept by id and the group's handles. -/
structure Bench where
  timeline : Timeline Job
  kept : List (Nat × TimerKey)
  group : List TimerKey
  fired : List Nat

/-- The state of a bench after one operation, as it is reported. -/
structure Outcome where
  reply : Reply
  fired : List Nat
  now : Nat
  pending : Nat
  groupSize : Nat
  deriving Repr, DecidableEq

/-- A bench with nothing scheduled. -/
def Bench.empty : Bench := ⟨Timeline.empty, [], [], []⟩

/-- The kept handle of an id. -/
def Bench.keptKey? (b : Bench) (id : Nat) : Option TimerKey :=
  (b.kept.find? (·.1 == id)).map (·.2)

/-- Forgets the kept handle of an id. -/
def Bench.release (b : Bench) (id : Nat) : Bench :=
  { b with kept := b.kept.filter (·.1 != id) }

/-- Makes one call. -/
def Bench.call (b : Bench) : Call Job → Except DueOverflow (Reply × Bench)
  | .schedule delay use job => do
    let (key, t) ← b.timeline.scheduleChecked delay job
    let b := { b with timeline := t }
    match use with
    | .keep =>
      let b := match b.keptKey? job.id with
        | some old => { b.release job.id with timeline := b.timeline.cancel old }
        | none => b
      pure (.nothing, { b with kept := b.kept ++ [(job.id, key)] })
    | .detach => pure (.nothing, b)
    | .drop => pure (.nothing, { b with timeline := b.timeline.cancel key })
    | .group => pure (.nothing, { b with group := b.group ++ [key] })
  | .cancel id =>
    match b.keptKey? id with
    | some key => pure (.flag true, { b.release id with timeline := b.timeline.cancel key })
    | none => pure (.flag false, b)
  | .detach id =>
    match b.keptKey? id with
    | some _ => pure (.flag true, b.release id)
    | none => pure (.flag false, b)
  | .cancelGroup =>
    pure (.nothing, { b with timeline := b.timeline.cancelAll b.group, group := [] })

/-- Runs one task: logs its id, then makes its calls. -/
def fire (job : Job) (b : Bench) : Except DueOverflow Bench :=
  job.calls.foldlM (fun b c => return (← b.call c).2) { b with fired := b.fired ++ [job.id] }

mutual
/-- How many tasks a job can run: itself and, through its calls, the tasks it schedules. -/
def Job.work : Job → Nat
  | ⟨_, calls⟩ => 1 + Job.callsWork calls

/-- How many tasks the tasks that calls schedule can run. -/
def Job.callsWork : List (Call Job) → Nat
  | [] => 0
  | c :: cs => Job.callWork c + Job.callsWork cs

/-- How many tasks the task that a call schedules can run. -/
def Job.callWork : Call Job → Nat
  | .schedule _ _ job => job.work
  | .cancel _ | .detach _ | .cancelGroup => 0
end

/-- How many tasks can still run: the work of each waiting task. -/
def Bench.workLeft (b : Bench) : Nat :=
  (b.timeline.timers.map (·.task.work)).foldr (· + ·) 0

/-- Applies one operation. -/
def Bench.step (b : Bench) : Step → Except DueOverflow (Reply × Bench)
  | .call c => b.call c
  | .advance ms => do
    let target := b.timeline.target ms
    let b ← Timeline.runDue Bench.timeline (fun b t => { b with timeline := t }) fire target
      (b.workLeft + 1) b
    pure (.nothing, b)
  | .describe id =>
    match b.keptKey? id with
    | some _ => pure (.text "TaskHandle \x7b armed: true \x7d", b)
    | none => pure (.nothing, b)

/-- Runs a script, reporting the bench after every operation. -/
def run (steps : List Step) : Except DueOverflow (List Outcome) :=
  let rec go (b : Bench) : List Step → Except DueOverflow (List Outcome)
    | [] => .ok []
    | s :: rest => do
      let (reply, b') ← ({ b with fired := [] } : Bench).step s
      let out : Outcome := ⟨reply, b'.fired, b'.timeline.now, b'.timeline.pending, b'.group.length⟩
      return out :: (← go b' rest)
  go Bench.empty steps

end PageEditor.TimerScript
