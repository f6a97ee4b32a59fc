import PageEditor.Timeline.Script
import PageEditor.Proofs.Timeline.History
import Mathlib
/-!
# PageEditor.Proofs.Timeline.Scripts

What holds of the timers over every script.

A script and the tasks it schedules make the same calls: schedule a task with a handle that is
kept, detached, dropped or grouped; cancel or detach a kept handle; cancel the group. A task that
runs logs its id and makes its calls, so within one advance tasks schedule and cancel tasks to
any depth. `Bench.booked` tells what a call does to the timers: the timer it schedules, then the
waiting timers its handles cancel (`call_edits`). `fireLog` and `Bench.stepLog` are `fire` and
`Bench.step` telling so (`fireLog_fire`, `stepLog_step`): for an advance, each timer that ran
with the clock its task saw, followed by what the task's calls did. `Reaches b J` says that a
script, run as `run` runs it, takes the empty bench to `b` telling `J`.

A task leaves less work than it took (`workLeft_fire_lt`), so the fuel of an advance outlasts
it. Every step keeps `Timeline.Journaled` (`journaled_stepLog`), so over every script
(`timers_run_once_in_key_order`):

* each task ran with the clock at its due time, tasks ran in strictly increasing key order (due
  time, then scheduling order), so none ran twice, and no cancelled task ran;
* the waiting timers are those scheduled that neither ran nor were cancelled, so their count is
  what was scheduled less what ran and what was cancelled;
* the next step never moves the clock back; an advance by `ms` leaves it at the old clock plus
  `ms`, capped at the largest word, and of the timers waiting before it or scheduled on the way
  it runs exactly those due by then that were not cancelled on the way; and cancelling a handle
  whose task ran or was cancelled changes nothing.
-/

namespace PageEditor

namespace Timeline

variable {α : Type}

/-- Scheduling within a word is scheduling. -/
theorem scheduleChecked_ok {t : Timeline α} {delay : Nat} {a : α} {r : TimerKey × Timeline α}
    (h : t.scheduleChecked delay a = .ok r) : r = t.schedule delay a := by
  unfold scheduleChecked at h
  split at h
  · exact (Except.ok.inj h).symm
  · cases h

end Timeline

namespace TimerScript

open Timeline

/-! ## What a call does -/

/-- The keys a new task's handle cancels at once: a kept handle replaces the one kept under its
id, and a dropped handle cancels its own task. -/
def Bench.displaced (b : Bench) (id : Nat) (key : TimerKey) : HandleUse → List TimerKey
  | .keep => (b.keptKey? id).toList
  | .drop => [key]
  | .detach | .group => []

/-- What a call does to the timers: the timer it schedules, then the waiting timers its handles
cancel. -/
def Bench.booked (b : Bench) : Call Job → List (Event Job)
  | .schedule delay use job =>
    let sc := b.timeline.schedule delay job
    .scheduled ⟨sc.1, job⟩ :: sc.2.cancelLog (b.displaced job.id sc.1 use)
  | .cancel id => b.timeline.cancelLog (b.keptKey? id).toList
  | .cancelGroup => b.timeline.cancelLog b.group
  | .detach _ => []

/-- A call that goes through schedules at most one task, then cancels keys, and tells so; the
task it schedules is all the work it adds. -/
theorem call_spec {b : Bench} {c : Call Job} {r : Reply} {b' : Bench}
    (h : b.call c = .ok (r, b')) :
    ∃ ks, (b'.timeline = b.timeline.cancelAll ks ∧ b.booked c = b.timeline.cancelLog ks ∧
        Job.callWork c = 0) ∨
      ∃ delay job, b'.timeline = (b.timeline.schedule delay job).2.cancelAll ks ∧
        b.booked c = .scheduled ⟨(b.timeline.schedule delay job).1, job⟩ ::
          (b.timeline.schedule delay job).2.cancelLog ks ∧ Job.callWork c = job.work := by
  cases c with
  | schedule delay use job =>
    refine ⟨b.displaced job.id (b.timeline.schedule delay job).1 use,
      .inr ⟨delay, job, ?_, rfl, rfl⟩⟩
    rw [Bench.call] at h
    cases hsc : b.timeline.scheduleChecked delay job with
    | error e => rw [hsc] at h; cases h
    | ok kt =>
      obtain ⟨key, t⟩ := kt
      rw [← scheduleChecked_ok hsc]
      rw [hsc] at h
      cases use <;> dsimp only [bind, Except.bind] at h
      case keep =>
        -- the handle kept before under this id, if any, is replaced and so cancelled
        split at h
        · rename_i old hold
          cases h
          show _ = t.cancelAll (b.keptKey? job.id).toList
          rw [show b.keptKey? job.id = some old from hold]
          rfl
        · rename_i hnone
          cases h
          show _ = t.cancelAll (b.keptKey? job.id).toList
          rw [show b.keptKey? job.id = none from hnone]
          rfl
      all_goals cases h; rfl
  | cancel id =>
    refine ⟨(b.keptKey? id).toList, .inl ⟨?_, rfl, rfl⟩⟩
    rw [Bench.call] at h
    cases hk : b.keptKey? id with
    | none => rw [hk] at h; cases h; rfl
    | some k => rw [hk] at h; cases h; rfl
  | detach id =>
    refine ⟨[], .inl ⟨?_, rfl, rfl⟩⟩
    rw [Bench.call] at h
    cases hk : b.keptKey? id with
    | none => rw [hk] at h; cases h; rfl
    | some k => rw [hk] at h; cases h; rfl
  | cancelGroup =>
    rw [Bench.call] at h
    cases h
    exact ⟨b.group, .inl ⟨rfl, rfl, rfl⟩⟩

/-- A call edits the timeline as it tells. -/
theorem call_edits {b : Bench} {c : Call Job} {r : Reply} {b' : Bench}
    (h : b.call c = .ok (r, b')) : Edits b.timeline (b.booked c) b'.timeline := by
  obtain ⟨ks, ⟨ht, hE, -⟩ | ⟨delay, job, ht, hE, -⟩⟩ := call_spec h
  · rw [ht, hE]
    exact Edits.cancelAll _ ks
  · rw [ht, hE, ← List.singleton_append]
    exact (Edits.scheduled _ delay job).trans (Edits.cancelAll _ ks)

/-- A call leaves the log of fired tasks alone. -/
theorem call_fired {b : Bench} {c : Call Job} {r : Reply} {b' : Bench}
    (h : b.call c = .ok (r, b')) : b'.fired = b.fired := by
  cases c with
  | schedule delay use job =>
    rw [Bench.call] at h
    cases hsc : b.timeline.scheduleChecked delay job with
    | error e => rw [hsc] at h; cases h
    | ok kt =>
      rw [hsc] at h
      cases use <;> dsimp only [bind, Except.bind] at h
      case keep => split at h <;> (cases h; rfl)
      all_goals cases h; rfl
  | cancel id =>
    rw [Bench.call] at h
    split at h <;> (cases h; rfl)
  | detach id =>
    rw [Bench.call] at h
    split at h <;> (cases h; rfl)
  | cancelGroup =>
    rw [Bench.call] at h
    cases h
    rfl

/-! ## The work left -/

theorem workLeft_eq (b : Bench) : b.workLeft = (b.timeline.timers.map (·.task.work)).sum := rfl

theorem work_eq (job : Job) : job.work = 1 + Job.callsWork job.calls := by
  cases job
  rw [Job.work]

theorem callsWork_cons (c : Call Job) (cs : List (Call Job)) :
    Job.callsWork (c :: cs) = Job.callWork c + Job.callsWork cs := by
  rw [Job.callsWork]

/-- Taking a timer away takes its work with it. -/
theorem sum_filter_key_add_le (w : Timer Job → Nat) (tm : Timer Job) :
    ∀ l : List (Timer Job), tm ∈ l →
      ((l.filter (·.key != tm.key)).map w).sum + w tm ≤ (l.map w).sum
  | [], h => nomatch h
  | x :: l, h => by
    by_cases hx : x.key = tm.key
    · have hdrop : (x :: l).filter (·.key != tm.key) = l.filter (·.key != tm.key) := by
        simp [hx]
      rw [hdrop, List.map_cons, List.sum_cons]
      rcases List.mem_cons.mp h with rfl | h
      · have : ((l.filter (·.key != tm.key)).map w).sum ≤ (l.map w).sum :=
          (List.filter_sublist.map w).sum_le_sum fun _ _ => Nat.zero_le _
        omega
      · have := sum_filter_key_add_le w tm l h
        omega
    · have hkeep : (x :: l).filter (·.key != tm.key) = x :: l.filter (·.key != tm.key) := by
        simp [hx]
      have h' : tm ∈ l := (List.mem_cons.mp h).resolve_left fun e => hx (e ▸ rfl)
      rw [hkeep, List.map_cons, List.sum_cons, List.map_cons, List.sum_cons]
      have := sum_filter_key_add_le w tm l h'
      omega

/-- A call adds at most the work of the task it schedules: cancelling only takes work away. -/
theorem call_workLeft {b : Bench} {c : Call Job} {r : Reply} {b' : Bench}
    (h : b.call c = .ok (r, b')) : b'.workLeft ≤ b.workLeft + Job.callWork c := by
  have hcut : ∀ (t : Timeline Job) ks, ((t.cancelAll ks).timers.map (·.task.work)).sum ≤
      (t.timers.map (·.task.work)).sum := by
    intro t ks
    rw [cancelAll_eq]
    exact (List.filter_sublist.map _).sum_le_sum fun _ _ => Nat.zero_le _
  obtain ⟨ks, ⟨ht, -, hw⟩ | ⟨delay, job, ht, -, hw⟩⟩ := call_spec h
  · rw [workLeft_eq, workLeft_eq, ht, hw]
    have := hcut b.timeline ks
    omega
  · have := hcut (b.timeline.schedule delay job).2 ks
    rw [schedule_timers, List.map_append, List.sum_append] at this
    rw [workLeft_eq, workLeft_eq, ht, hw]
    simp only [List.map_cons, List.map_nil, List.sum_cons, List.sum_nil] at this
    omega

/-! ## Running a task -/

/-- Makes a call after others, adding what it does to what they did. -/
def callLog (acc : List (Event Job) × Bench) (c : Call Job) :
    Except DueOverflow (List (Event Job) × Bench) :=
  (acc.2.call c).map fun r => (acc.1 ++ acc.2.booked c, r.2)

/-- `fire`, telling what the task's calls did to the timers. -/
def fireLog (job : Job) (b : Bench) : Except DueOverflow (List (Event Job) × Bench) :=
  job.calls.foldlM callLog ([], { b with fired := b.fired ++ [job.id] })

theorem foldlM_callLog (cs : List (Call Job)) :
    ∀ (F : List (Event Job)) (b : Bench), (cs.foldlM callLog (F, b)).map Prod.snd =
      cs.foldlM (fun b c => return (← b.call c).2) b := by
  induction cs with
  | nil => intro F b; rfl
  | cons c cs ih =>
    intro F b
    rw [List.foldlM_cons, List.foldlM_cons]
    cases hc : b.call c with
    | error e => simp [callLog, hc, bind, Except.bind, Except.map]
    | ok r =>
      simp only [callLog, hc, Except.map, bind, Except.bind, pure, Except.pure]
      exact ih _ _

/-- Telling what a task does changes nothing in what it does. -/
theorem fireLog_fire (job : Job) (b : Bench) : (fireLog job b).map Prod.snd = fire job b :=
  foldlM_callLog _ _ _

/-- Calls made one after another edit the timeline as they tell, adding at most the work of the
tasks they schedule, and leave the log of fired tasks alone. -/
theorem foldlM_callLog_spec (cs : List (Call Job)) :
    ∀ (F : List (Event Job)) (b : Bench) (F' : List (Event Job)) (b' : Bench),
      cs.foldlM callLog (F, b) = .ok (F', b') →
      ∃ G, F' = F ++ G ∧ Edits b.timeline G b'.timeline ∧
        b'.workLeft ≤ b.workLeft + Job.callsWork cs ∧ b'.fired = b.fired := by
  induction cs with
  | nil =>
    intro F b F' b' h
    obtain ⟨rfl, rfl⟩ := Prod.mk.inj (Except.ok.inj h)
    exact ⟨[], by simp, .refl _, by rw [Job.callsWork]; omega, rfl⟩
  | cons c cs ih =>
    intro F b F' b' h
    rw [List.foldlM_cons] at h
    cases hc : b.call c with
    | error e => simp [callLog, hc, bind, Except.bind, Except.map] at h
    | ok r =>
      simp only [callLog, hc, Except.map, bind, Except.bind] at h
      obtain ⟨G, rfl, hG, hw, hfired⟩ := ih _ _ _ _ h
      have hw₁ := call_workLeft hc
      refine ⟨b.booked c ++ G, by simp, (call_edits hc).trans hG, ?_,
        hfired.trans (call_fired hc)⟩
      rw [callsWork_cons]
      omega

/-- A task edits the timeline as it tells, adding at most the work of the tasks it schedules,
and logs its own id. -/
theorem fireLog_spec {job : Job} {b b' : Bench} {F : List (Event Job)}
    (h : fireLog job b = .ok (F, b')) :
    Edits b.timeline F b'.timeline ∧ b'.workLeft ≤ b.workLeft + Job.callsWork job.calls ∧
      b'.fired = b.fired ++ [job.id] := by
  obtain ⟨G, rfl, hG, hw, hfired⟩ := foldlM_callLog_spec job.calls [] _ F b' h
  exact ⟨by simpa using hG, hw, hfired⟩

/-- Running the earliest timer's task leaves less work than there was: the timer's own task is
gone, and what it scheduled is less than its work. -/
theorem workLeft_fire_lt {b b₂ : Bench} {tm : Timer Job} {F : List (Event Job)}
    (hmem : tm ∈ b.timeline.timers)
    (h : fireLog tm.task { b with timeline := b.timeline.take tm } = .ok (F, b₂)) :
    b₂.workLeft < b.workLeft := by
  have hfire := (fireLog_spec h).2.1
  have htake := sum_filter_key_add_le (·.task.work) tm _ hmem
  rw [work_eq] at htake
  simp only [workLeft_eq, take_timers] at hfire ⊢
  omega

/-- An advance of a bench keeps the account of its timers, leaves the clock at the target with
nothing due by it waiting, and runs only timers due by the target. -/
theorem advance_journaled {b b' : Bench} {J E : List (Event Job)} {ms : Nat}
    (hJ : b.timeline.Journaled J)
    (h : runDueLog Bench.timeline (fun b t => { b with timeline := t }) fireLog
      (b.timeline.target ms) (b.workLeft + 1) b = .ok (E, b')) :
    b'.timeline.Journaled (J ++ E) ∧ b'.timeline.now = b.timeline.target ms ∧
      (∀ x ∈ b'.timeline.timers, b.timeline.target ms < x.key.due) ∧
      ∀ tm c, Event.ran tm c ∈ E → c ≤ b.timeline.target ms :=
  runDueLog_journaled (fun _ _ => rfl) (fun _ _ _ _ h => (fireLog_spec h).1) Bench.workLeft
    (fun _ _ _ _ he h => workLeft_fire_lt (earliest?_spec he).1 h) (Nat.min_le_right _ _)
    _ _ _ _ _ hJ (Nat.le_min.mpr ⟨Nat.le_add_right _ _, hJ.orderly.now_le⟩) (Nat.lt_succ_self _) h

/-- An advance logs the ids of the tasks it ran, in the order they ran. -/
theorem advance_fired {target : Nat} :
    ∀ fuel (b : Bench) (E : List (Event Job)) (b' : Bench),
      runDueLog Bench.timeline (fun b t => { b with timeline := t }) fireLog target fuel b =
        .ok (E, b') → b'.fired = b.fired ++ (Event.ranTimers E).map (·.task.id)
  | 0, b, E, b', h => by
    obtain ⟨rfl, rfl⟩ := Prod.mk.inj (Except.ok.inj h)
    simp
  | fuel + 1, b, E, b', h => by
    rcases runDueLog_succ h with ⟨tm, F, b₂, E', -, -, hfire, hrec, rfl⟩ | ⟨-, rfl, rfl⟩
    · obtain ⟨hed, -, hfired⟩ := fireLog_spec hfire
      rw [advance_fired fuel b₂ E' b' hrec, hfired, List.cons_append, Event.ranTimers_cons,
        Event.ranTimers_append, hed.ranTimers_eq_nil]
      simp
    · simp

/-! ## A step, told -/

/-- A step of a bench, telling what happened to the timers. -/
def Bench.stepLog (b : Bench) : Step → Except DueOverflow (List (Event Job) × Reply × Bench)
  | .call c => (b.call c).map fun r => (b.booked c, r)
  | .advance ms => do
    let (E, b') ← runDueLog Bench.timeline (fun b t => { b with timeline := t }) fireLog
      (b.timeline.target ms) (b.workLeft + 1) b
    pure (E, .nothing, b')
  | .describe id => (b.step (.describe id)).map fun r => ([], r)

/-- Telling what happens changes nothing in what a step does. -/
theorem stepLog_step (b : Bench) (s : Step) : (b.stepLog s).map (·.2) = b.step s := by
  cases s with
  | call c =>
    rw [Bench.stepLog, Bench.step]
    cases b.call c <;> rfl
  | advance ms =>
    rw [Bench.stepLog, Bench.step, ← runDueLog_run _ _ fire fireLog _ fireLog_fire]
    cases runDueLog Bench.timeline (fun b t => { b with timeline := t }) fireLog
      (b.timeline.target ms) (b.workLeft + 1) b <;> rfl
  | describe id =>
    rw [Bench.stepLog]
    cases b.step (.describe id) <;> rfl

theorem stepLog_call {b : Bench} {c : Call Job} {E : List (Event Job)} {r : Reply} {b' : Bench}
    (h : b.stepLog (.call c) = .ok (E, r, b')) : b.call c = .ok (r, b') ∧ E = b.booked c := by
  rw [Bench.stepLog] at h
  cases hc : b.call c with
  | error e => rw [hc] at h; cases h
  | ok p =>
    rw [hc] at h
    cases h
    exact ⟨rfl, rfl⟩

theorem stepLog_advance {b : Bench} {ms : Nat} {E : List (Event Job)} {r : Reply} {b' : Bench}
    (h : b.stepLog (.advance ms) = .ok (E, r, b')) :
    runDueLog Bench.timeline (fun b t => { b with timeline := t }) fireLog (b.timeline.target ms)
      (b.workLeft + 1) b = .ok (E, b') := by
  rw [Bench.stepLog] at h
  cases hrun : runDueLog Bench.timeline (fun b t => { b with timeline := t }) fireLog
      (b.timeline.target ms) (b.workLeft + 1) b with
  | error e => rw [hrun] at h; cases h
  | ok p =>
    rw [hrun] at h
    cases h
    rfl

/-- Describing a handle tells nothing and changes nothing. -/
theorem stepLog_describe {b : Bench} {id : Nat} {E : List (Event Job)} {r : Reply} {b' : Bench}
    (h : b.stepLog (.describe id) = .ok (E, r, b')) : E = [] ∧ b' = b := by
  simp only [Bench.stepLog, Bench.step] at h
  cases hk : b.keptKey? id with
  | none =>
    rw [hk] at h
    cases h
    exact ⟨rfl, rfl⟩
  | some k =>
    rw [hk] at h
    cases h
    exact ⟨rfl, rfl⟩

/-! ## Every script -/

/-- A script, each step taken as `run` takes it, takes the empty bench to `b`, telling `J`. -/
inductive Reaches : Bench → List (Event Job) → Prop
  | empty : Reaches Bench.empty []
  | step {b : Bench} {J : List (Event Job)} {s : Step} {E : List (Event Job)} {r : Reply}
      {b' : Bench} :
      Reaches b J → ({ b with fired := [] } : Bench).stepLog s = .ok (E, r, b') →
      Reaches b' (J ++ E)

/-- Every step a script takes from a bench it reaches is a step of `Reaches`. -/
theorem Reaches.of_step {b : Bench} {J : List (Event Job)} (hr : Reaches b J) {s : Step}
    {r : Reply} {b' : Bench} (h : ({ b with fired := [] } : Bench).step s = .ok (r, b')) :
    ∃ E, Reaches b' (J ++ E) := by
  have hlog := stepLog_step { b with fired := [] } s
  rw [h] at hlog
  cases hs : ({ b with fired := [] } : Bench).stepLog s with
  | error e => rw [hs] at hlog; cases hlog
  | ok p =>
    obtain ⟨E, r', b''⟩ := p
    rw [hs] at hlog
    cases hlog
    exact ⟨E, .step hr hs⟩

/-- Every step keeps the account of the timers. -/
theorem journaled_stepLog {b : Bench} {J : List (Event Job)} {s : Step} {E : List (Event Job)}
    {r : Reply} {b' : Bench} (hJ : b.timeline.Journaled J) (h : b.stepLog s = .ok (E, r, b')) :
    b'.timeline.Journaled (J ++ E) := by
  cases s with
  | call c =>
    obtain ⟨hc, rfl⟩ := stepLog_call h
    exact hJ.edits (call_edits hc)
  | advance ms => exact (advance_journaled hJ (stepLog_advance h)).1
  | describe id =>
    obtain ⟨rfl, rfl⟩ := stepLog_describe h
    simpa using hJ

theorem Reaches.journaled {b : Bench} {J : List (Event Job)} (hr : Reaches b J) :
    b.timeline.Journaled J := by
  induction hr with
  | empty => exact Journaled.empty
  | @step b J s E r b' _ h ih => exact @journaled_stepLog { b with fired := [] } J s E r b' ih h

/-- A step logs the ids of the tasks it ran, in the order they ran. -/
theorem stepLog_fired {b : Bench} {s : Step} {E : List (Event Job)} {r : Reply} {b' : Bench}
    (h : b.stepLog s = .ok (E, r, b')) :
    b'.fired = b.fired ++ (Event.ranTimers E).map (·.task.id) := by
  cases s with
  | call c =>
    obtain ⟨hc, rfl⟩ := stepLog_call h
    rw [call_fired hc, (call_edits hc).ranTimers_eq_nil, List.map_nil, List.append_nil]
  | advance ms => exact advance_fired _ _ _ _ (stepLog_advance h)
  | describe id =>
    obtain ⟨rfl, rfl⟩ := stepLog_describe h
    simp

/-- A step never moves the clock back. An advance by `ms` moves it to the old clock plus `ms`,
capped at the largest word, and of the timers waiting before it or scheduled on the way, runs
exactly those due by then that were not cancelled on the way. -/
theorem stepLog_clock {b : Bench} {J : List (Event Job)} (hJ : b.timeline.Journaled J)
    {s : Step} {E : List (Event Job)} {r : Reply} {b' : Bench}
    (h : b.stepLog s = .ok (E, r, b')) :
    b.timeline.now ≤ b'.timeline.now ∧
      ∀ ms, s = .advance ms → b'.timeline.now = min (b.timeline.now + ms) wordLimit ∧
        ∀ x ∈ b.timeline.timers ++ Event.born E, x.key ∉ Event.cancelledKeys E →
          (x.key.due ≤ b'.timeline.now ↔ x.key ∈ Event.ranKeys E) := by
  cases s with
  | call c =>
    obtain ⟨hc, -⟩ := stepLog_call h
    exact ⟨Nat.le_of_eq (call_edits hc).now_eq.symm, fun ms hms => by cases hms⟩
  | advance ms =>
    obtain ⟨hJ', hnow, hwait, hran⟩ := advance_journaled hJ (stepLog_advance h)
    refine ⟨?_, fun ms' hms => ?_⟩
    · rw [hnow]
      exact Nat.le_min.mpr ⟨Nat.le_add_right _ _, hJ.orderly.now_le⟩
    · cases hms
      rw [hnow]
      exact ⟨rfl, hJ.window hJ' hwait hran⟩
  | describe id =>
    obtain ⟨-, rfl⟩ := stepLog_describe h
    exact ⟨Nat.le_refl _, fun ms hms => by cases hms⟩

/-- **Timers run once, at their due time, in key order.** Over every script, whatever its tasks
schedule and cancel as they run: each task ran with the clock at its due time; tasks ran in
strictly increasing key order (due time, then scheduling order), so none twice, and only tasks
that were scheduled, and each step reports fired the ids of the tasks it ran, in that order; no
cancelled task ran; the waiting timers are those scheduled that neither
ran nor were cancelled, in scheduling order, so their count is what was scheduled less what ran
and what was cancelled; cancelling through a handle whose task ran or was cancelled changes
nothing; and the next step never moves the clock back, while an advance by `ms` moves it to the
old clock plus `ms`, capped at the largest word, and of the timers waiting before it or
scheduled on the way runs exactly those due by then that were not cancelled on the way. -/
theorem timers_run_once_in_key_order {b : Bench} {J : List (Event Job)} (hr : Reaches b J) :
    (∀ tm c, Event.ran tm c ∈ J → c = tm.key.due) ∧
    (Event.ranKeys J).Pairwise (fun a b => a.before b = true) ∧
    (∀ tm ∈ Event.ranTimers J, tm ∈ Event.born J) ∧
    (∀ k ∈ Event.cancelledKeys J, k ∉ Event.ranKeys J) ∧
    b.timeline.timers = (Event.born J).filter
      (fun x => x.key ∉ Event.ranKeys J ∧ x.key ∉ Event.cancelledKeys J) ∧
    b.timeline.pending + (Event.ranKeys J).length + (Event.cancelledKeys J).length =
      (Event.born J).length ∧
    (∀ k, k ∈ Event.ranKeys J ∨ k ∈ Event.cancelledKeys J → b.timeline.cancel k = b.timeline) ∧
    ∀ s E r b', ({ b with fired := [] } : Bench).stepLog s = .ok (E, r, b') →
      b'.fired = (Event.ranTimers E).map (·.task.id) ∧
      b.timeline.now ≤ b'.timeline.now ∧
      ∀ ms, s = .advance ms → b'.timeline.now = min (b.timeline.now + ms) wordLimit ∧
        ∀ x ∈ b.timeline.timers ++ Event.born E, x.key ∉ Event.cancelledKeys E →
          (x.key.due ≤ b'.timeline.now ↔ x.key ∈ Event.ranKeys E) := by
  have hJ := hr.journaled
  exact ⟨hJ.clock, hJ.order, hJ.ran_born, hJ.disjoint, hJ.waiting, hJ.pending_add,
    fun _ hk => hJ.cancel_stale hk,
    fun _ _ _ _ h => ⟨by simpa using stepLog_fired h,
      @stepLog_clock { b with fired := [] } _ hJ _ _ _ _ h⟩⟩

/-- A task due at 100 that schedules a task 50 later, which schedules one 10 later, and then
cancels the task kept under id 3. -/
def nestedJob : Job := ⟨1, [.schedule 50 .detach ⟨2, [.schedule 10 .detach ⟨4, []⟩]⟩, .cancel 3]⟩

/-- After keeping a task due at 300 under id 3, scheduling `nestedJob` and advancing by 400: the
three nested tasks ran, the kept one was cancelled by the first. -/
def nestedBench : Bench := ⟨⟨400, 4, []⟩, [], [], [1, 2, 4]⟩

/-- What the script of `nestedBench` told. -/
def nestedLog : List (Event Job) :=
  [.scheduled ⟨⟨300, 0⟩, ⟨3, []⟩⟩, .scheduled ⟨⟨100, 1⟩, nestedJob⟩,
    .ran ⟨⟨100, 1⟩, nestedJob⟩ 100,
    .scheduled ⟨⟨150, 2⟩, ⟨2, [.schedule 10 .detach ⟨4, []⟩]⟩⟩, .cancelled ⟨300, 0⟩,
    .ran ⟨⟨150, 2⟩, ⟨2, [.schedule 10 .detach ⟨4, []⟩]⟩⟩ 150,
    .scheduled ⟨⟨160, 3⟩, ⟨4, []⟩⟩, .ran ⟨⟨160, 3⟩, ⟨4, []⟩⟩ 160]

set_option maxRecDepth 4000 in
theorem reaches_nested : Reaches nestedBench nestedLog :=
  @Reaches.step ⟨⟨0, 2, [⟨⟨300, 0⟩, ⟨3, []⟩⟩, ⟨⟨100, 1⟩, nestedJob⟩]⟩, [(3, ⟨300, 0⟩)], [], []⟩
    [.scheduled ⟨⟨300, 0⟩, ⟨3, []⟩⟩, .scheduled ⟨⟨100, 1⟩, nestedJob⟩] (.advance 400) _ .nothing
    nestedBench
    (@Reaches.step ⟨⟨0, 1, [⟨⟨300, 0⟩, ⟨3, []⟩⟩]⟩, [(3, ⟨300, 0⟩)], [], []⟩
      [.scheduled ⟨⟨300, 0⟩, ⟨3, []⟩⟩] (.call (.schedule 100 .detach nestedJob)) _ .nothing _
      (@Reaches.step Bench.empty [] (.call (.schedule 300 .keep ⟨3, []⟩)) _ .nothing _ .empty rfl)
      rfl)
    rfl

theorem timers_run_once_in_key_order_nested :
    Reaches nestedBench nestedLog ∧
    ((∀ tm c, Event.ran tm c ∈ nestedLog → c = tm.key.due) ∧
    (Event.ranKeys nestedLog).Pairwise (fun a b => a.before b = true) ∧
    (∀ tm ∈ Event.ranTimers nestedLog, tm ∈ Event.born nestedLog) ∧
    (∀ k ∈ Event.cancelledKeys nestedLog, k ∉ Event.ranKeys nestedLog) ∧
    nestedBench.timeline.timers = (Event.born nestedLog).filter
      (fun x => x.key ∉ Event.ranKeys nestedLog ∧ x.key ∉ Event.cancelledKeys nestedLog) ∧
    nestedBench.timeline.pending + (Event.ranKeys nestedLog).length +
      (Event.cancelledKeys nestedLog).length = (Event.born nestedLog).length ∧
    (∀ k, k ∈ Event.ranKeys nestedLog ∨ k ∈ Event.cancelledKeys nestedLog →
      nestedBench.timeline.cancel k = nestedBench.timeline) ∧
    ∀ s E r b', ({ nestedBench with fired := [] } : Bench).stepLog s = .ok (E, r, b') →
      b'.fired = (Event.ranTimers E).map (·.task.id) ∧
      nestedBench.timeline.now ≤ b'.timeline.now ∧
      ∀ ms, s = .advance ms → b'.timeline.now = min (nestedBench.timeline.now + ms) wordLimit ∧
        ∀ x ∈ nestedBench.timeline.timers ++ Event.born E, x.key ∉ Event.cancelledKeys E →
          (x.key.due ≤ b'.timeline.now ↔ x.key ∈ Event.ranKeys E)) :=
  ⟨reaches_nested, timers_run_once_in_key_order reaches_nested⟩

end TimerScript

end PageEditor
