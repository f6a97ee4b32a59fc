import Mathlib.Data.List.Induction
import PageEditor.Proofs.Timeline.History
import PageEditor.Proofs.Page.Actions
/-!
# PageEditor.Proofs.Page.Clock

The timers of a page: several booked at once, and what an advance does to the page.

A component that schedules several removals books one timer after another
(`Timeline.bookAll`): the `j`-th is due at the clock plus its own delay and takes the `j`-th
next sequence number (`Timeline.booked`, `Timeline.bookAll_timers`). Booking and cancelling
keep a timeline orderly (`Orderly.bookAll`, `Orderly.cancelAll`).

An advance of the page takes its due timers in key order and carries out their chores, each
with the clock at its timer's due time. Chores schedule nothing and touch only the document,
so the page after an advance is the page before with the chores of the timers that ran
carried out in order, under the new timeline (`advance_told`); and it always goes through
(`advance_ok`).

A timeline where every waiting timer removes a node stays so, and orderly, under booking,
cancelling and advancing (`Timed`).
-/

namespace PageEditor

namespace Timeline

variable {α : Type}

/-! ## Booking several timers -/

/-- Schedules tasks one after another, each after its own delay. -/
def bookAll (t : Timeline α) (L : List (Nat × α)) : Timeline α :=
  L.foldl (fun t x => (t.schedule x.1 x.2).2) t

/-- The timers `bookAll` adds: the `j`-th due at the clock plus its delay, under the `j`-th
next sequence number. -/
def booked (t : Timeline α) (L : List (Nat × α)) : List (Timer α) :=
  L.zipIdx.map fun x => ⟨⟨t.now + x.1.1, t.nextSeq + x.2⟩, x.1.2⟩

theorem bookAll_append (t : Timeline α) (L : List (Nat × α)) (x : Nat × α) :
    t.bookAll (L ++ [x]) = ((t.bookAll L).schedule x.1 x.2).2 := by
  simp [bookAll]

theorem booked_append (t : Timeline α) (L : List (Nat × α)) (x : Nat × α) :
    t.booked (L ++ [x]) = t.booked L ++ [⟨⟨t.now + x.1, t.nextSeq + L.length⟩, x.2⟩] := by
  simp [booked, List.zipIdx_append]

theorem booked_cons (t : Timeline α) (x : Nat × α) (L : List (Nat × α)) :
    t.booked (x :: L) = ⟨⟨t.now + x.1, t.nextSeq⟩, x.2⟩ :: (t.schedule x.1 x.2).2.booked L := by
  simp [booked, List.zipIdx_succ, Nat.add_assoc, Nat.add_comm 1]

@[simp] theorem bookAll_now (t : Timeline α) (L : List (Nat × α)) : (t.bookAll L).now = t.now := by
  induction L using List.reverseRecOn with
  | nil => rfl
  | append_singleton L x ih => rw [bookAll_append, schedule_now, ih]

@[simp] theorem bookAll_nextSeq (t : Timeline α) (L : List (Nat × α)) :
    (t.bookAll L).nextSeq = t.nextSeq + L.length := by
  induction L using List.reverseRecOn with
  | nil => rfl
  | append_singleton L x ih => simp [bookAll_append, ih, Nat.add_assoc]

/-- Booking adds the booked timers after the waiting ones. -/
theorem bookAll_timers (t : Timeline α) (L : List (Nat × α)) :
    (t.bookAll L).timers = t.timers ++ t.booked L := by
  induction L using List.reverseRecOn with
  | nil => simp [bookAll, booked]
  | append_singleton L x ih => simp [bookAll_append, booked_append, ih]

@[simp] theorem bornSince_self (t : Timeline α) : bornSince t t = [] := by
  simp [bornSince]

/-- A booked timer is due at the clock plus the delay of one of the bookings, runs that booking's
task, and takes a sequence number from `nextSeq` on. -/
theorem mem_booked {t : Timeline α} {L : List (Nat × α)} {z : Timer α} (hz : z ∈ t.booked L) :
    ∃ y ∈ L, z.key.due = t.now + y.1 ∧ t.nextSeq ≤ z.key.seq ∧ z.task = y.2 := by
  simp only [booked, List.mem_map] at hz
  obtain ⟨x, hx, rfl⟩ := hz
  exact ⟨x.1, List.fst_mem_of_mem_zipIdx hx, rfl, Nat.le_add_right _ _, rfl⟩

/-- Bookings whose delays never decrease get keys in increasing order: the later booking is due
no earlier and was scheduled later. -/
theorem booked_ordered (t : Timeline α) {L : List (Nat × α)}
    (hL : L.Pairwise fun x y => x.1 ≤ y.1) :
    ((t.booked L).map (·.key)).Pairwise fun a b => a.before b = true := by
  induction L generalizing t with
  | nil => simp [booked]
  | cons x L ih =>
    rw [booked_cons, List.map_cons, List.pairwise_cons]
    refine ⟨fun k hk => ?_, ih _ (List.pairwise_cons.mp hL).2⟩
    obtain ⟨z, hz, rfl⟩ := List.mem_map.mp hk
    obtain ⟨y, hy, hdue, hseq, -⟩ := mem_booked hz
    have hxy := (List.pairwise_cons.mp hL).1 y hy
    simp only [schedule_now, schedule_nextSeq] at hdue hseq
    rw [TimerKey.before_eq_true, hdue]
    dsimp only
    omega

namespace Orderly

variable {t : Timeline α} {last : Option TimerKey}

theorem bookAll (h : Orderly t last) (L : List (Nat × α)) : Orderly (t.bookAll L) last := by
  induction L using List.reverseRecOn with
  | nil => exact h
  | append_singleton L x ih =>
    rw [bookAll_append]
    exact ih.schedule x.1 x.2

theorem cancelAll (h : Orderly t last) (ks : List TimerKey) : Orderly (t.cancelAll ks) last := by
  induction ks generalizing t with
  | nil => exact h
  | cons k ks ih => exact ih (h.cancel k)

end Orderly

end Timeline

/-! ## An advance of a page -/

namespace Ui

open Timeline

/-- The page after the chores of some timers, carried out in order. -/
def Chore.performAll (tms : List (Timer Chore)) (p : Page) : Page :=
  tms.foldl (fun p tm => tm.task.perform p) p

@[simp] theorem Chore.perform_timeline (c : Chore) (p : Page) :
    (c.perform p).timeline = p.timeline := by
  cases c with
  | detach n => rfl
  | activate n cls => by_cases hc : p.doc.isConnected n <;> simp [Chore.perform, hc]

/-- A chore reads and writes only the document, so it commutes with setting the timeline. -/
theorem Chore.perform_setTimeline (c : Chore) (p : Page) (t : Timeline Chore) :
    c.perform { p with timeline := t } = { c.perform p with timeline := t } := by
  cases c with
  | detach n => simp [Chore.perform]
  | activate n cls => by_cases hc : p.doc.isConnected n <;> simp [Chore.perform, hc]

theorem Chore.performAll_setTimeline (tms : List (Timer Chore)) (p : Page)
    (t : Timeline Chore) :
    Chore.performAll tms { p with timeline := t } = { Chore.performAll tms p with timeline := t } := by
  induction tms generalizing p with
  | nil => rfl
  | cons tm tms ih =>
    simp only [Chore.performAll, List.foldl_cons] at ih ⊢
    rw [Chore.perform_setTimeline, ih]

theorem Chore.performAll_timeline (tms : List (Timer Chore)) (p : Page) :
    (Chore.performAll tms p).timeline = p.timeline := by
  induction tms generalizing p with
  | nil => rfl
  | cons tm tms ih =>
    simp only [Chore.performAll, List.foldl_cons] at ih ⊢
    rw [ih, Chore.perform_timeline]

/-- The world an advance of a page runs on: the page, its timeline read and set whole. -/
abbrev setTimeline (p : Page) (t : Timeline Chore) : Page := { p with timeline := t }

/-- How a page fires a chore. -/
abbrev fireChore (c : Chore) (p : Page) : Except DueOverflow Page := .ok (c.perform p)

/-- How a page fires a chore, telling what it did to the timeline: nothing. -/
abbrev fireChoreLog (c : Chore) (p : Page) : Except DueOverflow (List (Event Chore) × Page) :=
  .ok ([], c.perform p)

/-- An advance of a page, timer by timer: it schedules nothing, and leaves the page with the
chores of the timers it ran carried out in order. -/
theorem runDueLog_performs (target : Nat) :
    ∀ fuel (p : Page) E q,
      runDueLog Page.timeline setTimeline fireChoreLog target fuel p = .ok (E, q) →
      Event.born E = [] ∧ q = { Chore.performAll (Event.ranTimers E) p with timeline := q.timeline }
  | 0, p, E, q, h => by
    obtain ⟨rfl, rfl⟩ := Prod.mk.inj (Except.ok.inj h)
    exact ⟨rfl, rfl⟩
  | fuel + 1, p, E, q, h => by
    rcases runDueLog_succ h with ⟨tm, F, p₂, E', -, -, hfire, hrec, rfl⟩ | ⟨-, rfl, rfl⟩
    · obtain ⟨rfl, rfl⟩ := Prod.mk.inj (Except.ok.inj hfire)
      obtain ⟨hborn, hq⟩ := runDueLog_performs target fuel _ E' q hrec
      refine ⟨by simp [hborn], ?_⟩
      rw [List.cons_append, List.nil_append, Event.ranTimers_cons, hq]
      simp only [Event.ran?, Option.toList_some, List.singleton_append, Chore.performAll,
        List.foldl_cons, setTimeline]
      rw [Chore.perform_setTimeline, ← Chore.performAll, ← Chore.performAll,
        Chore.performAll_setTimeline]
    · exact ⟨rfl, rfl⟩

/-- **What an advance of a page does.** From an orderly timeline, an advance by `ms` runs the
timers due by the old clock plus `ms` (capped at the largest word) as `Advanced` says: in key
order after `last`, each with the clock at its due time, exactly those due by the target; the
others wait. It schedules nothing, and the page after it is the page before with the chores of
the timers that ran carried out in order, under the new timeline. -/
theorem advance_told {p q : Page} {ms : Nat} {last : Option TimerKey}
    (ho : p.timeline.Orderly last) (h : (advance ms).run p = .ok ((), q)) :
    ∃ E, Advanced Page.timeline (p.timeline.target ms) last p E q ∧ Event.born E = [] ∧
      q = { Chore.performAll (Event.ranTimers E) p with timeline := q.timeline } := by
  have hlog := runDueLog_run Page.timeline setTimeline fireChore fireChoreLog
    (p.timeline.target ms) (fun _ _ => rfl) (p.timeline.pending + 1) p
  rw [runDue_of_advance h] at hlog
  cases hr : runDueLog Page.timeline setTimeline fireChoreLog (p.timeline.target ms)
      (p.timeline.pending + 1) p with
  | error e => rw [hr] at hlog; cases hlog
  | ok Eq =>
    obtain ⟨E, q'⟩ := Eq
    rw [hr] at hlog
    obtain rfl : q' = q := Except.ok.inj hlog
    -- a chore leaves the timeline alone, and taking a timer shortens it
    have hf : ∀ (c : Chore) (s : Page) F s', fireChoreLog c s = .ok (F, s') →
        Schedules s.timeline s'.timeline ∧
          F = (bornSince s.timeline s'.timeline).map .scheduled := by
      intro c s F s' hs
      obtain ⟨rfl, rfl⟩ := Prod.mk.inj (Except.ok.inj hs)
      rw [Chore.perform_timeline, bornSince_self]
      exact ⟨.refl _, rfl⟩
    have hμ : ∀ (s : Page) tm F s', s.timeline.earliest? = some tm →
        fireChoreLog tm.task (setTimeline s (s.timeline.take tm)) = .ok (F, s') →
        s'.timeline.pending < s.timeline.pending := by
      intro s tm F s' he hs
      obtain ⟨-, rfl⟩ := Prod.mk.inj (Except.ok.inj hs)
      have hmem := (earliest?_spec he).1
      simp only [Chore.perform_timeline, setTimeline, pending, take_timers]
      exact List.length_filter_lt_length_iff_exists.mpr ⟨tm, hmem, by simp⟩
    have hA := runDueLog_spec (fun _ _ => rfl) hf (fun s => s.timeline.pending) hμ
      (Nat.min_le_right _ _) _ p last E q' ho
      (Nat.le_min.mpr ⟨Nat.le_add_right _ _, ho.now_le⟩) (Nat.lt_succ_self _) hr
    exact ⟨E, hA, runDueLog_performs _ _ p E q' hr⟩

/-! ## Timelines of removals -/

/-- Whether every booking of a list detaches a node. -/
def Detaching (L : List (Nat × Chore)) : Prop := ∀ y ∈ L, ∃ m, y.2 = .detach m

/-- A timeline of removals: it is orderly after some last timer run, and every waiting timer
detaches a node. -/
structure Timed (t : Timeline Chore) : Prop where
  orderly : ∃ last, t.Orderly last
  detaches : ∀ x ∈ t.timers, ∃ m, x.task = .detach m

namespace Timed

variable {t : Timeline Chore}

theorem empty : Timed (Timeline.empty : Timeline Chore) :=
  ⟨⟨none, Orderly.empty⟩, fun _ hx => nomatch hx⟩

theorem bookAll (h : Timed t) {L : List (Nat × Chore)} (hL : Detaching L) : Timed (t.bookAll L) := by
  obtain ⟨last, ho⟩ := h.orderly
  refine ⟨⟨last, ho.bookAll L⟩, fun x hx => ?_⟩
  rw [bookAll_timers] at hx
  rcases List.mem_append.mp hx with hx | hx
  · exact h.detaches x hx
  · obtain ⟨y, hy, -, -, htask⟩ := mem_booked hx
    obtain ⟨m, hm⟩ := hL y hy
    exact ⟨m, htask.trans hm⟩

theorem schedule (h : Timed t) (delay m : Nat) : Timed (t.schedule delay (.detach m)).2 :=
  show Timed (t.bookAll [(delay, .detach m)]) from
    h.bookAll fun y hy => ⟨m, by rw [List.mem_singleton.mp hy]⟩

theorem cancelAll (h : Timed t) (ks : List TimerKey) : Timed (t.cancelAll ks) := by
  obtain ⟨last, ho⟩ := h.orderly
  refine ⟨⟨last, ho.cancelAll ks⟩, fun x hx => ?_⟩
  rw [cancelAll_eq] at hx
  exact h.detaches x (List.mem_filter.mp hx).1

/-- An advance keeps the timeline timed: it schedules nothing, and what waits after it waited
before. -/
theorem advance {p q : Page} (h : Timed p.timeline) {ms : Nat}
    (hq : (Ui.advance ms).run p = .ok ((), q)) : Timed q.timeline := by
  obtain ⟨last, ho⟩ := h.orderly
  obtain ⟨E, hA, hborn, -⟩ := advance_told ho hq
  refine ⟨⟨_, hA.orderly⟩, fun x hx => ?_⟩
  rw [hA.waiting, hborn, List.append_nil] at hx
  exact h.detaches x (List.mem_filter.mp hx).1

end Timed

/-- An advance of a page always goes through: no chore fails. -/
theorem advance_ok (ms : Nat) (p : Page) : ∃ q, (advance ms).run p = .ok ((), q) := by
  unfold advance
  simp only [StateT.run_bind, StateT.run_get, except_pure, except_ok_bind, StateT.run_lift,
    StateT.run_set]
  have hlog := runDueLog_run Page.timeline setTimeline fireChore fireChoreLog
    (p.timeline.target ms) (fun _ _ => rfl) (p.timeline.pending + 1) p
  cases hr : runDueLog Page.timeline setTimeline fireChoreLog (p.timeline.target ms)
      (p.timeline.pending + 1) p with
  | error e =>
    obtain ⟨_, _, he⟩ := runDueLog_error _ _ hr
    cases he
  | ok Eq =>
    rw [hr] at hlog
    rw [← hlog]
    exact ⟨Eq.2, rfl⟩

/-- On a timeline of removals an advance by `ms` goes through and runs its timers as
`Advanced` says, from the last timer run, scheduling nothing. -/
theorem Timed.advance_runs {p : Page} (h : Timed p.timeline) (ms : Nat) :
    ∃ last E q, (Ui.advance ms).run p = .ok ((), q) ∧
      Advanced Page.timeline (p.timeline.target ms) last p E q ∧ Event.born E = [] ∧
      q = { Chore.performAll (Event.ranTimers E) p with timeline := q.timeline } := by
  obtain ⟨last, ho⟩ := h.orderly
  obtain ⟨q, hq⟩ := advance_ok ms p
  obtain ⟨E, hA, hborn, hperf⟩ := advance_told ho hq
  exact ⟨last, E, q, hq, hA, hborn, hperf⟩

/-- An advance keeps every property of the document that each chore keeps. -/
theorem advance_doc {P : Markup.Document Reaction → Prop}
    (hP : ∀ (c : Chore) (s : Page), P s.doc → P (c.perform s).doc) {ms : Nat} {p q : Page}
    (h : (advance ms).run p = .ok ((), q)) (hp : P p.doc) : P q.doc := by
  have hf : ∀ (c : Chore) (s s' : Page), P s.doc →
      (Except.ok (c.perform s) : Except DueOverflow Page) = .ok s' → P s'.doc := by
    intro c s s' hs he
    cases he
    exact hP c s hs
  have hu : ∀ (s : Page) (t : Timeline Chore), P s.doc → P { s with timeline := t }.doc :=
    fun _ _ hs => hs
  exact runDue_preserves (fun s => P s.doc) hu hf _ p q hp (runDue_of_advance h)

end Ui

end PageEditor
