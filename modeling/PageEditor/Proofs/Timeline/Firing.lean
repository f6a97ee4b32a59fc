import PageEditor.Timeline
import Mathlib.Data.List.Nodup
/-!
# PageEditor.Proofs.Timeline.Firing

The order in which a timeline runs its timers, one advance at a time.

Keys are ordered by due time and then by sequence number (`TimerKey.before`). An advance takes,
again and again, the waiting timer with the earliest key while it is due by the target, and runs
its task with the clock at that timer's due time; a task may schedule more tasks, and those that
fall due by the target run in the same advance. The module follows an advance timer by timer:

* `Timeline.Orderly t last` is what scheduling and advancing keep: the clock fits in a word, no
  waiting timer is due before the clock, the sequence numbers of waiting timers are distinct and
  below `nextSeq`, and every waiting timer comes after `last`, the last timer run, as does every
  timer scheduled from now on.
* `runDue_waiting`: what an update that leaves the timers as they are keeps, and what the task
  of a waiting timer keeps, an advance keeps.
* `Timeline.runDueLog` is `Timeline.runDue` telling what it did (`runDueLog_run`), from tasks
  that tell what they do: each timer it runs, with the clock its task saw, followed by what that
  task told.
* `runDueLog_spec`: when tasks only schedule, and tell the timers they scheduled, and the fuel
  outlasts the work, an advance runs its
  timers in increasing key order after `last`, each at its due time; it runs exactly the timers
  due by the target, whether waiting before or scheduled on the way; and it leaves the timeline
  orderly, with the clock at the target and nothing waiting that is due by it.
-/

namespace PageEditor

/-! ## The order of keys -/

namespace TimerKey

@[simp] theorem before_eq_true {a b : TimerKey} :
    a.before b = true ↔ a.due < b.due ∨ a.due = b.due ∧ a.seq < b.seq := by
  simp [before]

theorem before_irrefl (a : TimerKey) : a.before a = false := by
  rw [← Bool.not_eq_true, before_eq_true]
  omega

theorem before_trans {a b c : TimerKey} (h₁ : a.before b = true) (h₂ : b.before c = true) :
    a.before c = true := by
  rw [before_eq_true] at *
  omega

/-- Of two keys neither before the other, both are the same key. -/
theorem eq_of_not_before {a b : TimerKey} (h₁ : a.before b = false) (h₂ : b.before a = false) :
    a = b := by
  obtain ⟨d₁, s₁⟩ := a
  obtain ⟨d₂, s₂⟩ := b
  simp only [← Bool.not_eq_true, before_eq_true] at h₁ h₂
  simp only [mk.injEq]
  omega

/-- A key not after `b` and not before `a` sits between them. -/
theorem not_before_trans {a b c : TimerKey} (h₁ : b.before a = false) (h₂ : c.before b = false) :
    c.before a = false := by
  rw [← Bool.not_eq_true, before_eq_true] at *
  omega

end TimerKey

namespace Timeline

variable {α : Type}

/-! ## The earliest timer -/

/-- Folding `earlier` over timers lands on one of them that no other comes before. -/
theorem foldl_earlier (x : Timer α) (rest : List (Timer α)) :
    rest.foldl earlier x ∈ x :: rest ∧
      ∀ y ∈ x :: rest, y.key.before (rest.foldl earlier x).key = false := by
  induction rest generalizing x with
  | nil =>
    refine ⟨List.mem_singleton_self x, fun y hy => ?_⟩
    rw [List.mem_singleton.mp hy]
    exact TimerKey.before_irrefl _
  | cons r rs ih =>
    obtain ⟨hmem, hmin⟩ := ih (earlier x r)
    -- the earlier of `x` and `r` is one of them and comes before neither
    have hxr : earlier x r ∈ [x, r] ∧ x.key.before (earlier x r).key = false ∧
        r.key.before (earlier x r).key = false := by
      unfold earlier
      split
      · next h =>
        refine ⟨by simp, ?_, TimerKey.before_irrefl _⟩
        rw [← Bool.not_eq_true, TimerKey.before_eq_true] at *
        omega
      · next h => exact ⟨by simp, TimerKey.before_irrefl _, Bool.eq_false_iff.mpr h⟩
    have hlow := hmin (earlier x r) (List.mem_cons_self ..)
    refine ⟨?_, fun y hy => ?_⟩
    · rcases List.mem_cons.mp hmem with h | h
      · rw [List.foldl_cons, h]
        rcases List.mem_cons.mp hxr.1 with h' | h'
        · rw [h']; exact List.mem_cons_self ..
        · rw [List.mem_singleton.mp h']; simp
      · exact List.mem_cons_of_mem _ (List.mem_cons_of_mem _ h)
    · rw [List.foldl_cons]
      rcases List.mem_cons.mp hy with rfl | hy
      · exact TimerKey.not_before_trans hlow hxr.2.1
      rcases List.mem_cons.mp hy with rfl | hy
      · exact TimerKey.not_before_trans hlow hxr.2.2
      · exact hmin y (List.mem_cons_of_mem _ hy)

/-- The earliest timer is waiting, and no waiting timer comes before it. -/
theorem earliest?_spec {t : Timeline α} {tm : Timer α} (h : t.earliest? = some tm) :
    tm ∈ t.timers ∧ ∀ x ∈ t.timers, x.key.before tm.key = false := by
  unfold earliest? at h
  split at h
  · cases h
  · next x rest hts =>
    obtain rfl := Option.some.inj h
    rw [hts]
    exact foldl_earlier x rest

theorem earliest?_eq_none {t : Timeline α} : t.earliest? = none ↔ t.timers = [] := by
  unfold earliest?
  split <;> simp_all

/-- The timeline with a waiting timer taken off and the clock at its due time. -/
def take (t : Timeline α) (tm : Timer α) : Timeline α := { t.cancel tm.key with now := tm.key.due }

/-- Taking the earliest due timer removes it and sets the clock to its due time. -/
theorem popDue_eq (t : Timeline α) (target : Nat) :
    t.popDue target = match t.earliest? with
      | some tm => if tm.key.due ≤ target then some (tm.task, t.take tm) else none
      | none => none := rfl

@[simp] theorem cancel_timers (t : Timeline α) (k : TimerKey) :
    (t.cancel k).timers = t.timers.filter (·.key != k) := rfl

@[simp] theorem cancel_now (t : Timeline α) (k : TimerKey) : (t.cancel k).now = t.now := rfl

@[simp] theorem cancel_nextSeq (t : Timeline α) (k : TimerKey) :
    (t.cancel k).nextSeq = t.nextSeq := rfl

@[simp] theorem take_now (t : Timeline α) (tm : Timer α) : (t.take tm).now = tm.key.due := rfl

@[simp] theorem take_nextSeq (t : Timeline α) (tm : Timer α) :
    (t.take tm).nextSeq = t.nextSeq := rfl

@[simp] theorem take_timers (t : Timeline α) (tm : Timer α) :
    (t.take tm).timers = t.timers.filter (·.key != tm.key) := rfl

@[simp] theorem schedule_fst (t : Timeline α) (delay : Nat) (a : α) :
    (t.schedule delay a).1 = ⟨t.now + delay, t.nextSeq⟩ := rfl

@[simp] theorem schedule_now (t : Timeline α) (delay : Nat) (a : α) :
    (t.schedule delay a).2.now = t.now := rfl

@[simp] theorem schedule_nextSeq (t : Timeline α) (delay : Nat) (a : α) :
    (t.schedule delay a).2.nextSeq = t.nextSeq + 1 := rfl

@[simp] theorem schedule_timers (t : Timeline α) (delay : Nat) (a : α) :
    (t.schedule delay a).2.timers = t.timers ++ [⟨⟨t.now + delay, t.nextSeq⟩, a⟩] := rfl

theorem waiting_iff (t : Timeline α) (k : TimerKey) :
    t.waiting k = true ↔ ∃ x ∈ t.timers, x.key = k := by
  simp [waiting]

/-- Cancelling a key that is not waiting changes nothing. -/
theorem cancel_of_not_waiting {t : Timeline α} {k : TimerKey} (h : t.waiting k = false) :
    t.cancel k = t := by
  have hall : ∀ x ∈ t.timers, (x.key != k) = true := by
    intro x hx
    have : ¬ ∃ x ∈ t.timers, x.key = k := by rw [← waiting_iff]; simp [h]
    simpa using fun e => this ⟨x, hx, e⟩
  cases t
  simp only [cancel, List.filter_eq_self.mpr hall]

/-! ## Scheduling on the way -/

/-- `t'` is `t` with tasks scheduled on it, one after another. -/
inductive Schedules : Timeline α → Timeline α → Prop
  | refl (t : Timeline α) : Schedules t t
  | schedule {t t' : Timeline α} (delay : Nat) (a : α) :
      Schedules t t' → Schedules t (t'.schedule delay a).2

/-- The timers scheduled on a timeline: those past the ones it had. -/
def bornSince (t t' : Timeline α) : List (Timer α) := t'.timers.drop t.timers.length

/-- Scheduling keeps the clock and the waiting timers, and adds timers due no earlier than the
clock under the next sequence numbers, in order. -/
theorem Schedules.spec {t t' : Timeline α} (h : Schedules t t') :
    t'.now = t.now ∧ t'.timers = t.timers ++ bornSince t t' ∧
      (bornSince t t').map (·.key.seq) = List.range' t.nextSeq (t'.nextSeq - t.nextSeq) ∧
      t.nextSeq ≤ t'.nextSeq ∧ ∀ x ∈ bornSince t t', t.now ≤ x.key.due := by
  induction h with
  | refl => simp [bornSince]
  | @schedule t' delay a _ ih =>
    obtain ⟨hnow, htimers, hseq, hle, hdue⟩ := ih
    have hborn : bornSince t (t'.schedule delay a).2 =
        bornSince t t' ++ [⟨⟨t'.now + delay, t'.nextSeq⟩, a⟩] := by
      simp only [bornSince, schedule_timers]
      rw [List.drop_append_of_le_length (by rw [htimers]; simp)]
    refine ⟨hnow, ?_, ?_, by simp; omega, ?_⟩
    · rw [hborn, schedule_timers, htimers, List.append_assoc]
    · rw [hborn, List.map_append, hseq, schedule_nextSeq]
      simp only [List.map_cons, List.map_nil]
      rw [show t'.nextSeq + 1 - t.nextSeq = (t'.nextSeq - t.nextSeq) + 1 by omega,
        List.range'_1_concat]
      congr 2
      omega
    · intro x hx
      rw [hborn] at hx
      rcases List.mem_append.mp hx with hx | hx
      · exact hdue x hx
      · rw [List.mem_singleton.mp hx, ← hnow]
        exact Nat.le_add_right _ _

theorem Schedules.trans {t₁ t₂ t₃ : Timeline α} (h₁ : Schedules t₁ t₂) (h₂ : Schedules t₂ t₃) :
    Schedules t₁ t₃ := by
  induction h₂ with
  | refl => exact h₁
  | schedule delay a _ ih => exact .schedule delay a ih

/-! ## What scheduling and advancing keep -/

/-- A timeline as scheduling and advancing leave it, `last` being the key of the last timer run
(none before any ran). -/
structure Orderly (t : Timeline α) (last : Option TimerKey) : Prop where
  now_le : t.now ≤ wordLimit
  due_ge : ∀ x ∈ t.timers, t.now ≤ x.key.due
  seq_lt : ∀ x ∈ t.timers, x.key.seq < t.nextSeq
  nodup : (t.timers.map (·.key.seq)).Nodup
  last_le : ∀ k ∈ last, k.due ≤ t.now ∧ k.seq < t.nextSeq
  after : ∀ k ∈ last, ∀ x ∈ t.timers, k.before x.key = true

namespace Orderly

variable {t t' : Timeline α} {last : Option TimerKey}

theorem empty : Orderly (empty : Timeline α) none where
  now_le := Nat.zero_le _
  due_ge _ h := nomatch h
  seq_lt _ h := nomatch h
  nodup := List.nodup_nil
  last_le _ h := nomatch h
  after _ h := nomatch h

/-- A new timer is due no earlier than the clock and gets the next sequence number, so it comes
after every timer run before. -/
theorem schedule (h : Orderly t last) (delay : Nat) (a : α) :
    Orderly (t.schedule delay a).2 last where
  now_le := h.now_le
  due_ge x hx := by
    rcases List.mem_append.mp hx with hx | hx
    · exact h.due_ge x hx
    · rw [List.mem_singleton.mp hx]
      exact Nat.le_add_right _ _
  seq_lt x hx := by
    rcases List.mem_append.mp hx with hx | hx
    · exact Nat.lt_succ_of_lt (h.seq_lt x hx)
    · rw [List.mem_singleton.mp hx]
      exact Nat.lt_succ_self _
  nodup := by
    rw [schedule_timers, List.map_append, List.nodup_append]
    refine ⟨h.nodup, List.nodup_singleton _, fun a ha b hb => ?_⟩
    obtain ⟨x, hx, rfl⟩ := List.mem_map.mp ha
    simp only [List.map_cons, List.map_nil, List.mem_singleton] at hb
    rw [hb]
    exact Nat.ne_of_lt (h.seq_lt x hx)
  last_le k hk := ⟨(h.last_le k hk).1, Nat.lt_succ_of_lt (h.last_le k hk).2⟩
  after k hk x hx := by
    rcases List.mem_append.mp hx with hx | hx
    · exact h.after k hk x hx
    · rw [List.mem_singleton.mp hx, TimerKey.before_eq_true]
      have := h.last_le k hk
      simp only
      omega

theorem schedules (h : Orderly t last) (hs : Schedules t t') : Orderly t' last := by
  induction hs with
  | refl => exact h
  | schedule delay a _ ih => exact ih.schedule delay a

theorem cancel (h : Orderly t last) (k : TimerKey) : Orderly (t.cancel k) last where
  now_le := h.now_le
  due_ge x hx := h.due_ge x (List.mem_of_mem_filter hx)
  seq_lt x hx := h.seq_lt x (List.mem_of_mem_filter hx)
  nodup := h.nodup.sublist (List.filter_sublist.map _)
  last_le := h.last_le
  after k' hk x hx := h.after k' hk x (List.mem_of_mem_filter hx)

/-- Taking the earliest timer, due within a word, leaves it as the last timer run, and it comes
after the one run before. -/
theorem pop (h : Orderly t last) {tm : Timer α} (he : t.earliest? = some tm)
    (hdue : tm.key.due ≤ wordLimit) :
    Orderly (t.take tm) (some tm.key) ∧
      ∀ k ∈ last, k.before tm.key = true := by
  obtain ⟨hmem, hmin⟩ := earliest?_spec he
  have hc := h.cancel tm.key
  refine ⟨⟨hdue, fun x hx => ?_, hc.seq_lt, hc.nodup, fun k hk => ?_, fun k hk x hx => ?_⟩,
    fun k hk => h.after k hk tm hmem⟩
  · show tm.key.due ≤ x.key.due
    have := hmin x (List.mem_of_mem_filter hx)
    rw [← Bool.not_eq_true, TimerKey.before_eq_true] at this
    omega
  · obtain rfl := Option.some.inj hk
    exact ⟨Nat.le_refl _, h.seq_lt tm hmem⟩
  · obtain rfl := Option.some.inj hk
    have hne : x.key ≠ tm.key := by simpa using (List.mem_filter.mp hx).2
    cases hb : tm.key.before x.key
    · exact absurd (TimerKey.eq_of_not_before (hmin x (List.mem_of_mem_filter hx)) hb) hne
    · rfl

/-- When nothing waiting is due by the target, the clock moves on to it. -/
theorem settle (h : Orderly t last) {target : Nat} (hle : t.now ≤ target)
    (hT : target ≤ wordLimit) (hnone : ∀ x ∈ t.timers, target < x.key.due) :
    Orderly { t with now := target } last where
  now_le := hT
  due_ge x hx := Nat.le_of_lt (hnone x hx)
  seq_lt := h.seq_lt
  nodup := h.nodup
  last_le k hk := ⟨Nat.le_trans (h.last_le k hk).1 hle, (h.last_le k hk).2⟩
  after := h.after

end Orderly

/-! ## What happens to timers -/

/-- What happens to the timers of a timeline. -/
inductive Event (α : Type) where
  /-- A task was scheduled under a new timer. -/
  | scheduled (tm : Timer α)
  /-- A waiting timer was cancelled. -/
  | cancelled (key : TimerKey)
  /-- A timer was taken from the timeline and its task run, the clock reading `clock`. -/
  | ran (tm : Timer α) (clock : Nat)

namespace Event

/-- The timer a scheduling adds. -/
@[simp] def scheduled? : Event α → Option (Timer α)
  | .scheduled tm => some tm
  | _ => none

/-- The key a cancelling removes. -/
@[simp] def cancelled? : Event α → Option TimerKey
  | .cancelled k => some k
  | _ => none

/-- The timer a run takes. -/
@[simp] def ran? : Event α → Option (Timer α)
  | .ran tm _ => some tm
  | _ => none

/-- The timers scheduled in a run of events, in order. -/
def born (E : List (Event α)) : List (Timer α) := E.filterMap scheduled?

/-- The timers run in a run of events, in order. -/
def ranTimers (E : List (Event α)) : List (Timer α) := E.filterMap ran?

/-- The keys of the timers run in a run of events, in order. -/
def ranKeys (E : List (Event α)) : List TimerKey := (ranTimers E).map (·.key)

/-- The keys cancelled in a run of events, in order. -/
def cancelledKeys (E : List (Event α)) : List TimerKey := E.filterMap cancelled?

@[simp] theorem born_nil : born ([] : List (Event α)) = [] := rfl
@[simp] theorem ranTimers_nil : ranTimers ([] : List (Event α)) = [] := rfl
@[simp] theorem ranKeys_nil : ranKeys ([] : List (Event α)) = [] := rfl
@[simp] theorem cancelledKeys_nil : cancelledKeys ([] : List (Event α)) = [] := rfl

@[simp] theorem born_cons (e : Event α) (E : List (Event α)) :
    born (e :: E) = e.scheduled?.toList ++ born E := by
  cases e <;> rfl

@[simp] theorem ranTimers_cons (e : Event α) (E : List (Event α)) :
    ranTimers (e :: E) = e.ran?.toList ++ ranTimers E := by
  cases e <;> rfl

@[simp] theorem ranKeys_cons (e : Event α) (E : List (Event α)) :
    ranKeys (e :: E) = (e.ran?.map (·.key)).toList ++ ranKeys E := by
  cases e <;> rfl

@[simp] theorem cancelledKeys_cons (e : Event α) (E : List (Event α)) :
    cancelledKeys (e :: E) = e.cancelled?.toList ++ cancelledKeys E := by
  cases e <;> rfl

@[simp] theorem born_append (E E' : List (Event α)) : born (E ++ E') = born E ++ born E' :=
  List.filterMap_append

@[simp] theorem ranTimers_append (E E' : List (Event α)) :
    ranTimers (E ++ E') = ranTimers E ++ ranTimers E' :=
  List.filterMap_append

@[simp] theorem ranKeys_append (E E' : List (Event α)) :
    ranKeys (E ++ E') = ranKeys E ++ ranKeys E' := by
  simp [ranKeys]

@[simp] theorem cancelledKeys_append (E E' : List (Event α)) :
    cancelledKeys (E ++ E') = cancelledKeys E ++ cancelledKeys E' :=
  List.filterMap_append

@[simp] theorem born_map_scheduled (l : List (Timer α)) : born (l.map scheduled) = l := by
  induction l <;> simp_all

@[simp] theorem ranTimers_map_scheduled (l : List (Timer α)) : ranTimers (l.map scheduled) = [] := by
  induction l <;> simp_all

@[simp] theorem ranKeys_map_scheduled (l : List (Timer α)) : ranKeys (l.map scheduled) = [] := by
  simp [ranKeys]

@[simp] theorem cancelledKeys_map_scheduled (l : List (Timer α)) :
    cancelledKeys (l.map scheduled) = [] := by
  induction l <;> simp_all

/-! The events of running one timer: the run, then what its task scheduled, then the rest. -/

theorem born_run (tm : Timer α) (c : Nat) (B : List (Timer α)) (E : List (Event α)) :
    born (.ran tm c :: B.map scheduled ++ E) = B ++ born E := by
  simp

theorem ranTimers_run (tm : Timer α) (c : Nat) (B : List (Timer α)) (E : List (Event α)) :
    ranTimers (.ran tm c :: B.map scheduled ++ E) = tm :: ranTimers E := by
  simp

theorem ranKeys_run (tm : Timer α) (c : Nat) (B : List (Timer α)) (E : List (Event α)) :
    ranKeys (.ran tm c :: B.map scheduled ++ E) = tm.key :: ranKeys E := by
  simp

theorem cancelledKeys_run (tm : Timer α) (c : Nat) (B : List (Timer α)) (E : List (Event α)) :
    cancelledKeys (.ran tm c :: B.map scheduled ++ E) = cancelledKeys E := by
  simp

end Event

/-! ## An advance, timer by timer -/

section Advance

variable {σ ε : Type} (view : σ → Timeline α) (update : σ → Timeline α → σ)
  (fire : α → σ → Except ε σ) (fireLog : α → σ → Except ε (List (Event α) × σ)) (target : Nat)

/-- `runDue`, telling what it does, from tasks that tell what they do: for each timer it runs,
the timer and the clock its task saw, followed by what the task told. -/
def runDueLog : Nat → σ → Except ε (List (Event α) × σ)
  | 0, s => .ok ([], update s { view s with now := target })
  | fuel + 1, s =>
    match (view s).earliest? with
    | some tm =>
      if tm.key.due ≤ target then
        let s₁ := update s ((view s).take tm)
        match fireLog tm.task s₁ with
        | .error e => .error e
        | .ok (F, s₂) =>
          match runDueLog fuel s₂ with
          | .error e => .error e
          | .ok (E, s₃) => .ok (.ran tm (view s₁).now :: F ++ E, s₃)
      else .ok ([], update s { view s with now := target })
    | none => .ok ([], update s { view s with now := target })

/-- Telling what it does changes nothing in what an advance does, when telling what a task does
changes nothing in what the task does. -/
theorem runDueLog_run (hlog : ∀ a s, (fireLog a s).map Prod.snd = fire a s) :
    ∀ fuel s, (runDueLog view update fireLog target fuel s).map Prod.snd =
      runDue view update fire target fuel s
  | 0, s => rfl
  | fuel + 1, s => by
    rw [runDueLog, runDue, popDue_eq]
    cases (view s).earliest? with
    | none => rfl
    | some tm =>
      by_cases hd : tm.key.due ≤ target
      · simp only [hd, ↓reduceIte]
        rw [← hlog]
        cases fireLog tm.task (update s ((view s).take tm)) with
        | error e => rfl
        | ok r =>
          obtain ⟨F, s₂⟩ := r
          have ih := runDueLog_run hlog fuel s₂
          dsimp only [bind, Except.bind, Except.map]
          cases h : runDueLog view update fireLog target fuel s₂ with
          | error e => rw [h] at ih; exact ih
          | ok r => rw [h] at ih; exact ih
      · simp only [hd, ↓reduceIte]
        rfl

variable {view update fire fireLog target}

/-- One step of an advance that went on: it either ran the earliest timer, due by the target,
and went on from what its task left, or found nothing due and moved the clock to the target. -/
theorem runDueLog_succ {fuel : Nat} {s s' : σ} {E : List (Event α)}
    (h : runDueLog view update fireLog target (fuel + 1) s = .ok (E, s')) :
    (∃ tm F s₂ E', (view s).earliest? = some tm ∧ tm.key.due ≤ target ∧
      fireLog tm.task (update s ((view s).take tm)) = .ok (F, s₂) ∧
      runDueLog view update fireLog target fuel s₂ = .ok (E', s') ∧
      E = .ran tm (view (update s ((view s).take tm))).now :: F ++ E') ∨
    ((∀ tm, (view s).earliest? = some tm → target < tm.key.due) ∧ E = [] ∧
      s' = update s { view s with now := target }) := by
  rw [runDueLog] at h
  cases he : (view s).earliest? with
  | none =>
    rw [he] at h
    obtain ⟨rfl, rfl⟩ := Prod.mk.inj (Except.ok.inj h)
    exact .inr ⟨(fun _ h' => by cases h'), rfl, rfl⟩
  | some tm =>
    rw [he] at h
    by_cases hd : tm.key.due ≤ target
    · simp only [hd, ↓reduceIte] at h
      cases hfire : fireLog tm.task (update s ((view s).take tm)) with
      | error e => rw [hfire] at h; cases h
      | ok r =>
        obtain ⟨F, s₂⟩ := r
        rw [hfire] at h
        dsimp only at h
        cases hrec : runDueLog view update fireLog target fuel s₂ with
        | error e => rw [hrec] at h; cases h
        | ok r =>
          obtain ⟨E', s₃⟩ := r
          rw [hrec] at h
          obtain ⟨rfl, rfl⟩ := Prod.mk.inj (Except.ok.inj h)
          exact .inl ⟨tm, F, s₂, E', rfl, hd, hfire, hrec, rfl⟩
    · simp only [hd, ↓reduceIte] at h
      obtain ⟨rfl, rfl⟩ := Prod.mk.inj (Except.ok.inj h)
      exact .inr ⟨fun tm' h' => by rw [Option.some.inj h'] at hd; omega, rfl, rfl⟩

end Advance

/-! ## What an advance keeps -/

/-- What an advance keeps, when keeping it under an update that takes no timer on and under the
task of a timer that was waiting. -/
theorem runDue_waiting {σ ε : Type} {view : σ → Timeline α}
    {update : σ → Timeline α → σ} {fire : α → σ → Except ε σ} {target : Nat}
    (P : σ → Prop)
    (hu : ∀ s t, t.timers = (view s).timers → P s → P (update s t))
    (hf : ∀ s t tm s', P s → tm ∈ (view s).timers →
      (∀ x ∈ t.timers, x ∈ (view s).timers) → fire tm.task (update s t) = .ok s' → P s') :
    ∀ fuel s s', P s → runDue view update fire target fuel s = .ok s' → P s' := by
  intro fuel
  induction fuel with
  | zero =>
    intro s s' hs h
    cases h
    exact hu _ _ rfl hs
  | succ n ih =>
    intro s s' hs h
    rw [runDue, popDue_eq] at h
    cases he : (view s).earliest? with
    | none =>
      rw [he] at h
      cases h
      exact hu _ _ rfl hs
    | some tm =>
      rw [he] at h
      by_cases hd : tm.key.due ≤ target
      · simp only [hd, ↓reduceIte] at h
        -- the earliest timer was waiting, and taking it leaves only waiting ones
        cases hfire : fire tm.task (update s ((view s).take tm)) with
        | error e => rw [hfire] at h; cases h
        | ok s₁ =>
          rw [hfire] at h
          refine ih s₁ s' (hf s _ tm s₁ hs (earliest?_spec he).1 (fun x hx => ?_) hfire) h
          rw [take_timers] at hx
          exact (List.mem_filter.mp hx).1
      · simp only [hd, ↓reduceIte] at h
        cases h
        exact hu _ _ rfl hs

/-! ## What an advance does -/

section Spec

variable {σ ε : Type} {view : σ → Timeline α} {update : σ → Timeline α → σ}
  {fireLog : α → σ → Except ε (List (Event α) × σ)} {target : Nat}

/-- Filtering out a key and then others is filtering out all of them. -/
theorem filter_not_mem_cons (l : List (Timer α)) (k : TimerKey) (R : List TimerKey) :
    l.filter (fun x => x.key ∉ k :: R) = (l.filter (·.key != k)).filter fun x => x.key ∉ R := by
  rw [List.filter_filter]
  apply List.filter_congr
  intro x _
  by_cases h₁ : x.key = k <;> by_cases h₂ : x.key ∈ R <;> simp [h₁, h₂]

/-- What an advance to `target` did, from `s`, after `last` ran, to `s'`, telling `E`. -/
structure Advanced (view : σ → Timeline α) (target : Nat) (last : Option TimerKey) (s : σ)
    (E : List (Event α)) (s' : σ) : Prop where
  /-- Each task ran with the clock at its timer's due time. -/
  clock : ∀ tm c, Event.ran tm c ∈ E → c = tm.key.due
  /-- Timers ran in increasing key order, after `last`. -/
  order : (last.toList ++ Event.ranKeys E).Pairwise fun a b => a.before b = true
  /-- Only timers waiting before or scheduled on the way ran. -/
  ran_from : ∀ tm ∈ Event.ranTimers E, tm ∈ (view s).timers ++ Event.born E
  /-- Of those, the ones that ran are exactly the ones due by the target. -/
  window : ∀ x ∈ (view s).timers ++ Event.born E,
    x.key.due ≤ target ↔ x.key ∈ Event.ranKeys E
  /-- The others wait, in the order they were scheduled. -/
  waiting : (view s').timers =
    ((view s).timers ++ Event.born E).filter fun x => x.key ∉ Event.ranKeys E
  born_seq : (Event.born E).map (·.key.seq) =
    List.range' (view s).nextSeq ((view s').nextSeq - (view s).nextSeq)
  seq_le : (view s).nextSeq ≤ (view s').nextSeq
  now : (view s').now = target
  orderly : Orderly (view s') (last.toList ++ Event.ranKeys E).getLast?
  no_cancel : Event.cancelledKeys E = []

/-- With nothing due by the target, an advance only moves the clock. -/
theorem Advanced.settle (hv : ∀ s t, view (update s t) = t) {s : σ} {last : Option TimerKey}
    (ho : Orderly (view s) last) (hle : (view s).now ≤ target) (hT : target ≤ wordLimit)
    (hnone : ∀ x ∈ (view s).timers, target < x.key.due) :
    Advanced view target last s [] (update s { view s with now := target }) where
  clock _ _ h := nomatch h
  order := by cases last <;> simp
  ran_from _ h := nomatch h
  window x hx := by
    simp only [Event.born_nil, List.append_nil] at hx
    simpa using hnone x hx
  waiting := by simp [hv]
  born_seq := by simp [hv]
  seq_le := by simp [hv]
  now := by simp [hv]
  orderly := by
    rw [hv]
    have : (last.toList ++ Event.ranKeys ([] : List (Event α))).getLast? = last := by
      cases last <;> rfl
    rw [this]
    exact ho.settle hle hT hnone
  no_cancel := rfl

/-- An advance that schedules nothing and reaches every waiting timer's due time leaves no timer
waiting. -/
theorem Advanced.timers_eq_nil {last : Option TimerKey} {s s' : σ} {E : List (Event α)}
    (h : Advanced view target last s E s') (hborn : Event.born E = [])
    (hdue : ∀ x ∈ (view s).timers, x.key.due ≤ target) : (view s').timers = [] := by
  rw [h.waiting, hborn, List.append_nil, List.filter_eq_nil_iff]
  intro x hx
  simpa using (h.window x (List.mem_append_left _ hx)).mp (hdue x hx)

/-- Running the earliest timer and then advancing from what its task left. -/
theorem Advanced.cons (hv : ∀ s t, view (update s t) = t) {s s₂ s₃ : σ} {last : Option TimerKey}
    {tm : Timer α} {E : List (Event α)} (ho : Orderly (view s) last)
    (he : (view s).earliest? = some tm) (hdue : tm.key.due ≤ target)
    (hs : Schedules (view (update s ((view s).take tm))) (view s₂))
    (hA : Advanced view target (some tm.key) s₂ E s₃) :
    Advanced view target last s
      (.ran tm (view (update s ((view s).take tm))).now ::
        (bornSince (view (update s ((view s).take tm))) (view s₂)).map .scheduled ++ E) s₃ := by
  rw [hv] at hs ⊢
  obtain ⟨hmem, -⟩ := earliest?_spec he
  obtain ⟨hnow₂, htimers₂, hseq₂, hle₂, -⟩ := hs.spec
  generalize hB : bornSince ((view s).take tm) (view s₂) = B at htimers₂ hseq₂
  simp only [take_nextSeq, take_timers] at htimers₂ hseq₂ hle₂
  -- the timers scheduled during this advance are younger than `tm`
  have hfresh : ∀ x ∈ B ++ Event.born E, x.key ≠ tm.key := by
    intro x hx hk
    have hlt := ho.seq_lt tm hmem
    have hseq : x.key.seq ∈ (B ++ Event.born E).map (·.key.seq) := List.mem_map_of_mem hx
    rw [List.map_append, hseq₂, hA.born_seq, List.mem_append, List.mem_range',
      List.mem_range'] at hseq
    rw [hk] at hseq
    omega
  have hsub : ∀ x ∈ (view s₂).timers ++ Event.born E, x ∈ (view s).timers ++ (B ++ Event.born E) := by
    intro x hx
    rw [htimers₂] at hx
    simp only [List.mem_append] at hx ⊢
    rcases hx with (hx | hx) | hx
    · exact .inl (List.mem_of_mem_filter hx)
    · exact .inr (.inl hx)
    · exact .inr (.inr hx)
  have hsup : ∀ x ∈ (view s).timers ++ (B ++ Event.born E), x.key ≠ tm.key →
      x ∈ (view s₂).timers ++ Event.born E := by
    intro x hx hk
    rw [htimers₂]
    simp only [List.mem_append] at hx ⊢
    rcases hx with hx | hx | hx
    · exact .inl (.inl (List.mem_filter.mpr ⟨hx, by simpa using hk⟩))
    · exact .inl (.inr hx)
    · exact .inr hx
  have hord := hA.order
  simp only [Option.toList_some, List.singleton_append, List.pairwise_cons] at hord
  constructor
  case clock =>
    intro tm' c h
    simp only [List.mem_cons, List.mem_append, List.mem_map] at h
    rcases h with (h | ⟨x, -, hx⟩) | h
    · obtain ⟨rfl, rfl⟩ := Event.ran.inj h
      rfl
    · cases hx
    · exact hA.clock tm' c h
  case order =>
    rw [Event.ranKeys_run]
    refine List.pairwise_append.mpr ⟨by cases last <;> simp, List.pairwise_cons.mpr hord,
      fun k hk b hb => ?_⟩
    have hkt : k.before tm.key = true := ho.after k (by simpa using hk) tm hmem
    rcases List.mem_cons.mp hb with rfl | hb
    · exact hkt
    · exact TimerKey.before_trans hkt (hord.1 b hb)
  case ran_from =>
    intro tm' h
    rw [Event.ranTimers_run, List.mem_cons] at h
    rw [Event.born_run]
    rcases h with rfl | h
    · exact List.mem_append_left _ hmem
    · exact hsub tm' (hA.ran_from tm' h)
  case window =>
    intro x hx
    rw [Event.born_run] at hx
    rw [Event.ranKeys_run, List.mem_cons]
    by_cases hk : x.key = tm.key
    · rw [hk]
      exact ⟨fun _ => .inl rfl, fun _ => hdue⟩
    · rw [hA.window x (hsup x hx hk)]
      exact ⟨.inr, fun h => h.resolve_left hk⟩
  case waiting =>
    rw [hA.waiting, htimers₂, Event.born_run, Event.ranKeys_run]
    have hkeep : (B ++ Event.born E).filter (fun x => x.key != tm.key) = B ++ Event.born E :=
      List.filter_eq_self.mpr fun x hx => by simpa using hfresh x hx
    rw [filter_not_mem_cons, List.filter_append (view s).timers, hkeep]
    simp only [List.filter_append, List.append_assoc]
  case born_seq =>
    rw [Event.born_run, List.map_append, hseq₂, hA.born_seq]
    have h₂₃ := hA.seq_le
    have h := @List.range'_append (view s).nextSeq ((view s₂).nextSeq - (view s).nextSeq)
      ((view s₃).nextSeq - (view s₂).nextSeq) 1
    rw [show (view s).nextSeq + 1 * ((view s₂).nextSeq - (view s).nextSeq) = (view s₂).nextSeq
      by omega, show (view s₂).nextSeq - (view s).nextSeq + ((view s₃).nextSeq - (view s₂).nextSeq)
      = (view s₃).nextSeq - (view s).nextSeq by omega] at h
    exact h
  case seq_le => exact Nat.le_trans hle₂ hA.seq_le
  case now => exact hA.now
  case orderly =>
    have h := hA.orderly
    rw [Event.ranKeys_run, List.getLast?_append, List.getLast?_cons]
    simpa [List.getLast?_cons] using h
  case no_cancel =>
    rw [Event.cancelledKeys_run]
    exact hA.no_cancel

/-- **An advance runs what falls due, in key order.** When the view of the world reads back the
timeline it is given, tasks only schedule and tell the timers they scheduled, the work left drops
with each task run, and the fuel outlasts it, an advance from an orderly timeline, with the clock
not past the target and the target within a word, does what `Advanced` says. -/
theorem runDueLog_spec (hv : ∀ s t, view (update s t) = t)
    (hf : ∀ a s F s', fireLog a s = .ok (F, s') →
      Schedules (view s) (view s') ∧ F = (bornSince (view s) (view s')).map .scheduled)
    (μ : σ → Nat)
    (hμ : ∀ s tm F s', (view s).earliest? = some tm →
      fireLog tm.task (update s ((view s).take tm)) = .ok (F, s') → μ s' < μ s)
    (hT : target ≤ wordLimit) :
    ∀ fuel (s : σ) (last : Option TimerKey) (E : List (Event α)) (s' : σ),
      Orderly (view s) last → (view s).now ≤ target → μ s < fuel →
      runDueLog view update fireLog target fuel s = .ok (E, s') → Advanced view target last s E s'
  | 0, _, _, _, _, _, _, hμs, _ => absurd hμs (Nat.not_lt_zero _)
  | fuel + 1, s, last, E, s', ho, hle, hμs, h => by
    rcases runDueLog_succ h with ⟨tm, F, s₂, E', he, hd, hfire, hrec, rfl⟩ | ⟨hnone, rfl, rfl⟩
    · obtain ⟨hs, rfl⟩ := hf _ _ _ _ hfire
      have ho₂ : Orderly (view s₂) (some tm.key) := by
        rw [hv] at hs
        exact (ho.pop he (Nat.le_trans hd hT)).1.schedules hs
      have hle₂ : (view s₂).now ≤ target := by
        rw [hs.spec.1, hv, take_now]
        exact hd
      have hμ₂ := hμ s tm _ s₂ he hfire
      exact Advanced.cons hv ho he hd hs
        (runDueLog_spec hv hf μ hμ hT fuel s₂ (some tm.key) E' s' ho₂ hle₂ (by omega) hrec)
    · refine Advanced.settle hv ho hle hT fun x hx => ?_
      cases he : (view s).earliest? with
      | none =>
        rw [earliest?_eq_none.mp he] at hx
        cases hx
      | some tm =>
        have := (earliest?_spec he).2 x hx
        have := hnone tm he
        rw [← Bool.not_eq_true, TimerKey.before_eq_true] at *
        omega

/-- An advance fails only where a task it runs fails. -/
theorem runDueLog_error {e : ε} :
    ∀ fuel s, runDueLog view update fireLog target fuel s = .error e →
      ∃ a s₁, fireLog a s₁ = .error e
  | 0, s, h => by cases h
  | fuel + 1, s, h => by
    rw [runDueLog] at h
    cases he : (view s).earliest? with
    | none => rw [he] at h; cases h
    | some tm =>
      rw [he] at h
      by_cases hd : tm.key.due ≤ target
      · simp only [hd, ↓reduceIte] at h
        cases hfire : fireLog tm.task (update s ((view s).take tm)) with
        | error e' =>
          rw [hfire] at h
          dsimp only at h
          exact ⟨_, _, by rw [hfire, Except.error.inj h]⟩
        | ok r =>
          obtain ⟨F, s₂⟩ := r
          rw [hfire] at h
          dsimp only at h
          cases hrec : runDueLog view update fireLog target fuel s₂ with
          | error e' =>
            rw [hrec] at h
            dsimp only at h
            exact runDueLog_error fuel s₂ (hrec.trans h)
          | ok r => rw [hrec] at h; cases h
      · simp only [hd, ↓reduceIte] at h
        cases h

end Spec

end Timeline

end PageEditor
