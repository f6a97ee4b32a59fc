import PageEditor.Proofs.Timeline.Firing
/-!
# PageEditor.Proofs.Timeline.History

The events that account for a timeline.

`Timeline.Journaled t J` says the events `J` account for the timeline `t`: each task scheduled
took the next sequence number; the waiting timers are the scheduled ones that neither ran nor
were cancelled, in scheduling order; tasks ran at their due times in strictly increasing key
order; and no cancelled timer ran. `cancelLog` tells which keys a cancelling removes: only those
still waiting, and `Timeline.Edits t F t'` says `t'` is `t` after scheduling and cancelling as
the events `F` tell.

Each way a timeline changes keeps the account: scheduling and cancelling (`Journaled.schedule`,
`Journaled.cancel`, `Journaled.edits`), taking the earliest timer to run it (`Journaled.take`),
and moving the clock on when nothing more is due (`Journaled.settle`). An advance is made of
these, whatever its tasks schedule and cancel on the way, so it keeps the account too
(`runDueLog_journaled`), and it runs exactly the timers due by its target that were not
cancelled first (`Journaled.window`). From the account, the count of waiting timers is what was
scheduled less what ran and what was cancelled (`Journaled.pending_add`).
-/

namespace PageEditor

namespace Timeline

variable {α : Type}

/-! ## Cancelling, told -/

/-- The events of cancelling keys one after another: each key still waiting is cancelled. -/
def cancelLog (t : Timeline α) : List TimerKey → List (Event α)
  | [] => []
  | k :: ks => (if t.waiting k then [.cancelled k] else []) ++ cancelLog (t.cancel k) ks

theorem cancelAll_cons (t : Timeline α) (k : TimerKey) (ks : List TimerKey) :
    t.cancelAll (k :: ks) = (t.cancel k).cancelAll ks := rfl

@[simp] theorem cancelAll_now (t : Timeline α) (ks : List TimerKey) :
    (t.cancelAll ks).now = t.now := by
  induction ks generalizing t with
  | nil => rfl
  | cons k ks ih => rw [cancelAll_cons, ih, cancel_now]

/-- Cancelling keys takes off exactly the waiting timers with those keys. -/
theorem cancelAll_eq (t : Timeline α) (ks : List TimerKey) :
    t.cancelAll ks = { t with timers := t.timers.filter fun x => x.key ∉ ks } := by
  induction ks generalizing t with
  | nil => simp [cancelAll]
  | cons k ks ih =>
    rw [cancelAll_cons, ih, filter_not_mem_cons]
    rfl

theorem cancelLog_cons (t : Timeline α) (k : TimerKey) (ks : List TimerKey) :
    t.cancelLog (k :: ks) = t.cancelLog [k] ++ (t.cancel k).cancelLog ks := by
  simp [cancelLog]

/-- Keys in order, followed by keys in order after the last of them, are in order. -/
theorem pairwise_before_append {l m : List TimerKey}
    (hl : l.Pairwise fun a b => a.before b = true)
    (hm : (l.getLast?.toList ++ m).Pairwise fun a b => a.before b = true) :
    (l ++ m).Pairwise fun a b => a.before b = true := by
  cases hz : l.getLast? with
  | none =>
    rw [List.getLast?_eq_none_iff.mp hz]
    simpa [hz] using hm
  | some z =>
    obtain ⟨ys, rfl⟩ := List.getLast?_eq_some_iff.mp hz
    rw [hz, Option.toList_some, List.singleton_append] at hm
    rw [List.append_assoc, List.singleton_append]
    rw [List.pairwise_append] at hl ⊢
    refine ⟨hl.1, hm, fun a ha b hb => ?_⟩
    have haz := hl.2.2 a ha z (List.mem_singleton_self z)
    rcases List.mem_cons.mp hb with rfl | hb
    · exact haz
    · exact TimerKey.before_trans haz ((List.pairwise_cons.mp hm).1 b hb)

theorem getLast?_toList_append {β : Type} (l m : List β) :
    (l ++ m).getLast? = (l.getLast?.toList ++ m).getLast? := by
  cases h : l.getLast? <;> simp [List.getLast?_append, List.getLast?_cons, h]

/-! ## Scheduling and cancelling, told -/

/-- `t'` is `t` after tasks were scheduled and keys cancelled on it, one after another, as the
events `F` tell. -/
inductive Edits : Timeline α → List (Event α) → Timeline α → Prop
  | refl (t : Timeline α) : Edits t [] t
  | schedule {t t' : Timeline α} {F : List (Event α)} (delay : Nat) (a : α) :
      Edits t F t' →
        Edits t (F ++ [.scheduled ⟨(t'.schedule delay a).1, a⟩]) (t'.schedule delay a).2
  | cancel {t t' : Timeline α} {F : List (Event α)} (k : TimerKey) :
      Edits t F t' → Edits t (F ++ t'.cancelLog [k]) (t'.cancel k)

namespace Edits

variable {t t' t'' : Timeline α} {F G : List (Event α)}

theorem trans (h₁ : Edits t F t') (h₂ : Edits t' G t'') : Edits t (F ++ G) t'' := by
  induction h₂ with
  | refl => rw [List.append_nil]; exact h₁
  | schedule delay a _ ih => rw [← List.append_assoc]; exact ih.schedule delay a
  | cancel k _ ih => rw [← List.append_assoc]; exact ih.cancel k

theorem scheduled (t : Timeline α) (delay : Nat) (a : α) :
    Edits t [.scheduled ⟨(t.schedule delay a).1, a⟩] (t.schedule delay a).2 := by
  simpa using (Edits.refl t).schedule delay a

theorem cancelAll (t : Timeline α) (ks : List TimerKey) :
    Edits t (t.cancelLog ks) (t.cancelAll ks) := by
  induction ks generalizing t with
  | nil => exact .refl t
  | cons k ks ih =>
    rw [cancelAll_cons, cancelLog_cons]
    have h₁ : Edits t (t.cancelLog [k]) (t.cancel k) := by simpa using (Edits.refl t).cancel k
    exact h₁.trans (ih _)

/-- Scheduling and cancelling leave the clock where it was. -/
theorem now_eq (h : Edits t F t') : t'.now = t.now := by
  induction h with
  | refl => rfl
  | schedule delay a _ ih => rw [schedule_now, ih]
  | cancel k _ ih => rw [cancel_now, ih]

/-- Scheduling and cancelling run nothing. -/
theorem not_ran (h : Edits t F t') (tm : Timer α) (c : Nat) : Event.ran tm c ∉ F := by
  induction h with
  | refl => exact List.not_mem_nil
  | schedule delay a _ ih => simpa using ih
  | cancel k _ ih =>
    rw [List.mem_append, not_or]
    refine ⟨ih, ?_⟩
    simp only [cancelLog, List.append_nil]
    split <;> simp

theorem ranTimers_eq_nil (h : Edits t F t') : Event.ranTimers F = [] :=
  List.filterMap_eq_nil_iff.mpr fun e he => by
    cases e with
    | ran tm c => exact absurd he (h.not_ran tm c)
    | scheduled _ => rfl
    | cancelled _ => rfl

end Edits

/-! ## Events that account for a timeline -/

/-- The events `J` account for the timeline `t`. -/
structure Journaled (t : Timeline α) (J : List (Event α)) : Prop where
  /-- Each task scheduled took the next sequence number. -/
  seqs : (Event.born J).map (·.key.seq) = List.range t.nextSeq
  /-- The waiting timers are the scheduled ones that neither ran nor were cancelled. -/
  waiting : t.timers =
    (Event.born J).filter fun x => x.key ∉ Event.ranKeys J ∧ x.key ∉ Event.cancelledKeys J
  /-- Each task ran with the clock at its due time. -/
  clock : ∀ tm c, Event.ran tm c ∈ J → c = tm.key.due
  /-- Timers ran in strictly increasing key order. -/
  order : (Event.ranKeys J).Pairwise fun a b => a.before b = true
  orderly : t.Orderly (Event.ranKeys J).getLast?
  ran_born : ∀ tm ∈ Event.ranTimers J, tm ∈ Event.born J
  cancelled_born : ∀ k ∈ Event.cancelledKeys J, ∃ x ∈ Event.born J, x.key = k
  /-- No cancelled timer ran. -/
  disjoint : ∀ k ∈ Event.cancelledKeys J, k ∉ Event.ranKeys J
  cancelled_nodup : (Event.cancelledKeys J).Nodup

namespace Journaled

variable {t : Timeline α} {J : List (Event α)}

theorem empty : Journaled (empty : Timeline α) [] where
  seqs := rfl
  waiting := rfl
  clock _ _ h := nomatch h
  order := List.Pairwise.nil
  orderly := Orderly.empty
  ran_born _ h := nomatch h
  cancelled_born _ h := nomatch h
  disjoint _ h := nomatch h
  cancelled_nodup := List.nodup_nil

theorem born_seq_lt (h : Journaled t J) {x : Timer α} (hx : x ∈ Event.born J) :
    x.key.seq < t.nextSeq := by
  have : x.key.seq ∈ (Event.born J).map (·.key.seq) := List.mem_map_of_mem hx
  rw [h.seqs, List.mem_range] at this
  exact this

theorem waiting_born (h : Journaled t J) {x : Timer α} (hx : x ∈ t.timers) :
    x ∈ Event.born J ∧ x.key ∉ Event.ranKeys J ∧ x.key ∉ Event.cancelledKeys J := by
  rw [h.waiting] at hx
  simpa using List.mem_filter.mp hx

theorem ranKey_seq_lt (h : Journaled t J) {k : TimerKey} (hk : k ∈ Event.ranKeys J) :
    k.seq < t.nextSeq := by
  obtain ⟨tm, htm, rfl⟩ := List.mem_map.mp hk
  exact h.born_seq_lt (h.ran_born tm htm)

theorem cancelledKey_seq_lt (h : Journaled t J) {k : TimerKey}
    (hk : k ∈ Event.cancelledKeys J) : k.seq < t.nextSeq := by
  obtain ⟨x, hx, rfl⟩ := h.cancelled_born k hk
  exact h.born_seq_lt hx

/-- Scheduling a task adds its timer to the waiting ones. -/
theorem schedule (h : Journaled t J) (delay : Nat) (a : α) :
    Journaled (t.schedule delay a).2 (J ++ [.scheduled ⟨(t.schedule delay a).1, a⟩]) := by
  have hfresh : ∀ k ∈ Event.ranKeys J ++ Event.cancelledKeys J, k.seq ≠ t.nextSeq := by
    intro k hk
    rcases List.mem_append.mp hk with hk | hk
    · exact Nat.ne_of_lt (h.ranKey_seq_lt hk)
    · exact Nat.ne_of_lt (h.cancelledKey_seq_lt hk)
  constructor
  case seqs => simp [h.seqs, List.range_succ]
  case waiting =>
    have hnew : (⟨t.now + delay, t.nextSeq⟩ : TimerKey) ∉ Event.ranKeys J ∧
        (⟨t.now + delay, t.nextSeq⟩ : TimerKey) ∉ Event.cancelledKeys J :=
      ⟨fun hk => hfresh _ (List.mem_append_left _ hk) rfl,
        fun hk => hfresh _ (List.mem_append_right _ hk) rfl⟩
    simp [h.waiting, hnew.1, hnew.2]
  case clock =>
    intro tm c hc
    rcases List.mem_append.mp hc with hc | hc
    · exact h.clock tm c hc
    · simp at hc
  case order => simpa using h.order
  case orderly => simpa using h.orderly.schedule delay a
  case ran_born =>
    intro tm htm
    simp only [Event.ranTimers_append, Event.ranTimers_cons, Event.ran?, Option.toList_none,
      Event.ranTimers_nil, List.append_nil] at htm
    rw [Event.born_append]
    exact List.mem_append_left _ (h.ran_born tm htm)
  case cancelled_born =>
    intro k hk
    simp only [Event.cancelledKeys_append, Event.cancelledKeys_cons, Event.cancelled?,
      Option.toList_none, Event.cancelledKeys_nil, List.append_nil] at hk
    obtain ⟨x, hx, hxk⟩ := h.cancelled_born k hk
    rw [Event.born_append]
    exact ⟨x, List.mem_append_left _ hx, hxk⟩
  case disjoint => simpa using h.disjoint
  case cancelled_nodup => simpa using h.cancelled_nodup

/-- Cancelling a key removes its timer if it waits, and is told only then. -/
theorem cancel (h : Journaled t J) (k : TimerKey) :
    Journaled (t.cancel k) (J ++ t.cancelLog [k]) := by
  cases hw : t.waiting k
  · rw [cancel_of_not_waiting hw]
    simpa [cancelLog, hw] using h
  · obtain ⟨x, hx, rfl⟩ := (waiting_iff t _).mp hw
    obtain ⟨hxb, hxr, hxc⟩ := h.waiting_born hx
    have hlog : t.cancelLog [x.key] = [.cancelled x.key] := by simp [cancelLog, hw]
    rw [hlog]
    constructor
    case seqs => simpa using h.seqs
    case waiting =>
      simp only [cancel_timers, h.waiting, List.filter_filter, Event.born_append,
        Event.born_cons, Event.scheduled?, Option.toList_none, Event.born_nil, List.append_nil,
        Event.ranKeys_append, Event.ranKeys_cons, Event.ran?, Option.map_none,
        Event.ranKeys_nil, Event.cancelledKeys_append, Event.cancelledKeys_cons,
        Event.cancelled?, Option.toList_some, Event.cancelledKeys_nil]
      apply List.filter_congr
      intro y _
      by_cases h₁ : y.key = x.key <;> simp [h₁]
    case clock =>
      intro tm c hc
      rcases List.mem_append.mp hc with hc | hc
      · exact h.clock tm c hc
      · simp at hc
    case order => simpa using h.order
    case orderly => simpa using h.orderly.cancel x.key
    case ran_born =>
      intro tm htm
      simp only [Event.ranTimers_append, Event.ranTimers_cons, Event.ran?, Option.toList_none,
        Event.ranTimers_nil, List.append_nil] at htm
      simpa using h.ran_born tm htm
    case cancelled_born =>
      intro k hk
      simp only [Event.cancelledKeys_append, Event.cancelledKeys_cons, Event.cancelled?,
        Option.toList_some, Event.cancelledKeys_nil, List.append_nil, List.mem_append,
        List.mem_singleton] at hk
      simp only [Event.born_append, Event.born_cons, Event.scheduled?, Option.toList_none,
        Event.born_nil, List.append_nil]
      rcases hk with hk | rfl
      · exact h.cancelled_born k hk
      · exact ⟨x, hxb, rfl⟩
    case disjoint =>
      intro k hk
      simp only [Event.cancelledKeys_append, Event.cancelledKeys_cons, Event.cancelled?,
        Option.toList_some, Event.cancelledKeys_nil, List.append_nil, List.mem_append,
        List.mem_singleton] at hk
      simp only [Event.ranKeys_append, Event.ranKeys_cons, Event.ran?, Option.map_none,
        Option.toList_none, Event.ranKeys_nil, List.append_nil]
      rcases hk with hk | rfl
      · exact h.disjoint k hk
      · exact hxr
    case cancelled_nodup =>
      simp only [Event.cancelledKeys_append, Event.cancelledKeys_cons, Event.cancelled?,
        Option.toList_some, Event.cancelledKeys_nil]
      exact List.nodup_append.mpr ⟨h.cancelled_nodup, List.nodup_singleton _,
        fun a ha b hb => by rw [List.mem_singleton.mp hb]; rintro rfl; exact hxc ha⟩

/-- Scheduling and cancelling keep the account, told as they happen. -/
theorem edits (h : Journaled t J) {t' : Timeline α} {F : List (Event α)} (he : Edits t F t') :
    Journaled t' (J ++ F) := by
  induction he with
  | refl => simpa using h
  | schedule delay a _ ih => rw [← List.append_assoc]; exact ih.schedule delay a
  | cancel k _ ih => rw [← List.append_assoc]; exact ih.cancel k

theorem cancelAll (h : Journaled t J) (ks : List TimerKey) :
    Journaled (t.cancelAll ks) (J ++ t.cancelLog ks) :=
  h.edits (Edits.cancelAll t ks)

/-- Taking the earliest timer, due within a word, to run it keeps the account, told as run with
the clock at its due time: it was waiting, so neither ran nor was cancelled before, and it comes
after the last timer run. -/
theorem take (h : Journaled t J) {tm : Timer α} (he : t.earliest? = some tm)
    (hdue : tm.key.due ≤ wordLimit) : Journaled (t.take tm) (J ++ [.ran tm (t.take tm).now]) := by
  obtain ⟨hmem, -⟩ := earliest?_spec he
  obtain ⟨hb, hr, hc⟩ := h.waiting_born hmem
  obtain ⟨ho, hafter⟩ := h.orderly.pop he hdue
  constructor
  case seqs => simpa using h.seqs
  case waiting =>
    rw [take_timers, h.waiting, List.filter_filter]
    simp only [Event.born_append, Event.born_cons, Event.scheduled?, Option.toList_none,
      Event.born_nil, List.append_nil, Event.ranKeys_append, Event.ranKeys_cons, Event.ran?,
      Option.map_some, Option.toList_some, Event.ranKeys_nil, Event.cancelledKeys_append,
      Event.cancelledKeys_cons, Event.cancelled?, Option.toList_none, Event.cancelledKeys_nil]
    apply List.filter_congr
    intro x _
    by_cases hx : x.key = tm.key <;> simp [hx]
  case clock =>
    intro tm' c hc'
    rcases List.mem_append.mp hc' with hc' | hc'
    · exact h.clock tm' c hc'
    · obtain ⟨rfl, rfl⟩ := Event.ran.inj (List.mem_singleton.mp hc')
      rfl
  case order =>
    simp only [Event.ranKeys_append, Event.ranKeys_cons, Event.ran?, Option.map_some,
      Option.toList_some, Event.ranKeys_nil]
    refine pairwise_before_append h.order ?_
    cases hz : (Event.ranKeys J).getLast? with
    | none => simp
    | some z => simpa using hafter z (by simp [hz])
  case orderly => simpa using ho
  case ran_born =>
    intro tm' htm
    simp only [Event.ranTimers_append, Event.ranTimers_cons, Event.ran?, Option.toList_some,
      Event.ranTimers_nil, List.mem_append, List.mem_cons, List.not_mem_nil, or_false] at htm
    simp only [Event.born_append, Event.born_cons, Event.scheduled?, Option.toList_none,
      Event.born_nil, List.append_nil]
    rcases htm with htm | rfl
    · exact h.ran_born tm' htm
    · exact hb
  case cancelled_born => simpa using h.cancelled_born
  case disjoint =>
    intro k hk
    simp only [Event.cancelledKeys_append, Event.cancelledKeys_cons, Event.cancelled?,
      Option.toList_none, Event.cancelledKeys_nil, List.append_nil] at hk
    simp only [Event.ranKeys_append, Event.ranKeys_cons, Event.ran?, Option.map_some,
      Option.toList_some, Event.ranKeys_nil, List.mem_append, List.mem_cons, List.not_mem_nil,
      or_false, not_or]
    refine ⟨h.disjoint k hk, ?_⟩
    rintro rfl
    exact hc hk
  case cancelled_nodup => simpa using h.cancelled_nodup

/-- Moving the clock on to a target within a word, when nothing waiting is due by it, keeps the
account. -/
theorem settle (h : Journaled t J) {target : Nat} (hle : t.now ≤ target) (hT : target ≤ wordLimit)
    (hnone : ∀ x ∈ t.timers, target < x.key.due) : Journaled { t with now := target } J :=
  { h with orderly := h.orderly.settle hle hT hnone }

/-- Cancelling a key whose timer ran or was cancelled changes nothing. -/
theorem cancel_stale (h : Journaled t J) {k : TimerKey}
    (hk : k ∈ Event.ranKeys J ∨ k ∈ Event.cancelledKeys J) : t.cancel k = t := by
  apply cancel_of_not_waiting
  cases hw : t.waiting k
  · rfl
  · obtain ⟨x, hx, rfl⟩ := (waiting_iff t _).mp hw
    obtain ⟨-, hxr, hxc⟩ := h.waiting_born hx
    exact absurd hk (not_or.mpr ⟨hxr, hxc⟩)

/-- A timer scheduled after the events `J` took a sequence number past those they tell of. -/
theorem fresh (h : Journaled t J) {t' : Timeline α} {E : List (Event α)}
    (h' : Journaled t' (J ++ E)) {x : Timer α} (hx : x ∈ Event.born E) :
    t.nextSeq ≤ x.key.seq := by
  have hnd : ((Event.born J).map (·.key.seq) ++ (Event.born E).map (·.key.seq)).Nodup := by
    rw [← List.map_append, ← Event.born_append, h'.seqs]
    exact List.nodup_range
  have hxE : x.key.seq ∈ (Event.born E).map (·.key.seq) := List.mem_map_of_mem hx
  by_contra hlt
  have hxJ : x.key.seq ∈ (Event.born J).map (·.key.seq) := by
    rw [h.seqs, List.mem_range]
    omega
  exact List.disjoint_of_nodup_append hnd hxJ hxE

/-- **What an advance ran.** When the events `E` of an advance to `target` follow `J`, no timer
due by the target waits after it, and every timer it ran was due by the target, then of the
timers waiting before it or scheduled on the way and not cancelled on the way, it ran exactly
those due by the target. -/
theorem window (h : Journaled t J) {t' : Timeline α} {E : List (Event α)}
    (h' : Journaled t' (J ++ E)) {target : Nat} (hwait : ∀ x ∈ t'.timers, target < x.key.due)
    (hran : ∀ tm c, Event.ran tm c ∈ E → c ≤ target) :
    ∀ x ∈ t.timers ++ Event.born E, x.key ∉ Event.cancelledKeys E →
      (x.key.due ≤ target ↔ x.key ∈ Event.ranKeys E) := by
  intro x hx hxc
  -- before the advance, `x` was scheduled and had neither run nor been cancelled
  have hold : x ∈ Event.born J ++ Event.born E ∧ x.key ∉ Event.ranKeys J ∧
      x.key ∉ Event.cancelledKeys J := by
    rcases List.mem_append.mp hx with hx | hx
    · obtain ⟨hb, hr, hc⟩ := h.waiting_born hx
      exact ⟨List.mem_append_left _ hb, hr, hc⟩
    · have hseq := h.fresh h' hx
      exact ⟨List.mem_append_right _ hx, fun hk => absurd (h.ranKey_seq_lt hk) (by omega),
        fun hk => absurd (h.cancelledKey_seq_lt hk) (by omega)⟩
  obtain ⟨hb, hr, hc⟩ := hold
  constructor
  · intro hdue
    by_contra hnot
    -- a timer due by the target that neither ran nor was cancelled would still wait
    have hw : x ∈ t'.timers := by
      rw [h'.waiting, List.mem_filter, Event.born_append, Event.ranKeys_append,
        Event.cancelledKeys_append]
      simp [hb, hr, hc, hnot, hxc]
    exact absurd hdue (Nat.not_le.mpr (hwait x hw))
  · intro hk
    obtain ⟨tm, htm, hkey⟩ := List.mem_map.mp hk
    obtain ⟨e, he, hsome⟩ := List.mem_filterMap.mp htm
    cases e with
    | ran tm' c =>
      obtain rfl := Option.some.inj hsome
      have hc' := h'.clock tm' c (List.mem_append_right _ he)
      rw [← hkey, ← hc']
      exact hran tm' c he
    | scheduled _ => cases hsome
    | cancelled _ => cases hsome

/-- What waits is what was scheduled, less what ran and what was cancelled. -/
theorem pending_add (h : Journaled t J) :
    t.pending + (Event.ranKeys J).length + (Event.cancelledKeys J).length =
      (Event.born J).length := by
  let gone : Timer α → Bool := fun x => decide (x.key ∈ Event.ranKeys J ∨
    x.key ∈ Event.cancelledKeys J)
  have hwait : t.timers = (Event.born J).filter (! gone ·) := by
    rw [h.waiting]
    apply List.filter_congr
    intro x _
    simp [gone]
  have hkeys : ((Event.born J).map (·.key)).Nodup := by
    apply List.Nodup.of_map TimerKey.seq
    rw [List.map_map]
    exact (congrArg List.Nodup h.seqs).mpr List.nodup_range
  have hran : (Event.ranKeys J).Nodup := h.order.imp fun hb e => by
    rw [e, TimerKey.before_irrefl] at hb
    cases hb
  -- the keys of the timers gone are those that ran and those cancelled, each once
  have hperm : List.Perm (((Event.born J).filter gone).map (·.key))
      (Event.ranKeys J ++ Event.cancelledKeys J) := by
    refine (List.perm_ext_iff_of_nodup (hkeys.sublist (List.filter_sublist.map _))
      (List.nodup_append.mpr ⟨hran, h.cancelled_nodup, ?_⟩)).mpr fun k => ?_
    · rintro a ha b hb rfl
      exact h.disjoint a hb ha
    · simp only [List.mem_map, List.mem_filter, List.mem_append, gone, decide_eq_true_eq]
      constructor
      · rintro ⟨x, ⟨-, hx⟩, rfl⟩
        exact hx
      · rintro (hk | hk)
        · obtain ⟨tm, htm, rfl⟩ := List.mem_map.mp hk
          exact ⟨tm, ⟨h.ran_born tm htm, .inl hk⟩, rfl⟩
        · obtain ⟨x, hx, rfl⟩ := h.cancelled_born k hk
          exact ⟨x, ⟨hx, .inr hk⟩, rfl⟩
  have hsplit := List.length_eq_length_filter_add gone (l := Event.born J)
  have hgone := hperm.length_eq
  rw [List.length_map, List.length_append] at hgone
  rw [pending, hwait]
  omega

end Journaled

/-! ## An advance, told -/

/-- **An advance keeps the account**, whatever its tasks schedule and cancel, when they tell what
they do, the work left drops with each task run, and the fuel outlasts it. From a timeline the
events `J` account for, with the clock not past the target and the target within a word, the
events of the advance after `J` account for the timeline it leaves; its clock is at the target,
nothing due by the target waits, and every task it ran was due by the target. -/
theorem runDueLog_journaled {σ ε : Type} {view : σ → Timeline α} {update : σ → Timeline α → σ}
    {fireLog : α → σ → Except ε (List (Event α) × σ)} {target : Nat}
    (hv : ∀ s t, view (update s t) = t)
    (hf : ∀ a s F s', fireLog a s = .ok (F, s') → Edits (view s) F (view s'))
    (μ : σ → Nat)
    (hμ : ∀ s tm F s', (view s).earliest? = some tm →
      fireLog tm.task (update s ((view s).take tm)) = .ok (F, s') → μ s' < μ s)
    (hT : target ≤ wordLimit) :
    ∀ fuel (s : σ) (J E : List (Event α)) (s' : σ),
      Journaled (view s) J → (view s).now ≤ target → μ s < fuel →
      runDueLog view update fireLog target fuel s = .ok (E, s') →
      Journaled (view s') (J ++ E) ∧ (view s').now = target ∧
        (∀ x ∈ (view s').timers, target < x.key.due) ∧ ∀ tm c, Event.ran tm c ∈ E → c ≤ target
  | 0, _, _, _, _, _, _, hμs, _ => absurd hμs (Nat.not_lt_zero _)
  | fuel + 1, s, J, E, s', hJ, hle, hμs, h => by
    rcases runDueLog_succ h with ⟨tm, F, s₂, E', he, hd, hfire, hrec, rfl⟩ | ⟨hnone, rfl, rfl⟩
    · -- the earliest timer runs at its due time, its task edits the timeline, and the advance
      -- goes on from there with less work left
      have h₁ : Journaled (view (update s ((view s).take tm)))
          (J ++ [.ran tm (view (update s ((view s).take tm))).now]) := by
        rw [hv]
        exact hJ.take he (Nat.le_trans hd hT)
      have hed := hf _ _ _ _ hfire
      have hle₂ : (view s₂).now ≤ target := by
        rw [hed.now_eq, hv, take_now]
        exact hd
      have hμ₂ := hμ s tm F s₂ he hfire
      obtain ⟨hJ', hnow, hwait, hran⟩ := runDueLog_journaled hv hf μ hμ hT fuel s₂ _ E' s'
        (h₁.edits hed) hle₂ (by omega) hrec
      refine ⟨by simpa using hJ', hnow, hwait, fun tm' c hc => ?_⟩
      rcases List.mem_cons.mp hc with hc | hc
      · obtain ⟨rfl, rfl⟩ := Event.ran.inj hc
        rw [hv, take_now]
        exact hd
      · rcases List.mem_append.mp hc with hc | hc
        · exact absurd hc (hed.not_ran tm' c)
        · exact hran tm' c hc
    · -- nothing waiting is due by the target, so the clock moves on to it
      have hnone' : ∀ x ∈ (view s).timers, target < x.key.due := by
        intro x hx
        cases he : (view s).earliest? with
        | none =>
          rw [earliest?_eq_none.mp he] at hx
          cases hx
        | some tm =>
          have := (earliest?_spec he).2 x hx
          have := hnone tm he
          rw [← Bool.not_eq_true, TimerKey.before_eq_true] at *
          omega
      rw [hv, List.append_nil]
      exact ⟨hJ.settle hle hT hnone', rfl, hnone', fun _ _ h => nomatch h⟩

end Timeline

end PageEditor
