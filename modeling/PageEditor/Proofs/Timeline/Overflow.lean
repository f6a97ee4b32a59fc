import PageEditor.Proofs.Timeline.Scripts
/-!
# PageEditor.Proofs.Timeline.Overflow

When a due time does not fit in a word.

Scheduling adds the delay to the clock without saturating, while an advance caps the clock at
the largest word. So the clock can reach the largest word, and from there scheduling any
positive delay overflows. Over every script (`scheduling_overflows_iff_past_word`):

* the clock never passes the largest word, and no step moves it back;
* scheduling a task fails exactly when the clock plus the delay passes the largest word;
* otherwise the new timer is due at the clock plus the delay, never before the clock, and the
  clock stays where it was.

An advance by the largest word followed by scheduling one millisecond later stops the script
with an overflow (`schedule_after_saturated_advance_overflows`).
-/

namespace PageEditor

namespace Timeline

variable {α : Type}

/-- Scheduling fails exactly when the due time passes the largest word. -/
theorem scheduleChecked_error_iff (t : Timeline α) (delay : Nat) (a : α) :
    (∃ e, t.scheduleChecked delay a = .error e) ↔ wordLimit < t.now + delay := by
  unfold scheduleChecked fits
  by_cases h : t.now + delay ≤ wordLimit
  · simp only [h, decide_true, ↓reduceIte]
    constructor
    · rintro ⟨e, he⟩
      cases he
    · intro hlt
      omega
  · simp only [h, decide_false, Bool.false_eq_true, ↓reduceIte]
    exact ⟨fun _ => by omega, fun _ => ⟨_, rfl⟩⟩

@[simp] theorem schedule_due (t : Timeline α) (delay : Nat) (a : α) :
    (t.schedule delay a).1.due = t.now + delay := rfl

end Timeline

namespace TimerScript

open Timeline

/-- A schedule call fails exactly when its due time passes the largest word: past the check,
keeping, detaching, dropping or grouping the handle cannot fail. -/
theorem call_schedule_error_iff (b : Bench) (delay : Nat) (use : HandleUse) (job : Job) :
    (∃ e, b.call (.schedule delay use job) = .error e) ↔ wordLimit < b.timeline.now + delay := by
  rw [← scheduleChecked_error_iff b.timeline delay job]
  rw [Bench.call]
  cases hsc : b.timeline.scheduleChecked delay job with
  | error e => exact ⟨fun _ => ⟨e, rfl⟩, fun _ => ⟨e, rfl⟩⟩
  | ok kt =>
    simp only [reduceCtorEq, exists_false, iff_false]
    rintro ⟨e, he⟩
    cases use <;> dsimp only [bind, Except.bind] at he
    case keep => split at he <;> cases he
    all_goals cases he

/-- **Scheduling overflows exactly past the largest word.** Over every script the clock stays
within a word and no step moves it back; scheduling a task after `delay` fails exactly when the
clock plus `delay` passes the largest word, and otherwise the new timer is due at the clock
plus `delay`, no earlier than the clock, with the clock left where it was. -/
theorem scheduling_overflows_iff_past_word {b : Bench} {J : List (Event Job)} (hr : Reaches b J) :
    b.timeline.now ≤ wordLimit ∧
    (∀ delay use job,
      (∃ e, ({ b with fired := [] } : Bench).step (.call (.schedule delay use job)) = .error e) ↔
        wordLimit < b.timeline.now + delay) ∧
    (∀ delay (a : Job) key t, b.timeline.scheduleChecked delay a = .ok (key, t) →
      key.due = b.timeline.now + delay ∧ b.timeline.now ≤ key.due ∧ t.now = b.timeline.now) ∧
    ∀ s E r b', ({ b with fired := [] } : Bench).stepLog s = .ok (E, r, b') →
      b.timeline.now ≤ b'.timeline.now := by
  have hJ := hr.journaled
  refine ⟨hJ.orderly.now_le, fun delay use job => call_schedule_error_iff _ delay use job,
    fun delay a key t h => ?_, fun s E r b' h => ?_⟩
  · obtain ⟨hkey, ht⟩ := Prod.mk.inj (scheduleChecked_ok h)
    subst hkey ht
    exact ⟨rfl, Nat.le_add_right _ _, rfl⟩
  · exact (@stepLog_clock { b with fired := [] } _ hJ _ _ _ _ h).1

/-- The bench after an advance by the largest word: the clock has saturated. -/
def saturatedBench : Bench := ⟨⟨wordLimit, 0, []⟩, [], [], []⟩

theorem reaches_saturated : Reaches saturatedBench [] :=
  @Reaches.step Bench.empty [] (.advance wordLimit) [] .nothing saturatedBench .empty (by
    simp [Bench.stepLog, runDueLog, Bench.empty, Timeline.empty, earliest?, target, saturatedBench])

theorem scheduling_overflows_iff_past_word_saturated :
    Reaches saturatedBench [] ∧ wordLimit < saturatedBench.timeline.now + 1 ∧
    (saturatedBench.timeline.now ≤ wordLimit ∧
    (∀ delay use job,
      (∃ e, ({ saturatedBench with fired := [] } : Bench).step (.call (.schedule delay use job)) =
        .error e) ↔ wordLimit < saturatedBench.timeline.now + delay) ∧
    (∀ delay (a : Job) key t, saturatedBench.timeline.scheduleChecked delay a = .ok (key, t) →
      key.due = saturatedBench.timeline.now + delay ∧ saturatedBench.timeline.now ≤ key.due ∧
        t.now = saturatedBench.timeline.now) ∧
    ∀ s E r b', ({ saturatedBench with fired := [] } : Bench).stepLog s = .ok (E, r, b') →
      saturatedBench.timeline.now ≤ b'.timeline.now) :=
  ⟨reaches_saturated, Nat.lt_succ_self _, scheduling_overflows_iff_past_word reaches_saturated⟩

/-- Advancing by the largest word and then scheduling one millisecond later overflows. -/
theorem schedule_after_saturated_advance_overflows :
    run [.advance wordLimit, .call (.schedule 1 .keep ⟨1, []⟩)] = .error ⟨wordLimit, 1⟩ := by
  simp [run, run.go, Bench.step, Bench.call, runDue, popDue, earliest?, Bench.empty,
    Timeline.empty, target, scheduleChecked, fits, bind, Except.bind, pure, Except.pure]

end TimerScript

end PageEditor
