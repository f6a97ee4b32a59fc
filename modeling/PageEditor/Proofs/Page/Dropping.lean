import PageEditor.Proofs.Page.Reaching
import PageEditor.Proofs.Page.Clock
import PageEditor.Proofs.Overlay.Stack
/-!
# PageEditor.Proofs.Page.Dropping

Dropping components: one at a time, or all of a kind.

A component reaches the page through the listeners it left on nodes, the jobs it spawned and
the timers it holds. Dropping one component cancels every timer it holds at once: the waiting
timers fall by the number of those it held, every other timer stays where it was, and every
other component, of its kind too, stays on the page as it was (`dropOne_run`,
`othersKept_dropOne`, `pending_cancelAll`). The dropped component is gone for good, since its
id was given out before and a run of steps gives no id out twice (`Numbered`, `Retains.dead`).
A listener or a job that names a dead component leaves the page as it is, except that a close
trigger still prevents its click's default, a save still sends its request and takes the
transport's answer, and a copy still writes the clipboard (`Silenced`, `react_dead`,
`Job.run_save_dead`, `Job.run_copy_dead`).

`dropping_one_cancels_and_silences` puts this together for every run of steps from a loaded
page, and `dropping_kind_cancels_and_silences` does so for the step that drops a whole kind.
-/

namespace PageEditor.Timeline

theorem cancelAll_append {α : Type} (t : Timeline α) (ks ks' : List TimerKey) :
    t.cancelAll (ks ++ ks') = (t.cancelAll ks).cancelAll ks' :=
  List.foldl_append

end PageEditor.Timeline

namespace PageEditor.Ui

open Markup Markup.Document

/-! ## What the components of a kind hold -/

/-- The timers the live components of a kind hold. -/
def heldTimers (p : Page) : Component → List TimerKey
  | .coordinators => p.coordinators.flatMap (·.board.timers)
  | .overlays => p.overlays.flatMap (·.timers)
  | .boards => p.boards.flatMap (·.timers)
  | .copies => p.copies.flatMap (·.timers)
  | .blocks => []

/-- The ids of the live components of a kind; boards and code blocks have none. -/
def componentIds (p : Page) : Component → List Nat
  | .coordinators => p.coordinators.map (·.id)
  | .overlays => p.overlays.map (·.id)
  | .copies => p.copies.map (·.id)
  | .boards => []
  | .blocks => []

/-- The component a listener belongs to, with its id. A code block's listener belongs to none:
it lives as long as the document. -/
def Reaction.component : Reaction → Option (Component × Nat)
  | .markDirty c | .requireReload c | .interceptSubmit c => some (.coordinators, c)
  | .dismissOverlays s | .closeOverlays s => some (.overlays, s)
  | .copyField k _ => some (.copies, k)
  | .followSelector _ _ _ _ => none

/-- Whether a listener prevents its event's default whatever becomes of its component: a close
trigger does. -/
def Reaction.closes : Reaction → Bool
  | .closeOverlays _ => true
  | _ => false

/-! ## The drop -/

/-- Cancelling the timers of each member of a list cancels them all at once. -/
theorem run_forM_cancelTimers {γ : Type} (keys : γ → List TimerKey) :
    ∀ (l : List γ) (p : Page), (l.forM fun c => cancelTimers (keys c)).run p =
      .ok ((), { p with timeline := p.timeline.cancelAll (l.flatMap keys) })
  | [], p => rfl
  | c :: l, p => by
    rw [List.forM_eq_forM, List.forM_cons, ← List.forM_eq_forM, StateT.run_bind,
      run_cancelTimers, except_ok_bind, run_forM_cancelTimers keys l, List.flatMap_cons,
      Timeline.cancelAll_append]

/-- Dropping a kind cancels the timers its components hold and forgets the components; the
document and the id counter stay. -/
theorem dropAll_run (k : Component) (p : Page) : ∃ p', (dropAll k).run p = .ok ((), p') ∧
    p'.timeline = p.timeline.cancelAll (heldTimers p k) ∧ p'.doc = p.doc ∧
    p'.nextId = p.nextId ∧ componentIds p' k = [] := by
  cases k
  case blocks => exact ⟨_, rfl, rfl, rfl, rfl, rfl⟩
  all_goals
    rw [dropAll, StateT.run_bind, StateT.run_get, except_pure, except_ok_bind, StateT.run_bind,
      run_forM_cancelTimers, except_ok_bind]
    exact ⟨_, rfl, rfl, rfl, rfl, rfl⟩

/-- The waiting timers fall by the number of those whose keys are cancelled. -/
theorem pending_cancelAll {α : Type} (t : Timeline α) (ks : List TimerKey) :
    t.pending = (t.cancelAll ks).pending + (t.timers.filter fun tm => tm.key ∈ ks).length := by
  rw [Timeline.pending, Timeline.pending, Timeline.cancelAll_eq, Nat.add_comm]
  simp only [decide_not]
  exact List.length_eq_length_filter_add _

/-! ## Ids given out once -/

/-- Every live component's id was given out: it is below the id counter. -/
structure Numbered (p : Page) : Prop where
  coordinators : ∀ i ∈ p.coordinators.map (·.id), i < p.nextId
  overlays : ∀ i ∈ p.overlays.map (·.id), i < p.nextId
  copies : ∀ i ∈ p.copies.map (·.id), i < p.nextId

theorem Numbered.load (html : String) (s : Settings) (viewport : Float)
    (heights : List (String × Float)) (answers : List Answer) (clipboard : List Bool) :
    Numbered (Page.load html s viewport heights answers clipboard) := by
  -- a loaded page has one overlay stack, numbered 0, and the counter stands at 1
  have ho : (Page.load html s viewport heights answers clipboard).overlays.map (·.id) = [0] := rfl
  refine ⟨(fun _ h => nomatch h), fun i h => ?_, (fun _ h => nomatch h)⟩
  rw [ho, List.mem_singleton] at h
  rw [h]
  exact Nat.zero_lt_one

theorem Numbered.retains {p q : Page} (h : Numbered p) (hr : Retains p q) : Numbered q :=
  ⟨hr.coordinators.lt h.coordinators hr.nextId, hr.overlays.lt h.overlays hr.nextId,
    hr.copies.lt h.copies hr.nextId⟩

theorem Numbered.lt {p : Page} (h : Numbered p) : ∀ k, ∀ i ∈ componentIds p k, i < p.nextId
  | .coordinators => h.coordinators
  | .overlays => h.overlays
  | .copies => h.copies
  | .boards => fun _ h => nomatch h
  | .blocks => fun _ h => nomatch h

/-- A component that was given its id before `p` and is not live on `p` is not live on any
page that retains `p`. -/
theorem Retains.dead {p q : Page} (hr : Retains p q) {i : Nat} (hi : i < p.nextId) :
    ∀ k, i ∉ componentIds p k → i ∉ componentIds q k
  | .coordinators => hr.coordinators.not_mem hi
  | .overlays => hr.overlays.not_mem hi
  | .copies => hr.copies.not_mem hi
  | .boards => fun _ h => nomatch h
  | .blocks => fun _ h => nomatch h

/-! ## What names a dead component -/

section Dead

variable {γ : Type} {q : Page} {i : Nat}

theorem find?_id_eq_none {l : List γ} (id : γ → Nat) (h : i ∉ l.map id) :
    l.find? (fun c => id c == i) = none :=
  List.find?_eq_none.mpr fun c hc he => h (List.mem_map.mpr ⟨c, hc, beq_iff_eq.mp he⟩)

theorem map_update_dead {l : List γ} (id : γ → Nat) (f : γ → γ) (h : i ∉ l.map id) :
    l.map (fun c => if id c == i then f c else c) = l := by
  refine (List.map_congr_left fun c hc => ?_).trans (List.map_id l)
  have hne : id c ≠ i := fun he => h (List.mem_map.mpr ⟨c, hc, he⟩)
  simp [hne]

theorem markDirty_dead (h : i ∉ q.coordinators.map (·.id)) : (markDirty i).run q = .ok ((), q) := by
  rw [markDirty, StateT.run_bind, run_coordinator?, find?_id_eq_none _ h]
  rfl

theorem requireReload_dead (h : i ∉ q.coordinators.map (·.id)) :
    (requireReload i).run q = .ok ((), q) := by
  rw [requireReload, run_updateCoordinator, map_update_dead _ _ h]

theorem interceptSubmit_dead (h : i ∉ q.coordinators.map (·.id)) :
    (interceptSubmit i).run q = .ok (false, q) := by
  rw [interceptSubmit, StateT.run_bind, run_coordinator?, find?_id_eq_none _ h]
  rfl

theorem completeSave_dead (a : Answer) (h : i ∉ q.coordinators.map (·.id)) :
    (completeSave i a).run q = .ok ((), q) := by
  rw [completeSave, StateT.run_bind, run_coordinator?, find?_id_eq_none _ h]
  rfl

theorem dismiss_dead (h : i ∉ q.overlays.map (·.id)) : (dismiss i).run q = .ok (0, q) := by
  rw [dismiss, StateT.run_bind, run_stack?, find?_id_eq_none _ h]
  rfl

theorem copyField_dead (f : Nat) (h : i ∉ q.copies.map (·.id)) :
    (copyField i f).run q = .ok ((), q) := by
  rw [copyField, StateT.run_bind, run_copies?, find?_id_eq_none _ h]
  rfl

/-- **A dead component's listener does nothing.** It leaves the page as it is and the event's
flag as it was, except that a close trigger prevents the click's default. -/
theorem react_dead (b : Bool) {r : Reaction} {k : Component} (hr : r.component = some (k, i))
    (h : i ∉ componentIds q k) : (react b r).run q = .ok (b || r.closes, q) := by
  cases r with
  | markDirty c =>
    cases hr
    rw [react, StateT.run_bind, markDirty_dead h]
    simp [Reaction.closes]
  | requireReload c =>
    cases hr
    rw [react, StateT.run_bind, requireReload_dead h]
    simp [Reaction.closes]
  | interceptSubmit c =>
    cases hr
    rw [react, StateT.run_bind, interceptSubmit_dead h]
    simp [Reaction.closes]
  | dismissOverlays s =>
    cases hr
    rw [react, StateT.run_bind, dismiss_dead h]
    simp [Reaction.closes]
  | closeOverlays s =>
    cases hr
    rw [react, StateT.run_bind, dismiss_dead h]
    simp [Reaction.closes]
  | copyField c f =>
    cases hr
    rw [react, StateT.run_bind, copyField_dead f h]
    simp [Reaction.closes]
  | followSelector e sel label fallback => cases hr

/-- A save of a dead coordinator still sends its request and takes the transport's answer, and
changes nothing else. -/
theorem Job.run_save_dead (request : Save.Request) (h : i ∉ q.coordinators.map (·.id)) :
    (Job.run (.save i request)).run q =
      .ok ((), { q with sent := q.sent ++ [request], answers := q.answers.tail }) := by
  rw [Job.run, StateT.run_bind]
  show (nextAnswer >>= completeSave i).run { q with sent := q.sent ++ [request] } = _
  rw [StateT.run_bind, run_nextAnswer, except_ok_bind]
  exact completeSave_dead _ h

/-- A copy of a dead component still takes the clipboard's answer and writes the text when the
write succeeds, and shows no indicator. -/
theorem Job.run_copy_dead (f : Nat) (text : String) (h : i ∉ q.copies.map (·.id)) :
    (Job.run (.copy i f text)).run q = .ok ((), { q with
      clipboardAnswers := q.clipboardAnswers.tail,
      written := if q.clipboardAnswers.headD true then q.written ++ [text] else q.written }) := by
  rw [Job.run, StateT.run_bind, run_nextClipboardAnswer, except_ok_bind]
  dsimp only
  -- whether the write succeeds, no live component shows an indicator
  cases q.clipboardAnswers.headD true
  · simp only [Bool.false_eq_true, if_false]
    rw [StateT.run_bind, run_copies?, find?_id_eq_none _ h]
    rfl
  · simp only [if_true]
    rw [StateT.run_bind, StateT.run_modify, except_pure, except_ok_bind, StateT.run_bind,
      run_copies?, find?_id_eq_none _ h]
    rfl

/-- On page `q`, what names the component of kind `k` with id `i` does nothing: each of its
listeners leaves the page as it is and the event's flag as it was, except that a close trigger
prevents its click's default; a save of it only sends its request and takes the transport's
answer; a copy of it only takes the clipboard's answer and writes the text when the write
succeeds. -/
structure Silenced (q : Page) (k : Component) (i : Nat) : Prop where
  listeners : ∀ r b, r.component = some (k, i) → (react b r).run q = .ok (b || r.closes, q)
  saves : ∀ request, k = .coordinators → (Job.run (.save i request)).run q =
    .ok ((), { q with sent := q.sent ++ [request], answers := q.answers.tail })
  copies : ∀ f text, k = .copies → (Job.run (.copy i f text)).run q = .ok ((), { q with
    clipboardAnswers := q.clipboardAnswers.tail,
    written := if q.clipboardAnswers.headD true then q.written ++ [text] else q.written })

theorem silenced_of_dead {k : Component} (h : i ∉ componentIds q k) : Silenced q k i where
  listeners _ b hr := react_dead b hr h
  saves request hk := by
    subst hk
    exact Job.run_save_dead request h
  copies f text hk := by
    subst hk
    exact Job.run_copy_dead f text h

/-- A component whose id was given out before `p` and that is not live on `p` stays silenced on
every page a run reaches from `p`. -/
theorem Reaches.silenced {p : Page} {k : Component} (hq : Reaches p q) (hlt : i < p.nextId)
    (hgone : i ∉ componentIds p k) : Silenced q k i :=
  silenced_of_dead (hq.retains.dead hlt k hgone)

end Dead

/-! ## Dropping one component -/

section One

variable {p : Page} {k : Component} {i : Nat}

theorem dropOne_run (k : Component) (i : Nat) (p : Page) :
    (dropOne k i).run p =
      .ok ((), ({ p with timeline := p.timeline.cancelAll (p.heldBy k i) } : Page).without k i) :=
  rfl

@[simp] theorem without_timeline : (p.without k i).timeline = p.timeline := by cases k <;> rfl

@[simp] theorem without_doc : (p.without k i).doc = p.doc := by cases k <;> rfl

@[simp] theorem without_nextId : (p.without k i).nextId = p.nextId := by cases k <;> rfl

/-- The dropped component is gone. -/
theorem not_mem_componentIds_without : i ∉ componentIds (p.without k i) k := by
  cases k <;> simp [Page.without, componentIds]

/-- Every component of `p` other than the one dropped, the component of kind `k` with id `i`
(by position for boards), is on `p'` as it was. -/
structure OthersKept (p p' : Page) (k : Component) (i : Nat) : Prop where
  coordinators : ∀ c ∈ p.coordinators, (k = .coordinators → c.id ≠ i) → c ∈ p'.coordinators
  overlays : ∀ s ∈ p.overlays, (k = .overlays → s.id ≠ i) → s ∈ p'.overlays
  boards : ∀ j b, p.boards[j]? = some b → (k = .boards → j ≠ i) → b ∈ p'.boards
  copies : ∀ c ∈ p.copies, (k = .copies → c.id ≠ i) → c ∈ p'.copies

theorem mem_filter_id_ne {γ : Type} (id : γ → Nat) {l : List γ} {c : γ} (hc : c ∈ l)
    (hne : id c ≠ i) : c ∈ l.filter (fun c => id c != i) :=
  List.mem_filter.mpr ⟨hc, bne_iff_ne.mpr hne⟩

/-- Dropping one component keeps every other, of its kind too: the lists of the other kinds
stay as they were, and the one of its kind loses only the dropped component. -/
theorem othersKept_dropOne {p' : Page} (h : (dropOne k i).run p = .ok ((), p')) :
    OthersKept p p' k i := by
  rw [dropOne_run] at h
  cases h
  have board : ∀ j b, p.boards[j]? = some b → b ∈ p.boards := fun _ _ hb => List.mem_of_getElem? hb
  cases k with
  | coordinators =>
    exact ⟨fun c hc hne => mem_filter_id_ne _ hc (hne rfl), fun _ hs _ => hs,
      fun j b hb _ => board j b hb, fun _ hc _ => hc⟩
  | overlays =>
    exact ⟨fun _ hc _ => hc, fun s hs hne => mem_filter_id_ne _ hs (hne rfl),
      fun j b hb _ => board j b hb, fun _ hc _ => hc⟩
  | boards =>
    exact ⟨fun _ hc _ => hc, fun _ hs _ => hs,
      fun j b hb hne => List.mem_eraseIdx_iff_getElem?.mpr ⟨j, hne rfl, hb⟩, fun _ hc _ => hc⟩
  | copies =>
    exact ⟨fun _ hc _ => hc, fun _ hs _ => hs, fun j b hb _ => board j b hb,
      fun c hc hne => mem_filter_id_ne _ hc (hne rfl)⟩
  | blocks =>
    exact ⟨fun _ hc _ => hc, fun _ hs _ => hs, fun j b hb _ => board j b hb, fun _ hc _ => hc⟩

end One

/-! ## Dropping along a run -/

/-- The step that drops a kind: it is never refused, and leaves the page `dropAll` leaves. -/
theorem step_drop (k : Component) (p : Page) : ∃ p',
    p.step (.ok (.drop k)) = .ok ((.ok .nothing, p'.view), p') ∧
      p'.timeline = p.timeline.cancelAll (heldTimers p k) ∧ p'.doc = p.doc ∧
      p'.nextId = p.nextId ∧ componentIds p' k = [] := by
  obtain ⟨p', hrun, htl, hdoc, hid, hgone⟩ := dropAll_run k p
  have hperform : (ExceptT.run (Step.perform (.drop k))).run p = .ok (.ok .nothing, p') := by
    show (ExceptT.run (liftM (dropAll k) >>= fun _ => pure Reply.nothing : StepAct Reply)).run p = _
    rw [ExceptT.run_bind]
    show ((Except.ok <$> dropAll k) >>= _).run p = _
    rw [StateT.run_bind, StateT.run_map, hrun]
    rfl
  refine ⟨p', ?_, htl, hdoc, hid, hgone⟩
  unfold Page.step
  dsimp only
  rw [hperform]
  rfl

/-- Dropping the components of a kind, as the step does, on every page a run of steps
reaches from a loaded page: the waiting timers they hold leave the timeline at once, so the
waiting timers fall by their number and the others stay in their order, the document is left as
it was, and from then on every dropped component is silenced. -/
theorem dropping_kind_cancels_and_silences {html : String} {s : Settings} {viewport : Float}
    {heights : List (String × Float)} {answers : List Answer} {clipboard : List Bool} {p : Page}
    (hp : Reaches (Page.load html s viewport heights answers clipboard) p) (k : Component) :
    ∃ p', p.step (.ok (.drop k)) = .ok ((.ok .nothing, p'.view), p') ∧
      p'.timeline.timers = p.timeline.timers.filter (fun tm => tm.key ∉ heldTimers p k) ∧
      p.timeline.pending = p'.timeline.pending +
        (p.timeline.timers.filter fun tm => tm.key ∈ heldTimers p k).length ∧
      p'.doc = p.doc ∧ ∀ i ∈ componentIds p k, ∀ q, Reaches p' q → Silenced q k i := by
  obtain ⟨p', hstep, htl, hdoc, hid, hgone⟩ := step_drop k p
  have hnum : Numbered p := (Numbered.load _ _ _ _ _ _).retains hp.retains
  refine ⟨p', hstep, by rw [htl, Timeline.cancelAll_eq], by rw [htl]; exact pending_cancelAll _ _,
    hdoc, fun i hi q hq => ?_⟩
  -- the id was given out before the drop and the drop leaves no component of the kind
  exact hq.silenced (hid ▸ hnum.lt k i hi) (by rw [hgone]; exact List.not_mem_nil)

/-- **Dropping one component takes its timers and reactions with it and leaves the others.**
On every page a run of steps reaches from a loaded page, dropping one component (the
coordinator, overlay stack or copy component with an id, or the message board at a position)
cancels at once the waiting timers it holds: exactly those leave the timeline, so the waiting
timers fall by their number, and every other timer stays in its order. Every other component,
of its kind too, stays on the page as it was, and so does the document. When the component was
live, it is silenced from then on, on every page a run reaches: a later submit is not
intercepted, a save completing after the drop only sends its request, a click on a copy field
writes nothing, and a click on a former backdrop or close trigger removes nothing. -/
theorem dropping_one_cancels_and_silences {html : String} {s : Settings} {viewport : Float}
    {heights : List (String × Float)} {answers : List Answer} {clipboard : List Bool} {p : Page}
    (hp : Reaches (Page.load html s viewport heights answers clipboard) p) (k : Component)
    (i : Nat) :
    ∃ p', (dropOne k i).run p = .ok ((), p') ∧
      p'.timeline.timers = p.timeline.timers.filter (fun tm => tm.key ∉ p.heldBy k i) ∧
      p.timeline.pending = p'.timeline.pending +
        (p.timeline.timers.filter fun tm => tm.key ∈ p.heldBy k i).length ∧
      OthersKept p p' k i ∧ p'.doc = p.doc ∧
      (i ∈ componentIds p k → ∀ q, Reaches p' q → Silenced q k i) := by
  have hnum : Numbered p := (Numbered.load _ _ _ _ _ _).retains hp.retains
  refine ⟨_, dropOne_run k i p, ?_, ?_, othersKept_dropOne (dropOne_run k i p), without_doc,
    fun hi q hq => ?_⟩
  · rw [without_timeline, Timeline.cancelAll_eq]
  · rw [without_timeline]
    exact pending_cancelAll _ _
  -- the id was given out before the drop, and the drop takes the component off the page
  exact hq.silenced (by rw [without_nextId]; exact hnum.lt k i hi) not_mem_componentIds_without

/-- Two overlay stacks, the second opened by a step: dropping the first keeps the second, and a
later click on what was the first's backdrop leaves the page as it is. -/
theorem dropping_one_cancels_and_silences_second_stack :
    let p₀ := Page.load "" {} 768 [] [] []
    let p : Page := { p₀ with nextId := 2, overlays := p₀.overlays ++ [⟨1, [], []⟩] }
    p₀.step (.ok .overlayNew) = .ok ((.ok .nothing, p.view), p) ∧
      ∃ p', (dropOne .overlays 0).run p = .ok ((), p') ∧ ⟨1, [], []⟩ ∈ p'.overlays ∧
        ∀ b, (react b (.dismissOverlays 0)).run p' = .ok (b, p') := by
  intro p₀ p
  have hstep : p₀.step (.ok .overlayNew) = .ok ((.ok .nothing, p.view), p) := rfl
  obtain ⟨p', hrun, -, -, hkept, -, hafter⟩ :=
    dropping_one_cancels_and_silences (.step hstep (.refl p)) .overlays 0
  refine ⟨hstep, p', hrun, hkept.overlays _ (by decide) (fun _ => by decide), fun b => ?_⟩
  have hb := (hafter (by decide) p' (.refl p')).listeners (.dismissOverlays 0) b rfl
  simpa [Reaction.closes] using hb

end PageEditor.Ui
