import PageEditor.Page.Step
import PageEditor.Proofs.Markup.Growth
import PageEditor.Proofs.Timeline.Firing
/-!
# PageEditor.Proofs.Page.Actions

What the page actions of a save coordinator do, as equations on the page.

The page actions run in `Act = StateT Page (Except DueOverflow)`; the equations of this module
say what each of them leaves behind, so that later proofs never unfold one:

* the small actions (`doc`, `settings`, `onDoc`, `coordinator?`, `updateCoordinator`) by `rfl`;
* for a page whose only coordinator is `c`, the coordinator's reactions: `markDirty` (the first
  edit writes the unsaved notice), `requireReload`, `interceptSubmit` (by the session's
  decision), and `completeSave` with either answer;
* the executor (`runJobs` with no job and with one save job) and the clock (`advance`), which
  touch the coordinators not at all;
* `dispatch` of an event whose listeners on every node are copies of one reaction that a
  second run leaves alone: the event runs that reaction once if it reaches a listener.
-/

/-! ## The session's decisions -/

namespace PageEditor.Save.Session

theorem beginSubmit_navigational {s : Session} (h : s.transport = .navigational) :
    s.beginSubmit = (.navigate, s) := by
  simp [beginSubmit, h]

theorem beginSubmit_suppressed {s : Session} (h : s.transport = .background)
    (hf : s.inFlight = true) : s.beginSubmit = (.suppressed, s) := by
  simp [beginSubmit, h, hf]

theorem beginSubmit_background {s : Session} (h : s.transport = .background)
    (hf : s.inFlight = false) : s.beginSubmit = (.background, { s with inFlight := true }) := by
  simp [beginSubmit, h, hf]

theorem transport_eq_navigational {s : Session} :
    s.transport = .navigational ↔ s.newResource = true ∨ s.reloadRequired = true := by
  unfold transport
  split <;> simp_all

end PageEditor.Save.Session

namespace PageEditor.Ui

open Markup Markup.Document

/-! ## Equations of the small actions -/

@[simp] theorem except_ok_bind {α β : Type} (a : α) (f : α → Except DueOverflow β) :
    (Except.ok a >>= f) = f a := rfl

@[simp] theorem except_error_bind {α β : Type} (e : DueOverflow) (f : α → Except DueOverflow β) :
    (Except.error e >>= f) = .error e := rfl

@[simp] theorem except_pure {α : Type} (a : α) : (pure a : Except DueOverflow α) = .ok a := rfl

@[simp] theorem except_map_ok {α β : Type} (f : α → β) (a : α) :
    (f <$> (Except.ok a : Except DueOverflow α)) = .ok (f a) := rfl

@[simp] theorem run_throw {α : Type} (p : Page) (e : DueOverflow) :
    (throw e : Act α).run p = .error e := rfl

@[simp] theorem run_settings (p : Page) : settings.run p = .ok (p.settings, p) := rfl

@[simp] theorem run_doc (p : Page) : doc.run p = .ok (p.doc, p) := rfl

@[simp] theorem run_onDoc (p : Page) (f : Document Reaction → Document Reaction) :
    (onDoc f).run p = .ok ((), { p with doc := f p.doc }) := rfl

@[simp] theorem run_withDoc {α : Type} (p : Page)
    (f : Document Reaction → α × Document Reaction) :
    (withDoc f).run p = .ok ((f p.doc).1, { p with doc := (f p.doc).2 }) := rfl

@[simp] theorem run_coordinator? (p : Page) (id : Nat) :
    (coordinator? id).run p = .ok (p.coordinators.find? (·.id == id), p) := rfl

@[simp] theorem run_updateCoordinator (p : Page) (id : Nat) (f : Coordinator → Coordinator) :
    (updateCoordinator id f).run p =
      .ok ((), { p with coordinators := p.coordinators.map fun c => if c.id == id then f c else c }) :=
  rfl

/-- A step whose run is known comes off the front of a run. -/
theorem run_bind_of_ok {α β : Type} {x : Act α} {f : α → Act β} {p p' : Page} {a : α}
    (hx : x.run p = .ok (a, p')) : (x >>= f).run p = (f a).run p' := by
  rw [StateT.run_bind, hx]
  rfl

theorem run_bind_eq_ok {α β : Type} {x : Act α} {f : α → Act β} {p : Page} {r : β × Page}
    (h : (x >>= f).run p = .ok r) : ∃ a q, x.run p = .ok (a, q) ∧ (f a).run q = .ok r := by
  rw [StateT.run_bind] at h
  cases hx : x.run p with
  | error e => rw [hx] at h; cases h
  | ok aq => exact ⟨aq.1, aq.2, rfl, by rw [hx] at h; exact h⟩

/-! ## Actions that go through -/

/-- An action that goes through from every page. Only a timer due past the largest word makes
an action fail, so an action goes through when its parts do. -/
def Goes {α : Type} (a : Act α) : Prop := ∀ p, ∃ x q, a.run p = .ok (x, q)

theorem Goes.bind {α β : Type} {x : Act α} {f : α → Act β} (hx : Goes x) (hf : ∀ a, Goes (f a)) :
    Goes (x >>= f) := fun p => by
  obtain ⟨a, q, hq⟩ := hx p
  obtain ⟨b, r, hr⟩ := hf a q
  exact ⟨b, r, (run_bind_of_ok hq).trans hr⟩

theorem Goes.ite {α : Type} {c : Prop} [Decidable c] {a b : Act α} (ha : Goes a) (hb : Goes b) :
    Goes (if c then a else b) := by
  split
  · exact ha
  · exact hb

theorem goes_pure {α : Type} (a : α) : Goes (pure a : Act α) := fun p => ⟨a, p, rfl⟩

theorem Goes.forM {γ : Type} {f : γ → Act Unit} (hf : ∀ x, Goes (f x)) :
    ∀ l : List γ, Goes (l.forM f)
  | [] => goes_pure ()
  | x :: l => (hf x).bind fun _ => Goes.forM hf l

theorem Goes.foldlM {γ β : Type} {f : β → γ → Act β} (hf : ∀ b x, Goes (f b x)) :
    ∀ (l : List γ) (init : β), Goes (l.foldlM f init)
  | [], init => goes_pure init
  | x :: l, init => (hf init x).bind fun b => Goes.foldlM hf l b

theorem goes_settings : Goes settings := fun p => ⟨_, p, rfl⟩

theorem goes_doc : Goes doc := fun p => ⟨_, p, rfl⟩

theorem goes_onDoc (f : Document Reaction → Document Reaction) : Goes (onDoc f) :=
  fun _ => ⟨_, _, rfl⟩

theorem goes_withDoc {α : Type} (f : Document Reaction → α × Document Reaction) :
    Goes (withDoc f) :=
  fun _ => ⟨_, _, rfl⟩

/-- The document with the warning element, when there is one, showing a text. -/
def showWarning (s : Settings) (d : Document Reaction) (text : String) : Document Reaction :=
  match d.elementById s.warningId with
  | some w => d.setText w text
  | none => d

/-- The document with the message region, when there is one, holding a fragment. -/
def fillRegion (s : Settings) (d : Document Reaction) (html : String) : Document Reaction :=
  match d.elementById s.messageRegionId with
  | some r => d.setInnerHtml r html
  | none => d

/-- The document with an error message appended to the message region, when there is one. -/
def appendError (s : Settings) (d : Document Reaction) (text : String) : Document Reaction :=
  match d.elementById s.messageRegionId with
  | some r =>
    let (m, d) := d.createElement "div"
    ((d.setClassName m (s.messageClass ++ " error")).setText m text).append r m
  | none => d

theorem showWarning_of {s : Settings} {d : Document Reaction} {w : Nat}
    (hw : d.elementById s.warningId = some w) (text : String) :
    showWarning s d text = d.setText w text := by
  simp [showWarning, hw]

/-- Showing a text in the warning keeps the document's nodes and keeps it grown. -/
theorem showWarning_grows {d : Document Reaction} (hg : Grown d) (s : Settings) (text : String) :
    Keeps d (showWarning s d text) ∧ Grown (showWarning s d text) := by
  unfold showWarning
  split
  · next w hw => exact ⟨keeps_setText _ _ _, hg.setText (elementById_spec hg hw).1 _⟩
  · exact ⟨Keeps.refl _, hg⟩

/-- Filling the message region keeps the document's nodes and keeps it grown. -/
theorem fillRegion_grows {d : Document Reaction} (hg : Grown d) (s : Settings) (html : String) :
    Keeps d (fillRegion s d html) ∧ Grown (fillRegion s d html) := by
  unfold fillRegion
  split
  · next r hr =>
    have h := setInnerHtml_grows hg (elementById_spec hg hr).1 html
    exact ⟨h.1, h.2.2⟩
  · exact ⟨Keeps.refl _, hg⟩

/-- Filling the message region changes the children of the region only. -/
theorem fillRegion_kept {d : Document Reaction} (hg : Grown d) {s : Settings} {r : Nat}
    (hr : d.elementById s.messageRegionId = some r) (html : String) :
    ChildrenKept d (fillRegion s d html) r := by
  simp only [fillRegion, hr]
  exact (setInnerHtml_grows hg (elementById_spec hg hr).1 html).2.1

/-- Appending an error message changes the children of the region only, apart from the new
message's. -/
theorem appendError_kept {d : Document Reaction} {s : Settings} {r : Nat}
    (hr : d.elementById s.messageRegionId = some r) (text : String) :
    ChildrenKept d (appendError s d text) r := by
  simp only [appendError, hr]
  -- the message is the fresh node `d.nodes.size`: still without a parent once its text is set
  have hk₁ : Keeps d (d.createElement "div").2 := keeps_alloc d rfl
  have hc₂ : ChildrenKept d ((d.createElement "div").2.setClassName d.nodes.size
      (s.messageClass ++ " error")) r :=
    ((ChildrenKept.refl d r).alloc (Keeps.refl d) _).modify _ fun _ => rfl
  have hk₂ : Keeps d ((d.createElement "div").2.setClassName d.nodes.size
      (s.messageClass ++ " error")) :=
    hk₁.trans (keeps_setAttribute _ d.nodes.size "class" (s.messageClass ++ " error"))
  have hc₃ := hc₂.setText_new hk₂ (Nat.le_refl _) text
  have ho₂ : (((d.createElement "div").2.setClassName d.nodes.size
      (s.messageClass ++ " error")).node d.nodes.size).parent = none := by
    rw [setClassName, (sameShape_setAttribute _ _ _ _).parent]
    exact orphan_alloc d ⟨rfl, rfl, rfl⟩
  have hm₂ : d.nodes.size < ((d.createElement "div").2.setClassName d.nodes.size
      (s.messageClass ++ " error")).nodes.size := by
    rw [setClassName, (sameShape_setAttribute _ _ _ _).size]
    simp [createElement]
  show ChildrenKept d ((((d.createElement "div").2.setClassName d.nodes.size
    (s.messageClass ++ " error")).setText d.nodes.size text).append r d.nodes.size) r
  rw [append_of_orphan (parent_setText_self ho₂ hm₂ text)]
  exact (hc₃.modify_free (.inl rfl) _).modify _ fun _ => rfl

/-- Appending an error message keeps the document's nodes and keeps it grown. -/
theorem appendError_grows {d : Document Reaction} (hg : Grown d) (s : Settings) (text : String) :
    Keeps d (appendError s d text) ∧ Grown (appendError s d text) := by
  unfold appendError
  split
  · next r hr =>
    -- the message is the node `d.nodes.size`, fresh and newer than the region
    have hr' : r < d.nodes.size := (elementById_spec hg hr).1
    have hm : d.nodes.size < (d.createElement "div").2.nodes.size := by
      simp [createElement]
    have g₁ : Grown (d.createElement "div").2 := hg.alloc rfl
    have g₂ := (sameShape_setAttribute _ d.nodes.size "class" (s.messageClass ++ " error")).grown g₁
    have hm₂ : d.nodes.size < ((d.createElement "div").2.setClassName d.nodes.size
        (s.messageClass ++ " error")).nodes.size := by
      rw [setClassName, (sameShape_setAttribute _ _ _ _).size]
      exact hm
    have g₃ := g₂.setText hm₂ text
    have k₃ := keeps_setText ((d.createElement "div").2.setClassName d.nodes.size
      (s.messageClass ++ " error")) d.nodes.size text
    refine ⟨?_, g₃.append hr' (Nat.lt_of_lt_of_le hm₂ k₃.size_le)⟩
    exact (((keeps_alloc d rfl).trans (keeps_setAttribute _ _ _ _)).trans k₃).trans
      (keeps_append _ _ _)
  · exact ⟨Keeps.refl _, hg⟩

/-! ## Timers and boards touch only the timeline and the document -/

/-- A schedule books the chore after the delay, with the next sequence number, when it falls due
within a word, and fails otherwise. -/
theorem schedule_run (delay : Nat) (c : Chore) (p : Page) :
    (schedule delay c).run p =
      if p.timeline.now + delay ≤ wordLimit then
        .ok (⟨p.timeline.now + delay, p.timeline.nextSeq⟩,
          { p with timeline := (p.timeline.schedule delay c).2 })
      else .error ⟨p.timeline.now, delay⟩ := by
  by_cases h : p.timeline.now + delay ≤ wordLimit
  · simp [schedule, Timeline.scheduleChecked, Timeline.fits, h]
  · simp [schedule, Timeline.scheduleChecked, Timeline.fits, h]
    rfl

theorem schedule_frame {delay : Nat} {ch : Chore} {p q : Page} {k : TimerKey}
    (h : (schedule delay ch).run p = .ok (k, q)) : q = { p with timeline := q.timeline } := by
  rw [schedule_run] at h
  split at h
  · -- the new timeline is the only change
    obtain ⟨-, rfl⟩ := Prod.mk.inj (Except.ok.inj h)
    rfl
  · cases h

theorem removeLater_frame {b b' : Board} {m delay : Nat} {p q : Page}
    (h : (b.removeLater m delay).run p = .ok (b', q)) : q = { p with timeline := q.timeline } := by
  obtain ⟨_, _, hs, h⟩ := run_bind_eq_ok h
  obtain ⟨-, rfl⟩ := Prod.mk.inj (Except.ok.inj h)
  exact schedule_frame hs

theorem removeLaters_frame (messages : List Nat) (delay : Nat) :
    ∀ {b b' : Board} {p q : Page},
      (messages.foldlM (fun (b : Board) m => b.removeLater m delay) b).run p = .ok (b', q) →
      q = { p with timeline := q.timeline } := by
  induction messages with
  | nil =>
    intro b b' p q h
    obtain ⟨-, rfl⟩ := Prod.mk.inj (Except.ok.inj h)
    rfl
  | cons m rest ih =>
    intro b b' p q h
    rw [List.foldlM_cons] at h
    obtain ⟨_, _, h₁, h⟩ := run_bind_eq_ok h
    rw [ih h, removeLater_frame h₁]

theorem replaceRegion_frame {b b' : Board} {html : String} {p q : Page} {found : Bool}
    (h : (b.replaceRegion html).run p = .ok ((found, b'), q)) :
    q = { p with doc := fillRegion p.settings p.doc html, timeline := q.timeline } := by
  unfold Board.replaceRegion at h
  rw [run_bind_of_ok (run_settings p), run_bind_of_ok (run_doc p)] at h
  unfold fillRegion
  cases hr : p.doc.elementById p.settings.messageRegionId with
  | none =>
    rw [hr] at h
    obtain ⟨-, rfl⟩ := Prod.mk.inj (Except.ok.inj h)
    rfl
  | some r =>
    simp only [hr] at h
    rw [run_bind_of_ok (run_onDoc p _), run_bind_of_ok (run_doc _)] at h
    obtain ⟨_, p₂, h₂, h⟩ := run_bind_eq_ok h
    obtain ⟨-, rfl⟩ := Prod.mk.inj (Except.ok.inj h)
    exact removeLaters_frame _ _ h₂

theorem pushError_frame {b b' : Board} {text : String} {p q : Page} {found : Bool}
    (h : (b.pushError text).run p = .ok ((found, b'), q)) :
    q = { p with doc := appendError p.settings p.doc text, timeline := q.timeline } := by
  unfold Board.pushError at h
  rw [run_bind_of_ok (run_settings p), run_bind_of_ok (run_doc p)] at h
  unfold appendError
  cases hr : p.doc.elementById p.settings.messageRegionId with
  | none =>
    rw [hr] at h
    obtain ⟨-, rfl⟩ := Prod.mk.inj (Except.ok.inj h)
    rfl
  | some r =>
    simp only [hr] at h
    rw [run_bind_of_ok (run_withDoc p _), run_bind_of_ok (run_onDoc _ _)] at h
    obtain ⟨_, _, h₃, h⟩ := run_bind_eq_ok h
    obtain ⟨-, rfl⟩ := Prod.mk.inj (Except.ok.inj h)
    exact removeLater_frame h₃

/-! ## The clock -/

/-- A property of the world that updating the timeline and firing any task keep holds after the
due timers have run. -/
theorem runDue_preserves {α σ ε : Type} {view : σ → Timeline α} {update : σ → Timeline α → σ}
    {fire : α → σ → Except ε σ} {target : Nat} (P : σ → Prop)
    (hu : ∀ s t, P s → P (update s t)) (hf : ∀ a s s', P s → fire a s = .ok s' → P s') :
    ∀ fuel s s', P s → Timeline.runDue view update fire target fuel s = .ok s' → P s' :=
  Timeline.runDue_waiting P (fun s t _ hs => hu s t hs)
    (fun s t _ _ hs _ _ hfire => hf _ _ _ (hu s t hs) hfire)

/-- An advance that went through is the run of the timers due by its target, from the page it
started on. -/
theorem runDue_of_advance {ms : Nat} {p q : Page} (h : (advance ms).run p = .ok ((), q)) :
    Timeline.runDue Page.timeline (fun p t => { p with timeline := t })
      (fun c p => (.ok (c.perform p) : Except DueOverflow Page)) (p.timeline.target ms)
      (p.timeline.pending + 1) p = .ok q := by
  unfold advance at h
  simp only [StateT.run_bind, StateT.run_get, except_pure, except_ok_bind, StateT.run_lift,
    StateT.run_set] at h
  cases hr : Timeline.runDue Page.timeline (fun p t => { p with timeline := t })
      (fun c p => .ok (c.perform p)) (p.timeline.target ms) (p.timeline.pending + 1) p with
  | error e => rw [hr] at h; cases h
  | ok q' =>
    rw [hr] at h
    obtain ⟨-, rfl⟩ := Prod.mk.inj (Except.ok.inj h)
    rfl

/-- A timer's chore changes only the document, by detaching a node or adding a class. -/
theorem Chore.perform_frame (ch : Chore) (s : Page) :
    ch.perform s = { s with doc := (ch.perform s).doc } ∧ Keeps s.doc (ch.perform s).doc ∧
      (Grown s.doc → Grown (ch.perform s).doc) := by
  cases ch with
  | detach n => exact ⟨rfl, keeps_detach _ _, fun hg => hg.detach n⟩
  | activate n cls =>
    by_cases hc : s.doc.isConnected n = true
    · have e : (Chore.activate n cls).perform s = { s with doc := s.doc.addClass n cls } :=
        if_pos hc
      rw [e]
      exact ⟨rfl, keeps_addClass _ _ _, fun hg => (sameShape_addClass _ _ _).grown hg⟩
    · have e : (Chore.activate n cls).perform s = s := if_neg hc
      rw [e]
      exact ⟨rfl, Keeps.refl _, id⟩

/-- Advancing the clock changes only the timeline and the document, and keeps the document's
nodes and how they grew. -/
theorem advance_frame {ms : Nat} {p q : Page} (h : (advance ms).run p = .ok ((), q)) :
    q = { p with doc := q.doc, timeline := q.timeline } ∧ Keeps p.doc q.doc ∧
      (Grown p.doc → Grown q.doc) := by
  let P : Page → Prop := fun s =>
    s = { p with doc := s.doc, timeline := s.timeline } ∧ Keeps p.doc s.doc ∧
      (Grown p.doc → Grown s.doc)
  have hu : ∀ s t, P s → P { s with timeline := t } := by
    intro s t ⟨hs, hk, hg⟩
    refine ⟨?_, hk, hg⟩
    rw [hs]
  have hf : ∀ (ch : Chore) s s', P s → (Except.ok (ch.perform s) : Except DueOverflow Page) = .ok s' →
      P s' := by
    intro ch s s' ⟨hs, hk, hg⟩ he
    cases he
    obtain ⟨hc, hk', hg'⟩ := Chore.perform_frame ch s
    refine ⟨?_, hk.trans hk', fun h => hg' (hg h)⟩
    rw [hc, hs]
  exact runDue_preserves P hu hf _ p q ⟨rfl, Keeps.refl _, id⟩ (runDue_of_advance h)

/-! ## The executor -/

theorem run_nextAnswer (p : Page) :
    nextAnswer.run p = .ok (p.answers.headD (.saved ""), { p with answers := p.answers.tail }) := by
  unfold nextAnswer
  obtain ⟨_, _, _, _, _, _, _, _, _, _, _, _, answers, _, _, _, _⟩ := p
  cases answers <;> simp

theorem runJobs_idle {p : Page} (hj : p.jobs = []) : runJobs.run p = .ok ((), p) := by
  cases p
  cases hj
  simp [runJobs]

/-- Running the executor with one save job sends its request, takes the transport's next
answer, and completes the save with it. -/
theorem runJobs_save {p : Page} {k : Nat} {r : Save.Request} (hj : p.jobs = [.save k r]) :
    runJobs.run p = (completeSave k (p.answers.headD (.saved ""))).run
      { p with jobs := [], sent := p.sent ++ [r], answers := p.answers.tail } := by
  simp [runJobs, hj, Job.run, run_nextAnswer]

/-! ## Events whose listeners all react alike -/

/-- Reaction `r` settles page `p` into page `q`, or-ing `b` into the event's prevented flag: it
does so run on `p`, and run again on `q` it changes nothing. -/
structure Settles (r : Reaction) (p q : Page) (b : Bool) : Prop where
  first : ∀ prev, (react prev r).run p = .ok (prev || b, q)
  again : ∀ prev, (react prev r).run q = .ok (prev || b, q)

section Uniform

variable {r : Reaction} {p q : Page} {b : Bool}

theorem Settles.replicate_again (hs : Settles r p q b) (k : Nat) (prev : Bool) :
    ((List.replicate k r).foldlM react prev).run q =
      .ok (if k = 0 then prev else prev || b, q) := by
  induction k generalizing prev with
  | zero => rfl
  | succ k ih =>
    rw [List.replicate_succ, List.foldlM_cons, StateT.run_bind, hs.again, except_ok_bind, ih]
    cases k <;> simp

theorem Settles.replicate_first (hs : Settles r p q b) (k : Nat) (prev : Bool) :
    ((List.replicate k r).foldlM react prev).run p =
      if k = 0 then .ok (prev, p) else .ok (prev || b, q) := by
  cases k with
  | zero => rfl
  | succ k =>
    rw [List.replicate_succ, List.foldlM_cons, StateT.run_bind, hs.first, except_ok_bind,
      hs.replicate_again]
    cases k <;> simp

variable {kind : EventKind} (m : Nat → Nat)

/-- The listeners of `kind` on every node are `m i` copies of `r`. -/
def Uniform (kind : EventKind) (r : Reaction) (m : Nat → Nat) (d : Document Reaction) : Prop :=
  ∀ i, d.listenersOf i kind = List.replicate (m i) r

theorem walk_again (hq : Uniform kind r m q.doc) (hs : Settles r p q b) (path : List Nat)
    (prev : Bool) :
    (path.foldlM (fun prev i => do
        let listeners := (← doc).listenersOf i kind
        listeners.foldlM react prev) prev).run q =
      .ok (if ∃ i ∈ path, m i ≠ 0 then prev || b else prev, q) := by
  induction path generalizing prev with
  | nil => simp
  | cons i rest ih =>
    rw [List.foldlM_cons, StateT.run_bind]
    simp only [StateT.run_bind, run_doc, except_ok_bind, hq i, hs.replicate_again, ih]
    by_cases hi : m i = 0 <;> simp [hi]

theorem walk_first (hp : Uniform kind r m p.doc) (hq : Uniform kind r m q.doc)
    (hs : Settles r p q b) (path : List Nat) (prev : Bool) :
    (path.foldlM (fun prev i => do
        let listeners := (← doc).listenersOf i kind
        listeners.foldlM react prev) prev).run p =
      if ∃ i ∈ path, m i ≠ 0 then .ok (prev || b, q) else .ok (prev, p) := by
  induction path generalizing prev with
  | nil => simp
  | cons i rest ih =>
    rw [List.foldlM_cons, StateT.run_bind]
    simp only [StateT.run_bind, run_doc, except_ok_bind, hp i, hs.replicate_first]
    by_cases hi : m i = 0
    · simp [hi, ih]
    · simp [hi, walk_again m hq hs]

/-- An event whose listeners all run one settling reaction runs it once, when it reaches a node
with a listener, and otherwise changes nothing. -/
theorem dispatch_uniform (hp : Uniform kind r m p.doc) (hq : Uniform kind r m q.doc)
    (hs : Settles r p q b) (n : Nat) :
    (dispatch n kind).run p =
      if ∃ i ∈ p.doc.path n, m i ≠ 0 then .ok (b, q) else .ok (false, p) := by
  simp only [dispatch, StateT.run_bind, run_doc, except_ok_bind, walk_first m hp hq hs]
  simp

end Uniform

/-- An event that no listener waits for changes nothing. -/
theorem dispatch_silent {p : Page} {kind : EventKind} (hp : ∀ i, p.doc.listenersOf i kind = [])
    (n : Nat) : (dispatch n kind).run p = .ok (false, p) := by
  have walk : ∀ (path : List Nat) (prev : Bool), (path.foldlM (fun prev i => do
      let listeners := (← doc).listenersOf i kind
      listeners.foldlM react prev) prev).run p = .ok (prev, p) := by
    intro path
    induction path with
    | nil => intro prev; rfl
    | cons i rest ih =>
      intro prev
      simp only [List.foldlM_cons, StateT.run_bind, run_doc, except_ok_bind, hp i, List.foldlM_nil,
        StateT.run_pure, except_pure, ih]
  simp only [dispatch, StateT.run_bind, run_doc, except_ok_bind, walk]

/-! ## The reactions of a lone coordinator

Each equation is for a page whose coordinators are exactly `[c]`, the coordinator the reaction
names. -/

/-- The page after an edit of its lone coordinator `c`: a clean session turns dirty and the
warning shows the unsaved notice. -/
def Page.edited (p : Page) (c : Coordinator) : Page :=
  if c.session.dirty then p else
    { p with
      coordinators := [{ c with session := { c.session with dirty := true } }]
      doc := showWarning p.settings p.doc p.settings.unsavedNotice }

section Lone

variable {p : Page} {c : Coordinator} {id : Nat}

/-- An edit of a clean session makes it dirty and shows the unsaved notice; an edit of a dirty
session changes nothing. -/
theorem markDirty_lone (hc : p.coordinators = [c]) (hid : c.id = id) :
    (markDirty id).run p = .ok ((), p.edited c) := by
  cases p
  cases hc
  subst hid
  by_cases hd : c.session.dirty = true
  · simp [markDirty, Page.edited, Save.Session.recordEdit, hd]
  · simp [markDirty, Page.edited, showWarning, Save.Session.recordEdit, hd]
    split <;> simp_all

theorem requireReload_lone (hc : p.coordinators = [c]) (hid : c.id = id) :
    (requireReload id).run p =
      .ok ((), { p with coordinators := [{ c with session := c.session.requireReload }] }) := by
  simp [requireReload, hc, hid]

theorem spawn_run (p : Page) (executor : Nat) (j : Job) :
    (spawn executor j).run p = if executor = p.executor
      then .ok (true, { p with jobs := p.jobs ++ [j] }) else .ok (false, p) := by
  by_cases h : executor = p.executor <;> simp [spawn, h]

/-- A submit the session sends by navigating changes nothing and lets the default happen. -/
theorem interceptSubmit_navigate (hc : p.coordinators = [c]) (hid : c.id = id)
    (ht : c.session.transport = .navigational) :
    (interceptSubmit id).run p = .ok (false, p) := by
  cases p
  cases hc
  subst hid
  simp [interceptSubmit, Save.Session.beginSubmit_navigational ht]

/-- A submit while a background save is outstanding only prevents the default. -/
theorem interceptSubmit_suppressed (hc : p.coordinators = [c]) (hid : c.id = id)
    (ht : c.session.transport = .background) (hf : c.session.inFlight = true) :
    (interceptSubmit id).run p = .ok (true, p) := by
  cases p
  cases hc
  subst hid
  simp [interceptSubmit, Save.Session.beginSubmit_suppressed ht hf]

/-- A submit that starts a background save prevents the default, marks the save outstanding,
and spawns a save job carrying the request of the form as it stands now. -/
theorem interceptSubmit_background (hc : p.coordinators = [c]) (hid : c.id = id)
    (ht : c.session.transport = .background) (hf : c.session.inFlight = false)
    (he : c.executor = p.executor) :
    (interceptSubmit id).run p = .ok (true, { p with
      coordinators := [{ c with session := { c.session with inFlight := true } }]
      jobs := p.jobs ++ [.save id (saveRequest p.doc c.form)] }) := by
  cases p
  cases hc
  subst hid
  simp_all [interceptSubmit, Save.Session.beginSubmit_background ht hf, spawn_run]

/-- A background save whose executor is gone fails at once: the default is prevented and the
page is left as it was. -/
theorem interceptSubmit_unspawnable (hc : p.coordinators = [c]) (hid : c.id = id)
    (ht : c.session.transport = .background) (hf : c.session.inFlight = false)
    (he : c.executor ≠ p.executor) :
    (interceptSubmit id).run p = .ok (true, p) := by
  obtain ⟨cid, form, ⟨dirty, fresh, reload, inFlight⟩, board, executor⟩ := c
  cases p
  cases hc
  subst hid
  dsimp only at hf
  subst hf
  simp_all [interceptSubmit, Save.Session.beginSubmit_background ht rfl, spawn_run,
    Save.Session.fail]

/-- A board action on the coordinator's board keeps what the board action keeps, and the board
it answers becomes the coordinator's. -/
theorem onCoordinatorBoard_lone {f : Board → Act (Bool × Board)} {D : Page → Document Reaction}
    {c' : Coordinator} {q : Page}
    (hf : ∀ {p q : Page} {x}, (f c.board).run p = .ok (x, q) →
      q = { p with doc := D p, timeline := q.timeline })
    (h : (onCoordinatorBoard c f).run p = .ok ((), q))
    (hc : p.coordinators = [c']) (hid : c'.id = c.id) :
    ∃ b, q = { p with
      coordinators := [{ c' with board := b }]
      doc := D p
      timeline := q.timeline } := by
  unfold onCoordinatorBoard at h
  obtain ⟨⟨_, b⟩, p₁, h₁, h⟩ := run_bind_eq_ok h
  rw [hf h₁] at h
  refine ⟨b, ?_⟩
  obtain ⟨-, rfl⟩ := Prod.mk.inj (Except.ok.inj h)
  simp [hc, hid]

/-- An acknowledged save makes the session clean with nothing outstanding, clears the warning
and fills the message region with the server's fragment. -/
theorem completeSave_saved_lone {fragment : String} {q : Page}
    (h : (completeSave id (.saved fragment)).run p = .ok ((), q)) (hc : p.coordinators = [c])
    (hid : c.id = id) :
    ∃ b, q = { p with
      coordinators := [{ c with session := c.session.acknowledge, board := b }]
      doc := fillRegion p.settings (showWarning p.settings p.doc "") fragment
      timeline := q.timeline } := by
  subst hid
  unfold completeSave at h
  simp only [StateT.run_bind, run_coordinator?, hc, List.find?_cons, beq_self_eq_true,
    except_ok_bind, run_settings, run_updateCoordinator, List.map_cons, List.map_nil, if_true,
    run_doc] at h
  unfold showWarning
  cases hw : p.doc.elementById p.settings.warningId with
  | none =>
    rw [hw] at h
    obtain ⟨b, hq⟩ := onCoordinatorBoard_lone (fun h => replaceRegion_frame h) h rfl rfl
    exact ⟨b, hq⟩
  | some w =>
    rw [hw] at h
    obtain ⟨_, _, h₁, h⟩ := run_bind_eq_ok h
    obtain ⟨-, rfl⟩ := Prod.mk.inj (Except.ok.inj h₁)
    obtain ⟨b, hq⟩ := onCoordinatorBoard_lone (fun h => replaceRegion_frame h) h rfl rfl
    exact ⟨b, hq⟩

/-- A failed save leaves nothing outstanding and the session's edits unsaved, and appends the
save-failed message to the message region. -/
theorem completeSave_failed_lone {q : Page} (h : (completeSave id .failed).run p = .ok ((), q))
    (hc : p.coordinators = [c]) (hid : c.id = id) :
    ∃ b, q = { p with
      coordinators := [{ c with session := c.session.fail, board := b }]
      doc := appendError p.settings p.doc p.settings.saveFailedNotice
      timeline := q.timeline } := by
  subst hid
  unfold completeSave at h
  simp only [StateT.run_bind, run_coordinator?, hc, List.find?_cons, beq_self_eq_true,
    except_ok_bind, run_settings, run_updateCoordinator, List.map_cons, List.map_nil, if_true] at h
  obtain ⟨b, hq⟩ := onCoordinatorBoard_lone (fun h => pushError_frame h) h rfl rfl
  exact ⟨b, hq⟩

theorem markDirty_of_dirty (hc : p.coordinators = [c]) (hid : c.id = id)
    (hd : c.session.dirty = true) : (markDirty id).run p = .ok ((), p) := by
  rw [markDirty_lone hc hid, Page.edited, if_pos hd]

/-- After an edit the session is dirty, whatever it was, and the warning is written only when it
was clean. -/
theorem edited_eq (hc : p.coordinators = [c]) :
    p.edited c = { p with
      coordinators := [{ c with session := { c.session with dirty := true } }]
      doc := if c.session.dirty then p.doc
        else showWarning p.settings p.doc p.settings.unsavedNotice } := by
  unfold Page.edited
  by_cases hd : c.session.dirty = true
  · obtain ⟨cid, form, ⟨dirty, fresh, reload, inFlight⟩, board, executor⟩ := c
    dsimp only at hd
    subst hd
    cases p
    cases hc
    rfl
  · simp [hd]

theorem settles_markDirty (hc : p.coordinators = [c]) (hid : c.id = id) :
    Settles (.markDirty id) p (p.edited c) false := by
  have hc' : (p.edited c).coordinators = [{ c with session := { c.session with dirty := true } }] := by
    rw [edited_eq hc]
  refine ⟨fun prev => ?_, fun prev => ?_⟩
  · simp [react, markDirty_lone hc hid]
  · simp [react, markDirty_of_dirty hc' hid rfl]

theorem settles_requireReload (hc : p.coordinators = [c]) (hid : c.id = id) :
    Settles (.requireReload id) p
      { p with coordinators := [{ c with session := c.session.requireReload }] } false := by
  refine ⟨fun prev => ?_, fun prev => ?_⟩
  · simp [react, requireReload_lone hc hid]
  · simp [react, requireReload, hid]
    rfl

theorem settles_submit_navigate (hc : p.coordinators = [c]) (hid : c.id = id)
    (ht : c.session.transport = .navigational) :
    Settles (.interceptSubmit id) p p false := by
  refine ⟨fun prev => ?_, fun prev => ?_⟩ <;> simp [react, interceptSubmit_navigate hc hid ht]

theorem settles_submit_suppressed (hc : p.coordinators = [c]) (hid : c.id = id)
    (ht : c.session.transport = .background) (hf : c.session.inFlight = true) :
    Settles (.interceptSubmit id) p p true := by
  refine ⟨fun prev => ?_, fun prev => ?_⟩ <;> simp [react, interceptSubmit_suppressed hc hid ht hf]

theorem settles_submit_unspawnable (hc : p.coordinators = [c]) (hid : c.id = id)
    (ht : c.session.transport = .background) (hf : c.session.inFlight = false)
    (he : c.executor ≠ p.executor) :
    Settles (.interceptSubmit id) p p true := by
  refine ⟨fun prev => ?_, fun prev => ?_⟩ <;>
    simp [react, interceptSubmit_unspawnable hc hid ht hf he]

theorem settles_submit_background (hc : p.coordinators = [c]) (hid : c.id = id)
    (ht : c.session.transport = .background) (hf : c.session.inFlight = false)
    (he : c.executor = p.executor) :
    Settles (.interceptSubmit id) p { p with
      coordinators := [{ c with session := { c.session with inFlight := true } }]
      jobs := p.jobs ++ [.save id (saveRequest p.doc c.form)] } true := by
  refine ⟨fun prev => ?_, fun prev => ?_⟩
  · simp [react, interceptSubmit_background hc hid ht hf he]
  · have hc' : ({ p with
        coordinators := [{ c with session := { c.session with inFlight := true } }]
        jobs := p.jobs ++ [.save id (saveRequest p.doc c.form)] } : Page).coordinators =
        [{ c with session := { c.session with inFlight := true } }] := rfl
    simp [react, interceptSubmit_suppressed hc' hid ht rfl]

/-- What a submit that reaches the form of the lone coordinator `c` answers and leaves: the
session decides, and a background save whose executor is gone fails at once and leaves the page
as it was. -/
def Page.submitted (p : Page) (c : Coordinator) : Bool × Page :=
  match c.session.transport with
  | .navigational => (false, p)
  | .background =>
    if c.session.inFlight then (true, p)
    else if c.executor = p.executor then
      (true, { p with
        coordinators := [{ c with session := { c.session with inFlight := true } }]
        jobs := p.jobs ++ [.save c.id (saveRequest p.doc c.form)] })
    else (true, p)

theorem settles_submit (hc : p.coordinators = [c]) (hid : c.id = id) :
    Settles (.interceptSubmit id) p (p.submitted c).2 (p.submitted c).1 := by
  unfold Page.submitted
  cases ht : c.session.transport with
  | navigational => exact settles_submit_navigate hc hid ht
  | background =>
    cases hf : c.session.inFlight with
    | true => exact settles_submit_suppressed hc hid ht hf
    | false =>
      by_cases he : c.executor = p.executor
      · subst hid
        rw [if_neg Bool.false_ne_true, if_pos he]
        exact settles_submit_background hc rfl ht hf he
      · rw [if_neg Bool.false_ne_true, if_neg he]
        exact settles_submit_unspawnable hc hid ht hf he

end Lone

end PageEditor.Ui
