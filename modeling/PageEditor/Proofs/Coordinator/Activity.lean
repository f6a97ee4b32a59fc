import PageEditor.Proofs.Page.Actions
/-!
# PageEditor.Proofs.Coordinator.Activity

A save coordinator at work, and what stays true while the page around it is used.

The page is used through activities: a value typed into a control (an input event follows), a
choice (input, then change), an event fired at a node, a direct call of the edit listener, a run
of the executor, an advance of the clock, and a shutdown of the executor. Each activity reports
what happened: the events fired, with the nodes each reached and whether its default was
prevented, the direct calls of edit listeners, and the transport's answers to the saves that ran.

A coordinator attached to a page leaves listeners on its form and on the reload fields of the
form, and nowhere else (`Attachment.listeners`). From then on `Watching` holds: the coordinator
is the page's only one, the document stays grown and carries exactly those listeners, and at
most one save of the coordinator waits for the executor, and only while the session has a save
outstanding. The session follows the report (`Follows`): it requires a reload once a change
reached a reload field, and it is dirty exactly when an edit came after the last
acknowledgment. Until the executor is shut down the coordinator is also `Live`: its saves can be
spawned, and a save in flight waits for the executor.

The module proves this once for every run that attaches a coordinator to the form of an
untouched page (`attached_watched`): at the attach (`attach_watched`), for one activity
(`Activity.perform_watched`) and, by induction, for a run (`Activity.performAll_watched`).
-/

namespace PageEditor.Ui

open Markup Markup.Document

/-! ## Activities and what they report -/

/-- What happened during an activity, as far as a coordinator can tell. -/
inductive Happening where
  /-- An event fired: its kind, the nodes on its way up, whether its default was prevented. -/
  | fired (kind : EventKind) (reached : List Nat) (prevented : Bool)
  /-- The edit listener of a coordinator was called directly. -/
  | marked (coordinator : Nat)
  /-- The transport answered a save of a coordinator. -/
  | answered (coordinator : Nat) (answer : Answer)
  deriving Repr, DecidableEq

/-- What the user, the executor and the clock do to a page. -/
inductive Activity where
  /-- A value typed into a control; an input event follows. -/
  | type (node : Nat) (value : String)
  /-- A value chosen in a control; an input event and then a change event follow. -/
  | choose (node : Nat) (value : String)
  /-- An event fired at a node. -/
  | fire (node : Nat) (kind : EventKind)
  /-- A direct call of a coordinator's edit listener. -/
  | markDirty (coordinator : Nat)
  /-- The executor runs the waiting jobs. -/
  | run
  /-- The clock moves on. -/
  | advance (ms : Nat)
  /-- The executor is shut down and replaced. -/
  | shutdown
  deriving Repr, DecidableEq

/-- Fires an event at a node and reports the nodes it reached and whether its default was
prevented. -/
def fireEvent (n : Nat) (kind : EventKind) : Act Happening := do
  let reached := (← doc).path n
  let prevented ← dispatch n kind
  pure (.fired kind reached prevented)

/-- The transport's answers to the save jobs of a batch, in order: from the queue of answers,
then `saved ""` once it is used up. -/
def transportAnswers : List Job → List Answer → List Happening
  | [], _ => []
  | .save k _ :: jobs, answers =>
    .answered k (answers.headD (.saved "")) :: transportAnswers jobs answers.tail
  | .copy .. :: jobs, answers => transportAnswers jobs answers

/-- Carries out an activity and reports what happened. -/
def Activity.perform : Activity → Act (List Happening)
  | .type n v => do
    onDoc (·.setValue n v)
    return [← fireEvent n .input]
  | .choose n v => do
    onDoc (·.setValue n v)
    let input ← fireEvent n .input
    let change ← fireEvent n .change
    return [input, change]
  | .fire n kind => return [← fireEvent n kind]
  | .markDirty k => do
    Ui.markDirty k
    return [.marked k]
  | .run => do
    let p ← get
    runJobs
    return transportAnswers p.jobs p.answers
  | .advance ms => do
    Ui.advance ms
    return []
  | .shutdown => do
    shutdownExecutor
    return []

/-- Carries out activities in order and reports what happened, in order. -/
def Activity.performAll : List Activity → Act (List Happening)
  | [] => pure []
  | a :: rest => do
    let now ← a.perform
    let later ← Activity.performAll rest
    pure (now ++ later)

/-! ## The listeners of an attached coordinator -/

/-- A coordinator as attached: its id, its form, the reload fields it watches, and whether the
form edits a new resource. -/
structure Attachment where
  id : Nat
  form : Nat
  fields : List Nat
  fresh : Bool

namespace Attachment

variable (a : Attachment)

/-- The listeners an attachment leaves on a node, in the order attaching adds them: the edit
listener on the form, a reload listener for each time the node is listed as a reload field,
and the submit listener on a form that edits an existing resource. -/
def listeners (i : Nat) : List (EventKind × Reaction) :=
  (if i = a.form then [(.input, .markDirty a.id)] else []) ++
    (a.fields.filter (· == i)).map (fun _ => (.change, .requireReload a.id)) ++
    (if i = a.form ∧ a.fresh = false then [(.submit, .interceptSubmit a.id)] else [])

/-- A document carries exactly the attachment's listeners. -/
def Listening (d : Document Reaction) : Prop :=
  ∀ i, (d.node i).listeners = a.listeners i

variable {a} {d : Document Reaction}

theorem Listening.input (h : a.Listening d) :
    Uniform .input (.markDirty a.id) (fun i => if i = a.form then 1 else 0) d := by
  intro i
  simp only [listenersOf, h i, listeners]
  by_cases hi : i = a.form <;> simp [hi, List.map_const']

theorem Listening.change (h : a.Listening d) :
    Uniform .change (.requireReload a.id) (fun i => a.fields.count i) d := by
  intro i
  simp only [listenersOf, h i, listeners]
  by_cases hi : i = a.form <;>
    simp [hi, List.count_eq_length_filter, List.map_const']

theorem Listening.submit (h : a.Listening d) :
    Uniform .submit (.interceptSubmit a.id)
      (fun i => if i = a.form ∧ a.fresh = false then 1 else 0) d := by
  intro i
  simp only [listenersOf, h i, listeners]
  by_cases hi : i = a.form ∧ a.fresh = false <;> simp [hi, List.map_const']

theorem Listening.click (h : a.Listening d) (i : Nat) : d.listenersOf i .click = [] := by
  simp only [listenersOf, h i, listeners]
  split <;> split <;> simp [List.map_const']

/-- The happening is an edit of the attachment's coordinator: an input event that reached its
form, or a direct call of its edit listener. -/
def edits (a : Attachment) : Happening → Bool
  | .fired kind reached _ => kind == .input && reached.contains a.form
  | .marked k => k == a.id
  | .answered _ _ => false

/-- The happening is a change event that reached one of the attachment's reload fields. -/
def touches (a : Attachment) : Happening → Bool
  | .fired kind reached _ => kind == .change && reached.any a.fields.contains
  | _ => false

/-- The happening is the transport acknowledging a save of the attachment's coordinator. -/
def acknowledges (a : Attachment) : Happening → Bool
  | .answered k (.saved _) => k == a.id
  | _ => false

end Attachment

/-! ## Attaching -/

/-- Whether a form edits a new resource: its new-resource attribute is absent, or holds anything
but `0` once trimmed. -/
def editsNewResource (s : Settings) (d : Document Reaction) (form : Nat) : Bool :=
  match d.attribute? form s.newResourceAttribute with
  | some v => Text.trim v != "0"
  | none => true

theorem editsNewResource_eq_false {s : Settings} {d : Document Reaction} {form : Nat} :
    editsNewResource s d form = false ↔
      (d.attribute? form s.newResourceAttribute).map Text.trim = some "0" := by
  unfold editsNewResource
  split <;> simp_all

/-- The attachment a coordinator attached to `form` on page `p` gets: the page's next id, and
the reload fields of the form unless it edits a new resource. -/
def Page.attachment (p : Page) (form : Nat) : Attachment :=
  let fresh := editsNewResource p.settings p.doc form
  ⟨p.nextId, form, if fresh then [] else p.doc.elementsByClassWithin form p.settings.reloadClass,
    fresh⟩

/-- Adds the attachment's listeners to a document, in the order attaching adds them. -/
def Attachment.wire (a : Attachment) (d : Document Reaction) : Document Reaction :=
  let d := d.listen a.form .input (.markDirty a.id)
  if a.fresh then d
  else (a.fields.foldl (fun d f => d.listen f .change (.requireReload a.id)) d).listen a.form .submit
    (.interceptSubmit a.id)

/-- The coordinator attaching creates, clean and with nothing outstanding. -/
def Attachment.coordinator (a : Attachment) (executor : Nat) : Coordinator :=
  ⟨a.id, a.form, Save.Session.start a.fresh, ⟨[]⟩, executor⟩

theorem run_freshId (p : Page) : freshId.run p = .ok (p.nextId, { p with nextId := p.nextId + 1 }) :=
  rfl

/-- Without the page's form, attaching does nothing. -/
theorem attachCoordinator_absent {p : Page}
    (hform : p.doc.elementById p.settings.formId = none) :
    attachCoordinator.run p = .ok (false, p) := by
  unfold attachCoordinator
  rw [StateT.run_bind, run_settings, except_ok_bind, StateT.run_bind, run_doc, except_ok_bind]
  dsimp only
  rw [hform]
  rfl

/-- Attaching to the page's form wires the form's listeners and adds a clean coordinator with
the page's executor. -/
theorem attachCoordinator_run {p : Page} {form : Nat}
    (hform : p.doc.elementById p.settings.formId = some form) :
    attachCoordinator.run p = .ok (true, { p with
      doc := (p.attachment form).wire p.doc
      nextId := p.nextId + 1
      coordinators := p.coordinators ++ [(p.attachment form).coordinator p.executor] }) := by
  -- rewrite one action at a time: unfolding the whole run at once makes the kernel slow
  unfold attachCoordinator
  rw [StateT.run_bind, run_settings, except_ok_bind, StateT.run_bind, run_doc, except_ok_bind]
  dsimp only
  rw [hform]
  dsimp only
  rw [StateT.run_bind, run_doc, except_ok_bind]
  dsimp only
  rw [StateT.run_bind, run_freshId, except_ok_bind]
  dsimp only
  rw [StateT.run_bind, run_onDoc, except_ok_bind]
  dsimp only
  unfold Page.attachment Attachment.wire Attachment.coordinator editsNewResource
  cases hattr : p.doc.attribute? form p.settings.newResourceAttribute with
  | none =>
    simp only [Bool.not_true, Bool.false_eq_true, if_false, if_true]
    rfl
  | some v =>
    cases ht : Text.trim v != "0"
    · -- an existing resource: the reload fields and the submit get their listeners
      simp only [ht, Bool.not_false, if_true, Bool.false_eq_true, if_false]
      rw [StateT.run_bind, run_doc, except_ok_bind]
      dsimp only
      rw [StateT.run_bind, run_onDoc, except_ok_bind]
      dsimp only
      rw [StateT.run_bind, run_onDoc, except_ok_bind]
      dsimp only
      rw [elementsByClassWithin_listen]
      rfl
    · simp only [ht, Bool.not_true, Bool.false_eq_true, if_false, if_true]
      rfl

theorem listeners_listen (d : Document Reaction) {j : Nat} (hj : j < d.nodes.size) (i : Nat)
    (kind : EventKind) (l : Reaction) :
    ((d.listen j kind l).node i).listeners =
      (d.node i).listeners ++ (if i = j then [(kind, l)] else []) := by
  unfold Document.listen
  rw [node_modify]
  by_cases hi : i = j
  · subst hi
    simp [hj]
  · simp [hi, Ne.symm hi]

theorem size_listenAll (fields : List Nat) (kind : EventKind) (l : Reaction) :
    ∀ d : Document Reaction,
      (fields.foldl (fun d f => d.listen f kind l) d).nodes.size = d.nodes.size := by
  induction fields with
  | nil => intro d; rfl
  | cons f rest ih =>
    intro d
    rw [List.foldl_cons, ih, (sameShape_listen d f kind l).size]

theorem listeners_listenAll (fields : List Nat) (kind : EventKind) (l : Reaction) :
    ∀ d : Document Reaction, (∀ f ∈ fields, f < d.nodes.size) → ∀ i,
      ((fields.foldl (fun d f => d.listen f kind l) d).node i).listeners =
        (d.node i).listeners ++ (fields.filter (· == i)).map (fun _ => (kind, l)) := by
  induction fields with
  | nil => intro d _ i; simp
  | cons f rest ih =>
    intro d hf i
    have hsize := (sameShape_listen d f kind l).size
    rw [List.foldl_cons, ih _ (fun g hg => hsize ▸ hf g (List.mem_cons_of_mem _ hg)),
      listeners_listen d (hf f (List.mem_cons_self ..))]
    by_cases hi : i = f
    · subst hi
      simp
    · simp [hi, Ne.symm hi]

/-- Wiring a document without listeners leaves exactly the attachment's listeners. -/
theorem Attachment.wire_listening {a : Attachment} {d : Document Reaction}
    (hl : ∀ i, (d.node i).listeners = []) (hform : a.form < d.nodes.size)
    (hfields : ∀ f ∈ a.fields, f < d.nodes.size) (hfresh : a.fresh = true → a.fields = []) :
    a.Listening (a.wire d) := by
  intro i
  have hsize := (sameShape_listen d a.form .input (.markDirty a.id)).size
  unfold Attachment.wire
  cases hf : a.fresh
  · simp only [Bool.false_eq_true, if_false]
    rw [listeners_listen _ (by rw [size_listenAll, hsize]; exact hform) i,
      listeners_listenAll _ _ _ _ (fun f hf => hsize ▸ hfields f hf), listeners_listen d hform, hl i]
    simp [Attachment.listeners, hf]
  · simp only [if_true]
    rw [listeners_listen d hform, hl i]
    simp [Attachment.listeners, hf, hfresh hf]

/-! ## The invariant of a watched page -/

/-- A page watched by the attachment's coordinator `c`: `c` is the page's only coordinator, the
document is grown and carries exactly the attachment's listeners, and at most one save of `c`
waits for the executor, only while `c` has a save outstanding. -/
structure Watching (a : Attachment) (p : Page) (c : Coordinator) : Prop where
  lone : p.coordinators = [c]
  id : c.id = a.id
  form : c.form = a.form
  fresh : c.session.newResource = a.fresh
  grown : Grown p.doc
  listening : a.Listening p.doc
  jobs : p.jobs = [] ∨ ∃ r, p.jobs = [.save a.id r]
  pending : p.jobs ≠ [] → c.session.inFlight = true

/-- The executor of the coordinator is the page's, so its saves can be spawned, and a save it
has outstanding waits for the executor. -/
structure Live (p : Page) (c : Coordinator) : Prop where
  executor : c.executor = p.executor
  outstanding : c.session.inFlight = true → p.jobs ≠ []

/-- Whether the session holds an edit that no acknowledgment followed, after the happenings
`hs`, starting from `dirty`: an acknowledgment clears it and an edit sets it. -/
def Attachment.unsaved (a : Attachment) (dirty : Bool) (hs : List Happening) : Bool :=
  hs.foldl (fun u h => if a.acknowledges h then false else u || a.edits h) dirty

theorem Attachment.unsaved_append (a : Attachment) (dirty : Bool) (hs₁ hs₂ : List Happening) :
    a.unsaved dirty (hs₁ ++ hs₂) = a.unsaved (a.unsaved dirty hs₁) hs₂ :=
  List.foldl_append

/-- What happened to the coordinator's session, read off a report: a change that reached a
reload field makes every later submit navigate, and the session is dirty exactly when an edit
came after the last acknowledgment. -/
structure Follows (a : Attachment) (c : Coordinator) (hs : List Happening) (c' : Coordinator) :
    Prop where
  reload : c'.session.reloadRequired = (c.session.reloadRequired || hs.any a.touches)
  dirty : c'.session.dirty = a.unsaved c.session.dirty hs

namespace Follows

variable {a : Attachment}

theorem refl (c : Coordinator) : Follows a c [] c := ⟨by simp, rfl⟩

theorem trans {c₁ c₂ c₃ : Coordinator} {hs₁ hs₂ : List Happening} (h₁ : Follows a c₁ hs₁ c₂)
    (h₂ : Follows a c₂ hs₂ c₃) : Follows a c₁ (hs₁ ++ hs₂) c₃ where
  reload := by rw [h₂.reload, h₁.reload, List.any_append, Bool.or_assoc]
  dirty := by rw [h₂.dirty, h₁.dirty, Attachment.unsaved_append]

end Follows

namespace Watching

variable {a : Attachment} {p : Page} {c : Coordinator}

theorem listening_of_keeps {d d' : Document Reaction} (h : a.Listening d) (hk : Keeps d d') :
    a.Listening d' :=
  fun i => (hk.listeners i).trans (h i)

/-- Setting the value of a control leaves a watched page watched. -/
theorem setValue (hw : Watching a p c) (n : Nat) (v : String) :
    Watching a { p with doc := p.doc.setValue n v } c :=
  { hw with
    grown := (sameShape_setValue _ _ _).grown hw.grown
    listening := listening_of_keeps hw.listening (keeps_setValue _ _ _) }

/-- An edit leaves a watched page watched, with the session dirty. -/
theorem edited (hw : Watching a p c) :
    Watching a (p.edited c) { c with session := { c.session with dirty := true } } := by
  have hg := showWarning_grows hw.grown p.settings p.settings.unsavedNotice
  rw [edited_eq hw.lone]
  refine { hw with lone := rfl, grown := ?_, listening := ?_ }
  · split
    · exact hw.grown
    · exact hg.2
  · split
    · exact hw.listening
    · exact listening_of_keeps hw.listening hg.1

/-- A change of a reload field leaves a watched page watched. -/
theorem reloaded (hw : Watching a p c) :
    Watching a { p with coordinators := [{ c with session := c.session.requireReload }] }
      { c with session := c.session.requireReload } :=
  { hw with lone := rfl }

/-- A submit that reaches the form leaves a watched page watched; the session changes at most in
whether a save is outstanding, and a live coordinator stays live. -/
theorem submitted (hw : Watching a p c) :
    ∃ c', Watching a (p.submitted c).2 c' ∧
      c'.session = { c.session with inFlight := c'.session.inFlight } ∧
      (Live p c → Live (p.submitted c).2 c') := by
  unfold Page.submitted
  split
  · exact ⟨c, hw, rfl, fun h => h⟩
  · split
    · exact ⟨c, hw, rfl, fun h => h⟩
    · next hf =>
      split
      · next he =>
        -- nothing was waiting, since nothing is outstanding
        have hj : p.jobs = [] := by
          cases hj : p.jobs with
          | nil => rfl
          | cons j js => exact absurd (hw.pending (by rw [hj]; exact List.cons_ne_nil _ _)) hf
        refine ⟨{ c with session := { c.session with inFlight := true } }, ?_, rfl, fun _ => ?_⟩
        · refine { hw with
            lone := rfl
            jobs := .inr ⟨saveRequest p.doc c.form, ?_⟩
            pending := fun _ => rfl }
          simp [hj, hw.id]
        · exact ⟨he, fun _ => by simp⟩
      · exact ⟨c, hw, rfl, fun h => h⟩

end Watching

/-! ## Events on a watched page -/

section Events

variable {a : Attachment} {p : Page} {c : Coordinator}

/-- An input event edits the session when it reaches the form. -/
theorem fireEvent_input (hw : Watching a p c) (n : Nat) :
    (fireEvent n .input).run p =
      .ok (.fired .input (p.doc.path n) false, if a.form ∈ p.doc.path n then p.edited c else p) := by
  have hs := settles_markDirty hw.lone hw.id
  simp only [fireEvent, StateT.run_bind, run_doc, except_ok_bind,
    dispatch_uniform _ hw.listening.input hw.edited.listening.input hs]
  by_cases hf : a.form ∈ p.doc.path n <;> simp [hf]

/-- A change event marks the session for reloading when it reaches a reload field. -/
theorem fireEvent_change (hw : Watching a p c) (n : Nat) :
    (fireEvent n .change).run p =
      .ok (.fired .change (p.doc.path n) false,
        if ∃ f ∈ p.doc.path n, f ∈ a.fields then
          { p with coordinators := [{ c with session := c.session.requireReload }] }
        else p) := by
  have hs := settles_requireReload hw.lone hw.id
  simp only [fireEvent, StateT.run_bind, run_doc, except_ok_bind,
    dispatch_uniform _ hw.listening.change hw.reloaded.listening.change hs]
  have hcount : (∃ i ∈ p.doc.path n, a.fields.count i ≠ 0) ↔ ∃ f ∈ p.doc.path n, f ∈ a.fields :=
    exists_congr fun f => and_congr_right fun _ =>
      Nat.pos_iff_ne_zero.symm.trans List.count_pos_iff
  by_cases hf : ∃ f ∈ p.doc.path n, f ∈ a.fields
  · rw [if_pos (hcount.mpr hf), if_pos hf]
    rfl
  · rw [if_neg (mt hcount.mp hf), if_neg hf]
    rfl

/-- A submit event that reaches the form of an existing resource is decided by the session;
any other submit event changes nothing and lets the default happen. -/
theorem fireEvent_submit (hw : Watching a p c) (n : Nat) :
    (fireEvent n .submit).run p =
      if a.form ∈ p.doc.path n ∧ a.fresh = false then
        .ok (.fired .submit (p.doc.path n) (p.submitted c).1, (p.submitted c).2)
      else .ok (.fired .submit (p.doc.path n) false, p) := by
  have hs := settles_submit hw.lone hw.id
  obtain ⟨c', hw', -, -⟩ := hw.submitted
  simp only [fireEvent, StateT.run_bind, run_doc, except_ok_bind,
    dispatch_uniform _ hw.listening.submit hw'.listening.submit hs]
  have hcond : (∃ i ∈ p.doc.path n, (if i = a.form ∧ a.fresh = false then 1 else 0) ≠ 0) ↔
      a.form ∈ p.doc.path n ∧ a.fresh = false := by
    constructor
    · rintro ⟨i, hi, h⟩
      have h' : i = a.form ∧ a.fresh = false := by
        by_cases hh : i = a.form ∧ a.fresh = false
        · exact hh
        · simp [hh] at h
      exact ⟨h'.1 ▸ hi, h'.2⟩
    · rintro ⟨hi, hf⟩
      exact ⟨a.form, hi, by simp [hf]⟩
  by_cases hf : a.form ∈ p.doc.path n ∧ a.fresh = false
  · rw [if_pos (hcond.mpr hf), if_pos hf]
    rfl
  · rw [if_neg (mt hcond.mp hf), if_neg hf]
    rfl

/-- No listener waits for a click. -/
theorem fireEvent_click (hw : Watching a p c) (n : Nat) :
    (fireEvent n .click).run p = .ok (.fired .click (p.doc.path n) false, p) := by
  simp [fireEvent, dispatch_silent hw.listening.click]

/-- One event on a watched page leaves it watched, as its report says, and keeps a live
coordinator live. -/
theorem fireEvent_watched (hw : Watching a p c) {n : Nat} {kind : EventKind} {e : Happening}
    {p' : Page} (h : (fireEvent n kind).run p = .ok (e, p')) :
    ∃ c', Watching a p' c' ∧ Follows a c [e] c' ∧ (Live p c → Live p' c') := by
  cases kind with
  | input =>
    rw [fireEvent_input hw] at h
    obtain ⟨rfl, rfl⟩ := Prod.mk.inj (Except.ok.inj h)
    by_cases hf : a.form ∈ p.doc.path n
    · rw [if_pos hf]
      refine ⟨_, hw.edited, ⟨?_, ?_⟩, fun hl => ?_⟩
      · simp [Attachment.touches]
      · simp [Attachment.unsaved, Attachment.acknowledges, Attachment.edits, hf]
      · rw [edited_eq hw.lone]
        exact ⟨hl.executor, hl.outstanding⟩
    · rw [if_neg hf]
      refine ⟨c, hw, ⟨?_, ?_⟩, fun hl => hl⟩
      · simp [Attachment.touches]
      · simp [Attachment.unsaved, Attachment.acknowledges, Attachment.edits, hf]
  | change =>
    rw [fireEvent_change hw] at h
    obtain ⟨rfl, rfl⟩ := Prod.mk.inj (Except.ok.inj h)
    by_cases hf : ∃ f ∈ p.doc.path n, f ∈ a.fields
    · rw [if_pos hf]
      refine ⟨_, hw.reloaded, ⟨?_, ?_⟩, fun hl => ⟨hl.executor, hl.outstanding⟩⟩
      · simp only [Save.Session.requireReload, List.any_cons, List.any_nil, Attachment.touches]
        simp [hf]
      · simp [Attachment.unsaved, Attachment.acknowledges, Attachment.edits,
          Save.Session.requireReload]
    · rw [if_neg hf]
      refine ⟨c, hw, ⟨?_, ?_⟩, fun hl => hl⟩
      · simp only [List.any_cons, List.any_nil, Attachment.touches]
        simp [hf]
      · simp [Attachment.unsaved, Attachment.acknowledges, Attachment.edits]
  | submit =>
    rw [fireEvent_submit hw] at h
    split at h
    · obtain ⟨rfl, rfl⟩ := Prod.mk.inj (Except.ok.inj h)
      obtain ⟨c', hw', hs, hl⟩ := hw.submitted
      refine ⟨c', hw', ⟨?_, ?_⟩, hl⟩
      · rw [hs]
        simp [Attachment.touches]
      · rw [hs]
        simp [Attachment.unsaved, Attachment.acknowledges, Attachment.edits]
    · obtain ⟨rfl, rfl⟩ := Prod.mk.inj (Except.ok.inj h)
      refine ⟨c, hw, ⟨?_, ?_⟩, fun hl => hl⟩
      · simp [Attachment.touches]
      · simp [Attachment.unsaved, Attachment.acknowledges, Attachment.edits]
  | click =>
    rw [fireEvent_click hw] at h
    obtain ⟨rfl, rfl⟩ := Prod.mk.inj (Except.ok.inj h)
    refine ⟨c, hw, ⟨?_, ?_⟩, fun hl => hl⟩
    · simp [Attachment.touches]
    · simp [Attachment.unsaved, Attachment.acknowledges, Attachment.edits]

/-- An input event fired as the one activity of a run. -/
theorem performAll_fire_input (hw : Watching a p c) (n : Nat) :
    (Activity.performAll [.fire n .input]).run p =
      .ok ([.fired .input (p.doc.path n) false],
        if a.form ∈ p.doc.path n then p.edited c else p) := by
  simp only [Activity.performAll, Activity.perform, StateT.run_bind, fireEvent_input hw,
    except_ok_bind]
  rfl

end Events

/-! ## What one activity did -/

section Inversion

variable {p p' : Page} {hs : List Happening}

/-- A typed value is set in the document, and the input event that follows is what happened. -/
theorem perform_type_ok {n : Nat} {v : String}
    (h : (Activity.type n v).perform.run p = .ok (hs, p')) :
    ∃ e, (fireEvent n .input).run { p with doc := p.doc.setValue n v } = .ok (e, p') ∧
      hs = [e] := by
  unfold Activity.perform at h
  obtain ⟨_, _, h₀, h⟩ := run_bind_eq_ok h
  obtain ⟨-, rfl⟩ := Prod.mk.inj (Except.ok.inj h₀)
  obtain ⟨e, p₁, he, h⟩ := run_bind_eq_ok h
  obtain ⟨rfl, rfl⟩ := Prod.mk.inj (Except.ok.inj h)
  exact ⟨e, he, rfl⟩

/-- A chosen value is set in the document, then an input and a change event are fired. -/
theorem perform_choose_ok {n : Nat} {v : String}
    (h : (Activity.choose n v).perform.run p = .ok (hs, p')) :
    ∃ e₁ e₂ p₁, (fireEvent n .input).run { p with doc := p.doc.setValue n v } = .ok (e₁, p₁) ∧
      (fireEvent n .change).run p₁ = .ok (e₂, p') ∧ hs = [e₁, e₂] := by
  unfold Activity.perform at h
  obtain ⟨_, _, h₀, h⟩ := run_bind_eq_ok h
  obtain ⟨-, rfl⟩ := Prod.mk.inj (Except.ok.inj h₀)
  obtain ⟨e₁, p₁, he₁, h⟩ := run_bind_eq_ok h
  obtain ⟨e₂, p₂, he₂, h⟩ := run_bind_eq_ok h
  obtain ⟨rfl, rfl⟩ := Prod.mk.inj (Except.ok.inj h)
  exact ⟨e₁, e₂, p₁, he₁, he₂, rfl⟩

theorem perform_fire_ok {n : Nat} {kind : EventKind}
    (h : (Activity.fire n kind).perform.run p = .ok (hs, p')) :
    ∃ e, (fireEvent n kind).run p = .ok (e, p') ∧ hs = [e] := by
  unfold Activity.perform at h
  obtain ⟨e, p₁, he, h⟩ := run_bind_eq_ok h
  obtain ⟨rfl, rfl⟩ := Prod.mk.inj (Except.ok.inj h)
  exact ⟨e, he, rfl⟩

theorem perform_markDirty_ok {k : Nat}
    (h : (Activity.markDirty k).perform.run p = .ok (hs, p')) :
    (Ui.markDirty k).run p = .ok ((), p') ∧ hs = [.marked k] := by
  unfold Activity.perform at h
  obtain ⟨_, p₁, h₁, h⟩ := run_bind_eq_ok h
  obtain ⟨rfl, rfl⟩ := Prod.mk.inj (Except.ok.inj h)
  exact ⟨h₁, rfl⟩

/-- Running the executor runs the jobs that waited, and reports the transport's answers to
their saves. -/
theorem perform_run_ok (h : Activity.run.perform.run p = .ok (hs, p')) :
    runJobs.run p = .ok ((), p') ∧ hs = transportAnswers p.jobs p.answers := by
  unfold Activity.perform at h
  obtain ⟨_, _, h₀, h⟩ := run_bind_eq_ok h
  obtain ⟨rfl, rfl⟩ := Prod.mk.inj (Except.ok.inj h₀)
  obtain ⟨_, p₁, h₁, h⟩ := run_bind_eq_ok h
  obtain ⟨rfl, rfl⟩ := Prod.mk.inj (Except.ok.inj h)
  exact ⟨h₁, rfl⟩

theorem perform_advance_ok {ms : Nat} (h : (Activity.advance ms).perform.run p = .ok (hs, p')) :
    (Ui.advance ms).run p = .ok ((), p') ∧ hs = [] := by
  unfold Activity.perform at h
  obtain ⟨_, p₁, h₁, h⟩ := run_bind_eq_ok h
  obtain ⟨rfl, rfl⟩ := Prod.mk.inj (Except.ok.inj h)
  exact ⟨h₁, rfl⟩

/-- A shutdown drops the waiting jobs and moves to the next executor. -/
theorem perform_shutdown_ok (h : Activity.shutdown.perform.run p = .ok (hs, p')) :
    p' = { p with jobs := [], executor := p.executor + 1 } ∧ hs = [] := by
  unfold Activity.perform at h
  obtain ⟨_, p₁, h₁, h⟩ := run_bind_eq_ok h
  obtain ⟨rfl, rfl⟩ := Prod.mk.inj (Except.ok.inj h)
  obtain ⟨-, rfl⟩ := Prod.mk.inj (Except.ok.inj h₁)
  exact ⟨rfl, rfl⟩

end Inversion

/-! ## One activity on a watched page -/

theorem markDirty_other {p : Page} {c : Coordinator} {k : Nat} (hc : p.coordinators = [c])
    (hk : c.id ≠ k) : (markDirty k).run p = .ok ((), p) := by
  simp [markDirty, hc, hk]

/-! ## Running the executor on a watched page -/

section Run

variable {a : Attachment} {p : Page} {c : Coordinator} {r : Save.Request}
  {hs : List Happening} {p' : Page}

/-- Running the executor with nothing waiting changes nothing. -/
theorem run_idle (hj : p.jobs = []) (h : Activity.run.perform.run p = .ok (hs, p')) :
    hs = [] ∧ p' = p := by
  obtain ⟨h₁, rfl⟩ := perform_run_ok h
  rw [runJobs_idle hj] at h₁
  obtain ⟨-, rfl⟩ := Prod.mk.inj (Except.ok.inj h₁)
  simp [hj, transportAnswers]

/-- Running the executor sends the waiting save's request and completes it with the transport's
next answer. -/
theorem run_completes {k : Nat} (hj : p.jobs = [.save k r])
    (h : Activity.run.perform.run p = .ok (hs, p')) :
    hs = [.answered k (p.answers.headD (.saved ""))] ∧
      (completeSave k (p.answers.headD (.saved ""))).run
        { p with jobs := [], sent := p.sent ++ [r], answers := p.answers.tail } = .ok ((), p') := by
  obtain ⟨h₁, rfl⟩ := perform_run_ok h
  rw [runJobs_save hj] at h₁
  exact ⟨by simp [hj, transportAnswers], h₁⟩

/-- An acknowledged save: the request is sent, the session is acknowledged, the warning cleared
and the message region filled with the server's fragment. -/
theorem Watching.run_saved (hw : Watching a p c) (hj : p.jobs = [.save a.id r]) {fragment : String}
    (ha : p.answers.headD (.saved "") = .saved fragment)
    (h : Activity.run.perform.run p = .ok (hs, p')) :
    hs = [.answered a.id (.saved fragment)] ∧ ∃ b, p' = { p with
      jobs := []
      sent := p.sent ++ [r]
      answers := p.answers.tail
      coordinators := [{ c with session := c.session.acknowledge, board := b }]
      doc := fillRegion p.settings (showWarning p.settings p.doc "") fragment
      timeline := p'.timeline } := by
  obtain ⟨rfl, hc⟩ := run_completes hj h
  rw [ha] at hc ⊢
  exact ⟨rfl, completeSave_saved_lone hc hw.lone hw.id⟩

/-- A failed save: the request is sent, nothing is outstanding any more, and an error message is
appended to the message region. -/
theorem Watching.run_failed (hw : Watching a p c) (hj : p.jobs = [.save a.id r])
    (ha : p.answers.headD (.saved "") = .failed)
    (h : Activity.run.perform.run p = .ok (hs, p')) :
    hs = [.answered a.id .failed] ∧ ∃ b, p' = { p with
      jobs := []
      sent := p.sent ++ [r]
      answers := p.answers.tail
      coordinators := [{ c with session := c.session.fail, board := b }]
      doc := appendError p.settings p.doc p.settings.saveFailedNotice
      timeline := p'.timeline } := by
  obtain ⟨rfl, hc⟩ := run_completes hj h
  rw [ha] at hc ⊢
  exact ⟨rfl, completeSave_failed_lone hc hw.lone hw.id⟩

end Run

section Step

variable {a : Attachment} {p : Page} {c : Coordinator}

/-- Every activity leaves a watched page watched, does to the session what its report says,
and, short of a shutdown, keeps a live coordinator live. -/
theorem Activity.perform_watched (hw : Watching a p c) {act : Activity} {hs : List Happening}
    {p' : Page} (h : act.perform.run p = .ok (hs, p')) :
    ∃ c', Watching a p' c' ∧ Follows a c hs c' ∧ (Live p c → act ≠ .shutdown → Live p' c') := by
  cases act with
  | type n v =>
    obtain ⟨e, he, rfl⟩ := perform_type_ok h
    obtain ⟨c', hw', hf, hl⟩ := fireEvent_watched (hw.setValue n v) he
    exact ⟨c', hw', hf, fun l _ => hl ⟨l.executor, l.outstanding⟩⟩
  | choose n v =>
    obtain ⟨e₁, e₂, p₁, he₁, he₂, rfl⟩ := perform_choose_ok h
    obtain ⟨c₁, hw₁, hf₁, hl₁⟩ := fireEvent_watched (hw.setValue n v) he₁
    obtain ⟨c₂, hw₂, hf₂, hl₂⟩ := fireEvent_watched hw₁ he₂
    exact ⟨c₂, hw₂, hf₁.trans hf₂, fun l _ => hl₂ (hl₁ ⟨l.executor, l.outstanding⟩)⟩
  | fire n kind =>
    obtain ⟨e, he, rfl⟩ := perform_fire_ok h
    obtain ⟨c', hw', hf, hl⟩ := fireEvent_watched hw he
    exact ⟨c', hw', hf, fun l _ => hl l⟩
  | markDirty k =>
    obtain ⟨h₁, rfl⟩ := perform_markDirty_ok h
    by_cases hk : c.id = k
    · rw [markDirty_lone hw.lone hk] at h₁
      obtain ⟨-, rfl⟩ := Prod.mk.inj (Except.ok.inj h₁)
      refine ⟨_, hw.edited, ⟨by simp [Attachment.touches], ?_⟩, fun l _ => ?_⟩
      · simp [Attachment.unsaved, Attachment.acknowledges, Attachment.edits, ← hk, hw.id]
      · rw [edited_eq hw.lone]
        exact ⟨l.executor, l.outstanding⟩
    · rw [markDirty_other hw.lone hk] at h₁
      obtain ⟨-, rfl⟩ := Prod.mk.inj (Except.ok.inj h₁)
      have hk' : (k == a.id) = false := by
        rw [← hw.id]
        exact beq_false_of_ne (Ne.symm hk)
      refine ⟨c, hw, ⟨by simp [Attachment.touches], ?_⟩, fun l _ => l⟩
      simp [Attachment.unsaved, Attachment.acknowledges, Attachment.edits, hk']
  | run =>
    rcases hw.jobs with hj | ⟨r, hj⟩
    · obtain ⟨rfl, rfl⟩ := run_idle hj h
      exact ⟨c, hw, Follows.refl c, fun l _ => l⟩
    · cases ha : p.answers.headD (.saved "") with
      | saved fragment =>
        obtain ⟨rfl, b, hq⟩ := hw.run_saved hj ha h
        rw [hq]
        have hd := showWarning_grows hw.grown p.settings ""
        have hr := fillRegion_grows hd.2 p.settings fragment
        refine ⟨_, ⟨rfl, hw.id, hw.form, hw.fresh, hr.2, ?_, .inl rfl, fun h => absurd rfl h⟩,
          ⟨?_, ?_⟩, fun l _ => ⟨l.executor, fun h => absurd h (by simp [Save.Session.acknowledge])⟩⟩
        · exact Watching.listening_of_keeps hw.listening (hd.1.trans hr.1)
        · simp [Attachment.touches, Save.Session.acknowledge]
        · simp [Attachment.unsaved, Attachment.acknowledges, Save.Session.acknowledge]
      | failed =>
        obtain ⟨rfl, b, hq⟩ := hw.run_failed hj ha h
        rw [hq]
        have hd := appendError_grows hw.grown p.settings p.settings.saveFailedNotice
        refine ⟨_, ⟨rfl, hw.id, hw.form, hw.fresh, hd.2, ?_, .inl rfl, fun h => absurd rfl h⟩,
          ⟨?_, ?_⟩, fun l _ => ⟨l.executor, fun h => absurd h (by simp [Save.Session.fail])⟩⟩
        · exact Watching.listening_of_keeps hw.listening hd.1
        · simp [Attachment.touches, Save.Session.fail]
        · simp [Attachment.unsaved, Attachment.acknowledges, Attachment.edits, Save.Session.fail]
  | advance ms =>
    obtain ⟨h₁, rfl⟩ := perform_advance_ok h
    obtain ⟨hq, hk, hg⟩ := advance_frame h₁
    refine ⟨c, ?_, Follows.refl c, fun l _ => ?_⟩
    · rw [hq]
      exact { hw with grown := hg hw.grown, listening := Watching.listening_of_keeps hw.listening hk }
    · rw [hq]
      exact ⟨l.executor, l.outstanding⟩
  | shutdown =>
    obtain ⟨rfl, rfl⟩ := perform_shutdown_ok h
    exact ⟨c, { hw with jobs := .inl rfl, pending := fun h => absurd rfl h }, Follows.refl c,
      fun _ h => absurd rfl h⟩

/-- A run of activities leaves a watched page watched, does to the session what its report
says, and, with no shutdown among them, keeps a live coordinator live. -/
theorem Activity.performAll_watched (hw : Watching a p c) {acts : List Activity}
    {hs : List Happening} {p' : Page} (h : (Activity.performAll acts).run p = .ok (hs, p')) :
    ∃ c', Watching a p' c' ∧ Follows a c hs c' ∧
      (Live p c → (∀ x ∈ acts, x ≠ .shutdown) → Live p' c') := by
  induction acts generalizing p c hs with
  | nil =>
    obtain ⟨rfl, rfl⟩ := Prod.mk.inj (Except.ok.inj h)
    exact ⟨c, hw, Follows.refl c, fun l _ => l⟩
  | cons act rest ih =>
    unfold Activity.performAll at h
    obtain ⟨now, p₁, h₁, h⟩ := run_bind_eq_ok h
    obtain ⟨later, p₂, h₂, h⟩ := run_bind_eq_ok h
    obtain ⟨rfl, rfl⟩ := Prod.mk.inj (Except.ok.inj h)
    obtain ⟨c₁, hw₁, hf₁, hl₁⟩ := Activity.perform_watched hw h₁
    obtain ⟨c₂, hw₂, hf₂, hl₂⟩ := ih hw₁ h₂
    refine ⟨c₂, hw₂, hf₁.trans hf₂, fun l hx => ?_⟩
    exact hl₂ (hl₁ l (hx act (List.mem_cons_self ..))) fun x hx' => hx x (List.mem_cons_of_mem _ hx')

end Step

/-! ## Attaching starts the watch -/

theorem cosmetic_listenAll (fields : List Nat) (kind : EventKind) (l : Reaction) :
    ∀ d : Document Reaction, Cosmetic d (fields.foldl (fun d f => d.listen f kind l) d) := by
  induction fields with
  | nil => intro d; exact Cosmetic.refl d
  | cons f rest ih =>
    intro d
    exact (cosmetic_listen d f kind l).trans (ih _)

/-- Wiring adds listeners and changes nothing else. -/
theorem Attachment.wire_cosmetic (a : Attachment) (d : Document Reaction) :
    Cosmetic d (a.wire d) := by
  unfold Attachment.wire
  split
  · exact cosmetic_listen _ _ _ _
  · exact ((cosmetic_listen _ _ _ _).trans (cosmetic_listenAll _ _ _ _)).trans
      (cosmetic_listen _ _ _ _)

/-- A page no component has touched yet: a grown document without listeners, no coordinator
and no save job. -/
structure Untouched (p : Page) : Prop where
  grown : Grown p.doc
  quiet : ∀ i, (p.doc.node i).listeners = []
  alone : p.coordinators = []
  idle : p.jobs = []

theorem listeners_empty (i : Nat) : ((empty : Document Reaction).node i).listeners = [] := by
  rcases i with _ | _ | i <;> rfl

/-- A page loaded from markup is untouched. -/
theorem load_untouched (html : String) (s : Settings) (viewport : Float)
    (heights : List (String × Float)) (answers : List Answer) (clipboard : List Bool) :
    Untouched (Page.load html s viewport heights answers clipboard) where
  grown :=
    (⟨rfl, fun _ => rfl, fun _ => rfl⟩ :
      SameShape (withBody html) (Page.load html s viewport heights answers clipboard).doc).grown
    (withBody_grows html).2
  quiet i := ((withBody_grows html).1.listeners i).trans (listeners_empty i)
  alone := rfl
  idle := rfl

/-- The page right after a coordinator attached to the form of an untouched page. -/
def Page.attached (p : Page) (form : Nat) : Page :=
  { p with
    doc := (p.attachment form).wire p.doc
    nextId := p.nextId + 1
    coordinators := [(p.attachment form).coordinator p.executor] }

/-- Once a coordinator attaches to the form of an untouched page, the page is watched and the
coordinator is live. -/
theorem attach_watched {p₀ : Page} {form : Nat} (hu : Untouched p₀)
    (hform : p₀.doc.elementById p₀.settings.formId = some form) :
    Watching (p₀.attachment form) (p₀.attached form) ((p₀.attachment form).coordinator p₀.executor) ∧
      Live (p₀.attached form) ((p₀.attachment form).coordinator p₀.executor) := by
  have hform' := (elementById_spec hu.grown hform).1
  have hfields : ∀ f ∈ (p₀.attachment form).fields, f < p₀.doc.nodes.size := by
    intro f hf
    unfold Page.attachment at hf
    simp only at hf
    split at hf
    · cases hf
    · exact (mem_descendants hu.grown (List.mem_filter.mp hf).1).1
  refine ⟨⟨rfl, rfl, rfl, rfl, (Attachment.wire_cosmetic _ _).sameShape.grown hu.grown,
    Attachment.wire_listening hu.quiet hform' hfields ?_, .inl hu.idle,
    fun h => absurd hu.idle h⟩, ⟨rfl, fun h => by cases h⟩⟩
  intro hfresh
  unfold Page.attachment at hfresh ⊢
  simp only at hfresh ⊢
  rw [if_pos hfresh]

/-- An untouched page whose body is one form of an existing resource, under the default
settings. -/
def Page.oneForm : Page :=
  Page.load "<form id=\"edit_page\" data-new=\"0\" action=\"/save\"></form>" {} 768 [] [] []

theorem oneForm_untouched : Untouched Page.oneForm :=
  load_untouched _ _ _ _ _ _

theorem oneForm_formId : Page.oneForm.doc.elementById Page.oneForm.settings.formId = some 2 := by
  decide +kernel

theorem attachCoordinator_untouched {p₀ : Page} {form : Nat} (hu : Untouched p₀)
    (hform : p₀.doc.elementById p₀.settings.formId = some form) :
    attachCoordinator.run p₀ = .ok (true, p₀.attached form) := by
  rw [attachCoordinator_run hform, hu.alone]
  rfl

/-- Attaching and then doing nothing. -/
theorem attach_only {p₀ : Page} {form : Nat} (hu : Untouched p₀)
    (hform : p₀.doc.elementById p₀.settings.formId = some form) :
    (attachCoordinator >>= fun _ => Activity.performAll []).run p₀ = .ok ([], p₀.attached form) := by
  rw [StateT.run_bind, attachCoordinator_untouched hu hform]
  rfl

/-- Every run that attaches a coordinator to the form of an untouched page and then performs
activities keeps the page watched: the session follows what happened since the attach, and
the coordinator stays live while the executor is not shut down. -/
theorem attached_watched {p₀ : Page} {form : Nat} (hu : Untouched p₀)
    (hform : p₀.doc.elementById p₀.settings.formId = some form) {acts : List Activity}
    {hs : List Happening} {p : Page}
    (h : (attachCoordinator >>= fun _ => Activity.performAll acts).run p₀ = .ok (hs, p)) :
    ∃ c, Watching (p₀.attachment form) p c ∧
      Follows (p₀.attachment form) ((p₀.attachment form).coordinator p₀.executor) hs c ∧
      ((∀ x ∈ acts, x ≠ .shutdown) → Live p c) := by
  obtain ⟨_, p₁, h₁, h⟩ := run_bind_eq_ok h
  rw [attachCoordinator_untouched hu hform] at h₁
  obtain ⟨-, rfl⟩ := Prod.mk.inj (Except.ok.inj h₁)
  obtain ⟨hw, hl⟩ := attach_watched hu hform
  obtain ⟨c, hw', hf, hl'⟩ := Activity.performAll_watched hw h
  exact ⟨c, hw', hf, hl' hl⟩

end PageEditor.Ui
