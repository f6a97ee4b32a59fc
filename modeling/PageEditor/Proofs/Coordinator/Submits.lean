import PageEditor.Proofs.Coordinator.Activity
/-!
# PageEditor.Proofs.Coordinator.Submits

How a watched form's submits are answered, over every run after a coordinator attached to the
form of an existing resource.

The session decides a submit by a fixed order of rules:

1. once a reload field of the form has had a change, every submit navigates: its default is not
   prevented and nothing is sent;
2. otherwise, while a save is outstanding, a submit is only prevented;
3. otherwise the submit is prevented and becomes the one save job, whose request is built from
   the form as it stands at the submit; running the executor sends exactly that request.

A save job waits for the executor exactly while the session has a save in flight, and there is
never more than one. Because the reload rule comes first, a change to a reload field while a
save is outstanding lets the next submit navigate.
-/

namespace PageEditor.Ui

open Markup Markup.Document Save

variable {a : Attachment} {p : Page} {c : Coordinator}

/-! ## One submit on a watched page -/

/-- While a save waits for the executor, a submit changes nothing; it is prevented unless a
reload field changed. -/
theorem Watching.submitted_of_saving (hw : Watching a p c) (hfresh : a.fresh = false)
    (hj : p.jobs ≠ []) : p.submitted c = (!c.session.reloadRequired, p) := by
  have hf := hw.pending hj
  unfold Page.submitted Session.transport
  rw [hw.fresh, hfresh]
  cases c.session.reloadRequired <;> simp [hf]

/-- On a live page a submit with no save outstanding spawns the save of the form as it stands. -/
theorem Watching.submitted_eq (hw : Watching a p c) (hl : Live p c) (hfresh : a.fresh = false) :
    p.submitted c =
      if c.session.reloadRequired then (false, p)
      else if p.jobs = [] then
        (true, { p with
          coordinators := [{ c with session := { c.session with inFlight := true } }]
          jobs := [.save a.id (saveRequest p.doc a.form)] })
      else (true, p) := by
  by_cases hj : p.jobs = []
  · -- nothing is outstanding, so the session has no save in flight either
    have hf : c.session.inFlight = false := by
      cases hi : c.session.inFlight
      · rfl
      · exact absurd hj (hl.outstanding hi)
    unfold Page.submitted Session.transport
    rw [hw.fresh, hfresh]
    cases c.session.reloadRequired <;> simp [hf, hl.executor, hj, hw.id, hw.form]
  · rw [hw.submitted_of_saving hfresh hj, if_neg hj]
    cases c.session.reloadRequired <;> rfl

/-- A submit that reaches the form of an existing resource is decided by the session. -/
theorem Watching.fire_submit_eq (hw : Watching a p c) (hfresh : a.fresh = false) {n : Nat}
    (hn : a.form ∈ p.doc.path n) :
    (Activity.fire n .submit).perform.run p =
      .ok ([.fired .submit (p.doc.path n) (p.submitted c).1], (p.submitted c).2) := by
  simp only [Activity.perform, StateT.run_bind, fireEvent_submit hw, if_pos (And.intro hn hfresh),
    except_ok_bind]
  rfl

/-- A submit on a watched form, as an activity: the three rules of the session. -/
theorem Watching.fire_submit (hw : Watching a p c) (hl : Live p c) (hfresh : a.fresh = false)
    {n : Nat} (hn : a.form ∈ p.doc.path n) :
    (Activity.fire n .submit).perform.run p =
      if c.session.reloadRequired then .ok ([.fired .submit (p.doc.path n) false], p)
      else if p.jobs = [] then
        .ok ([.fired .submit (p.doc.path n) true], { p with
          coordinators := [{ c with session := { c.session with inFlight := true } }]
          jobs := [.save a.id (saveRequest p.doc a.form)] })
      else .ok ([.fired .submit (p.doc.path n) true], p) := by
  rw [hw.fire_submit_eq hfresh hn, hw.submitted_eq hl hfresh]
  by_cases hr : c.session.reloadRequired = true
  · simp only [if_pos hr]
  · by_cases hj : p.jobs = []
    · simp only [if_neg hr, if_pos hj]
    · simp only [if_neg hr, if_neg hj]

/-- Running the executor with the save job waiting sends the job's request, whatever the answer. -/
theorem Watching.run_sends (hw : Watching a p c) {r : Request} (hj : p.jobs = [.save a.id r])
    {hs : List Happening} {q : Page} (h : Activity.run.perform.run p = .ok (hs, q)) :
    q.sent = p.sent ++ [r] := by
  cases ha : p.answers.headD (.saved "") with
  | saved fragment =>
    obtain ⟨-, _, hq⟩ := hw.run_saved hj ha h
    rw [hq]
  | failed =>
    obtain ⟨-, _, hq⟩ := hw.run_failed hj ha h
    rw [hq]

/-! ## Runs after the attach -/

section Attached

variable {p₀ : Page} {form : Nat}

/-- The attachment of a form whose new-resource attribute holds `0` edits an existing resource. -/
theorem attachment_fresh_eq_false
    (hold : (p₀.doc.attribute? form p₀.settings.newResourceAttribute).map Text.trim = some "0") :
    (p₀.attachment form).fresh = false :=
  editsNewResource_eq_false.mpr hold

/-- After the attach the session requires a reload exactly when a reload field of the form had
a change. -/
theorem Follows.reload_since_attach {hs : List Happening}
    (hf : Follows (p₀.attachment form) ((p₀.attachment form).coordinator p₀.executor) hs c) :
    c.session.reloadRequired = hs.any (p₀.attachment form).touches := by
  rw [hf.reload]
  rfl

/-- Every submit on the form of an existing resource, after any run of edits, changes, submits,
executor runs and advances since the attach, is answered by the session's rules: it navigates
once a reload field had a change; otherwise it is only prevented while a save waits; otherwise
it is prevented and queues the one save, whose request carries the form's action with the
background marker, its normalised method and the body its controls submit at this moment. A save
waits exactly while the session has one in flight, there is at most one, and running the
executor sends exactly its request. -/
theorem submit_outcome (hu : Untouched p₀)
    (hform : p₀.doc.elementById p₀.settings.formId = some form)
    (hold : (p₀.doc.attribute? form p₀.settings.newResourceAttribute).map Text.trim = some "0")
    {acts : List Activity} (hacts : ∀ x ∈ acts, x ≠ .shutdown) {hs : List Happening} {p : Page}
    (h : (attachCoordinator >>= fun _ => Activity.performAll acts).run p₀ = .ok (hs, p)) :
    ∃ c, p.coordinators = [c] ∧ (p.jobs = [] ∨ ∃ r, p.jobs = [.save c.id r]) ∧
      (c.session.inFlight = true ↔ p.jobs ≠ []) ∧
      (∀ n, form ∈ p.doc.path n →
        (Activity.fire n .submit).perform.run p =
          if hs.any (p₀.attachment form).touches then
            .ok ([.fired .submit (p.doc.path n) false], p)
          else if p.jobs = [] then
            .ok ([.fired .submit (p.doc.path n) true], { p with
              coordinators := [{ c with session := { c.session with inFlight := true } }]
              jobs := [.save c.id ⟨backgroundMarker ((p.doc.attribute? form "action").getD ""),
                saveMethod (p.doc.attribute? form "method"),
                Form.Body.ofControls (p.doc.formControls form)⟩] })
          else .ok ([.fired .submit (p.doc.path n) true], p)) ∧
      (∀ r, p.jobs = [.save c.id r] → ∀ hs' q, Activity.run.perform.run p = .ok (hs', q) →
        q.sent = p.sent ++ [r]) := by
  obtain ⟨c, hw, hf, hl⟩ := attached_watched hu hform h
  have hl := hl hacts
  have hfresh := attachment_fresh_eq_false hold
  refine ⟨c, hw.lone, hw.id ▸ hw.jobs, ⟨fun hi => hl.outstanding hi, hw.pending⟩, ?_, ?_⟩
  · intro n hn
    rw [hw.fire_submit hl hfresh hn, hf.reload_since_attach, hw.id]
    rfl
  · intro r hj _ _ hr
    exact hw.run_sends (hw.id ▸ hj) hr

theorem oneForm_edits_existing :
    (Page.oneForm.doc.attribute? 2 Page.oneForm.settings.newResourceAttribute).map Text.trim =
      some "0" := by
  decide +kernel

/-- `Page.oneForm` after the attach and one submit on its form: its save waits for the
executor. -/
def Page.oneFormSaving : Page :=
  ((Page.oneForm.attached 2).submitted ((Page.oneForm.attachment 2).coordinator 0)).2

/-- The first submit after the attach queues the save. -/
theorem oneForm_submit_run :
    (attachCoordinator >>= fun _ => Activity.performAll [.fire 2 .submit]).run Page.oneForm =
      .ok ([.fired .submit [2, 1, 0] true], Page.oneFormSaving) := by
  -- the form is node 2 below the body, and its first submit is sent; read off in one
  -- evaluation of the markup
  obtain ⟨hn, hpath, hsent⟩ :
      (Page.oneForm.attachment 2).form ∈ (Page.oneForm.attached 2).doc.path 2 ∧
      (Page.oneForm.attached 2).doc.path 2 = [2, 1, 0] ∧
      ((Page.oneForm.attached 2).submitted
        ((Page.oneForm.attachment 2).coordinator Page.oneForm.executor)).1 = true := by
    decide +kernel
  rw [StateT.run_bind, attachCoordinator_untouched oneForm_untouched oneForm_formId,
    except_ok_bind]
  simp only [Activity.performAll, StateT.run_bind, except_ok_bind,
    (attach_watched oneForm_untouched oneForm_formId).1.fire_submit_eq
      (attachment_fresh_eq_false oneForm_edits_existing) hn, hpath, hsent]
  rfl

theorem submit_outcome_oneForm :
    Untouched Page.oneForm ∧
      Page.oneForm.doc.elementById Page.oneForm.settings.formId = some 2 ∧
      (Page.oneForm.doc.attribute? 2 Page.oneForm.settings.newResourceAttribute).map Text.trim =
        some "0" ∧
      (∀ x ∈ [Activity.fire 2 .submit], x ≠ .shutdown) ∧
      (attachCoordinator >>= fun _ => Activity.performAll [.fire 2 .submit]).run Page.oneForm =
        .ok ([.fired .submit [2, 1, 0] true], Page.oneFormSaving) ∧
      ∃ c, Page.oneFormSaving.coordinators = [c] ∧
        (Page.oneFormSaving.jobs = [] ∨ ∃ r, Page.oneFormSaving.jobs = [.save c.id r]) ∧
        (c.session.inFlight = true ↔ Page.oneFormSaving.jobs ≠ []) ∧
        (∀ n, 2 ∈ Page.oneFormSaving.doc.path n →
          (Activity.fire n .submit).perform.run Page.oneFormSaving =
            if [Happening.fired .submit [2, 1, 0] true].any (Page.oneForm.attachment 2).touches then
              .ok ([.fired .submit (Page.oneFormSaving.doc.path n) false], Page.oneFormSaving)
            else if Page.oneFormSaving.jobs = [] then
              .ok ([.fired .submit (Page.oneFormSaving.doc.path n) true], { Page.oneFormSaving with
                coordinators := [{ c with session := { c.session with inFlight := true } }]
                jobs := [.save c.id
                  ⟨backgroundMarker ((Page.oneFormSaving.doc.attribute? 2 "action").getD ""),
                    saveMethod (Page.oneFormSaving.doc.attribute? 2 "method"),
                    Form.Body.ofControls (Page.oneFormSaving.doc.formControls 2)⟩] })
            else .ok ([.fired .submit (Page.oneFormSaving.doc.path n) true], Page.oneFormSaving)) ∧
        (∀ r, Page.oneFormSaving.jobs = [.save c.id r] → ∀ hs' q,
          Activity.run.perform.run Page.oneFormSaving = .ok (hs', q) →
            q.sent = Page.oneFormSaving.sent ++ [r]) :=
  have hacts : ∀ x ∈ [Activity.fire 2 .submit], x ≠ .shutdown := by simp
  ⟨oneForm_untouched, oneForm_formId, oneForm_edits_existing, hacts, oneForm_submit_run,
    submit_outcome oneForm_untouched oneForm_formId oneForm_edits_existing hacts
      oneForm_submit_run⟩

/-- While a save waits for the executor, a submit on the form leaves the page as it is, so it
sends nothing; it is prevented, unless a reload field had a change since the attach, in which
case it navigates. -/
theorem submit_during_save (hu : Untouched p₀)
    (hform : p₀.doc.elementById p₀.settings.formId = some form)
    (hold : (p₀.doc.attribute? form p₀.settings.newResourceAttribute).map Text.trim = some "0")
    {acts : List Activity} {hs : List Happening} {p : Page}
    (h : (attachCoordinator >>= fun _ => Activity.performAll acts).run p₀ = .ok (hs, p))
    (hsaving : p.jobs ≠ []) {n : Nat} (hn : form ∈ p.doc.path n) :
    (Activity.fire n .submit).perform.run p =
      .ok ([.fired .submit (p.doc.path n) (!hs.any (p₀.attachment form).touches)], p) := by
  obtain ⟨c, hw, hf, -⟩ := attached_watched hu hform h
  have hfresh := attachment_fresh_eq_false hold
  rw [hw.fire_submit_eq hfresh hn, hw.submitted_of_saving hfresh hsaving, hf.reload_since_attach]

theorem submit_during_save_oneForm :
    Untouched Page.oneForm ∧
      Page.oneForm.doc.elementById Page.oneForm.settings.formId = some 2 ∧
      (Page.oneForm.doc.attribute? 2 Page.oneForm.settings.newResourceAttribute).map Text.trim =
        some "0" ∧
      (attachCoordinator >>= fun _ => Activity.performAll [.fire 2 .submit]).run Page.oneForm =
        .ok ([.fired .submit [2, 1, 0] true], Page.oneFormSaving) ∧
      Page.oneFormSaving.jobs ≠ [] ∧ 2 ∈ Page.oneFormSaving.doc.path 2 ∧
      (Activity.fire 2 .submit).perform.run Page.oneFormSaving =
        .ok ([.fired .submit (Page.oneFormSaving.doc.path 2)
          (!([Happening.fired .submit [2, 1, 0] true].any (Page.oneForm.attachment 2).touches))],
          Page.oneFormSaving) := by
  obtain ⟨hsaving, hn⟩ : Page.oneFormSaving.jobs ≠ [] ∧ 2 ∈ Page.oneFormSaving.doc.path 2 := by
    decide +kernel
  exact ⟨oneForm_untouched, oneForm_formId, oneForm_edits_existing, oneForm_submit_run, hsaving,
    hn, submit_during_save oneForm_untouched oneForm_formId oneForm_edits_existing
      oneForm_submit_run hsaving hn⟩

/-- A change to a reload field while the first save waits lets the next submit navigate: the
save is still waiting and nothing was sent, yet that submit is not prevented. -/
theorem reload_change_navigates_during_save :
    ((attachCoordinator >>= fun _ => Activity.performAll
        [.fire 2 .submit, .choose 4 "b", .fire 2 .submit]).run
      (Page.load ("<form id=\"edit_page\" data-new=\"0\" action=\"/save\">" ++
        "<input id=\"title\" name=\"title\"><select id=\"kind\" name=\"kind\" class=\"i-reload\">" ++
        "<option value=\"a\">a</option><option value=\"b\">b</option></select></form>")
        {} 768 [] [] [])).toOption.map (fun r => (r.1, r.2.jobs.length, r.2.sent.length)) =
    some ([.fired .submit [2, 1, 0] true, .fired .input [4, 2, 1, 0] false,
      .fired .change [4, 2, 1, 0] false, .fired .submit [2, 1, 0] false], 1, 0) := by
  decide +kernel

end Attached

end PageEditor.Ui
