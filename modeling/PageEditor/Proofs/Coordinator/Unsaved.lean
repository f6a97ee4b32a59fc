import PageEditor.Proofs.Coordinator.Activity
/-!
# PageEditor.Proofs.Coordinator.Unsaved

What the session's dirty flag records, and how the warning element shows it.

1. An edit of the form, an input event that reaches it or a direct mark, sets the flag, and an
   acknowledged save of the coordinator clears it, whatever came since the submit whose request
   that save carried: the session is dirty exactly when an edit came after the last
   acknowledgment. So an edit made while a save is outstanding counts as saved once that save
   is acknowledged, although its request did not carry the edit.
2. While the warning element is the first element with its id and does not hold the message
   region, it shows the unsaved notice exactly while the session is dirty and nothing while it
   is clean: the first edit of a clean session writes the notice, an acknowledgment clears it,
   and a failed save, like every other activity but the clock's, leaves both as they were.
   A message region inside the warning would carry a failed save's message into the warning's
   text.
-/

namespace PageEditor.Ui

open Markup Markup.Document

/-! ## What the dirty flag records -/

namespace Attachment

variable {a : Attachment}

theorem acknowledges_of_edits {e : Happening} (h : a.edits e = true) :
    a.acknowledges e = false := by
  cases e with
  | answered k answer => simp [edits] at h
  | _ => rfl

/-- A happening satisfying `P` with none satisfying `Q` after it is the first happening, when
nothing later satisfies `Q`, or lies among the later ones. -/
theorem lastSince_cons {P Q : Happening → Bool} {e : Happening} {hs : List Happening} :
    (∃ pre x post, e :: hs = pre ++ x :: post ∧ P x = true ∧ ∀ y ∈ post, Q y = false) ↔
      (P e = true ∧ ∀ y ∈ hs, Q y = false) ∨
        ∃ pre x post, hs = pre ++ x :: post ∧ P x = true ∧ ∀ y ∈ post, Q y = false := by
  constructor
  · rintro ⟨pre, x, post, hsplit, hp, hq⟩
    cases pre with
    | nil =>
      obtain ⟨rfl, rfl⟩ := List.cons.inj hsplit
      exact .inl ⟨hp, hq⟩
    | cons y pre =>
      obtain ⟨rfl, rfl⟩ := List.cons.inj hsplit
      exact .inr ⟨pre, x, post, rfl, hp, hq⟩
  · rintro (⟨hp, hq⟩ | ⟨pre, x, post, rfl, hp, hq⟩)
    · exact ⟨[], e, hs, rfl, hp, hq⟩
    · exact ⟨e :: pre, x, post, rfl, hp, hq⟩

/-- Starting from a flag, the session is dirty after the happenings exactly when an edit came
after the last acknowledgment, or the flag was set and no acknowledgment came. -/
theorem unsaved_iff (a : Attachment) :
    ∀ (hs : List Happening) (dirty : Bool), a.unsaved dirty hs = true ↔
      (∃ pre e post, hs = pre ++ e :: post ∧ a.edits e = true ∧
        ∀ x ∈ post, a.acknowledges x = false) ∨
      (dirty = true ∧ ∀ x ∈ hs, a.acknowledges x = false) := by
  intro hs
  induction hs with
  | nil => intro dirty; simp [unsaved]
  | cons e hs ih =>
    intro dirty
    have step : a.unsaved dirty (e :: hs) =
        a.unsaved (if a.acknowledges e then false else dirty || a.edits e) hs := rfl
    rw [step, ih, lastSince_cons]
    cases hack : a.acknowledges e
    · have hall : (∀ x ∈ e :: hs, a.acknowledges x = false) ↔ ∀ x ∈ hs, a.acknowledges x = false := by
        simp [hack]
      simp only [hall, Bool.false_eq_true, if_false, Bool.or_eq_true]
      constructor
      · rintro (hl | ⟨hd | he, hh⟩)
        · exact .inl (.inr hl)
        · exact .inr ⟨hd, hh⟩
        · exact .inl (.inl ⟨he, hh⟩)
      · rintro ((⟨he, hh⟩ | hl) | ⟨hd, hh⟩)
        · exact .inr ⟨.inr he, hh⟩
        · exact .inl hl
        · exact .inr ⟨.inl hd, hh⟩
    · -- an acknowledgment is no edit, and it clears the flag
      have hed : a.edits e = false := by
        cases h : a.edits e
        · rfl
        · exact absurd (acknowledges_of_edits h) (by simp [hack])
      simp [hack, hed]

end Attachment

section Attached

variable {p₀ : Page} {form : Nat}

/-- Over every run since the attach, the session is dirty exactly when an edit of the form, an
input event that reached it or a direct mark, came after the last acknowledged save. The
acknowledgment clears the flag whatever came since the submit whose request it answers, so an
edit made while that save was outstanding counts as saved. -/
theorem dirty_iff_edit_since_ack (hu : Untouched p₀)
    (hform : p₀.doc.elementById p₀.settings.formId = some form) {acts : List Activity}
    {hs : List Happening} {p : Page}
    (h : (attachCoordinator >>= fun _ => Activity.performAll acts).run p₀ = .ok (hs, p)) :
    ∃ c, p.coordinators = [c] ∧
      (c.session.dirty = true ↔ ∃ pre e post, hs = pre ++ e :: post ∧
        (p₀.attachment form).edits e = true ∧
        ∀ x ∈ post, (p₀.attachment form).acknowledges x = false) := by
  obtain ⟨c, hw, hf, -⟩ := attached_watched hu hform h
  refine ⟨c, hw.lone, ?_⟩
  -- the attached session starts clean
  rw [hf.dirty, Attachment.unsaved_iff]
  exact or_iff_left fun hd => Bool.false_ne_true hd.1

theorem dirty_iff_edit_since_ack_oneForm :
    Untouched Page.oneForm ∧
      Page.oneForm.doc.elementById Page.oneForm.settings.formId = some 2 ∧
      (attachCoordinator >>= fun _ => Activity.performAll [.fire 2 .input]).run Page.oneForm =
        .ok ([.fired .input [2, 1, 0] false],
          (Page.oneForm.attached 2).edited ((Page.oneForm.attachment 2).coordinator 0)) ∧
      ∃ c, ((Page.oneForm.attached 2).edited
          ((Page.oneForm.attachment 2).coordinator 0)).coordinators = [c] ∧
        (c.session.dirty = true ↔ ∃ pre e post,
          [Happening.fired .input [2, 1, 0] false] = pre ++ e :: post ∧
          (Page.oneForm.attachment 2).edits e = true ∧
          ∀ x ∈ post, (Page.oneForm.attachment 2).acknowledges x = false) :=
  have hpath : (Page.oneForm.attached 2).doc.path 2 = [2, 1, 0] := by decide +kernel
  -- an input event at the form edits the session
  have hrun : (attachCoordinator >>= fun _ => Activity.performAll [.fire 2 .input]).run
      Page.oneForm = .ok ([.fired .input [2, 1, 0] false],
        (Page.oneForm.attached 2).edited ((Page.oneForm.attachment 2).coordinator 0)) := by
    rw [StateT.run_bind, attachCoordinator_untouched oneForm_untouched oneForm_formId,
      except_ok_bind, performAll_fire_input (attach_watched oneForm_untouched oneForm_formId).1,
      hpath, if_pos (by decide)]
    rfl
  ⟨oneForm_untouched, oneForm_formId, hrun,
    dirty_iff_edit_since_ack oneForm_untouched oneForm_formId hrun⟩

end Attached

/-! ## The warning shows the session -/

/-- The warning element `w` shows the session of each coordinator of the page: the unsaved
notice while it is dirty, nothing while it is clean. -/
def Shows (p : Page) (w : Nat) : Prop :=
  ∀ c ∈ p.coordinators,
    p.doc.textContent w = if c.session.dirty then p.settings.unsavedNotice else ""

/-- Where the warning element `w` stands: it is the first element with the warning id, and the
message region, when the page has one, does not lie inside it. -/
structure Apart (p : Page) (w : Nat) : Prop where
  warning : p.doc.elementById p.settings.warningId = some w
  region : ∀ r, p.doc.elementById p.settings.messageRegionId = some r → w ∉ p.doc.path r

section Warning

variable {a : Attachment} {p : Page} {c : Coordinator} {w : Nat}

theorem shows_lone (hc : p.coordinators = [c]) :
    Shows p w ↔ p.doc.textContent w = if c.session.dirty then p.settings.unsavedNotice else "" := by
  simp [Shows, hc]

/-- A step that keeps the warning's text, the settings and the dirty flag keeps the warning
showing the session. -/
theorem Shows.frame {p' : Page} {c' : Coordinator} (hs : Shows p w) (hc : p.coordinators = [c])
    (hc' : p'.coordinators = [c']) (htext : p'.doc.textContent w = p.doc.textContent w)
    (hset : p'.settings = p.settings) (hd : c'.session.dirty = c.session.dirty) : Shows p' w := by
  rw [shows_lone hc] at hs
  rw [shows_lone hc', htext, hset, hd]
  exact hs

theorem Apart.not_below (ha : Apart p w) (hg : Grown p.doc) {r : Nat}
    (hr : p.doc.elementById p.settings.messageRegionId = some r) : ¬ Below p.doc w r :=
  fun hb => ha.region r hr (mem_path_of_below hg (elementById_spec hg ha.warning).1 hb)

/-- The region and the warning have different ids, or the warning would lie inside itself. -/
theorem Apart.ids_ne (ha : Apart p w) : p.settings.messageRegionId ≠ p.settings.warningId := by
  intro he
  have hr : p.doc.elementById p.settings.messageRegionId = some w := by
    rw [he]
    exact ha.warning
  exact ha.region w hr (mem_path_self _ _)

/-- The warning stands apart when the region is found and does not lie inside it. -/
theorem Apart.of_region {r : Nat} (hwarn : p.doc.elementById p.settings.warningId = some w)
    (hr : p.doc.elementById p.settings.messageRegionId = some r) (hn : w ∉ p.doc.path r) :
    Apart p w := by
  refine ⟨hwarn, fun r' hr' => ?_⟩
  rw [hr] at hr'
  cases hr'
  exact hn

/-- The first edit of a clean session writes the notice into the warning. -/
theorem Shows.edited (hw : Watching a p c) (hwarn : p.doc.elementById p.settings.warningId = some w)
    (hs : Shows p w) : Shows (p.edited c) w := by
  rw [edited_eq hw.lone, shows_lone rfl]
  by_cases hd : c.session.dirty = true
  · have h := (shows_lone hw.lone).mp hs
    simp only [hd, if_true] at h ⊢
    exact h
  · obtain ⟨hws, hwt, -⟩ := elementById_spec hw.grown hwarn
    simp only [hd, if_false, if_true, Bool.false_eq_true]
    rw [showWarning_of hwarn, textContent_setText hws hwt]

/-- An acknowledged save leaves the warning empty: clearing it cannot reach the region, which
is not the warning itself. -/
theorem Apart.saved_text (ha : Apart p w) (hg : Grown p.doc) (fragment : String) :
    (fillRegion p.settings (showWarning p.settings p.doc "") fragment).textContent w = "" := by
  obtain ⟨hws, hwt, hwid⟩ := elementById_spec hg ha.warning
  rw [showWarning_of ha.warning]
  have hcleared : p.doc.setText w "" = p.doc.clearChildren w := by
    rw [setText_eq, if_pos (by decide)]
  have hg₁ := hg.setText hws ""
  have hempty := textContent_setText hws hwt ""
  cases hr : (p.doc.setText w "").elementById p.settings.messageRegionId with
  | none =>
    rw [fillRegion, hr]
    exact hempty
  | some r =>
    -- the warning has no children left, so only the warning itself lies below it
    have hnb : ¬ Below (p.doc.setText w "") w r := by
      intro hb
      have hrw : r = w := hb.eq_of_childless (by rw [hcleared, children_clearChildren, if_pos rfl])
      subst hrw
      have hid := (elementById_spec hg₁ hr).2.2
      rw [hcleared, Node.attribute?, attributes_clearChildren, ← Node.attribute?, hwid] at hid
      exact ha.ids_ne (Option.some.inj hid).symm
    rw [textContent_eq_of_kept hg₁ (fillRegion_grows hg₁ _ fragment).1 (fillRegion_kept hg₁ hr fragment)
      (Nat.lt_of_lt_of_le hws (keeps_setText p.doc w "").size_le) hnb, hempty]

/-- A failed save's message goes to the region, outside the warning. -/
theorem Apart.appendError_text (ha : Apart p w) (hg : Grown p.doc) (text : String) :
    (appendError p.settings p.doc text).textContent w = p.doc.textContent w := by
  cases hr : p.doc.elementById p.settings.messageRegionId with
  | none => simp [appendError, hr]
  | some r =>
    exact textContent_eq_of_kept hg (appendError_grows hg p.settings text).1
      (appendError_kept hr text) (elementById_spec hg ha.warning).1 (ha.not_below hg hr)

/-- What a submit changes is the coordinator and the jobs. -/
theorem submitted_frame (p : Page) (c : Coordinator) :
    (p.submitted c).2 = { p with
      coordinators := (p.submitted c).2.coordinators
      jobs := (p.submitted c).2.jobs } := by
  unfold Page.submitted
  split
  · rfl
  · split
    · rfl
    · split <;> rfl

/-! ### One activity -/

theorem fireEvent_input_shows (hw : Watching a p c)
    (hwarn : p.doc.elementById p.settings.warningId = some w) (hs : Shows p w) {n : Nat}
    {e : Happening} {p' : Page} (h : (fireEvent n .input).run p = .ok (e, p')) : Shows p' w := by
  rw [fireEvent_input hw] at h
  obtain ⟨-, rfl⟩ := Prod.mk.inj (Except.ok.inj h)
  split
  · exact hs.edited hw hwarn
  · exact hs

/-- Setting a control's value touches neither the warning's text nor the ids, so the input event
that follows keeps the warning showing the session. -/
theorem setValue_input_shows (hw : Watching a p c) (ha : Apart p w) (hs : Shows p w) {n : Nat}
    {v : String} {e : Happening} {p' : Page}
    (h : (fireEvent n .input).run { p with doc := p.doc.setValue n v } = .ok (e, p')) :
    Shows p' w :=
  have hv := cosmetic_setValue p.doc n v
  fireEvent_input_shows (hw.setValue n v) ((hv.elementById _).trans ha.warning)
    (hs.frame hw.lone hw.lone (hv.textContent w) rfl rfl) h

/-- Events of other kinds than input leave the warning and the dirty flag alone. -/
theorem fireEvent_shows (hw : Watching a p c) (hs : Shows p w) {n : Nat} {kind : EventKind}
    (hk : kind ≠ .input) {e : Happening} {p' : Page} (h : (fireEvent n kind).run p = .ok (e, p')) :
    Shows p' w := by
  cases kind with
  | input => exact absurd rfl hk
  | change =>
    rw [fireEvent_change hw] at h
    obtain ⟨-, rfl⟩ := Prod.mk.inj (Except.ok.inj h)
    split
    · exact hs.frame hw.lone rfl rfl rfl rfl
    · exact hs
  | submit =>
    rw [fireEvent_submit hw] at h
    obtain ⟨c', hw', hc', -⟩ := hw.submitted
    split at h
    · obtain ⟨-, rfl⟩ := Prod.mk.inj (Except.ok.inj h)
      have hd : c'.session.dirty = c.session.dirty := by rw [hc']
      rw [submitted_frame] at hw' ⊢
      exact hs.frame hw.lone hw'.lone rfl rfl hd
    · obtain ⟨-, rfl⟩ := Prod.mk.inj (Except.ok.inj h)
      exact hs
  | click =>
    rw [fireEvent_click hw] at h
    obtain ⟨-, rfl⟩ := Prod.mk.inj (Except.ok.inj h)
    exact hs

/-- Running the executor completes the save that waits: an acknowledgment clears the warning
and the flag, a failure keeps both. -/
theorem run_shows (hw : Watching a p c) (ha : Apart p w) (hs : Shows p w) {hs' : List Happening}
    {p' : Page} (h : Activity.run.perform.run p = .ok (hs', p')) : Shows p' w := by
  rcases hw.jobs with hj | ⟨r, hj⟩
  · obtain ⟨-, rfl⟩ := run_idle hj h
    exact hs
  · cases hanswer : p.answers.headD (.saved "") with
    | saved fragment =>
      obtain ⟨-, _, hq⟩ := hw.run_saved hj hanswer h
      rw [hq, shows_lone rfl]
      exact ha.saved_text hw.grown fragment
    | failed =>
      obtain ⟨-, _, hq⟩ := hw.run_failed hj hanswer h
      rw [hq]
      exact hs.frame hw.lone rfl (ha.appendError_text hw.grown _) rfl rfl

/-- Every activity but a clock advance keeps the warning showing the session. -/
theorem Activity.perform_shows (hw : Watching a p c) (ha : Apart p w) (hs : Shows p w)
    {act : Activity} (hact : ∀ ms, act ≠ .advance ms) {hs' : List Happening} {p' : Page}
    (h : act.perform.run p = .ok (hs', p')) : Shows p' w := by
  cases act with
  | type n v =>
    obtain ⟨e, he, -⟩ := perform_type_ok h
    exact setValue_input_shows hw ha hs he
  | choose n v =>
    obtain ⟨e₁, e₂, p₁, he₁, he₂, -⟩ := perform_choose_ok h
    have hs₁ := setValue_input_shows hw ha hs he₁
    obtain ⟨c₁, hw₁, -, -⟩ := fireEvent_watched (hw.setValue n v) he₁
    exact fireEvent_shows hw₁ hs₁ (by decide) he₂
  | fire n kind =>
    obtain ⟨e, he, -⟩ := perform_fire_ok h
    by_cases hk : kind = .input
    · subst hk
      exact fireEvent_input_shows hw ha.warning hs he
    · exact fireEvent_shows hw hs hk he
  | markDirty k =>
    obtain ⟨h₁, -⟩ := perform_markDirty_ok h
    by_cases hk : c.id = k
    · rw [markDirty_lone hw.lone hk] at h₁
      obtain ⟨-, rfl⟩ := Prod.mk.inj (Except.ok.inj h₁)
      exact hs.edited hw ha.warning
    · rw [markDirty_other hw.lone hk] at h₁
      obtain ⟨-, rfl⟩ := Prod.mk.inj (Except.ok.inj h₁)
      exact hs
  | run => exact run_shows hw ha hs h
  | advance ms => exact absurd rfl (hact ms)
  | shutdown =>
    obtain ⟨rfl, -⟩ := perform_shutdown_ok h
    exact hs

/-! ### Runs -/

theorem performAll_cons_ok {act : Activity} {rest : List Activity} {now later : List Happening}
    {p₁ q : Page} (h₁ : act.perform.run p = .ok (now, p₁))
    (h₂ : (Activity.performAll rest).run p₁ = .ok (later, q)) :
    (Activity.performAll (act :: rest)).run p = .ok (now ++ later, q) := by
  simp [Activity.performAll, h₁, h₂]

/-- Along a run without clock advances, on whose every page the warning stands apart from the
message region, the warning keeps showing the session. -/
theorem Activity.performAll_shows (hw : Watching a p c) (hs : Shows p w) {acts : List Activity}
    (hacts : ∀ x ∈ acts, ∀ ms, x ≠ .advance ms)
    (hapart : ∀ pre, pre <+: acts → ∀ hs q, (Activity.performAll pre).run p = .ok (hs, q) →
      Apart q w)
    {hs' : List Happening} {p' : Page} (h : (Activity.performAll acts).run p = .ok (hs', p')) :
    Shows p' w := by
  induction acts generalizing p c hs' with
  | nil =>
    obtain ⟨-, rfl⟩ := Prod.mk.inj (Except.ok.inj h)
    exact hs
  | cons act rest ih =>
    unfold Activity.performAll at h
    obtain ⟨now, p₁, h₁, h⟩ := run_bind_eq_ok h
    obtain ⟨later, p₂, h₂, h⟩ := run_bind_eq_ok h
    obtain ⟨-, rfl⟩ := Prod.mk.inj (Except.ok.inj h)
    have ha := hapart [] (List.nil_prefix) [] p rfl
    have hs₁ := Activity.perform_shows hw ha hs (hacts act (List.mem_cons_self ..)) h₁
    obtain ⟨c₁, hw₁, -, -⟩ := Activity.perform_watched hw h₁
    -- the pages of the rest of the run are pages of the whole run
    refine ih hw₁ hs₁ (fun x hx => hacts x (List.mem_cons_of_mem _ hx)) ?_ h₂
    intro pre hpre hs q hq
    exact hapart (act :: pre) (List.cons_prefix_cons.mpr ⟨rfl, hpre⟩) _ q
      (performAll_cons_ok h₁ hq)

end Warning

section Attached

variable {p₀ : Page} {form : Nat}

/-- Over every run since the attach without clock advances, in which the warning element `w`,
empty at the attach, stays the first element with the warning id and never holds the message
region, the session is dirty exactly when an edit came after the last acknowledgment, and the
warning shows the unsaved notice exactly while it is dirty and nothing while it is clean. -/
theorem warning_shows_session (hu : Untouched p₀)
    (hform : p₀.doc.elementById p₀.settings.formId = some form) {w : Nat}
    (hempty : p₀.doc.textContent w = "") {acts : List Activity}
    (hacts : ∀ x ∈ acts, ∀ ms, x ≠ .advance ms)
    (hapart : ∀ pre, pre <+: acts → ∀ hs q,
      (attachCoordinator >>= fun _ => Activity.performAll pre).run p₀ = .ok (hs, q) → Apart q w)
    {hs : List Happening} {p : Page}
    (h : (attachCoordinator >>= fun _ => Activity.performAll acts).run p₀ = .ok (hs, p)) :
    ∃ c, p.coordinators = [c] ∧ c.session.dirty = (p₀.attachment form).unsaved false hs ∧
      p.doc.textContent w = if c.session.dirty then p.settings.unsavedNotice else "" := by
  obtain ⟨c, hw, hf, -⟩ := attached_watched hu hform h
  have hrun : ∀ pre, (attachCoordinator >>= fun _ => Activity.performAll pre).run p₀ =
      (Activity.performAll pre).run (p₀.attached form) := by
    intro pre
    rw [StateT.run_bind, attachCoordinator_untouched hu hform]
    rfl
  -- right after the attach the session is clean and the warning still empty
  have hs₁ : Shows (p₀.attached form) w := by
    rw [shows_lone rfl]
    exact ((Attachment.wire_cosmetic _ _).textContent w).trans hempty
  have hshows := Activity.performAll_shows (attach_watched hu hform).1 hs₁ hacts
    (fun pre hpre hs q hq => hapart pre hpre hs q ((hrun pre).trans hq))
    ((hrun acts).symm.trans h)
  exact ⟨c, hw.lone, hf.dirty, (shows_lone hw.lone).mp hshows⟩

/-- An untouched page with the message region, then the warning element, then the form of an
existing resource, under the default settings. -/
def Page.warnedForm : Page :=
  Page.load ("<div id=\"system-messages\"></div><div id=\"warning_message\"></div>" ++
    "<form id=\"edit_page\" data-new=\"0\" action=\"/save\"></form>") {} 768 [] [] []

theorem warning_shows_session_warnedForm :
    Untouched Page.warnedForm ∧
      Page.warnedForm.doc.elementById Page.warnedForm.settings.formId = some 4 ∧
      Page.warnedForm.doc.textContent 3 = "" ∧
      (∀ pre, pre <+: [Activity.fire 4 .input] → ∀ hs q,
        (attachCoordinator >>= fun _ => Activity.performAll pre).run Page.warnedForm =
          .ok (hs, q) → Apart q 3) ∧
      (attachCoordinator >>= fun _ => Activity.performAll [.fire 4 .input]).run Page.warnedForm =
        .ok ([.fired .input [4, 1, 0] false],
          (Page.warnedForm.attached 4).edited ((Page.warnedForm.attachment 4).coordinator 0)) ∧
      ∃ c, ((Page.warnedForm.attached 4).edited
          ((Page.warnedForm.attachment 4).coordinator 0)).coordinators = [c] ∧
        c.session.dirty =
          (Page.warnedForm.attachment 4).unsaved false [.fired .input [4, 1, 0] false] ∧
        ((Page.warnedForm.attached 4).edited
            ((Page.warnedForm.attachment 4).coordinator 0)).doc.textContent 3 =
          if c.session.dirty then
            ((Page.warnedForm.attached 4).edited
              ((Page.warnedForm.attachment 4).coordinator 0)).settings.unsavedNotice
          else "" := by
  have hu : Untouched Page.warnedForm := load_untouched _ _ _ _ _ _
  -- the facts of the fixed page, read off in one evaluation of its markup: the form is node 4
  -- below the body, the warning is node 3 and the region node 2, before and after the edit
  have hfacts : Page.warnedForm.doc.elementById Page.warnedForm.settings.formId = some 4 ∧
      Page.warnedForm.doc.textContent 3 = "" ∧
      (Page.warnedForm.attached 4).doc.path 4 = [4, 1, 0] ∧
      (Page.warnedForm.attached 4).doc.elementById
        (Page.warnedForm.attached 4).settings.warningId = some 3 ∧
      (Page.warnedForm.attached 4).doc.elementById
        (Page.warnedForm.attached 4).settings.messageRegionId = some 2 ∧
      3 ∉ (Page.warnedForm.attached 4).doc.path 2 ∧
      ((Page.warnedForm.attached 4).edited
          ((Page.warnedForm.attachment 4).coordinator 0)).doc.elementById
        ((Page.warnedForm.attached 4).edited
          ((Page.warnedForm.attachment 4).coordinator 0)).settings.warningId = some 3 ∧
      ((Page.warnedForm.attached 4).edited
          ((Page.warnedForm.attachment 4).coordinator 0)).doc.elementById
        ((Page.warnedForm.attached 4).edited
          ((Page.warnedForm.attachment 4).coordinator 0)).settings.messageRegionId = some 2 ∧
      3 ∉ ((Page.warnedForm.attached 4).edited
        ((Page.warnedForm.attachment 4).coordinator 0)).doc.path 2 := by
    decide +kernel
  obtain ⟨hform, hempty, hpath, hw₁, hr₁, hn₁, hw₂, hr₂, hn₂⟩ := hfacts
  have hrun : (attachCoordinator >>= fun _ => Activity.performAll [.fire 4 .input]).run
      Page.warnedForm = .ok ([.fired .input [4, 1, 0] false],
        (Page.warnedForm.attached 4).edited ((Page.warnedForm.attachment 4).coordinator 0)) := by
    rw [StateT.run_bind, attachCoordinator_untouched hu hform, except_ok_bind,
      performAll_fire_input (attach_watched hu hform).1, hpath, if_pos (by decide)]
    rfl
  have hapart : ∀ pre, pre <+: [Activity.fire 4 .input] → ∀ hs q,
      (attachCoordinator >>= fun _ => Activity.performAll pre).run Page.warnedForm =
        .ok (hs, q) → Apart q 3 := by
    intro pre hpre hs q hq
    rcases List.prefix_cons_iff.mp hpre with rfl | ⟨t, rfl, ht⟩
    · rw [attach_only hu hform] at hq
      obtain ⟨-, rfl⟩ := Prod.mk.inj (Except.ok.inj hq)
      exact Apart.of_region hw₁ hr₁ hn₁
    · rw [List.prefix_nil.mp ht, hrun] at hq
      obtain ⟨-, rfl⟩ := Prod.mk.inj (Except.ok.inj hq)
      exact Apart.of_region hw₂ hr₂ hn₂
  exact ⟨hu, hform, hempty, hapart, hrun,
    warning_shows_session hu hform hempty (by simp) hapart hrun⟩

/-- A message region inside the warning element carries a failed save's message into the
warning's text while the session is clean. -/
theorem failed_save_shows_in_warning :
    ((attachCoordinator >>= fun _ => Activity.performAll [.fire 4 .submit, .run]).run
      (Page.load ("<div id=\"warning_message\"><div id=\"system-messages\"></div></div>" ++
        "<form id=\"edit_page\" data-new=\"0\" action=\"/save\"></form>")
        {} 768 [] [.failed] [])).toOption.map
      (fun r => (r.2.coordinators.map (·.session.dirty), r.2.doc.elementById "warning_message",
        r.2.doc.textContent 2)) =
    some ([false], some 2, "The page could not be saved.") := by
  decide +kernel

end Attached

end PageEditor.Ui
