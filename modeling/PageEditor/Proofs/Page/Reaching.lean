import PageEditor.Proofs.Page.Retention
/-!
# PageEditor.Proofs.Page.Reaching

What a run of steps keeps.

A step of a page is a page action that may be refused. `StepRetaining a` says of such a step
that every run of it that ends, refused or not, leaves a page that retains the page it started
on (`Retains`). It is closed under the ways steps are put together, and an action lifted into a
step keeps what the action keeps, so every step of the page has it (`Step.perform_retaining`),
and so has a step that could not be read, which only looks up what it names before it is
refused. A refused step puts the page back, so a step of a run retains (`step_retains`),
and so does every run of steps (`Reaches.retains`).
-/

namespace PageEditor.Ui

open Markup Markup.Document

/-- Every run of the step that ends, refused or not, leaves a page that retains the page it
started on. -/
def StepRetaining {α : Type} (a : StepAct α) : Prop := Retaining a.run

namespace StepRetaining

variable {α β : Type}

theorem lift {x : Act α} (h : Retaining x) : StepRetaining (liftM x : StepAct α) := by
  show Retaining (Except.ok <$> x)
  rw [map_eq_pure_bind]
  exact .bind h fun _ => .pure _

theorem pure (a : α) : StepRetaining (Pure.pure a : StepAct α) := Retaining.pure _

theorem throw (e : Refusal) : StepRetaining (MonadExcept.throw e : StepAct α) := Retaining.pure _

theorem bind {x : StepAct α} {f : α → StepAct β} (hx : StepRetaining x)
    (hf : ∀ a, StepRetaining (f a)) : StepRetaining (x >>= f) := by
  show Retaining (x >>= f).run
  rw [ExceptT.run_bind]
  refine .bind hx fun r => ?_
  cases r with
  | ok a => exact hf a
  | error e => exact .pure _

theorem forM {f : α → StepAct Unit} (hf : ∀ a, StepRetaining (f a)) :
    ∀ l : List α, StepRetaining (l.forM f)
  | [] => pure ()
  | a :: l => by
    rw [List.forM_eq_forM, List.forM_cons, ← List.forM_eq_forM]
    exact bind (hf a) fun _ => forM hf l

theorem get : StepRetaining (MonadState.get : StepAct Page) := lift retaining_get

theorem required (o : Option α) (r : Refusal) : StepRetaining (Ui.required o r) := by
  cases o with
  | some a => exact pure a
  | none => exact throw r

end StepRetaining

/-! ## The parts of a step -/

section Parts

theorem stepRetaining_node (t : Target) : StepRetaining (node t) :=
  .bind .get fun _ => .required _ _

theorem stepRetaining_pick {α : Type} (xs : List α) (which : Pick) (what : String) :
    StepRetaining (pick xs which what) :=
  .required _ _

theorem stepRetaining_pickCoordinator (which : Pick) : StepRetaining (pickCoordinator which) :=
  .bind .get fun _ => stepRetaining_pick _ _ _

theorem stepRetaining_pickStack (which : Pick) : StepRetaining (pickStack which) :=
  .bind .get fun _ => .bind (stepRetaining_pick _ _ _) fun _ => .pure _

theorem stepRetaining_pickBlock (block : Nat) : StepRetaining (pickBlock block) :=
  .bind .get fun _ => .required _ _

theorem stepRetaining_fireAt (t : Target) (kind : EventKind) : StepRetaining (fireAt t kind) :=
  .bind (stepRetaining_node t) fun n => .lift (retaining_dispatch n kind)

theorem stepRetaining_change (t : Target) {f : Nat → Document Reaction → Document Reaction}
    (hf : ∀ n d, Keeps d (f n d)) : StepRetaining (change t f) :=
  .bind (stepRetaining_node t) fun n => .bind (.lift (retaining_onDoc (hf n))) fun _ => .pure _

theorem stepRetaining_ask (t : Target) (f : Nat → Document Reaction → Reply) :
    StepRetaining (ask t f) :=
  .bind (stepRetaining_node t) fun _ => .bind (.lift retaining_doc) fun _ => .pure _

/-- A board action run on the board a step names, whose changed board is kept. -/
theorem stepRetaining_onBoard {α : Type} (r : BoardRef) {f : Board → Act (α × Board)}
    (hf : ∀ b, Retaining (f b)) : StepRetaining (onBoard r f) := by
  refine .bind .get fun p => ?_
  cases r with
  | coordinator =>
    refine .bind (.required _ _) fun c => .bind (.lift (hf _)) fun ab => ?_
    exact .bind (.lift (retaining_updateCoordinator _ fun _ => rfl)) fun _ => .pure _
  | page which =>
    refine .bind (.required _ _) fun i => .bind (.required _ _) fun b =>
      .bind (.lift (hf b)) fun ab => ?_
    exact .bind (.lift (retaining_modify fun _ => .of_same rfl rfl rfl rfl rfl (Keeps.refl _)))
      fun _ => .pure _

theorem Lookup.stepRetaining_perform (l : Lookup) : StepRetaining l.perform := by
  cases l with
  | target t => exact .bind (stepRetaining_node t) fun _ => .pure _
  | coordinator which => exact .bind (stepRetaining_pickCoordinator which) fun _ => .pure _
  | overlay which => exact .bind (stepRetaining_pickStack which) fun _ => .pure _
  | board r => exact stepRetaining_onBoard r (f := fun b => pure ((), b)) fun _ => .pure _
  | block k => exact .bind (stepRetaining_pickBlock k) fun _ => .pure _

end Parts

/-- Dropping the components of a kind cancels their timers and forgets them. -/
theorem retaining_dropAll : ∀ k : Component, Retaining (dropAll k)
  | .coordinators => .bind retaining_get fun _ =>
      .bind (.forM (fun _ => retaining_cancelTimers _) _) fun _ =>
        retaining_modify fun _ => .of_keeps (Nat.le_refl _) (fun _ h => nomatch h)
          (FreshIds.refl _ _ _) (FreshIds.refl _ _ _) rfl (Keeps.refl _)
  | .overlays => .bind retaining_get fun _ =>
      .bind (.forM (fun _ => retaining_cancelTimers _) _) fun _ =>
        retaining_modify fun _ => .of_keeps (Nat.le_refl _) (FreshIds.refl _ _ _)
          (fun _ h => nomatch h) (FreshIds.refl _ _ _) rfl (Keeps.refl _)
  | .boards => .bind retaining_get fun _ =>
      .bind (.forM (fun _ => retaining_cancelTimers _) _) fun _ =>
        retaining_modify fun _ => .of_same rfl rfl rfl rfl rfl (Keeps.refl _)
  | .copies => .bind retaining_get fun _ =>
      .bind (.forM (fun _ => retaining_cancelTimers _) _) fun _ =>
        retaining_modify fun _ => .of_keeps (Nat.le_refl _) (FreshIds.refl _ _ _)
          (FreshIds.refl _ _ _) (fun _ h => nomatch h) rfl (Keeps.refl _)
  | .blocks => retaining_modify fun _ => .of_same rfl rfl rfl rfl rfl (Keeps.refl _)

/-! ## Every step -/

section Steps

/-- The document changes a step can make keep every node's listeners. -/
theorem keeps_viewport (d : Document Reaction) (h : Float) : Keeps d { d with viewport := h } :=
  keeps_of_nodes rfl

theorem keeps_classHeights (d : Document Reaction) (l : List (String × Float)) :
    Keeps d { d with classHeights := l } :=
  keeps_of_nodes rfl

/-- Making an overlay stack gives it the counter's value as its id. -/
theorem stepRetaining_overlayNew : StepRetaining (Step.perform .overlayNew) := fun p x q h => by
  cases h
  refine ⟨Nat.le_succ _, FreshIds.refl _ _ _, ?_, FreshIds.refl _ _ _, Nat.le_refl _,
    fun _ ed h => ⟨ed, h, rfl, List.prefix_refl _⟩, ListensMore.refl _⟩
  rw [List.map_append]
  exact fresh_push _ _

/-- **Every step retains.** Whatever a step does, and whether or not it is refused, the page it
leaves retains the page it started on. -/
theorem Step.perform_retaining (s : Step) : StepRetaining s.perform := by
  cases s with
  | typeText t v =>
    exact .bind (stepRetaining_node t) fun n =>
      .bind (.lift (retaining_onDoc fun d => keeps_setValue d n v)) fun _ =>
        .bind (.lift (retaining_dispatch n _)) fun _ => .pure _
  | choose t v =>
    exact .bind (stepRetaining_node t) fun n =>
      .bind (.lift (retaining_onDoc fun d => keeps_setValue d n v)) fun _ =>
        .bind (.lift (retaining_dispatch n _)) fun _ =>
          .bind (.lift (retaining_dispatch n _)) fun _ => .pure _
  | click t => exact .bind (stepRetaining_fireAt t _) fun _ => .pure _
  | submit t =>
    have hfire : ∀ n, StepRetaining (do
        let b ← liftM (dispatch n .submit)
        pure (Reply.prevented b) : StepAct Reply) := fun n =>
      .bind (.lift (retaining_dispatch n _)) fun _ => .pure _
    unfold Step.perform
    dsimp only
    split
    · exact .bind (stepRetaining_node _) hfire
    · exact .bind (.lift retaining_doc) fun _ => .bind (.lift retaining_settings) fun _ =>
        .bind (.required _ _) hfire
  | fire t kind tellKind => exact .bind (stepRetaining_fireAt t kind) fun _ => .pure _
  | setChecked t b => exact stepRetaining_change t fun n d => keeps_setChecked d n b
  | setValue t v => exact stepRetaining_change t fun n d => keeps_setValue d n v
  | setText t text => exact stepRetaining_change t fun n d => keeps_setText d n text
  | setInnerHtml t html => exact stepRetaining_change t fun n d => keeps_setInnerHtml d n html
  | setAttribute t k v => exact stepRetaining_change t fun n d => keeps_setAttribute d n k v
  | setClassName t c => exact stepRetaining_change t fun n d => keeps_setAttribute d n _ c
  | addClass t c => exact stepRetaining_change t fun n d => keeps_addClass d n c
  | remove t =>
    exact .bind (stepRetaining_node t) fun n =>
      .bind (.lift (retaining_withDoc fun d => keeps_detach d n)) fun _ => .pure _
  | append pt ct =>
    exact .bind (stepRetaining_node pt) fun pn => .bind (stepRetaining_node ct) fun cn =>
      .bind (.lift (retaining_onDoc fun d => keeps_append d pn cn)) fun _ => .pure _
  | insertBefore pt ct rt =>
    exact .bind (stepRetaining_node pt) fun pn => .bind (stepRetaining_node ct) fun cn =>
      .bind (stepRetaining_node rt) fun rn =>
        .bind (.lift (retaining_onDoc fun d => keeps_insertBefore d pn cn rn)) fun _ => .pure _
  | create name =>
    exact .bind (.lift (retaining_withDoc fun d => keeps_alloc d rfl)) fun n =>
      .bind (.lift (retaining_keepHandle n)) fun _ => .pure _
  | hold t =>
    exact .bind (stepRetaining_node t) fun n =>
      .bind (.lift (retaining_keepHandle n)) fun _ => .pure _
  | setViewport h =>
    exact .bind (.lift (retaining_onDoc fun d => keeps_viewport d h)) fun _ => .pure _
  | setClassHeight c h =>
    exact .bind (.lift (retaining_onDoc fun d => keeps_classHeights d _)) fun _ => .pure _
  | outerHtml t => exact stepRetaining_ask t _
  | text t => exact stepRetaining_ask t _
  | value t => exact stepRetaining_ask t _
  | tag t => exact stepRetaining_ask t _
  | «attribute» t k => exact stepRetaining_ask t _
  | className t => exact stepRetaining_ask t _
  | hasClass t c => exact stepRetaining_ask t _
  | isConnected t => exact stepRetaining_ask t _
  | style t k => exact stepRetaining_ask t _
  | parent t => exact stepRetaining_ask t _
  | children t => exact stepRetaining_ask t _
  | byId id => exact .bind (.lift retaining_doc) fun _ => .pure _
  | byClass c within =>
    have hread : ∀ r, StepRetaining (do
        let d ← liftM doc
        pure (Reply.texts ((d.elementsByClassWithin r c).map d.outerHtml)) : StepAct Reply) :=
      fun _ => .bind (.lift retaining_doc) fun _ => .pure _
    unfold Step.perform
    dsimp only
    split
    · exact .bind (stepRetaining_node _) hread
    · exact .bind (.pure _) hread
  | countClass c => exact .bind (.lift retaining_doc) fun _ => .pure _
  | selectedOptionText t => exact stepRetaining_ask t _
  | selection => exact .bind (.lift retaining_doc) fun _ => .pure _
  | formControls t => exact stepRetaining_ask t _
  | formData t => exact stepRetaining_ask t _
  | submitBody t => exact stepRetaining_ask t _
  | run => exact .bind (.lift retaining_runJobs) fun _ => .pure _
  | shutdown => exact .bind (.lift retaining_shutdownExecutor) fun _ => .pure _
  | advance ms => exact .bind (.lift (retaining_advance ms)) fun _ => .pure _
  | requests => exact .bind .get fun _ => .pure _
  | clipboard => exact .bind .get fun _ => .pure _
  | attachCoordinator => exact .bind (.lift retaining_attachCoordinator) fun _ => .pure _
  | markDirty which =>
    exact .bind (stepRetaining_pickCoordinator which) fun c =>
      .bind (.lift (retaining_markDirty c.id)) fun _ => .pure _
  | dirtyListener which =>
    exact .bind (stepRetaining_pickCoordinator which) fun c =>
      .bind (.lift (retaining_markDirty c.id)) fun _ => .pure _
  | form which =>
    exact .bind (stepRetaining_pickCoordinator which) fun _ =>
      .bind (.lift retaining_doc) fun _ => .pure _
  | drop what => exact .bind (.lift (retaining_dropAll what)) fun _ => .pure _
  | overlayNew => exact stepRetaining_overlayNew
  | openModal content variant which =>
    exact .bind (stepRetaining_pickStack which) fun s =>
      .bind (.lift (retaining_openModal s content variant)) fun m =>
        .bind (.lift (retaining_keepHandle m)) fun _ =>
          .bind (.lift retaining_doc) fun _ => .pure _
  | openLoader which =>
    exact .bind (stepRetaining_pickStack which) fun s =>
      .bind (.lift (retaining_openLoader s)) fun l =>
        .bind (.lift (retaining_keepHandle l)) fun _ => .pure _
  | loader status which =>
    exact .bind (stepRetaining_pickStack which) fun s =>
      .bind (.lift (retaining_showLoader s status)) fun _ => .pure _
  | closeLoader which =>
    exact .bind (stepRetaining_pickStack which) fun s =>
      .bind (.lift (retaining_dismiss s)) fun _ => .pure _
  | dismiss which =>
    exact .bind (stepRetaining_pickStack which) fun s =>
      .bind (.lift (retaining_dismiss s)) fun _ => .pure _
  | isOpen which =>
    exact .bind (stepRetaining_pickStack which) fun _ =>
      .bind (.lift retaining_overlayOpen) fun _ => .pure _
  | messagesNew =>
    exact .bind (.lift (retaining_modify fun _ => .of_same rfl rfl rfl rfl rfl (Keeps.refl _)))
      fun _ => .pure _
  | scheduleBatch r =>
    exact .bind (stepRetaining_onBoard r Board.retaining_scheduleBatch) fun _ => .pure _
  | replaceRegion html r =>
    exact .bind (stepRetaining_onBoard r fun b => Board.retaining_replaceRegion b html)
      fun _ => .pure _
  | pushError text r =>
    exact .bind (stepRetaining_onBoard r fun b => Board.retaining_pushError b text)
      fun _ => .pure _
  | messagesPending r =>
    exact .bind (stepRetaining_onBoard r (f := fun b => pure (b.pending, b)) fun _ => .pure _)
      fun _ => .pure _
  | messagesCancel r =>
    exact .bind (stepRetaining_onBoard r (f := fun b => do return ((), ← b.cancel)) fun b =>
      .bind (Board.retaining_cancel b) fun _ => .pure _) fun _ => .pure _
  | attachCopy => exact .bind (.lift retaining_attachCopy) fun _ => .pure _
  | copyPending => exact .bind .get fun _ => .pure _
  | attachBlock o dirty =>
    exact .bind .get fun _ => .bind (.lift (retaining_attachBlock o _)) fun _ => .pure _
  | editorChange k =>
    exact .bind (stepRetaining_pickBlock k) fun e =>
      .bind (.lift (retaining_editorChanged e)) fun _ => .pure _
  | editor k => exact .bind (stepRetaining_pickBlock k) fun _ => .bind .get fun _ => .required _ _

end Steps

/-! ## Runs of steps -/

/-- A step that is refused puts the page back, and one that is not leaves its page. -/
theorem retains_of_rollback {a : StepAct Reply} (ha : StepRetaining a) {p q : Page}
    {out : Except Refusal Reply × View}
    (h : (do
      let x ← (ExceptT.run a).run p
      match x.1 with
        | .ok reply => pure ((.ok reply, x.2.view), x.2)
        | .error e => pure ((.error e, p.view), p) : Except DueOverflow _) = .ok (out, q)) :
    Retains p q := by
  cases hr : (ExceptT.run a).run p with
  | error e =>
    rw [hr] at h
    cases h
  | ok x =>
    rw [hr] at h
    obtain ⟨r, p'⟩ := x
    cases r with
    | ok reply =>
      cases h
      exact ha p _ p' hr
    | error e =>
      cases h
      exact .refl p

/-- A step of a run, read in full or not, retains. -/
theorem step_retains {p q : Page} {s : Except (List Lookup × String) Step}
    {out : Except Refusal Reply × View} (h : p.step s = .ok (out, q)) : Retains p q := by
  unfold Page.step at h
  rcases s with ⟨looks, reason⟩ | s
  · exact retains_of_rollback (.bind (.forM Lookup.stepRetaining_perform looks) fun _ => .throw _) h
  · exact retains_of_rollback s.perform_retaining h

/-- `Reaches p q`: a run of steps takes page `p` to page `q`. -/
inductive Reaches : Page → Page → Prop
  | refl (p : Page) : Reaches p p
  | step {p q r : Page} {s : Except (List Lookup × String) Step}
      {out : Except Refusal Reply × View} : p.step s = .ok (out, q) → Reaches q r → Reaches p r

theorem Reaches.trans {p q r : Page} (h₁ : Reaches p q) (h₂ : Reaches q r) : Reaches p r := by
  induction h₁ with
  | refl => exact h₂
  | step hs _ ih => exact .step hs (ih h₂)

/-- **A run of steps retains.** Ids are never given out again and dropped components never come
back, every node keeps its listeners and gains only ones of their reactions' kinds, and the
editors keep their listeners and only gain modes. -/
theorem Reaches.retains {p q : Page} (h : Reaches p q) : Retains p q := by
  induction h with
  | refl p => exact .refl p
  | step hs _ ih => exact (step_retains hs).trans ih

end PageEditor.Ui
