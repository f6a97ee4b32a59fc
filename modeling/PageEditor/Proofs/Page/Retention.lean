import PageEditor.Proofs.Page.Bubbling
import PageEditor.Proofs.Page.Copying
import PageEditor.Proofs.Markup.Tokens
/-!
# PageEditor.Proofs.Page.Retention

What no step of a page takes back.

A page runs by steps, and every step is built from a few kinds of change: edits of the
document, timers, jobs, the scripted answers, and the components. `Retains p q` collects what
every such change keeps on the way from page `p` to page `q`:

1. component ids come from one counter that never goes back, and a live coordinator, overlay
   stack or copy component of `q` was live in `p` or got its id after `p`; so an id given out
   before `p` that is not live in `p` never comes back;
2. each node keeps its listeners, and the ones it gains wait for the kind of event their
   reaction is for; a code block's new listener names an editor made after `p`;
3. an editor keeps the coordinators it tells of its edits, and only gains modes.

`Retaining a` says this of every run of an action `a` that ends. It is closed under the ways
actions are put together (`Retaining.bind`, `Retaining.foldlM`, `Retaining.forM`); each small
action has it, and so has every action of the components, which are built from them. A step of
a page has it whatever it does (`Step.perform_retaining`), and so has every run of steps
(`Reaches.retains`).
-/

namespace PageEditor.Markup.Document

variable {σ : Type}

theorem keeps_readToken (st : List Nat × Document σ) (t : Token) : Keeps st.2 (readToken st t).2 := by
  cases t with
  | close name => exact Keeps.refl _
  | comment => exact Keeps.refl _
  | start tag attrs selfClosing => exact keeps_sprout _ (bare_elementNode tag attrs) _
  | text s => exact keeps_sprout _ (bare_textNode s) _

theorem keeps_readTokens : ∀ (ts : List Token) (st : List Nat × Document σ),
    Keeps st.2 (ts.foldl readToken st).2
  | [], _ => Keeps.refl _
  | t :: ts, st => (keeps_readToken st t).trans (keeps_readTokens ts (readToken st t))

/-- Setting the inside of a node only adds nodes and moves them: every node keeps its tag, text
and listeners, on any document. -/
theorem keeps_setInnerHtml (d : Document σ) (x : Nat) (html : String) :
    Keeps d (d.setInnerHtml x html) := by
  unfold setInnerHtml
  rw [readInto_eq_tokens]
  exact (keeps_clearChildren d x).trans (keeps_readTokens _ ([x], d.clearChildren x))

theorem keeps_setStyle (d : Document σ) (i : Nat) (property value : String) :
    Keeps d (d.setStyle i property value) :=
  keeps_modify d i fun _ => ⟨rfl, rfl, rfl⟩

theorem keeps_setChecked (d : Document σ) (i : Nat) (checked : Bool) :
    Keeps d (d.setChecked i checked) := by
  unfold setChecked
  split
  · exact keeps_setAttribute _ _ _ _
  · exact keeps_removeAttribute _ _ _

end PageEditor.Markup.Document

namespace PageEditor.Ui

open Markup Markup.Document

/-! ## Listeners that are added -/

/-- The kind of event a reaction is registered for. -/
def Reaction.kind : Reaction → EventKind
  | .markDirty _ => .input
  | .requireReload _ => .change
  | .interceptSubmit _ => .submit
  | .dismissOverlays _ => .click
  | .closeOverlays _ => .click
  | .copyField _ _ => .click
  | .followSelector _ _ _ _ => .change

/-- `d'` keeps the nodes of `d` with their tags and texts, and each node's listeners, followed
by new ones that satisfy `P`. -/
structure ListensMore (P : EventKind × Reaction → Prop) (d d' : Document Reaction) : Prop where
  size_le : d.nodes.size ≤ d'.nodes.size
  tag : ∀ i < d.nodes.size, (d'.node i).tag = (d.node i).tag
  text : ∀ i < d.nodes.size, (d'.node i).text = (d.node i).text
  listeners : ∀ i, ∃ m, (d'.node i).listeners = (d.node i).listeners ++ m ∧ ∀ x ∈ m, P x

namespace ListensMore

variable {P Q : EventKind × Reaction → Prop} {d d₁ d₂ : Document Reaction}

theorem refl (d : Document Reaction) : ListensMore P d d :=
  ⟨Nat.le_refl _, fun _ _ => rfl, fun _ _ => rfl,
    fun _ => ⟨[], (List.append_nil _).symm, fun _ h => nomatch h⟩⟩

theorem trans (h₁ : ListensMore P d d₁) (h₂ : ListensMore P d₁ d₂) : ListensMore P d d₂ where
  size_le := Nat.le_trans h₁.size_le h₂.size_le
  tag i hi := (h₂.tag i (Nat.lt_of_lt_of_le hi h₁.size_le)).trans (h₁.tag i hi)
  text i hi := (h₂.text i (Nat.lt_of_lt_of_le hi h₁.size_le)).trans (h₁.text i hi)
  listeners i := by
    obtain ⟨m₁, e₁, p₁⟩ := h₁.listeners i
    obtain ⟨m₂, e₂, p₂⟩ := h₂.listeners i
    refine ⟨m₁ ++ m₂, by rw [e₂, e₁, List.append_assoc], fun x hx => ?_⟩
    rcases List.mem_append.mp hx with hx | hx
    · exact p₁ x hx
    · exact p₂ x hx

theorem mono (h : ListensMore P d d₁) (hPQ : ∀ x, P x → Q x) : ListensMore Q d d₁ :=
  { h with
    listeners := fun i => by
      obtain ⟨m, e, hm⟩ := h.listeners i
      exact ⟨m, e, fun x hx => hPQ x (hm x hx)⟩ }

theorem of_keeps (h : Keeps d d₁) : ListensMore P d d₁ :=
  ⟨h.size_le, h.tag, h.text,
    fun i => ⟨[], by rw [h.listeners i, List.append_nil], fun _ h => nomatch h⟩⟩

/-- A new listener goes after the ones its node has. -/
theorem listen (d : Document Reaction) (j : Nat) {kind : EventKind} {r : Reaction}
    (h : P (kind, r)) : ListensMore P d (d.listen j kind r) where
  size_le := Nat.le_of_eq Array.size_modify.symm
  tag i _ := by
    unfold Document.listen
    rw [node_modify]
    split <;> rfl
  text i _ := by
    unfold Document.listen
    rw [node_modify]
    split <;> rfl
  listeners i := by
    unfold Document.listen
    rw [node_modify]
    split
    · exact ⟨[(kind, r)], rfl, fun x hx => by rw [List.mem_singleton.mp hx]; exact h⟩
    · exact ⟨[], (List.append_nil _).symm, fun _ h => nomatch h⟩

theorem foldl {α : Type} (g : Document Reaction → α → Document Reaction)
    (hg : ∀ d a, ListensMore P d (g d a)) :
    ∀ (l : List α) (d : Document Reaction), ListensMore P d (l.foldl g d)
  | [], d => refl d
  | a :: l, d => (hg d a).trans (foldl g hg l (g d a))

end ListensMore

/-! ## What a run keeps -/

/-- Every id of `now` is an id of `before`, or was given out while the counter went from `next`
to `next'`. -/
def FreshIds (before now : List Nat) (next next' : Nat) : Prop :=
  ∀ i ∈ now, i ∈ before ∨ next ≤ i ∧ i < next'

theorem FreshIds.refl (l : List Nat) (next next' : Nat) : FreshIds l l next next' := fun _ h => .inl h

theorem FreshIds.trans {l₁ l₂ l₃ : List Nat} {n₁ n₂ n₃ : Nat} (h₁ : FreshIds l₁ l₂ n₁ n₂)
    (h₂ : FreshIds l₂ l₃ n₂ n₃) (h₁₂ : n₁ ≤ n₂) (h₂₃ : n₂ ≤ n₃) : FreshIds l₁ l₃ n₁ n₃ := by
  intro i hi
  rcases h₂ i hi with hi | hi
  · rcases h₁ i hi with hi | hi
    · exact .inl hi
    · exact .inr ⟨hi.1, Nat.lt_of_lt_of_le hi.2 h₂₃⟩
  · exact .inr ⟨Nat.le_trans h₁₂ hi.1, hi.2⟩

/-- An id that was given out and is not among the live ones stays dead. -/
theorem FreshIds.not_mem {before now : List Nat} {next next' i : Nat}
    (h : FreshIds before now next next') (hi : i < next) (hb : i ∉ before) : i ∉ now := fun hn => by
  rcases h i hn with h | h
  · exact hb h
  · omega

/-- Ids below the counter stay below it. -/
theorem FreshIds.lt {before now : List Nat} {next next' : Nat} (h : FreshIds before now next next')
    (hb : ∀ i ∈ before, i < next) (hn : next ≤ next') : ∀ i ∈ now, i < next' := by
  intro i hi
  rcases h i hi with h | h
  · exact Nat.lt_of_lt_of_le (hb i h) hn
  · exact h.2

/-- A listener added on the way to page `q`: it waits for its reaction's kind of event, and a
code block's listener names an editor of `q` from the `n`-th on. -/
structure Added (n : Nat) (q : Page) (x : EventKind × Reaction) : Prop where
  kind : x.1 = x.2.kind
  editor : ∀ e sel label fallback, x.2 = .followSelector e sel label fallback →
    n ≤ e ∧ e < q.editors.size

/-- What page `q` keeps of page `p`, where the code blocks' listeners added on the way name
editors from the `n`-th on. -/
structure RetainsFrom (n : Nat) (p q : Page) : Prop where
  nextId : p.nextId ≤ q.nextId
  coordinators : FreshIds (p.coordinators.map (·.id)) (q.coordinators.map (·.id)) p.nextId q.nextId
  overlays : FreshIds (p.overlays.map (·.id)) (q.overlays.map (·.id)) p.nextId q.nextId
  copies : FreshIds (p.copies.map (·.id)) (q.copies.map (·.id)) p.nextId q.nextId
  editorsSize : p.editors.size ≤ q.editors.size
  editors : ∀ (e : Nat) (ed : Editor), p.editors[e]? = some ed →
    ∃ ed', q.editors[e]? = some ed' ∧ ed'.listeners = ed.listeners ∧ ed.modes <+: ed'.modes
  listeners : ListensMore (Added n q) p.doc q.doc

/-- What page `q` keeps of page `p`: a code block's listener added on the way names an editor
made on the way. -/
abbrev Retains (p q : Page) : Prop := RetainsFrom p.editors.size p q

namespace RetainsFrom

variable {n m : Nat} {p q r : Page}

theorem refl (p : Page) : RetainsFrom n p p where
  nextId := Nat.le_refl _
  coordinators := FreshIds.refl _ _ _
  overlays := FreshIds.refl _ _ _
  copies := FreshIds.refl _ _ _
  editorsSize := Nat.le_refl _
  editors _ ed h := ⟨ed, h, rfl, List.prefix_refl _⟩
  listeners := ListensMore.refl _

theorem trans (h₁ : RetainsFrom n p q) (h₂ : RetainsFrom m q r) (hnm : n ≤ m) :
    RetainsFrom n p r where
  nextId := Nat.le_trans h₁.nextId h₂.nextId
  coordinators := h₁.coordinators.trans h₂.coordinators h₁.nextId h₂.nextId
  overlays := h₁.overlays.trans h₂.overlays h₁.nextId h₂.nextId
  copies := h₁.copies.trans h₂.copies h₁.nextId h₂.nextId
  editorsSize := Nat.le_trans h₁.editorsSize h₂.editorsSize
  editors e ed h := by
    obtain ⟨ed₁, h₁', hl₁, hm₁⟩ := h₁.editors e ed h
    obtain ⟨ed₂, h₂', hl₂, hm₂⟩ := h₂.editors e ed₁ h₁'
    exact ⟨ed₂, h₂', hl₂.trans hl₁, hm₁.trans hm₂⟩
  listeners := by
    have h₂₃ := h₂.editorsSize
    refine (h₁.listeners.mono fun x hx => ⟨hx.kind, fun e s l f he => ?_⟩).trans
      (h₂.listeners.mono fun x hx => ⟨hx.kind, fun e s l f he => ?_⟩)
    all_goals
      have := hx.editor e s l f he
      omega

theorem mono (h : RetainsFrom n p q) (hmn : m ≤ n) : RetainsFrom m p q :=
  { h with
    listeners := h.listeners.mono fun x hx => ⟨hx.kind, fun e s l f he => by
      have := hx.editor e s l f he
      omega⟩ }

/-- A change that keeps the editors and every node's listeners, and gives out no id again. -/
theorem of_keeps (hn : p.nextId ≤ q.nextId)
    (hc : FreshIds (p.coordinators.map (·.id)) (q.coordinators.map (·.id)) p.nextId q.nextId)
    (ho : FreshIds (p.overlays.map (·.id)) (q.overlays.map (·.id)) p.nextId q.nextId)
    (hk : FreshIds (p.copies.map (·.id)) (q.copies.map (·.id)) p.nextId q.nextId)
    (he : q.editors = p.editors) (hd : Keeps p.doc q.doc) : RetainsFrom n p q where
  nextId := hn
  coordinators := hc
  overlays := ho
  copies := hk
  editorsSize := Nat.le_of_eq (congrArg Array.size he.symm)
  editors _ ed h := ⟨ed, he ▸ h, rfl, List.prefix_refl _⟩
  listeners := ListensMore.of_keeps hd

/-- A change that keeps the ids, the editors and every node's listeners. -/
theorem of_same (hn : q.nextId = p.nextId) (hc : q.coordinators = p.coordinators)
    (ho : q.overlays = p.overlays) (hk : q.copies = p.copies) (he : q.editors = p.editors)
    (hd : Keeps p.doc q.doc) : RetainsFrom n p q :=
  of_keeps (Nat.le_of_eq hn.symm) (hc ▸ FreshIds.refl _ _ _) (ho ▸ FreshIds.refl _ _ _)
    (hk ▸ FreshIds.refl _ _ _) he hd

end RetainsFrom

theorem Retains.trans {p q r : Page} (h₁ : Retains p q) (h₂ : Retains q r) : Retains p r :=
  RetainsFrom.trans h₁ h₂ h₁.editorsSize

/-! ## Actions that retain -/

/-- Every run of the action that ends leaves a page that retains the page it started on. -/
def Retaining {α : Type} (a : Act α) : Prop := ∀ p x q, a.run p = .ok (x, q) → Retains p q

namespace Retaining

variable {α β : Type}

theorem pure (a : α) : Retaining (Pure.pure a : Act α) := fun p x q h => by
  cases h
  exact .refl p

theorem bind {x : Act α} {f : α → Act β} (hx : Retaining x) (hf : ∀ a, Retaining (f a)) :
    Retaining (x >>= f) := fun p b q h => by
  obtain ⟨a, p₁, h₁, h₂⟩ := run_bind_eq_ok h
  exact (hx p a p₁ h₁).trans (hf a p₁ b q h₂)

theorem foldlM {f : β → α → Act β} (hf : ∀ b a, Retaining (f b a)) :
    ∀ (l : List α) (b : β), Retaining (l.foldlM f b)
  | [], b => pure b
  | a :: l, b => by
    rw [List.foldlM_cons]
    exact bind (hf b a) fun b' => foldlM hf l b'

theorem forM {f : α → Act Unit} (hf : ∀ a, Retaining (f a)) : ∀ l : List α, Retaining (l.forM f)
  | [] => pure ()
  | a :: l => by
    rw [List.forM_eq_forM, List.forM_cons, ← List.forM_eq_forM]
    exact bind (hf a) fun _ => forM hf l

end Retaining

/-! ## The small actions -/

section Small

variable {α : Type}

/-- A listener that is not a code block's and waits for its reaction's kind of event. -/
theorem added_plain {n : Nat} {q : Page} {kind : EventKind} {r : Reaction} (hk : kind = r.kind)
    (hr : ∀ e s l f, r ≠ .followSelector e s l f) : Added n q (kind, r) :=
  ⟨hk, fun e s l f h => absurd h (hr e s l f)⟩

/-- Only the document changes, and its nodes gain listeners of the kinds their reactions are
for, none of a code block. -/
theorem Retains.listened (p : Page) {d : Document Reaction}
    (h : ListensMore (fun x => x.1 = x.2.kind ∧ ∀ e s l f, x.2 ≠ .followSelector e s l f) p.doc d) :
    Retains p { p with doc := d } where
  nextId := Nat.le_refl _
  coordinators := FreshIds.refl _ _ _
  overlays := FreshIds.refl _ _ _
  copies := FreshIds.refl _ _ _
  editorsSize := Nat.le_refl _
  editors _ ed h := ⟨ed, h, rfl, List.prefix_refl _⟩
  listeners := h.mono fun _ hx => ⟨hx.1, fun e s l f he => absurd he (hx.2 e s l f)⟩

theorem retaining_get : Retaining (get : Act Page) := fun p _ _ h => by
  cases h
  exact .refl p

theorem retaining_doc : Retaining doc := fun p _ _ h => by
  cases h
  exact .refl p

theorem retaining_settings : Retaining settings := fun p _ _ h => by
  cases h
  exact .refl p

theorem retaining_onDoc {f : Document Reaction → Document Reaction} (hf : ∀ d, Keeps d (f d)) :
    Retaining (onDoc f) := fun p _ _ h => by
  cases h
  exact .of_same rfl rfl rfl rfl rfl (hf p.doc)

theorem retaining_withDoc {f : Document Reaction → α × Document Reaction}
    (hf : ∀ d, Keeps d (f d).2) : Retaining (withDoc f) := fun p _ _ h => by
  cases h
  exact .of_same rfl rfl rfl rfl rfl (hf p.doc)

/-- A listener that waits for its reaction's kind of event and is not a code block's. -/
theorem retaining_listen (j : Nat) {kind : EventKind} {r : Reaction} (hk : kind = r.kind)
    (hr : ∀ e s l f, r ≠ .followSelector e s l f) : Retaining (onDoc (·.listen j kind r)) :=
  fun p _ _ h => by
  cases h
  exact .listened p (ListensMore.listen _ _ ⟨hk, hr⟩)

theorem retaining_freshId : Retaining freshId := fun p _ _ h => by
  cases h
  exact .of_keeps (Nat.le_succ _) (FreshIds.refl _ _ _) (FreshIds.refl _ _ _) (FreshIds.refl _ _ _) rfl
    (Keeps.refl _)

theorem retaining_schedule (delay : Nat) (c : Chore) : Retaining (schedule delay c) :=
  fun p _ _ h => by
  rw [schedule_run] at h
  split at h
  · cases h
    exact .of_same rfl rfl rfl rfl rfl (Keeps.refl _)
  · cases h

theorem retaining_cancelTimers (keys : List TimerKey) : Retaining (cancelTimers keys) :=
  fun p _ _ h => by
  cases h
  exact .of_same rfl rfl rfl rfl rfl (Keeps.refl _)

theorem retaining_coordinator? (id : Nat) : Retaining (coordinator? id) := fun p _ _ h => by
  cases h
  exact .refl p

theorem retaining_stack? (id : Nat) : Retaining (stack? id) := fun p _ _ h => by
  cases h
  exact .refl p

theorem retaining_copies? (id : Nat) : Retaining (copies? id) := fun p _ _ h => by
  cases h
  exact .refl p

/-- Changing list members by a function that keeps their ids keeps the ids. -/
theorem fresh_map {γ : Type} (l : List γ) (key : γ → Nat) {g : γ → γ} (hg : ∀ a, key (g a) = key a)
    (next next' : Nat) : FreshIds (l.map key) ((l.map g).map key) next next' := by
  have hkeys : l.map (key ∘ g) = l.map key := List.map_congr_left fun a _ => hg a
  rw [List.map_map, hkeys]
  exact FreshIds.refl _ _ _

theorem retaining_updateCoordinator (id : Nat) {f : Coordinator → Coordinator}
    (hf : ∀ c, (f c).id = c.id) : Retaining (updateCoordinator id f) := fun p _ _ h => by
  cases h
  refine .of_keeps (Nat.le_refl _) (fresh_map _ _ (fun c => ?_) _ _) (FreshIds.refl _ _ _)
    (FreshIds.refl _ _ _) rfl (Keeps.refl _)
  split <;> simp [hf]

theorem retaining_updateStack (id : Nat) {f : OverlayStack → OverlayStack}
    (hf : ∀ s, (f s).id = s.id) : Retaining (updateStack id f) := fun p _ _ h => by
  cases h
  refine .of_keeps (Nat.le_refl _) (FreshIds.refl _ _ _) (fresh_map _ _ (fun s => ?_) _ _)
    (FreshIds.refl _ _ _) rfl (Keeps.refl _)
  split <;> simp [hf]

theorem retaining_updateCopies (id : Nat) {f : CopyFields → CopyFields}
    (hf : ∀ c, (f c).id = c.id) : Retaining (updateCopies id f) := fun p _ _ h => by
  cases h
  refine .of_keeps (Nat.le_refl _) (FreshIds.refl _ _ _) (FreshIds.refl _ _ _)
    (fresh_map _ _ (fun c => ?_) _ _) rfl (Keeps.refl _)
  split <;> simp [hf]

theorem retaining_updateEditor (i : Nat) {f : Editor → Editor}
    (hf : ∀ e, (f e).listeners = e.listeners ∧ e.modes <+: (f e).modes) :
    Retaining (updateEditor i f) := fun p _ _ h => by
  cases h
  refine ⟨Nat.le_refl _, FreshIds.refl _ _ _, FreshIds.refl _ _ _, FreshIds.refl _ _ _, by simp,
    fun e ed he => ?_, ListensMore.of_keeps (Keeps.refl _)⟩
  rw [Array.getElem?_modify]
  split
  · exact ⟨f ed, by rw [he]; rfl, (hf ed).1, (hf ed).2⟩
  · exact ⟨ed, he, rfl, List.prefix_refl _⟩

theorem retaining_spawn (executor : Nat) (j : Job) : Retaining (spawn executor j) :=
  fun p _ _ h => by
  rw [spawn_run] at h
  split at h <;> cases h
  · exact .of_same rfl rfl rfl rfl rfl (Keeps.refl _)
  · exact .refl p

theorem retaining_keepHandle (n : Nat) : Retaining (keepHandle n) := fun p _ _ h => by
  cases h
  exact .of_same rfl rfl rfl rfl rfl (Keeps.refl _)

end Small

/-! ## The components -/

namespace Board

theorem retaining_removeLater (b : Board) (m delay : Nat) :
    Retaining (b.removeLater m delay) := by
  unfold removeLater
  exact .bind (retaining_schedule _ _) fun _ => .pure _

theorem retaining_scheduleBatch (b : Board) : Retaining b.scheduleBatch := by
  unfold scheduleBatch
  refine .bind retaining_settings fun s => .bind retaining_doc fun d => ?_
  refine .bind (.foldlM (fun b im => ?_) _ _) fun _ => .pure _
  obtain ⟨i, m⟩ := im
  exact retaining_removeLater _ _ _

theorem retaining_replaceRegion (b : Board) (html : String) :
    Retaining (b.replaceRegion html) := by
  unfold replaceRegion
  refine .bind retaining_settings fun s => .bind retaining_doc fun d => ?_
  split
  · exact .pure _
  · refine .bind (retaining_onDoc fun d => keeps_setInnerHtml _ _ _) fun _ => ?_
    refine .bind retaining_doc fun _ => ?_
    exact .bind (.foldlM (fun b m => retaining_removeLater _ _ _) _ _) fun _ => .pure _

theorem retaining_pushError (b : Board) (text : String) : Retaining (b.pushError text) := by
  unfold pushError
  refine .bind retaining_settings fun s => .bind retaining_doc fun d => ?_
  split
  · exact .pure _
  · refine .bind (retaining_withDoc fun d => keeps_alloc d rfl) fun m => ?_
    refine .bind (retaining_onDoc fun d => ?_) fun _ => ?_
    · exact ((keeps_setAttribute _ _ _ _).trans (keeps_setText _ _ _)).trans (keeps_append _ _ _)
    · exact .bind (retaining_removeLater _ _ _) fun _ => .pure _

theorem retaining_cancel (b : Board) : Retaining b.cancel := by
  unfold cancel
  exact .bind (retaining_cancelTimers _) fun _ => .pure _

end Board

theorem retaining_markDirty (id : Nat) : Retaining (markDirty id) := by
  unfold markDirty
  refine .bind (retaining_coordinator? id) fun c => ?_
  split
  · exact .pure _
  · refine .bind (retaining_updateCoordinator id fun _ => rfl) fun _ => ?_
    split
    · refine .bind retaining_settings fun s => .bind retaining_doc fun d => ?_
      split
      · exact retaining_onDoc fun d => keeps_setText _ _ _
      · exact .pure _
    · exact .pure _

theorem retaining_requireReload (id : Nat) : Retaining (requireReload id) :=
  retaining_updateCoordinator id fun _ => rfl

theorem retaining_interceptSubmit (id : Nat) : Retaining (interceptSubmit id) := by
  unfold interceptSubmit
  refine .bind (retaining_coordinator? id) fun c => ?_
  split
  · exact .pure _
  · refine .bind (retaining_updateCoordinator id fun _ => rfl) fun _ => ?_
    split
    · exact .pure _
    · exact .pure _
    · refine .bind retaining_doc fun d => .bind (retaining_spawn _ _) fun b => ?_
      dsimp only
      split
      · exact .bind (retaining_updateCoordinator id fun _ => rfl) fun _ => .pure _
      · exact .pure _

theorem retaining_onCoordinatorBoard (c : Coordinator) {f : Board → Act (Bool × Board)}
    (hf : ∀ b, Retaining (f b)) : Retaining (onCoordinatorBoard c f) := by
  unfold onCoordinatorBoard
  refine .bind (hf c.board) fun r => ?_
  exact retaining_updateCoordinator _ fun _ => rfl

theorem retaining_completeSave (id : Nat) (a : Answer) : Retaining (completeSave id a) := by
  unfold completeSave
  refine .bind (retaining_coordinator? id) fun c => ?_
  rcases c with _ | c
  · exact .pure _
  · refine .bind retaining_settings fun s => ?_
    cases a with
    | saved fragment =>
      refine .bind (retaining_updateCoordinator id fun _ => rfl) fun _ => ?_
      refine .bind retaining_doc fun d => ?_
      have hboard := retaining_onCoordinatorBoard c fun b => Board.retaining_replaceRegion b fragment
      dsimp only
      split
      · exact .bind (retaining_onDoc fun d => keeps_setText _ _ _) fun _ => hboard
      · exact hboard
    | failed =>
      refine .bind (retaining_updateCoordinator id fun _ => rfl) fun _ => ?_
      exact retaining_onCoordinatorBoard _ fun b => Board.retaining_pushError b _

theorem retaining_wire (id node : Nat) {r : Reaction} (hk : r.kind = .click)
    (hr : ∀ e s l f, r ≠ .followSelector e s l f) : Retaining (wire id node r) := by
  unfold wire
  refine .bind (retaining_stack? id) fun st => ?_
  split
  · exact .pure _
  · split
    · exact .bind (retaining_listen _ hk.symm hr) fun _ => retaining_updateStack id fun _ => rfl
    · exact .pure _

theorem retaining_ensureBackdrop (id : Nat) : Retaining (ensureBackdrop id) := by
  unfold ensureBackdrop
  refine .bind retaining_settings fun s => .bind retaining_doc fun d => ?_
  have hwire : ∀ b, Retaining (wire id b (.dismissOverlays id)) :=
    fun b => retaining_wire id b rfl fun _ _ _ _ h => nomatch h
  dsimp only
  split
  · exact .bind (.pure _) hwire
  · refine .bind (retaining_withDoc fun d => keeps_alloc d rfl) fun b => ?_
    refine .bind (retaining_onDoc fun d => ?_) fun _ => .bind (.pure _) hwire
    exact (keeps_setAttribute _ _ _ _).trans (keeps_append _ _ _)

theorem retaining_center (modal : Nat) : Retaining (center modal) := by
  unfold center
  refine .bind retaining_settings fun s => .bind retaining_doc fun d => ?_
  dsimp only
  split
  · exact retaining_onDoc fun d => (keeps_setStyle _ _ _ _).trans (keeps_setStyle _ _ _ _)
  · exact retaining_onDoc fun d => keeps_setStyle _ _ _ _

theorem retaining_wireCloseTriggers (id : Nat) : Retaining (wireCloseTriggers id) := by
  unfold wireCloseTriggers
  refine .bind retaining_settings fun s => .bind retaining_doc fun d => ?_
  refine .bind (retaining_updateStack id fun _ => rfl) fun _ => ?_
  exact .forM (fun t => retaining_wire id t rfl fun _ _ _ _ h => by cases h) _

theorem retaining_openModal (id : Nat) (content : String) (variant : Option String) :
    Retaining (openModal id content variant) := by
  unfold openModal
  refine .bind (retaining_ensureBackdrop id) fun _ => .bind retaining_settings fun s => ?_
  refine .bind (retaining_withDoc fun d => keeps_alloc d rfl) fun modal => ?_
  refine .bind (retaining_onDoc fun d => keeps_setAttribute _ _ _ _) fun _ => ?_
  refine .bind (retaining_withDoc fun d => keeps_alloc d rfl) fun close => ?_
  refine .bind (retaining_onDoc fun d => ?_) fun _ => ?_
  · exact ((keeps_setAttribute _ _ _ _).trans (keeps_setInnerHtml _ _ _)).trans
      (keeps_setAttribute _ _ _ _)
  refine .bind (retaining_withDoc fun d => keeps_alloc d rfl) fun inner => ?_
  refine .bind (retaining_onDoc fun d => ?_) fun _ => ?_
  · exact (keeps_setAttribute _ _ _ _).trans (keeps_setInnerHtml _ _ _)
  refine .bind (retaining_onDoc fun d => ?_) fun _ => ?_
  · exact ((keeps_append _ _ _).trans (keeps_append _ _ _)).trans (keeps_append _ _ _)
  refine .bind (retaining_schedule _ _) fun key => ?_
  refine .bind (retaining_updateStack id fun _ => rfl) fun _ => ?_
  exact .bind (retaining_center modal) fun _ =>
    .bind (retaining_wireCloseTriggers id) fun _ => .pure _

theorem retaining_openLoader (id : Nat) : Retaining (openLoader id) := by
  unfold openLoader
  refine .bind (retaining_ensureBackdrop id) fun _ => .bind retaining_settings fun s => ?_
  refine .bind (retaining_withDoc fun d => keeps_alloc d rfl) fun loader => ?_
  refine .bind (retaining_onDoc fun d => ?_) fun _ => .pure _
  exact (keeps_setAttribute _ _ _ _).trans (keeps_append _ _ _)

theorem retaining_dismiss (id : Nat) : Retaining (dismiss id) := by
  unfold dismiss
  refine .bind (retaining_stack? id) fun st => ?_
  split
  · exact .pure _
  · refine .bind (retaining_cancelTimers _) fun _ => .bind retaining_settings fun s => ?_
    refine .bind retaining_doc fun d => .bind (.foldlM (fun n o => ?_) _ _) fun _ => ?_
    · exact .bind (retaining_withDoc fun d => keeps_detach d o) fun _ => .pure _
    · exact .bind retaining_doc fun _ =>
        .bind (retaining_updateStack id fun _ => rfl) fun _ => .pure _

theorem retaining_showLoader (id : Nat) (status : Bool) : Retaining (showLoader id status) := by
  unfold showLoader
  split
  · exact .bind (retaining_openLoader id) fun _ => .pure _
  · exact .bind (retaining_dismiss id) fun _ => .pure _

theorem retaining_overlayOpen : Retaining overlayOpen := by
  unfold overlayOpen
  exact .bind retaining_settings fun _ => .bind retaining_doc fun _ => .pure _

/-! ## Copy fields and code blocks -/

theorem retaining_copyField (id field : Nat) : Retaining (copyField id field) := by
  unfold copyField
  refine .bind (retaining_copies? id) fun c => ?_
  split
  · exact .pure _
  · have hsel : ∀ d : Document Reaction, (d.selectText field).nodes = d.nodes := fun _ => rfl
    refine .bind (retaining_onDoc fun d => keeps_of_nodes (hsel d)) fun _ => ?_
    exact .bind retaining_doc fun _ => .bind (retaining_spawn _ _) fun _ => .pure _

theorem retaining_showIndicator (id field : Nat) (ok : Bool) :
    Retaining (showIndicator id field ok) := by
  unfold showIndicator
  refine .bind retaining_doc fun d => ?_
  split
  · exact .pure _
  · refine .bind retaining_settings fun s => ?_
    dsimp only
    refine .bind (retaining_withDoc fun d => keeps_alloc d rfl) fun x => ?_
    refine .bind (retaining_onDoc fun d => ?_) fun _ => ?_
    · exact ((keeps_setAttribute _ _ _ _).trans (keeps_setText _ _ _)).trans
        (keeps_insertBefore _ _ _ _)
    exact .bind (retaining_schedule _ _) fun _ => retaining_updateCopies id fun _ => rfl

theorem retaining_refreshLabel (selector : Nat) (label : Option Nat) (fallback : String) :
    Retaining (refreshLabel selector label fallback) := by
  unfold refreshLabel
  split
  · exact .pure _
  · exact .bind retaining_doc fun _ => retaining_onDoc fun d => keeps_setText _ _ _

theorem retaining_setMode (editor : Nat) (mode : Option String) :
    Retaining (setMode editor mode) :=
  retaining_updateEditor editor fun _ => ⟨rfl, List.prefix_append _ _⟩

theorem retaining_followSelector (editor selector : Nat) (label : Option Nat) (fallback : String) :
    Retaining (followSelector editor selector label fallback) :=
  .bind retaining_doc fun _ =>
    .bind (retaining_setMode _ _) fun _ => retaining_refreshLabel selector label fallback

theorem retaining_editorChanged (editor : Nat) : Retaining (editorChanged editor) := by
  unfold editorChanged
  refine .bind retaining_get fun p => ?_
  split
  · exact .pure _
  · exact .forM retaining_markDirty _

/-! ## Events, time and the executor -/

theorem retaining_react (b : Bool) : ∀ r : Reaction, Retaining (react b r)
  | .markDirty c => .bind (retaining_markDirty c) fun _ => .pure _
  | .requireReload c => .bind (retaining_requireReload c) fun _ => .pure _
  | .interceptSubmit c => .bind (retaining_interceptSubmit c) fun _ => .pure _
  | .dismissOverlays st => .bind (retaining_dismiss st) fun _ => .pure _
  | .closeOverlays st => .bind (retaining_dismiss st) fun _ => .pure _
  | .copyField k f => .bind (retaining_copyField k f) fun _ => .pure _
  | .followSelector e sel label fallback =>
    .bind (retaining_followSelector e sel label fallback) fun _ => .pure _

theorem retaining_dispatch (node : Nat) (kind : EventKind) : Retaining (dispatch node kind) :=
  .bind retaining_doc fun _ => .foldlM (fun _ _ =>
    .bind retaining_doc fun _ => .foldlM retaining_react _ _) _ _

theorem retaining_advance (ms : Nat) : Retaining (advance ms) := fun p x q h => by
  cases x
  obtain ⟨hq, hk, -⟩ := advance_frame h
  rw [hq]
  exact .of_same rfl rfl rfl rfl rfl hk

theorem retaining_modify {f : Page → Page} (hf : ∀ p, Retains p (f p)) : Retaining (modify f) :=
  fun p _ _ h => by
  cases h
  exact hf p

theorem retaining_getSet {α : Type} {g : Page → Page} {k : Page → Act α}
    (hg : ∀ p, Retains p (g p)) (hk : ∀ p, Retaining (k p)) :
    Retaining (get >>= fun p => set (g p) >>= fun _ => k p) := fun p x q h => by
  obtain ⟨_, _, h₁, h₂⟩ := run_bind_eq_ok h
  cases h₁
  obtain ⟨_, _, h₃, h₄⟩ := run_bind_eq_ok h₂
  cases h₃
  exact (hg p).trans (hk p _ x q h₄)

theorem retaining_nextAnswer : Retaining nextAnswer := fun p _ _ h => by
  rw [run_nextAnswer] at h
  cases h
  exact .of_same rfl rfl rfl rfl rfl (Keeps.refl _)

theorem retaining_nextClipboardAnswer : Retaining nextClipboardAnswer := fun p _ _ h => by
  rw [run_nextClipboardAnswer] at h
  cases h
  exact .of_same rfl rfl rfl rfl rfl (Keeps.refl _)

theorem Job.retaining_run : ∀ j : Job, Retaining j.run
  | .save c request => by
    refine .bind (retaining_modify fun _ => .of_same rfl rfl rfl rfl rfl (Keeps.refl _)) fun _ => ?_
    exact .bind retaining_nextAnswer fun a => retaining_completeSave c a
  | .copy k field text => by
    have hshow : ∀ ok, Retaining (do
        if (← copies? k).isSome then showIndicator k field ok else pure () : Act Unit) := by
      intro ok
      refine .bind (retaining_copies? k) fun c => ?_
      split
      · exact retaining_showIndicator k field ok
      · exact .pure _
    refine .bind retaining_nextClipboardAnswer fun ok => ?_
    dsimp only
    split
    · exact .bind (retaining_modify fun _ => .of_same rfl rfl rfl rfl rfl (Keeps.refl _))
        fun _ => hshow ok
    · exact hshow ok

theorem retaining_runJobs : Retaining runJobs :=
  .bind retaining_get fun _ =>
    .bind (retaining_modify fun _ => .of_same rfl rfl rfl rfl rfl (Keeps.refl _)) fun _ =>
      .forM Job.retaining_run _

theorem retaining_shutdownExecutor : Retaining shutdownExecutor :=
  retaining_modify fun _ => .of_same rfl rfl rfl rfl rfl (Keeps.refl _)

/-! ## Attaching components -/

/-- A component attached with the counter's value as its id. -/
theorem fresh_push (l : List Nat) (n : Nat) : FreshIds l (l ++ [n]) n (n + 1) := by
  intro i hi
  rcases List.mem_append.mp hi with hi | hi
  · exact .inl hi
  · rw [List.mem_singleton.mp hi]
    exact .inr ⟨Nat.le_refl _, Nat.lt_succ_self _⟩

/-- A plain listener added in a document wiring. -/
theorem listensMore_listen {n : Nat} {q : Page} (d : Document Reaction) (j : Nat) (r : Reaction)
    (hr : ∀ e s l f, r ≠ .followSelector e s l f) :
    ListensMore (Added n q) d (d.listen j r.kind r) :=
  ListensMore.listen d j (added_plain rfl hr)

theorem Attachment.listensMore_wire {n : Nat} {q : Page} (a : Attachment) (d : Document Reaction) :
    ListensMore (Added n q) d (a.wire d) := by
  have hmark := listensMore_listen (n := n) (q := q) d a.form (.markDirty a.id) fun _ _ _ _ h => by
    cases h
  have hreload := ListensMore.foldl (P := Added n q)
    (fun d f => d.listen f (Reaction.requireReload a.id).kind (.requireReload a.id))
    (fun d f => listensMore_listen d f (.requireReload a.id) fun _ _ _ _ h => by cases h) a.fields
  unfold Attachment.wire
  dsimp only
  split
  · exact hmark
  · exact (hmark.trans (hreload _)).trans
      (listensMore_listen _ a.form (.interceptSubmit a.id) fun _ _ _ _ h => by cases h)

theorem retaining_attachCoordinator : Retaining attachCoordinator := fun p x q h => by
  cases hform : p.doc.elementById p.settings.formId with
  | none =>
    rw [attachCoordinator_absent hform] at h
    cases h
    exact .refl p
  | some form =>
    rw [attachCoordinator_run hform] at h
    cases h
    refine ⟨Nat.le_succ _, ?_, FreshIds.refl _ _ _, FreshIds.refl _ _ _, Nat.le_refl _,
      fun _ ed h => ⟨ed, h, rfl, List.prefix_refl _⟩, Attachment.listensMore_wire _ _⟩
    rw [List.map_append]
    exact fresh_push _ _

theorem retaining_attachCopy : Retaining attachCopy := fun p x q h => by
  rw [attachCopy_run] at h
  cases h
  refine ⟨Nat.le_succ _, FreshIds.refl _ _ _, FreshIds.refl _ _ _, ?_, Nat.le_refl _,
    fun _ ed h => ⟨ed, h, rfl, List.prefix_refl _⟩, ?_⟩
  · rw [List.map_append]
    exact fresh_push _ _
  · exact ListensMore.foldl _ (fun d f => listensMore_listen d f (.copyField p.nextId f)
      fun _ _ _ _ h => by cases h) _ _

/-! ## Code blocks

A code block's listener names the editor the block made a moment before, so the runs after the
editor is made are counted from it. -/

/-- Every run from a page that has editor `n`, where the code blocks' new listeners name editors
from `n` on. -/
def RetainingAt {α : Type} (n : Nat) (a : Act α) : Prop :=
  ∀ p x q, n < p.editors.size → a.run p = .ok (x, q) → RetainsFrom n p q

section At

variable {α β : Type} {n : Nat}

theorem Retaining.at {a : Act α} (h : Retaining a) : RetainingAt n a :=
  fun p x q hn hr => (h p x q hr).mono (Nat.le_of_lt hn)

theorem RetainingAt.bind {x : Act α} {f : α → Act β} (hx : RetainingAt n x)
    (hf : ∀ a, RetainingAt n (f a)) : RetainingAt n (x >>= f) := fun p b q hn h => by
  obtain ⟨a, p₁, h₁, h₂⟩ := run_bind_eq_ok h
  have h₁' := hx p a p₁ hn h₁
  exact h₁'.trans (hf a p₁ b q (Nat.lt_of_lt_of_le hn h₁'.editorsSize) h₂) (Nat.le_refl n)

/-- A code block's listener for editor `n`, added once the editor is made. -/
theorem retainingAt_listen (j sel : Nat) (label : Option Nat) (fallback : String) :
    RetainingAt n (onDoc (·.listen j .change (.followSelector n sel label fallback))) :=
  fun p _ _ hn h => by
  cases h
  refine ⟨Nat.le_refl _, FreshIds.refl _ _ _, FreshIds.refl _ _ _, FreshIds.refl _ _ _, Nat.le_refl _,
    fun _ ed h => ⟨ed, h, rfl, List.prefix_refl _⟩, ListensMore.listen _ _ ⟨rfl, ?_⟩⟩
  intro e s l f he
  cases he
  exact ⟨Nat.le_refl _, hn⟩

theorem retainingAt_watchSelector (o : BlockOptions) (selector : Nat) :
    RetainingAt n (watchSelector n o selector) := by
  unfold watchSelector
  refine .bind retaining_doc.at fun d => ?_
  have hrest : ∀ label fallback, RetainingAt n (do
      refreshLabel selector label fallback
      onDoc (·.listen selector .change (.followSelector n selector label fallback))
      pure (editorMode ((← doc).value selector))) := fun _ _ =>
    .bind (retaining_refreshLabel _ _ _).at fun _ => .bind (retainingAt_listen _ _ _ _) fun _ =>
      (Retaining.bind retaining_doc fun _ => .pure _).at
  dsimp only
  split
  · exact .bind (retaining_onDoc fun d => keeps_setValue _ _ _).at fun _ => hrest _ _
  · exact hrest _ _

end At

theorem retaining_attachBlock (o : BlockOptions) (onChange : Option Nat) :
    Retaining (attachBlock o onChange) := by
  intro p x q h
  unfold attachBlock at h
  obtain ⟨_, _, h₁, h₂⟩ := run_bind_eq_ok h
  cases h₁
  obtain ⟨_, _, h₃, h₄⟩ := run_bind_eq_ok h₂
  cases h₃
  -- the new editor is the last one, with nothing listening yet
  have hpush : Retains p { p with
      editors := p.editors.push ⟨[], if o.focus then 1 else 0, onChange.toList⟩ } := by
    refine ⟨Nat.le_refl _, FreshIds.refl _ _ _, FreshIds.refl _ _ _, FreshIds.refl _ _ _, by simp,
      fun e ed he => ⟨ed, ?_, rfl, List.prefix_refl _⟩, ListensMore.refl _⟩
    rw [Array.getElem?_push, if_neg (Array.getElem?_eq_some_iff.mp he).1.ne]
    exact he
  refine RetainsFrom.trans hpush ((?_ : RetainingAt p.editors.size _) _ _ _ (by simp) h₄)
    (Nat.le_refl _)
  -- whichever way the mode is found, the block then sets it and is recorded
  have htail : ∀ mode, RetainingAt p.editors.size (do
      setMode p.editors.size mode
      let p₁ ← get
      set { p₁ with blocks := p₁.blocks ++ [p.editors.size] }
      pure (p₁.blocks.length, mode)) := fun _ =>
    .bind (retaining_setMode _ _).at fun _ =>
      (retaining_getSet (g := fun p₁ => { p₁ with blocks := p₁.blocks ++ [p.editors.size] })
        (fun _ => .of_same rfl rfl rfl rfl rfl (Keeps.refl _)) fun _ => .pure _).at
  dsimp only
  split
  · exact .bind (Retaining.pure _).at htail
  · refine .bind retaining_doc.at fun d => ?_
    split
    · exact .bind (Retaining.pure _).at htail
    · exact .bind (retainingAt_watchSelector o _) htail

end PageEditor.Ui
