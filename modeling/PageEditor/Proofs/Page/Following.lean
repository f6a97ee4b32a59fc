import PageEditor.Proofs.Page.Reaching
/-!
# PageEditor.Proofs.Page.Following

A code block's editor follows the type selector of its form.

Attaching a block makes one editor and sets its mode once, to the mode it answers
(`attachBlock_run`). That mode comes from the key alone, from the extension when the key names a
selector the page lacks, or, when the selector is there, from the selector's value once the
extension was written into it. In that last case the block leaves one listener on the selector,
for change events, that names its editor, its label and the text the label had at attach.

A change event then runs the listeners on the path of its target in turn. Of the listeners that
can fire for it, only a code block's changes the document or the editors, and it changes them as
`Reaction.follow` says: the label shows the selected option's text, or the fallback when that is
empty, and the editor gets the selector's mode (`dispatch_change`). Every page the editor reaches
keeps each listener with the kind of event it waits for and the editor it names
(`Tidy`, `SoleFollower`), so when the path passes the selector once and no other block follows a
selector on it, the block's own listener is the one that acts (`dispatch_soleFollower`).

That condition is needed: two blocks whose selector and label are the same both listen on the
selector, and the later one, with the label's text at its own attach as fallback, writes last
(`shared_label_shows_later_fallback`).
-/

namespace PageEditor.Markup.Document

variable {σ : Type} {d : Document σ}

/-! ## Elements found by id -/

/-- The walk lists elements only: it skips every text node it meets. -/
theorem isText_of_mem_descendants {r i : Nat} (h : i ∈ d.descendants r) :
    (d.node i).isText = false := by
  have walk : ∀ fuel work, i ∈ descendants.go d fuel work → (d.node i).isText = false := by
    intro fuel
    induction fuel with
    | zero => intro work hi; simp [descendants.go] at hi
    | succ f ih =>
      intro work hi
      cases work with
      | nil => simp [descendants.go] at hi
      | cons j rest =>
        simp only [descendants.go] at hi
        split at hi
        · exact ih rest hi
        · next htext =>
          rcases List.mem_cons.mp hi with rfl | hi
          · exact Bool.eq_false_iff.mpr htext
          · exact ih _ hi
  exact walk _ _ h

theorem lt_size_of_isText {i : Nat} (h : (d.node i).isText = false) : i < d.nodes.size := by
  by_contra hc
  -- past the end of the document `node` reads the default node, a text node
  have hdefault : (default : Node σ).isText = true := rfl
  rw [node_of_size_le (Nat.le_of_not_lt hc), hdefault] at h
  cases h

/-- The element found by an id is a node of the document, and no text node. -/
theorem elementById_element {id : String} {w : Nat} (h : d.elementById id = some w) :
    w < d.nodes.size ∧ (d.node w).isText = false := by
  have ht := isText_of_mem_descendants (List.mem_of_find?_eq_some h)
  exact ⟨lt_size_of_isText ht, ht⟩

end PageEditor.Markup.Document

namespace PageEditor.Ui

open Markup Markup.Document

/-! ## Mode keys -/

theorem editorMode_of_startsWith {key : String} (h : key.startsWith "$" = true) :
    editorMode key = none := by
  unfold editorMode
  -- no named key starts with a dollar sign
  split <;> simp_all

/-- A key that names a selector is no mode. -/
theorem editorMode_dollar (k : String) : editorMode ("$" ++ k) = none :=
  editorMode_of_startsWith (by simp)

theorem selectorId?_of_startsWith {o : BlockOptions} (h : o.mode.startsWith "$" = false) :
    o.selectorId? = none := by
  simp [BlockOptions.selectorId?, h]

theorem selectorId?_dollar {o : BlockOptions} {k : String} (h : o.mode = "$" ++ k) :
    o.selectorId? = some ("i_" ++ k) := by
  simp [BlockOptions.selectorId?, h]

/-! ## What attaching a block does -/

/-- The text a block's label shows: the selected option's text, or the fallback when there is
no selected option or its text is empty. -/
def labelText (d : Document Reaction) (selector : Nat) (fallback : String) : String :=
  match d.selectedOptionText selector with
  | some t => if t.isEmpty then fallback else t
  | none => fallback

/-- The document with a block's label, if it has one, showing `labelText`. -/
def labelled (d : Document Reaction) (selector : Nat) (label : Option Nat) (fallback : String) :
    Document Reaction :=
  match label with
  | some l => d.setText l (labelText d selector fallback)
  | none => d

/-- An editor that was set to one more mode. -/
def Editor.withMode (mode : Option String) (e : Editor) : Editor :=
  { e with modes := e.modes ++ [mode] }

/-- The label's text at attach, the fallback of a block's label. -/
def fallbackText (d : Document Reaction) : Option Nat → String
  | some l => d.textContent l
  | none => ""

/-- The document once a block for `editor` watches `selector`: the extension is written into
the selector, the label refreshed, and the block's listener added on the selector. -/
def watched (o : BlockOptions) (editor selector : Nat) (d : Document Reaction) : Document Reaction :=
  let label := d.elementById o.labelId
  let d₁ := if o.extension.isEmpty then d else d.setValue selector o.extension
  (labelled d₁ selector label (fallbackText d label)).listen selector .change
    (.followSelector editor selector label (fallbackText d label))

/-- The document after attaching a block for `editor`, and the mode the block answers. -/
def attachedBlock (o : BlockOptions) (editor : Nat) (d : Document Reaction) :
    Document Reaction × Option String :=
  match o.selectorId? with
  | none => (d, editorMode o.mode)
  | some sid =>
    match d.elementById sid with
    | none => (d, if o.extension.isEmpty then editorMode o.mode else editorMode o.extension)
    | some selector =>
      (watched o editor selector d, editorMode ((watched o editor selector d).value selector))

theorem refreshLabel_run (p : Page) (selector : Nat) (label : Option Nat) (fallback : String) :
    (refreshLabel selector label fallback).run p =
      .ok ((), { p with doc := labelled p.doc selector label fallback }) := by
  cases label <;> rfl

theorem setMode_run (p : Page) (editor : Nat) (mode : Option String) :
    (setMode editor mode).run p =
      .ok ((), { p with editors := p.editors.modify editor (Editor.withMode mode) }) :=
  rfl

theorem followSelector_run (p : Page) (editor selector : Nat) (label : Option Nat)
    (fallback : String) :
    (followSelector editor selector label fallback).run p =
      .ok ((), { p with
        doc := labelled p.doc selector label fallback
        editors :=
          p.editors.modify editor (Editor.withMode (editorMode (p.doc.value selector))) }) := by
  unfold followSelector
  rw [run_bind_of_ok (run_doc p), run_bind_of_ok (setMode_run _ _ _), refreshLabel_run]

theorem watchSelector_run (p : Page) (editor : Nat) (o : BlockOptions) (selector : Nat) :
    (watchSelector editor o selector).run p =
      .ok (editorMode ((watched o editor selector p.doc).value selector),
        { p with doc := watched o editor selector p.doc }) := by
  unfold watchSelector watched
  rw [run_bind_of_ok (run_doc p)]
  dsimp only
  cases o.extension.isEmpty
  · simp only [Bool.not_false, ↓reduceIte]
    rw [run_bind_of_ok (run_onDoc _ _), run_bind_of_ok (refreshLabel_run _ _ _ _),
      run_bind_of_ok (run_onDoc _ _), run_bind_of_ok (run_doc _)]
    rfl
  · simp only [Bool.not_true, Bool.false_eq_true, ↓reduceIte]
    rw [run_bind_of_ok (refreshLabel_run _ _ _ _), run_bind_of_ok (run_onDoc _ _),
      run_bind_of_ok (run_doc _)]
    rfl

theorem modify_push_size {α : Type} (a : Array α) (x : α) (f : α → α) :
    (a.push x).modify a.size f = a.push (f x) := by
  apply Array.ext
  · simp
  · intro i h₁ _
    simp only [Array.getElem_modify, Array.getElem_push]
    by_cases hi : i = a.size
    · subst hi
      simp
    · have : i < a.size := by simp at h₁; omega
      simp [this, Ne.symm hi]

/-- **Attaching a block**: the page gets one editor, set once to the mode the block answers,
and the document of `attachedBlock`. -/
theorem attachBlock_run (p : Page) (o : BlockOptions) (onChange : Option Nat) :
    (attachBlock o onChange).run p = .ok ((p.blocks.length, (attachedBlock o p.editors.size p.doc).2),
      { p with
        doc := (attachedBlock o p.editors.size p.doc).1
        editors := p.editors.push
          ⟨[(attachedBlock o p.editors.size p.doc).2], if o.focus then 1 else 0, onChange.toList⟩
        blocks := p.blocks ++ [p.editors.size] }) := by
  unfold attachBlock attachedBlock
  rw [run_bind_of_ok (x := get) rfl, run_bind_of_ok (x := modify _) rfl]
  dsimp only
  -- each way of finding the mode ends the same: set it on the new editor, record the block
  have htail : ∀ (d : Document Reaction) (m : Option String),
      (do
        setMode p.editors.size m
        let p₁ ← get
        set { p₁ with blocks := p₁.blocks ++ [p.editors.size] }
        pure (p₁.blocks.length, m) : Act (Nat × Option String)).run
        { p with doc := d, editors := p.editors.push ⟨[], if o.focus then 1 else 0, onChange.toList⟩ } =
      .ok ((p.blocks.length, m), { p with
        doc := d
        editors := p.editors.push ⟨[m], if o.focus then 1 else 0, onChange.toList⟩
        blocks := p.blocks ++ [p.editors.size] }) := fun d m => by
    rw [run_bind_of_ok (setMode_run _ _ _)]
    dsimp only
    rw [modify_push_size]
    rfl
  cases o.selectorId? with
  | none => exact htail p.doc _
  | some sid =>
    rw [run_bind_of_ok (run_doc _)]
    dsimp only
    cases p.doc.elementById sid with
    | none => exact htail p.doc _
    | some selector =>
      rw [run_bind_of_ok (watchSelector_run _ _ _ _)]
      dsimp only
      exact htail _ _

/-! ## The listeners of a code block -/

/-- The editor a code block's listener names. -/
def Reaction.editor? : Reaction → Option Nat
  | .followSelector e _ _ _ => some e
  | _ => none

theorem Reaction.editor?_eq_some {r : Reaction} {e : Nat} :
    r.editor? = some e ↔ ∃ sel label fallback, r = .followSelector e sel label fallback := by
  cases r <;> simp [Reaction.editor?]

/-- Every listener of the page waits for the kind of event its reaction is for, and a code
block's names an editor of the page. -/
def Tidy (p : Page) : Prop := ∀ i, ∀ x ∈ (p.doc.node i).listeners, Added 0 p x

theorem tidy_load (html : String) (s : Settings) (viewport : Float)
    (heights : List (String × Float)) (answers : List Answer) (clipboard : List Bool) :
    Tidy (Page.load html s viewport heights answers clipboard) := fun i x hx => by
  rw [(load_untouched html s viewport heights answers clipboard).quiet i] at hx
  cases hx

theorem Tidy.retains {p q : Page} (h : Tidy p) (hr : Retains p q) : Tidy q := fun i x hx => by
  obtain ⟨m, hm, hadd⟩ := hr.listeners.listeners i
  rw [hm] at hx
  rcases List.mem_append.mp hx with hx | hx
  · exact ⟨(h i x hx).kind, fun e s l f he =>
      ⟨Nat.zero_le _, Nat.lt_of_lt_of_le ((h i x hx).editor e s l f he).2 hr.editorsSize⟩⟩
  · exact ⟨(hadd x hx).kind, fun e s l f he => ⟨Nat.zero_le _, ((hadd x hx).editor e s l f he).2⟩⟩

theorem Reaches.tidy {html : String} {s : Settings} {viewport : Float}
    {heights : List (String × Float)} {answers : List Answer} {clipboard : List Bool} {p : Page}
    (hp : Reaches (Page.load html s viewport heights answers clipboard) p) : Tidy p :=
  (tidy_load html s viewport heights answers clipboard).retains hp.retains

theorem Tidy.editor_lt {p : Page} (h : Tidy p) {i : Nat} {x : EventKind × Reaction}
    (hx : x ∈ (p.doc.node i).listeners) {e : Nat} (he : x.2.editor? = some e) :
    e < p.editors.size := by
  obtain ⟨s, l, f, hr⟩ := Reaction.editor?_eq_some.mp he
  exact ((h i x hx).editor e s l f hr).2

theorem filter_editor_eq_nil {l : List (EventKind × Reaction)} {E : Nat}
    (h : ∀ x ∈ l, x.2.editor? = some E → False) :
    l.filter (fun x => x.2.editor? == some E) = [] :=
  List.filter_eq_nil_iff.mpr fun x hx he => h x hx (by simpa using he)

/-- `r` is the only listener in `d` that names `editor`, and it waits for change events at
`selector`. -/
def SoleFollower (editor selector : Nat) (r : Reaction) (d : Document Reaction) : Prop :=
  ∀ i, (d.node i).listeners.filter (fun x => x.2.editor? == some editor) =
    if i = selector then [(.change, r)] else []

theorem keeps_labelled (d : Document Reaction) (selector : Nat) (label : Option Nat)
    (fallback : String) : Keeps d (labelled d selector label fallback) := by
  cases label
  · exact Keeps.refl d
  · exact keeps_setText _ _ _

/-- The listener a block adds for its new editor is that editor's only one. -/
theorem soleFollower_watched {p : Page} (hp : Tidy p) (o : BlockOptions) {selector : Nat}
    (hsel : selector < p.doc.nodes.size) :
    SoleFollower p.editors.size selector
      (.followSelector p.editors.size selector (p.doc.elementById o.labelId)
        (fallbackText p.doc (p.doc.elementById o.labelId)))
      (watched o p.editors.size selector p.doc) := fun i => by
  have hk : Keeps p.doc
      (if o.extension.isEmpty then p.doc else p.doc.setValue selector o.extension) := by
    split
    · exact Keeps.refl _
    · exact keeps_setValue _ _ _
  have hk' := hk.trans (keeps_labelled _ selector (p.doc.elementById o.labelId)
    (fallbackText p.doc (p.doc.elementById o.labelId)))
  unfold watched
  dsimp only
  rw [listeners_listen _ (Nat.lt_of_lt_of_le hsel hk'.size_le), hk'.listeners, List.filter_append]
  -- the page's own listeners name editors it already has, so none names the new one
  have hnone : (p.doc.node i).listeners.filter (fun x => x.2.editor? == some p.editors.size) = [] :=
    filter_editor_eq_nil fun x hx he => Nat.lt_irrefl _ (hp.editor_lt hx he)
  rw [hnone, List.nil_append]
  split <;> simp [Reaction.editor?]

theorem SoleFollower.retains {E sel n : Nat} {r : Reaction} {d d' : Document Reaction} {q : Page}
    (h : SoleFollower E sel r d) (hr : ListensMore (Added n q) d d') (hn : E < n) :
    SoleFollower E sel r d' := fun i => by
  obtain ⟨m, hm, hadd⟩ := hr.listeners i
  rw [hm, List.filter_append, h i]
  -- listeners added later name editors from the `n`-th on
  have hnone : m.filter (fun x => x.2.editor? == some E) = [] :=
    filter_editor_eq_nil fun x hx he => by
      obtain ⟨s, l, f, hx'⟩ := Reaction.editor?_eq_some.mp he
      have := ((hadd x hx).editor E s l f hx').1
      omega
  rw [hnone, List.append_nil]

/-! ## A change event -/

/-- What a listener for change events does to the document and the editors: a code block's
refreshes its label and sets its editor's mode from the selector, a coordinator's touches
neither. -/
def Reaction.follow : Reaction → Document Reaction × Array Editor → Document Reaction × Array Editor
  | .followSelector e sel label fallback, (d, eds) =>
    (labelled d sel label fallback, eds.modify e (Editor.withMode (editorMode (d.value sel))))
  | _, v => v

theorem keeps_follow (v : Document Reaction × Array Editor) :
    ∀ r : Reaction, Keeps v.1 (r.follow v).1
  | .followSelector _ _ _ _ => keeps_labelled _ _ _ _
  | .markDirty _ | .requireReload _ | .interceptSubmit _ | .dismissOverlays _ | .closeOverlays _
  | .copyField _ _ => Keeps.refl _

theorem keeps_foldl_follow (rs : List Reaction) (v : Document Reaction × Array Editor) :
    Keeps v.1 (rs.foldl (fun v r => r.follow v) v).1 := by
  induction rs generalizing v with
  | nil => exact Keeps.refl _
  | cons r rs ih => exact (keeps_follow v r).trans (ih _)

/-- A listener for change events keeps the flag and acts as `Reaction.follow` says. -/
theorem react_change (b : Bool) {r : Reaction} (hr : r.kind = .change) (q : Page) :
    ∃ q', (react b r).run q = .ok (b, q') ∧ (q'.doc, q'.editors) = r.follow (q.doc, q.editors) := by
  cases r with
  | requireReload c => exact ⟨_, rfl, rfl⟩
  | followSelector e sel label fallback =>
    refine ⟨{ q with
      doc := labelled q.doc sel label fallback
      editors := q.editors.modify e (Editor.withMode (editorMode (q.doc.value sel))) }, ?_, rfl⟩
    rw [react, run_bind_of_ok (followSelector_run _ _ _ _ _)]
    rfl
  | markDirty | interceptSubmit | dismissOverlays | closeOverlays | copyField => cases hr

theorem foldlM_react_change : ∀ (rs : List Reaction), (∀ r ∈ rs, r.kind = .change) →
    ∀ (b : Bool) (q : Page), ∃ q', (rs.foldlM react b).run q = .ok (b, q') ∧
      (q'.doc, q'.editors) = rs.foldl (fun v r => r.follow v) (q.doc, q.editors)
  | [], _, b, q => ⟨q, rfl, rfl⟩
  | r :: rs, hk, b, q => by
    obtain ⟨q₁, h₁, e₁⟩ := react_change b (hk r (List.mem_cons_self ..)) q
    obtain ⟨q₂, h₂, e₂⟩ :=
      foldlM_react_change rs (fun r hr => hk r (List.mem_cons_of_mem _ hr)) b q₁
    refine ⟨q₂, ?_, ?_⟩
    · rw [List.foldlM_cons, run_bind_of_ok h₁, h₂]
    · rw [e₂, e₁, List.foldl_cons]

theorem kind_of_mem_listenersOf {d : Document Reaction}
    (hk : ∀ i, ∀ x ∈ (d.node i).listeners, x.1 = x.2.kind) {i : Nat} {kind : EventKind}
    {r : Reaction} (hr : r ∈ d.listenersOf i kind) : r.kind = kind := by
  obtain ⟨x, hx, rfl⟩ := List.mem_map.mp hr
  obtain ⟨hx, hkind⟩ := List.mem_filter.mp hx
  rw [← hk i x hx]
  simpa using hkind

/-- The nodes of a path in turn: each runs the listeners that `q₀` has on it, since the
listeners that ran before only edit labels, which keeps every node's listeners. -/
theorem foldlM_path_change (q₀ : Page) (hk : ∀ i, ∀ x ∈ (q₀.doc.node i).listeners, x.1 = x.2.kind) :
    ∀ (path : List Nat) (b : Bool) (q : Page),
      (∀ i, (q.doc.node i).listeners = (q₀.doc.node i).listeners) →
      ∃ q', (path.foldlM (fun prevented i => do
          let listeners := (← doc).listenersOf i .change
          listeners.foldlM react prevented) b).run q = .ok (b, q') ∧
        (q'.doc, q'.editors) =
          (path.flatMap (q₀.doc.listenersOf · .change)).foldl (fun v r => r.follow v) (q.doc, q.editors)
  | [], b, q, _ => ⟨q, rfl, rfl⟩
  | i :: path, b, q, hq => by
    have hsame : q.doc.listenersOf i .change = q₀.doc.listenersOf i .change := by
      rw [listenersOf, listenersOf, hq i]
    obtain ⟨q₁, h₁, e₁⟩ := foldlM_react_change (q.doc.listenersOf i .change)
      (fun r hr => kind_of_mem_listenersOf hk (hsame ▸ hr)) b q
    have hq₁ : ∀ j, (q₁.doc.node j).listeners = (q₀.doc.node j).listeners := fun j => by
      have hd : q₁.doc = ((q.doc.listenersOf i .change).foldl (fun v r => r.follow v)
          (q.doc, q.editors)).1 := congrArg Prod.fst e₁
      rw [← hq j, hd]
      exact (keeps_foldl_follow _ _).listeners j
    obtain ⟨q₂, h₂, e₂⟩ := foldlM_path_change q₀ hk path b q₁ hq₁
    refine ⟨q₂, ?_, ?_⟩
    · have h₁' : (do
          let d ← doc
          (d.listenersOf i .change).foldlM react b : Act Bool).run q = .ok (b, q₁) := by
        rw [run_bind_of_ok (run_doc q)]
        exact h₁
      rw [List.foldlM_cons, run_bind_of_ok h₁', h₂]
    · rw [e₂, e₁, List.flatMap_cons, List.foldl_append, hsame]

/-- **A change event**: on a page whose listeners wait for their reactions' kinds of event, the
event's default is not prevented, and the document and the editors end as the listeners on the
path, in order, say by `Reaction.follow`. -/
theorem dispatch_change {q : Page} (hk : ∀ i, ∀ x ∈ (q.doc.node i).listeners, x.1 = x.2.kind)
    (n : Nat) : ∃ q', (dispatch n .change).run q = .ok (false, q') ∧
      (q'.doc, q'.editors) = ((q.doc.path n).flatMap (q.doc.listenersOf · .change)).foldl
        (fun v r => r.follow v) (q.doc, q.editors) := by
  unfold dispatch
  rw [run_bind_of_ok (run_doc q)]
  exact foldlM_path_change q hk _ false q fun _ => rfl

/-! ## The one listener that acts -/

theorem foldl_follow_filter (rs : List Reaction) (v : Document Reaction × Array Editor) :
    rs.foldl (fun v r => r.follow v) v =
      (rs.filter (·.editor?.isSome)).foldl (fun v r => r.follow v) v := by
  induction rs generalizing v with
  | nil => rfl
  | cons r rs ih => cases r <;> exact ih _

theorem filter_listenersOf_followers {d : Document Reaction} {E sel i : Nat} {r : Reaction}
    (hs : SoleFollower E sel r d)
    (hE : ∀ e s l f, Reaction.followSelector e s l f ∈ d.listenersOf i .change → e = E) :
    (d.listenersOf i .change).filter (·.editor?.isSome) = if i = sel then [r] else [] := by
  -- every code block's listener here is the editor's
  have hsame : (d.listenersOf i .change).filter (·.editor?.isSome) =
      (d.listenersOf i .change).filter (·.editor? == some E) := by
    refine List.filter_congr fun x hx => ?_
    cases x with
    | followSelector e s l f => simp [Reaction.editor?, hE e s l f hx]
    | _ => rfl
  rw [hsame, listenersOf, List.filter_map, List.filter_comm]
  have hown := hs i
  simp only [Function.comp_def] at hown ⊢
  rw [hown]
  split <;> rfl

theorem flatMap_ite_nodup {α β : Type} [DecidableEq α] {l : List α} (a : α) (L : List β)
    (hl : l.Nodup) : l.flatMap (fun i => if i = a then L else []) = if a ∈ l then L else [] := by
  induction l with
  | nil => simp
  | cons x l ih =>
    obtain ⟨hx, hl⟩ := List.nodup_cons.mp hl
    rw [List.flatMap_cons, ih hl]
    by_cases hxa : x = a
    · subst hxa
      rw [if_pos rfl, if_neg hx, if_pos List.mem_cons_self, List.append_nil]
    · by_cases ha : a ∈ l
      · rw [if_neg hxa, if_pos ha, if_pos (List.mem_cons_of_mem x ha), List.nil_append]
      · rw [if_neg hxa, if_neg ha, if_neg (by simp [ha, Ne.symm hxa])]
        rfl

/-- When the path passes the selector once and every code block's listener on it is the
editor's, the editor's one listener is the only one that acts. -/
theorem dispatch_soleFollower {q : Page} (hk : ∀ i, ∀ x ∈ (q.doc.node i).listeners, x.1 = x.2.kind)
    {E sel n : Nat} {label : Option Nat} {fallback : String}
    (hs : SoleFollower E sel (.followSelector E sel label fallback) q.doc)
    (hnd : (q.doc.path n).Nodup) (hin : sel ∈ q.doc.path n)
    (hE : ∀ i ∈ q.doc.path n, ∀ e s l f,
      Reaction.followSelector e s l f ∈ q.doc.listenersOf i .change → e = E) :
    ∃ q', (dispatch n .change).run q = .ok (false, q') ∧
      q'.doc = labelled q.doc sel label fallback ∧
      q'.editors = q.editors.modify E (Editor.withMode (editorMode (q.doc.value sel))) := by
  obtain ⟨q', h, e⟩ := dispatch_change hk n
  have hone : ((q.doc.path n).flatMap (q.doc.listenersOf · .change)).filter (·.editor?.isSome) =
      [.followSelector E sel label fallback] := by
    rw [List.filter_flatMap,
      List.flatMap_congr fun i hi => filter_listenersOf_followers hs (hE i hi),
      flatMap_ite_nodup _ _ hnd, if_pos hin]
  rw [foldl_follow_filter, hone] at e
  exact ⟨q', h, congrArg Prod.fst e, congrArg Prod.snd e⟩

theorem editorChanged_run {q : Page} {E : Nat} {ed : Editor} (h : q.editors[E]? = some ed) :
    (editorChanged E).run q = (ed.listeners.forM markDirty).run q := by
  unfold editorChanged
  rw [run_bind_of_ok (x := get) rfl, h]

theorem forM_toList_markDirty (onChange : Option Nat) :
    onChange.toList.forM markDirty = match onChange with
      | some c => markDirty c
      | none => pure () := by
  cases onChange with
  | none => rfl
  | some c => simp

/-! ## Code blocks follow their selectors -/

/-- **A code block follows its selector.** Attaching a block to a page that the editor reached
gives one new editor, set once to the mode the block answers: the key's mode when the key names
no selector; when it names `i_k` and the page has no such element, the extension's mode, or none
without an extension; and when the selector is there, the mode of its value once the extension
was written into it. In that last case, every later change event whose path passes the selector
once, and on which no other block follows a selector, leaves the editor set to the mode of the
selector's value and the label, if the block found one, showing the selected option's text, or
the label's text at attach when that is empty. Each change of the editor marks its coordinator,
if it has one, once. -/
theorem code_block_follows_selector {html : String} {s : Settings} {viewport : Float}
    {heights : List (String × Float)} {answers : List Answer} {clipboard : List Bool} {p : Page}
    (hp : Reaches (Page.load html s viewport heights answers clipboard) p)
    (o : BlockOptions) (onChange : Option Nat) :
    ∃ mode p₁, (attachBlock o onChange).run p = .ok ((p.blocks.length, mode), p₁) ∧
      p₁.editors = p.editors.push ⟨[mode], if o.focus then 1 else 0, onChange.toList⟩ ∧
      (o.mode.startsWith "$" = false → mode = editorMode o.mode) ∧
      (∀ k, o.mode = "$" ++ k → p.doc.elementById ("i_" ++ k) = none →
        mode = if o.extension.isEmpty then none else editorMode o.extension) ∧
      (∀ k sel, o.mode = "$" ++ k → p.doc.elementById ("i_" ++ k) = some sel →
        mode = editorMode (p₁.doc.value sel) ∧
        ∀ q n, Reaches p₁ q → Forest q.doc → sel ∈ q.doc.path n →
          (∀ i ∈ q.doc.path n, ∀ e s l f,
            Reaction.followSelector e s l f ∈ q.doc.listenersOf i .change → e = p.editors.size) →
          ∃ q', (dispatch n .change).run q = .ok (false, q') ∧ p.editors.size < q.editors.size ∧
            q'.editors = q.editors.modify p.editors.size
              (fun ed => { ed with modes := ed.modes ++ [editorMode (q.doc.value sel)] }) ∧
            ∀ l, p.doc.elementById o.labelId = some l →
              q'.doc.textContent l = labelText q.doc sel (p.doc.textContent l)) ∧
      ∀ q, Reaches p₁ q → (editorChanged p.editors.size).run q =
        (match onChange with
          | some c => markDirty c
          | none => pure ()).run q := by
  have hrun := attachBlock_run p o onChange
  have hret := retaining_attachBlock o onChange p _ _ hrun
  refine ⟨_, _, hrun, rfl, fun hplain => ?_, fun k hk hnone => ?_, fun k sel hk hsel => ?_,
    fun q hq => ?_⟩
  · rw [attachedBlock, selectorId?_of_startsWith hplain]
  · rw [attachedBlock, selectorId?_dollar hk]
    dsimp only
    rw [hnone]
    dsimp only
    rw [hk, editorMode_dollar]
  · have hatt : attachedBlock o p.editors.size p.doc = (watched o p.editors.size sel p.doc,
        editorMode ((watched o p.editors.size sel p.doc).value sel)) := by
      rw [attachedBlock, selectorId?_dollar hk]
      dsimp only
      rw [hsel]
    refine ⟨by rw [hatt], fun q n hq hf hin hE => ?_⟩
    have hr := hq.retains
    have hpq := hret.trans hr
    -- the block's listener is the only one of its editor, on every page after the attach
    have hsole := (soleFollower_watched hp.tidy o (elementById_element hsel).1).retains
      (hatt ▸ hr.listeners) (by simp)
    have hsize : p.editors.size < q.editors.size :=
      Nat.lt_of_lt_of_le (by simp) hr.editorsSize
    obtain ⟨q', hd, hdoc, heds⟩ := dispatch_soleFollower
      (fun i x hx => ((hp.tidy.retains hpq) i x hx).kind) hsole (Climbs.nodup hf (hf.path_climbs n))
      hin hE
    refine ⟨q', hd, hsize, heds, fun l hl => ?_⟩
    -- the label is an element of the page, and stays one
    obtain ⟨hlt, htext⟩ := elementById_element hl
    have hlt' := Nat.lt_of_lt_of_le hlt hpq.listeners.size_le
    have htext' : (q.doc.node l).isText = false := by
      rw [Node.isText, hpq.listeners.tag l hlt]
      exact htext
    rw [hdoc, hl]
    exact textContent_setText hlt' htext' _
  · obtain ⟨ed, hed, hlis, -⟩ := hq.retains.editors p.editors.size
      ⟨[(attachedBlock o p.editors.size p.doc).2], if o.focus then 1 else 0, onChange.toList⟩ (by simp)
    rw [editorChanged_run hed, hlis, forM_toList_markDirty]

/-- A block keyed to a selector the page has, whose option has a text: the editor takes the
option's mode, and a change at the selector sets it again and shows the option's text in the
label. -/
theorem code_block_follows_selector_select :
    let p := Page.load
      "<label id=\"l_c\">Content</label><select id=\"i_t\"><option value=\"md\">Markdown</option></select>"
      {} 768 [] [] []
    ∃ mode p₁, (attachBlock ⟨"i_c", "$t", "", false⟩ none).run p = .ok ((0, mode), p₁) ∧
      mode = some "markdown" ∧
      ∃ q', (dispatch 4 .change).run p₁ = .ok (false, q') ∧
        q'.editors = p₁.editors.modify 0 (Editor.withMode (some "markdown")) ∧
        q'.doc.textContent 2 = "Markdown" := by
  intro p
  let o : BlockOptions := ⟨"i_c", "$t", "", false⟩
  obtain ⟨mode, p₁, hrun, -, -, -, hsel, -⟩ := code_block_follows_selector (.refl p) o none
  obtain ⟨hsel4, hlab, hpath, h4, h1, h0, hval, hlt, htext, hshow⟩ :
      p.doc.elementById ("i_" ++ "t") = some 4 ∧ p.doc.elementById o.labelId = some 2 ∧
      (watched o 0 4 p.doc).path 4 = [4, 1, 0] ∧
      (watched o 0 4 p.doc).listenersOf 4 .change = [.followSelector 0 4 (some 2) "Content"] ∧
      (watched o 0 4 p.doc).listenersOf 1 .change = [] ∧
      (watched o 0 4 p.doc).listenersOf 0 .change = [] ∧
      (watched o 0 4 p.doc).value 4 = "md" ∧ 2 < p.doc.nodes.size ∧ (p.doc.node 2).isText = false ∧
      labelText (watched o 0 4 p.doc) 4 (p.doc.textContent 2) = "Markdown" := by
    decide +kernel
  -- the page after the attach is the one `attachBlock_run` gives, its document `watched`
  have hatt : attachedBlock o p.editors.size p.doc =
      (watched o 0 4 p.doc, editorMode ((watched o 0 4 p.doc).value 4)) := by
    rw [attachedBlock, selectorId?_dollar (k := "t") rfl]
    dsimp only
    rw [hsel4]
    rfl
  have hp₁ : p₁.doc = watched o 0 4 p.doc := by
    have hrec := (Prod.mk.inj (Except.ok.inj ((attachBlock_run p o none).symm.trans hrun))).2
    rw [← hrec, hatt]
  have hdoc : (watched o 0 4 p.doc) = (p.doc.setText 2 (labelText p.doc 4 (p.doc.textContent 2))).listen
      4 .change (.followSelector 0 4 (some 2) (p.doc.textContent 2)) := by
    unfold watched
    rw [hlab]
    rfl
  have hf : Forest (watched o 0 4 p.doc) := by
    have hr : Restyled (withBody
        "<label id=\"l_c\">Content</label><select id=\"i_t\"><option value=\"md\">Markdown</option></select>" :
        Document Reaction) p.doc :=
      ⟨⟨rfl, fun _ => rfl, fun _ => rfl⟩, fun _ => rfl⟩
    rw [hdoc]
    exact (((Reachable.withBody _).forest.restyle hr).setText hlt htext _).restyle
      (restyled_listen _ _ _ _)
  obtain ⟨hmode, hfollow⟩ := hsel "t" 4 rfl hsel4
  -- the block's listener is the only follower on the selector's path
  have hE : ∀ i ∈ p₁.doc.path 4, ∀ e s l f, Reaction.followSelector e s l f ∈
      p₁.doc.listenersOf i .change → e = p.editors.size := by
    intro i hi e s l f hm
    rw [hp₁, hpath] at hi
    rw [hp₁] at hm
    rcases List.mem_cons.mp hi with rfl | hi
    · rw [h4, List.mem_singleton] at hm
      cases hm
      rfl
    rcases List.mem_cons.mp hi with rfl | hi
    · rw [h1] at hm
      cases hm
    · rw [List.mem_singleton.mp hi, h0] at hm
      cases hm
  obtain ⟨q', hd, -, heds, hlabel⟩ := hfollow p₁ 4 (.refl _) (hp₁ ▸ hf) (mem_path_self _ 4) hE
  refine ⟨mode, p₁, hrun, ?_, q', hd, ?_, ?_⟩
  · rw [hmode, hp₁, hval]
    rfl
  · rw [heds, hp₁, hval]
    rfl
  · rw [hlabel 2 hlab, hp₁, hshow]

/-- Two blocks on one selector and one label, the label's text changed between their attaches:
the label reads `Content` when the first block attaches, yet after a change of the selector,
whose option has no text, it shows `Other`, the fallback of the later block. -/
theorem shared_label_shows_later_fallback :
    let p := Page.load
      "<label id=\"l_c\">Content</label><select id=\"i_t\"><option value=\"md\"></option></select>"
      {} 768 [] [] []
    let o : BlockOptions := ⟨"i_c", "$t", "", false⟩
    p.doc.textContent 2 = "Content" ∧
      ((do
        let _ ← attachBlock o none
        onDoc (·.setText 2 "Other")
        let _ ← attachBlock o none
        dispatch 4 .change : Act Bool).run p).toOption.map (fun r => r.2.doc.textContent 2) =
        some "Other" := by
  decide +kernel

end PageEditor.Ui
