import PageEditor.Proofs.Markup.Siblings
import PageEditor.Proofs.Overlay.Layers
import PageEditor.Proofs.Page.Clock
import PageEditor.Proofs.Coordinator.Activity
/-!
# PageEditor.Proofs.Page.Copying

Copy fields, and the indicator each completed copy shows.

A copy component wires, at attach, every element of the page carrying the copy class. A click
that reaches such fields, on the field or inside it, selects each of them in turn, from the
innermost out, and spawns one write of each field's value as it stands at the click
(`dispatch_click`); the value does not depend on the selection (`value_of_nodes`). When the
executor runs, each write takes the clipboard's next answer; the text is kept only when the
write worked; and, if the field still has a parent, an indicator is put just before it,
carrying the copied class and notice, or the failure class and notice, and a timer is booked
to remove it after the indicator delay. If the field has no parent, nothing is shown and
nothing is booked (`Completed`, `Wired.complete`; a whole run is `Completes`, `Wired.run`).
The booking fails when the removal would fall due past the largest word.

`indicated_spec` says what the indicator does to the document: it is a new element, the
field's immediately preceding sibling, with exactly the class list and the text of the notice,
and no other node changes its children or its parent.

`Copying` is every page that clicks, runs of the executor, advances, removals and changes of
values reach from a loaded page where a copy component was attached; on each of them the
component's listeners are exactly those of the fields wired at attach, every waiting job is a
write of the component and every waiting timer removes a node (`Wired`, `Copying.wired`), so
each advance runs the due removals in key order at their due times (`copies_indicated`).
-/
namespace PageEditor.Markup.Document

variable {σ : Type} {d : Document σ}

/-! ## Writing a text into a new node -/

theorem attributes_setText (d : Document σ) {x j : Nat} (hj : j < d.nodes.size) (text : String) :
    ((d.setText x text).node j).attributes = (d.node j).attributes := by
  rw [setText_eq]
  split
  · exact attributes_clearChildren d x j
  · unfold Document.sprout
    rw [attributes_append, node_alloc, if_neg (by rw [size_clearChildren]; omega),
      attributes_clearChildren]

/-- Writing the text of a childless node `d₀` does not have keeps the old nodes settled. -/
theorem Settled.setText_new {d₀ : Document σ} (h : Settled d₀ d) {x : Nat}
    (hx : d₀.nodes.size ≤ x) (hkids : (d.node x).children = []) (text : String) :
    Settled d₀ (d.setText x text) := by
  have hcl : Settled d₀ (d.clearChildren x) := by
    have hm := h.modify x (f := fun n => { n with children := [] }) (.inl hx)
    simpa only [clearChildren, hkids, List.foldl_nil] using hm
  rw [setText_eq]
  split
  · exact hcl
  · exact hcl.sprout _ _

/-! ## Readers see only the nodes

A copy reads a field's value after the click selected it; the selection is not among the nodes,
and the value, like every reader it rests on, depends on the nodes alone. -/

section Readers

variable {d' : Document σ} (h : d'.nodes = d.nodes)
include h

theorem node_of_nodes (i : Nat) : d'.node i = d.node i := by rw [node, node, h]

theorem textContent_of_nodes (i : Nat) : d'.textContent i = d.textContent i := by
  -- the walk reads only nodes, at every amount of fuel
  have walk : ∀ fuel j, textContent.walk d' fuel j = textContent.walk d fuel j := by
    intro fuel
    induction fuel with
    | zero => intro j; rfl
    | succ fuel ih => intro j; simp only [textContent.walk, node_of_nodes h, funext ih]
  rw [textContent, textContent, walk, h]

theorem descendants_of_nodes (r : Nat) : d'.descendants r = d.descendants r := by
  have go : ∀ fuel l, descendants.go d' fuel l = descendants.go d fuel l := by
    intro fuel
    induction fuel with
    | zero => intro l; rfl
    | succ fuel ih =>
      intro l
      cases l with
      | nil => rfl
      | cons i rest => simp only [descendants.go, node_of_nodes h, ih]
  rw [descendants, descendants, go, h, node_of_nodes h]

theorem value_of_nodes (i : Nat) : d'.value i = d.value i := by
  have hattr : d'.attribute? = d.attribute? := by
    funext j name
    rw [attribute?, attribute?, node_of_nodes h]
  have hopt : d'.optionValue = d.optionValue := by
    funext o
    rw [optionValue, optionValue, hattr, textContent_of_nodes h]
  have hopts : d'.options i = d.options i := by
    rw [options, options, descendants_of_nodes h]
    simp only [node_of_nodes h]
  rw [value, value, selectedOptions, selectedOptions, hopts, hattr, node_of_nodes h, hopt,
    textContent_of_nodes h]

theorem keeps_of_nodes : Keeps d d' :=
  ⟨h ▸ Nat.le_refl _, fun i _ => by rw [node_of_nodes h], fun i _ => by rw [node_of_nodes h],
    fun i => by rw [node_of_nodes h]⟩

theorem restyled_of_nodes : Restyled d d' :=
  ⟨⟨by rw [h], fun j => by rw [node_of_nodes h], fun j => by rw [node_of_nodes h]⟩,
    fun j => by rw [node_of_nodes h]⟩

end Readers

@[simp] theorem value_selectText (d : Document σ) (i f : Nat) :
    (d.selectText i).value f = d.value f :=
  @value_of_nodes σ d (d.selectText i) rfl f

/-- Selecting texts, one after another, leaves the nodes as they are. -/
theorem nodes_foldl_selectText (l : List Nat) (d : Document σ) :
    (l.foldl selectText d).nodes = d.nodes := by
  induction l generalizing d with
  | nil => rfl
  | cons i l ih => exact ih (d.selectText i)

/-! ## An indicator before a field -/

/-- The document with a new element, carrying the class list `look.1` and the text `look.2`,
put just before `f` among the children of `par`. -/
def indicated (d : Document σ) (par f : Nat) (look : String × String) : Document σ :=
  (((d.createElement "div").2.setClassName d.nodes.size look.1).setText d.nodes.size
    look.2).insertBefore par d.nodes.size f

/-- What putting an indicator `x` before the field `f` in `par` does to a document. -/
structure Indicated (d d' : Document σ) (par f x : Nat) (look : String × String) : Prop where
  forest : Forest d'
  grown : Grown d'
  keeps : Keeps d d'
  settled : Settled d d'
  /-- The indicator is a new node. -/
  index : x = d.nodes.size
  lt_size : x < d'.nodes.size
  /-- It is the field's immediately preceding sibling; the other children keep their order. -/
  sibling : ∃ pre post, (d.node par).children = pre ++ f :: post ∧
    (d'.node par).children = pre ++ x :: f :: post
  parent : (d'.node x).parent = some par
  /-- Its class list and its text are those of the notice. -/
  className : d'.className x = look.1
  text : d'.textContent x = look.2
  /-- No other old node changes its children. -/
  children : ∀ j < d.nodes.size, j ≠ par → (d'.node j).children = (d.node j).children

/-- **An indicator goes just before its field**, in a grown forest where the field has the
parent `par`. -/
theorem indicated_spec (hf : Forest d) (hg : Grown d) {par f : Nat}
    (hpar : (d.node f).parent = some par) (look : String × String) :
    Indicated d (indicated d par f look) par f d.nodes.size look := by
  set x := d.nodes.size
  set e₁ := (d.createElement "div").2.setClassName x look.1
  set e₂ := e₁.setText x look.2
  have hfr : Fresh d e₁ x look.1 := fresh_classed hf hg (by decide +kernel) look.1
  have hx₁ : x < e₁.nodes.size := hfr.lt_size
  have hkids₁ : (e₁.node x).children = [] := children_classed d "div" look.1
  -- the text goes below the new node only
  have hset : Settled d e₂ := hfr.settled.setText_new (Nat.le_refl _) hkids₁ look.2
  have hkeep₂ : Keeps d e₂ := hfr.keeps.trans (keeps_setText _ _ _)
  have hkept₂ : ChildrenKept d e₂ x :=
    ChildrenKept.setText (fun j hj _ => hfr.children j hj) hfr.keeps look.2
  have hf₂ : Forest e₂ := hfr.forest.setText hx₁ hfr.element look.2
  have hg₂ : Grown e₂ := hfr.grown.setText hx₁ look.2
  have hx₂ : x < e₂.nodes.size := Nat.lt_of_lt_of_le hx₁ (keeps_setText e₁ x look.2).size_le
  have horph₂ : (e₂.node x).parent = none := parent_setText_self hfr.orphan hx₁ look.2
  have hparlt : par < x := hf.parent_lt hpar
  have hpar₂ : par < e₂.nodes.size := Nat.lt_trans hparlt hx₂
  have hfmem : f ∈ (d.node par).children := hf.listed par f hpar
  obtain ⟨pre, post, hsplit, hfpre⟩ := exists_split_of_mem (hf.nodup par) hfmem
  have hkids₂ : (e₂.node par).children = pre ++ f :: post := by
    rw [hkept₂ par hparlt (Nat.ne_of_lt hparlt), hsplit]
  -- the parent is an element, as it has a child
  have hpt : (e₂.node par).isText = false := by
    rw [hset.isText hparlt]
    cases ht : (d.node par).isText
    · rfl
    · rw [hf.leaves par ht] at hfmem
      cases hfmem
  have hnotanc : ¬ Ancestor e₂ x par := fun h => Nat.lt_asymm hparlt (hf₂.ancestor_lt hg₂ h)
  have hkeep₃ := keeps_insertBefore e₂ par x f
  have hkept₃ := childrenKept_insertBefore horph₂ hpar₂ f
  constructor
  case forest =>
    exact hf₂.insertBefore f hpar₂ hx₂ hpt (Nat.ne_of_gt (Nat.lt_of_le_of_lt (Nat.zero_le _) hparlt))
      (Nat.ne_of_gt hparlt) hnotanc
  case grown => exact hg₂.insertBefore_orphan horph₂ hparlt hx₂ f
  case keeps => exact hkeep₂.trans hkeep₃
  case settled => exact hset.insertBefore par (Nat.le_refl _) f
  case index => rfl
  case lt_size =>
    rw [indicated, size_insertBefore]
    exact hx₂
  case sibling => exact ⟨pre, post, hsplit, children_insertBefore_child horph₂ hpar₂ hkids₂ hfpre⟩
  case parent => rw [indicated, parent_insertBefore horph₂ hx₂, if_pos rfl]
  case className =>
    -- the class attribute was set on the new node and nothing rewrote it
    have hattr : ((indicated d par f look).node x).attributes =
        ((Node.blank "div").setAttribute "class" look.1 : Node σ).attributes := by
      rw [indicated, attributes_insertBefore, attributes_setText _ hx₁, node_classed, if_pos rfl]
      rfl
    have hclass : ((indicated d par f look).node x).attribute? "class" = some look.1 := by
      unfold Node.attribute?
      rw [hattr]
      exact Node.attribute?_setAttribute_self _ _ _
    rw [className, attribute?, hclass, Option.getD_some]
  case text =>
    -- the text was written into the new node, and the insertion changed only `par`'s children
    have hbelow : ¬ Below e₂ x par :=
      fun h => Nat.lt_irrefl _ (Nat.lt_of_le_of_lt (h.le hg₂) hparlt)
    rw [indicated, textContent_eq_of_kept hg₂ hkeep₃ hkept₃ hx₂ hbelow]
    exact textContent_setText hx₁ hfr.element look.2
  case children =>
    intro j hj hjp
    rw [indicated, children_insertBefore horph₂ hpar₂, if_neg hjp]
    exact hkept₂ j hj (Nat.ne_of_lt hj)

end PageEditor.Markup.Document

namespace PageEditor.Ui

open Markup Markup.Document Timeline

/-! ## A click on copy fields -/

/-- The click listeners of a document are those a copy component `id` wired on the fields `F`,
one on each, and there are no others. -/
def WiredOn (id : Nat) (F : List Nat) (d : Document Reaction) : Prop :=
  ∀ i kind, d.listenersOf i kind = if kind = .click ∧ i ∈ F then [.copyField id i] else []

theorem WiredOn.keeps {id : Nat} {F : List Nat} {d d' : Document Reaction} (h : WiredOn id F d)
    (hk : Keeps d d') : WiredOn id F d' := by
  intro i kind
  rw [← h i kind, listenersOf, listenersOf, hk.listeners i]

@[simp] theorem run_copies? (p : Page) (id : Nat) :
    (copies? id).run p = .ok (p.copies.find? (·.id == id), p) := rfl

/-- A click on a field of a live component selects the field and spawns the write of its
value. -/
theorem copyField_run {id f : Nat} {q : Page} {c : CopyFields}
    (hc : q.copies.find? (·.id == id) = some c) (he : c.executor = q.executor) :
    (copyField id f).run q =
      .ok ((), { q with
        doc := q.doc.selectText f
        jobs := q.jobs ++ [.copy id f (q.doc.value f)] }) := by
  rw [copyField, run_bind_of_ok (run_copies? q id), hc]
  simp only [run_bind_of_ok (run_onDoc q _), StateT.run_bind, run_doc, except_ok_bind, spawn_run,
    if_pos he, value_selectText]
  rfl

/-- The page after a click whose path up the tree is `path`: each field of `F` on the path,
innermost first, is selected, and the write of its value is spawned. -/
def clickCopies (id : Nat) (F : List Nat) (path : List Nat) (p : Page) : Page :=
  { p with
    doc := (path.filter (· ∈ F)).foldl Document.selectText p.doc
    jobs := p.jobs ++ (path.filter (· ∈ F)).map fun f => .copy id f (p.doc.value f) }

theorem clickCopies_nodes (id : Nat) (F path : List Nat) (p : Page) :
    (clickCopies id F path p).doc.nodes = p.doc.nodes :=
  nodes_foldl_selectText _ _

/-- A walk up a path is the walk through its first node, then through the rest: a value read
later is the same, as selecting changes no node. -/
theorem clickCopies_cons (id : Nat) (F : List Nat) (i : Nat) (rest : List Nat) (p : Page) :
    clickCopies id F (i :: rest) p = clickCopies id F rest (clickCopies id F [i] p) := by
  by_cases hi : i ∈ F <;> simp [clickCopies, hi]

section Click

variable {id : Nat} {F : List Nat} {c : CopyFields}

/-- The click listeners of one node: a field spawns its write, any other node has none. -/
theorem click_node {q : Page} (hw : WiredOn id F q.doc) (hc : q.copies.find? (·.id == id) = some c)
    (he : c.executor = q.executor) (i : Nat) (prev : Bool) :
    ((q.doc.listenersOf i .click).foldlM react prev).run q =
      .ok (prev, clickCopies id F [i] q) := by
  rw [hw i .click]
  by_cases hi : i ∈ F
  · rw [if_pos ⟨rfl, hi⟩]
    simp only [List.foldlM_cons, List.foldlM_nil, react, StateT.run_bind, copyField_run hc he,
      except_ok_bind]
    simp [clickCopies, hi]
  · rw [if_neg fun h => hi h.2]
    simp [clickCopies, hi]

/-- **A click copies every field it passes through.** On a page whose click listeners are those
of a live component `id` on the fields `F`, a click on a node selects each field among the node
and its ancestors, innermost first, and spawns the write of each one's value as it is at the
click; nothing else changes, and the click's default is not prevented. -/
theorem dispatch_click {p : Page} (hw : WiredOn id F p.doc)
    (hc : p.copies.find? (·.id == id) = some c) (he : c.executor = p.executor) (n : Nat) :
    (dispatch n .click).run p = .ok (false, clickCopies id F (p.doc.path n) p) := by
  -- the walk up the path, one node at a time; the listeners stay those of the fields
  have walk : ∀ (path : List Nat) (prev : Bool) (q : Page), WiredOn id F q.doc →
      q.copies.find? (·.id == id) = some c → c.executor = q.executor →
      (path.foldlM (fun prev i => do
        let listeners := (← doc).listenersOf i .click
        listeners.foldlM react prev) prev).run q = .ok (prev, clickCopies id F path q) := by
    intro path
    induction path with
    | nil => intro prev q _ _ _; simp [clickCopies]
    | cons i rest ih =>
      intro prev q hw hc he
      have hw₁ : WiredOn id F (clickCopies id F [i] q).doc :=
        hw.keeps (keeps_of_nodes (clickCopies_nodes id F [i] q))
      simp only [List.foldlM_cons, StateT.run_bind, run_doc, except_ok_bind, click_node hw hc he,
        ih prev _ hw₁ hc he, clickCopies_cons id F i rest q]
  simp only [dispatch, StateT.run_bind, run_doc, except_ok_bind, walk _ _ _ hw hc he]

end Click

/-! ## A completed copy -/

theorem run_nextClipboardAnswer (p : Page) :
    nextClipboardAnswer.run p =
      .ok (p.clipboardAnswers.headD true,
        { p with clipboardAnswers := p.clipboardAnswers.tail }) := by
  unfold nextClipboardAnswer
  obtain ⟨_, _, _, _, _, _, _, _, _, _, _, _, _, _, clip, _, _⟩ := p
  cases clip <;> simp

@[simp] theorem run_updateCopies (p : Page) (id : Nat) (f : CopyFields → CopyFields) :
    (updateCopies id f).run p =
      .ok ((), { p with copies := p.copies.map fun c => if c.id == id then f c else c }) :=
  rfl

section Indicator

variable {id f : Nat} {ok : Bool} {p : Page}

/-- A field without a parent gets no indicator. -/
theorem showIndicator_orphan (h : (p.doc.node f).parent = none) :
    (showIndicator id f ok).run p = .ok ((), p) := by
  simp [showIndicator, h]

/-- A field with a parent gets the indicator before it, and the removal is booked once the
indicator is in place. -/
theorem showIndicator_parent {par : Nat} (h : (p.doc.node f).parent = some par) :
    (showIndicator id f ok).run p =
      (do
        let key ← schedule p.settings.copiedIndicatorMs (.detach p.doc.nodes.size)
        updateCopies id fun c => { c with timers := c.timers ++ [key] }).run
        { p with doc := indicated p.doc par f (indicatorLook p.settings ok) } := by
  simp only [showIndicator, StateT.run_bind, run_doc, except_ok_bind, h, run_settings,
    run_withDoc, run_onDoc, createElement, alloc_fst, indicated]

/-- The removal is due the indicator delay after the clock; when that fits in a word, the
component keeps the removal's key. -/
theorem showIndicator_fits {par : Nat} (h : (p.doc.node f).parent = some par)
    (hfit : p.timeline.now + p.settings.copiedIndicatorMs ≤ wordLimit) :
    (showIndicator id f ok).run p =
      .ok ((), { p with
        doc := indicated p.doc par f (indicatorLook p.settings ok)
        timeline := (p.timeline.schedule p.settings.copiedIndicatorMs (.detach p.doc.nodes.size)).2
        copies := p.copies.map fun c => if c.id == id then
          { c with timers := c.timers ++
            [⟨p.timeline.now + p.settings.copiedIndicatorMs, p.timeline.nextSeq⟩] }
          else c }) := by
  rw [showIndicator_parent h, StateT.run_bind, schedule_run, if_pos hfit, except_ok_bind,
    run_updateCopies]

/-- Otherwise the copy fails with the clock and the delay. -/
theorem showIndicator_overflow {par : Nat} (h : (p.doc.node f).parent = some par)
    (hover : wordLimit < p.timeline.now + p.settings.copiedIndicatorMs) :
    (showIndicator id f ok).run p = .error ⟨p.timeline.now, p.settings.copiedIndicatorMs⟩ := by
  rw [showIndicator_parent h, StateT.run_bind, schedule_run, if_neg (Nat.not_le.mpr hover)]
  rfl

end Indicator

/-- The page once the clipboard answered a write of `text`: the answer is used up, and the
text is kept when the write worked. -/
def clipped (p : Page) (text : String) : Page :=
  { p with
    clipboardAnswers := p.clipboardAnswers.tail
    written := p.written ++ if p.clipboardAnswers.headD true then [text] else [] }

/-- A write of a live component takes the clipboard's next answer, keeps the text when the
write worked, and shows the indicator. -/
theorem copyJob_run {id f : Nat} {text : String} {p : Page}
    (hc : (p.copies.find? (·.id == id)).isSome) :
    (Job.run (.copy id f text)).run p =
      (showIndicator id f (p.clipboardAnswers.headD true)).run (clipped p text) := by
  rw [Job.run, run_bind_of_ok (run_nextClipboardAnswer p), clipped]
  generalize p.clipboardAnswers.headD true = ok
  cases ok
  · simp only [Bool.false_eq_true, ↓reduceIte, StateT.run_bind, run_copies?, except_ok_bind, hc,
      List.append_nil]
  · simp only [↓reduceIte, StateT.run_bind, StateT.run_modify, except_pure, except_ok_bind,
      run_copies?, hc]

/-! ## What a completed copy leaves -/

/-- What the completed write of the field `f` with the text `text`, by the component `id`,
makes of the page `q`: the page `q'`. The clipboard's next answer says whether the write
worked. -/
structure Completed (id f : Nat) (text : String) (q q' : Page) : Prop where
  /-- The clipboard's answer is used up. -/
  answers : q'.clipboardAnswers = q.clipboardAnswers.tail
  /-- The text is kept when the write worked. -/
  written : q'.written = q.written ++ if q.clipboardAnswers.headD true then [text] else []
  /-- A field without a parent gets no indicator and no timer. -/
  orphan : (q.doc.node f).parent = none →
    q'.doc = q.doc ∧ q'.timeline = q.timeline ∧ q'.copies = q.copies
  /-- A field with a parent gets one new element just before it, with the look of the answer;
  one removal of it is booked, due the indicator delay after the clock, and the component keeps
  its key. -/
  shown : ∀ par, (q.doc.node f).parent = some par →
    Indicated q.doc q'.doc par f q.doc.nodes.size
        (indicatorLook q.settings (q.clipboardAnswers.headD true)) ∧
      q'.timeline =
        (q.timeline.schedule q.settings.copiedIndicatorMs (.detach q.doc.nodes.size)).2 ∧
      q'.copies = q.copies.map fun c => if c.id == id then
        { c with timers := c.timers ++
          [⟨q.timeline.now + q.settings.copiedIndicatorMs, q.timeline.nextSeq⟩] } else c
  /-- Nothing else changes. -/
  frame : q' = { q with
    doc := q'.doc, timeline := q'.timeline, copies := q'.copies,
    clipboardAnswers := q'.clipboardAnswers, written := q'.written }

/-- A completed copy leaves the clock and the settings as they were. -/
theorem Completed.now_settings {id f : Nat} {text : String} {q q' : Page}
    (h : Completed id f text q q') :
    q'.timeline.now = q.timeline.now ∧ q'.settings = q.settings := by
  refine ⟨?_, by rw [h.frame]⟩
  cases hpar : (q.doc.node f).parent with
  | none => rw [(h.orphan hpar).2.1]
  | some par => rw [(h.shown par hpar).2.1, schedule_now]

/-- The writes of a run of the executor, completed one after another, each against the page the
ones before it left. -/
inductive Completes (id : Nat) : List Job → Page → Page → Prop
  | nil (q : Page) : Completes id [] q q
  | cons {f : Nat} {text : String} {js : List Job} {q q₁ q₂ : Page} :
      Completed id f text q q₁ → Completes id js q₁ q₂ →
        Completes id (.copy id f text :: js) q q₂

/-- The run of one write is that write's completion. -/
theorem Completes.singleton {id f : Nat} {text : String} {q q' : Page}
    (h : Completes id [.copy id f text] q q') : Completed id f text q q' := by
  cases h with
  | cons hd hrest =>
    cases hrest
    exact hd

/-! ## What holds all along a run of a copy component -/

/-- What holds of a page all along a run of the copy component `id` wired on the fields `F`:
the document is a grown forest whose click listeners are exactly the component's, the component
is the only one and spawns into the current executor, every waiting job is one of its writes,
and every waiting timer removes a node. -/
structure Wired (id : Nat) (F : List Nat) (p : Page) : Prop where
  forest : Forest p.doc
  grown : Grown p.doc
  wired : WiredOn id F p.doc
  live : ∃ timers, p.copies = [⟨id, timers, p.executor⟩]
  jobs : ∀ j ∈ p.jobs, ∃ f text, j = .copy id f text
  timed : Timed p.timeline

section Wired

variable {id : Nat} {F : List Nat}

theorem Wired.find {p : Page} (hw : Wired id F p) :
    ∃ c, p.copies.find? (·.id == id) = some c ∧ c.executor = p.executor := by
  obtain ⟨timers, hc⟩ := hw.live
  exact ⟨⟨id, timers, p.executor⟩, by simp [hc], rfl⟩

/-- On a page of a run the component is live, so its writes complete. -/
theorem Wired.write_run {q : Page} (hw : Wired id F q) (f : Nat) (text : String) :
    (Job.run (.copy id f text)).run q =
      (showIndicator id f (q.clipboardAnswers.headD true)).run (clipped q text) := by
  obtain ⟨c, hc, -⟩ := hw.find
  exact copyJob_run (by rw [hc]; rfl)

/-- **A completed copy shows its indicator.** On a page of a run, the write of a field
completes as `Completed` says, when it goes through, and the page stays one of the run. -/
theorem Wired.complete {q q' : Page} (hw : Wired id F q) {f : Nat} {text : String}
    (h : (Job.run (.copy id f text)).run q = .ok ((), q')) :
    Completed id f text q q' ∧ Wired id F q' := by
  rw [hw.write_run] at h
  cases hpar : (q.doc.node f).parent with
  | none =>
    rw [showIndicator_orphan (p := clipped q text) hpar] at h
    obtain rfl := (Prod.mk.inj (Except.ok.inj h)).2.symm
    exact ⟨⟨rfl, rfl, fun _ => ⟨rfl, rfl, rfl⟩, (fun _ h => nomatch hpar.symm.trans h), rfl⟩,
      ⟨hw.forest, hw.grown, hw.wired, hw.live, hw.jobs, hw.timed⟩⟩
  | some par =>
    by_cases hfit : q.timeline.now + q.settings.copiedIndicatorMs ≤ wordLimit
    · rw [showIndicator_fits (p := clipped q text) hpar hfit] at h
      obtain rfl := (Prod.mk.inj (Except.ok.inj h)).2.symm
      have hind := indicated_spec hw.forest hw.grown hpar
        (indicatorLook q.settings (q.clipboardAnswers.headD true))
      obtain ⟨timers, hcs⟩ := hw.live
      refine ⟨⟨rfl, rfl, (fun h => nomatch hpar.symm.trans h), fun par' h => ?_, rfl⟩,
        ⟨hind.forest, hind.grown, hw.wired.keeps hind.keeps,
          ⟨timers ++ [⟨q.timeline.now + q.settings.copiedIndicatorMs, q.timeline.nextSeq⟩],
            by simp [clipped, hcs]⟩, hw.jobs, hw.timed.schedule _ _⟩⟩
      obtain rfl := Option.some.inj (hpar.symm.trans h)
      exact ⟨hind, rfl, rfl⟩
    · rw [showIndicator_overflow (p := clipped q text) hpar (Nat.lt_of_not_le hfit)] at h
      cases h

/-- The write goes through when the removal of an indicator falls due within a word. -/
theorem Wired.complete_ok {q : Page} (hw : Wired id F q)
    (hfit : q.timeline.now + q.settings.copiedIndicatorMs ≤ wordLimit) (f : Nat) (text : String) :
    ∃ q', (Job.run (.copy id f text)).run q = .ok ((), q') := by
  rw [hw.write_run]
  cases hpar : (q.doc.node f).parent with
  | none => exact ⟨_, showIndicator_orphan (p := clipped q text) hpar⟩
  | some par => exact ⟨_, showIndicator_fits (p := clipped q text) hpar hfit⟩

/-- Otherwise the write of a field that has a parent fails. -/
theorem Wired.complete_overflow {q : Page} (hw : Wired id F q) {f : Nat}
    (hpar : (q.doc.node f).parent.isSome)
    (hover : wordLimit < q.timeline.now + q.settings.copiedIndicatorMs) (text : String) :
    (Job.run (.copy id f text)).run q =
      .error ⟨q.timeline.now, q.settings.copiedIndicatorMs⟩ := by
  obtain ⟨par, hpar⟩ := Option.isSome_iff_exists.mp hpar
  rw [hw.write_run, showIndicator_overflow (p := clipped q text) hpar hover]
  rfl

/-- The executor's writes, run in order, complete one after another. -/
theorem Wired.forM_completes (js : List Job) :
    ∀ {q q' : Page}, Wired id F q → (∀ j ∈ js, ∃ f text, j = .copy id f text) →
      (js.forM Job.run).run q = .ok ((), q') → Completes id js q q' ∧ Wired id F q' := by
  induction js with
  | nil =>
    intro q q' hw _ h
    obtain rfl := (Prod.mk.inj (Except.ok.inj h)).2
    exact ⟨.nil _, hw⟩
  | cons j js ih =>
    intro q q' hw hjs h
    obtain ⟨f, text, rfl⟩ := hjs j List.mem_cons_self
    rw [List.forM_eq_forM, List.forM_cons] at h
    obtain ⟨⟨⟩, q₁, h₁, h₂⟩ := run_bind_eq_ok h
    obtain ⟨hc, hw₁⟩ := hw.complete h₁
    obtain ⟨hcs, hw₂⟩ := ih hw₁ (fun j hj => hjs j (List.mem_cons_of_mem _ hj)) h₂
    exact ⟨.cons hc hcs, hw₂⟩

/-- They all go through when the removal of an indicator falls due within a word: no write
moves the clock. -/
theorem Wired.forM_ok (js : List Job) :
    ∀ {q : Page}, Wired id F q → (∀ j ∈ js, ∃ f text, j = .copy id f text) →
      q.timeline.now + q.settings.copiedIndicatorMs ≤ wordLimit →
      ∃ q', (js.forM Job.run).run q = .ok ((), q') := by
  induction js with
  | nil => intro q _ _ _; exact ⟨q, rfl⟩
  | cons j js ih =>
    intro q hw hjs hfit
    obtain ⟨f, text, rfl⟩ := hjs j List.mem_cons_self
    obtain ⟨q₁, h₁⟩ := hw.complete_ok hfit f text
    obtain ⟨hc, hw₁⟩ := hw.complete h₁
    obtain ⟨hnow, hset⟩ := hc.now_settings
    obtain ⟨q₂, h₂⟩ := ih hw₁ (fun j hj => hjs j (List.mem_cons_of_mem _ hj))
      (by rw [hnow, hset]; exact hfit)
    refine ⟨q₂, ?_⟩
    rw [List.forM_eq_forM, List.forM_cons, run_bind_of_ok h₁]
    exact h₂

theorem runJobs_run (p : Page) :
    runJobs.run p = (p.jobs.forM Job.run).run { p with jobs := [] } := rfl

theorem Wired.idle {p : Page} (hw : Wired id F p) : Wired id F { p with jobs := [] } :=
  ⟨hw.forest, hw.grown, hw.wired, hw.live, (fun _ hj => nomatch hj), hw.timed⟩

/-- A run of the executor completes the waiting writes in order. -/
theorem Wired.run {p q : Page} (hw : Wired id F p) (h : runJobs.run p = .ok ((), q)) :
    Completes id p.jobs { p with jobs := [] } q ∧ Wired id F q := by
  rw [runJobs_run] at h
  exact Wired.forM_completes p.jobs hw.idle hw.jobs h

end Wired

/-! ## Attaching -/

/-- Attaching takes a fresh id, wires a click listener on each element then carrying the copy
class, and adds the component, with no timer, on the current executor. -/
theorem attachCopy_run (p : Page) :
    attachCopy.run p = .ok ((), { p with
      nextId := p.nextId + 1
      doc := (p.doc.elementsByClass p.settings.copyClass).foldl
        (fun d f => d.listen f .click (.copyField p.nextId f)) p.doc
      copies := p.copies ++ [⟨p.nextId, [], p.executor⟩] }) := rfl

theorem listeners_wireCopies (id : Nat) (F : List Nat) :
    ∀ d : Document Reaction, (∀ f ∈ F, f < d.nodes.size) → ∀ i,
      ((F.foldl (fun d f => d.listen f .click (.copyField id f)) d).node i).listeners =
        (d.node i).listeners ++ (F.filter (· == i)).map fun f => (.click, .copyField id f) := by
  induction F with
  | nil => intro d _ i; simp
  | cons f rest ih =>
    intro d hf i
    have hsize := (sameShape_listen d f .click (.copyField id f)).size
    rw [List.foldl_cons, ih _ (fun g hg => hsize ▸ hf g (List.mem_cons_of_mem _ hg)),
      listeners_listen d (hf f List.mem_cons_self)]
    by_cases hi : i = f
    · subst hi
      simp
    · simp [hi, Ne.symm hi]

theorem restyled_wireCopies (id : Nat) (F : List Nat) :
    ∀ d : Document Reaction,
      Restyled d (F.foldl (fun d f => d.listen f .click (.copyField id f)) d) := by
  induction F with
  | nil => exact Restyled.refl
  | cons f rest ih => exact fun d => (restyled_listen d f _ _).trans (ih _)

/-- Wiring distinct fields of a document without listeners leaves exactly one click listener
on each field. -/
theorem wiredOn_wireCopies {d : Document Reaction} (hq : ∀ i, (d.node i).listeners = [])
    {F : List Nat} (hF : F.Nodup) (hlt : ∀ f ∈ F, f < d.nodes.size) (id : Nat) :
    WiredOn id F (F.foldl (fun d f => d.listen f .click (.copyField id f)) d) := by
  intro i kind
  rw [listenersOf, listeners_wireCopies id F d hlt i, hq i, List.nil_append]
  by_cases hi : i ∈ F
  · rw [List.filter_beq, List.count_eq_one_of_mem hF hi]
    cases kind <;> simp [hi]
  · rw [List.filter_beq, List.count_eq_zero_of_not_mem hi]
    simp [hi]

/-! ## Runs of a copy component -/

/-- A chore keeps the document a forest. -/
theorem Chore.perform_forest (c : Chore) (s : Page) (hf : Forest s.doc) :
    Forest (c.perform s).doc := by
  cases c with
  | detach n => exact hf.detach n
  | activate n cls =>
    by_cases hc : s.doc.isConnected n = true
    · have e : (Chore.activate n cls).perform s = { s with doc := s.doc.addClass n cls } :=
        if_pos hc
      rw [e]
      exact hf.restyle (restyled_addClass _ _ _)
    · have e : (Chore.activate n cls).perform s = s := if_neg hc
      rw [e]
      exact hf

/-- What the page around a copy component does: clicks, runs of the executor, the clock, and
changes of the document by hand. -/
inductive CopyOp where
  /-- A click on a node. -/
  | click (n : Nat)
  /-- The executor runs the waiting jobs. -/
  | run
  /-- Time passes. -/
  | advance (ms : Nat)
  /-- A node is taken out of its parent. -/
  | remove (n : Nat)
  /-- The value of a control changes. -/
  | setValue (n : Nat) (v : String)

/-- Carries out an operation on a page. -/
def CopyOp.perform : CopyOp → Act Unit
  | .click n => do
    let _ ← dispatch n .click
    pure ()
  | .run => runJobs
  | .advance ms => Ui.advance ms
  | .remove n => onDoc fun d => (d.remove n).2
  | .setValue n v => onDoc (·.setValue n v)

/-- A click goes through as its dispatch does. -/
theorem CopyOp.click_run {n : Nat} {p q : Page} {b : Bool}
    (h : (dispatch n .click).run p = .ok (b, q)) : (CopyOp.click n).perform.run p = .ok ((), q) := by
  rw [CopyOp.perform, run_bind_of_ok h]
  rfl

/-- The pages that operations reach from a loaded page where a copy component was attached, one
operation that goes through at a time; the component's id and the fields it wired are kept in
the index. -/
inductive Copying : Nat → List Nat → Page → Prop
  | attach (html : String) (s : Settings) (viewport : Float) (heights : List (String × Float))
      (answers : List Answer) (clip : List Bool) {q : Page} :
      attachCopy.run (Page.load html s viewport heights answers clip) = .ok ((), q) →
      Copying (Page.load html s viewport heights answers clip).nextId
        ((Page.load html s viewport heights answers clip).doc.elementsByClass s.copyClass) q
  | step {id : Nat} {F : List Nat} {p q : Page} (op : CopyOp) :
      Copying id F p → op.perform.run p = .ok ((), q) → Copying id F q

section Run

variable {id : Nat} {F : List Nat}

/-- A click keeps the page one of the run. -/
theorem Wired.click {p : Page} (hw : Wired id F p) (path : List Nat) :
    Wired id F (clickCopies id F path p) := by
  have hn := clickCopies_nodes id F path p
  refine ⟨hw.forest.restyle (restyled_of_nodes hn), (restyled_of_nodes hn).shape.grown hw.grown,
    hw.wired.keeps (keeps_of_nodes hn), hw.live, fun j hj => ?_, hw.timed⟩
  rcases List.mem_append.mp hj with hj | hj
  · exact hw.jobs j hj
  · obtain ⟨f, -, rfl⟩ := List.mem_map.mp hj
    exact ⟨f, _, rfl⟩

/-- Every operation keeps the page one of the run. -/
theorem Wired.step {p q : Page} (hw : Wired id F p) {op : CopyOp}
    (h : op.perform.run p = .ok ((), q)) : Wired id F q := by
  cases op with
  | click n =>
    obtain ⟨c, hc, he⟩ := hw.find
    rw [CopyOp.perform, run_bind_of_ok (dispatch_click hw.wired hc he n)] at h
    obtain rfl := (Prod.mk.inj (Except.ok.inj h)).2.symm
    exact hw.click _
  | run => exact (hw.run h).2
  | advance ms =>
    obtain ⟨hq, hk, hg⟩ := advance_frame h
    refine ⟨advance_doc Chore.perform_forest h hw.forest, hg hw.grown, hw.wired.keeps hk, ?_, ?_,
      hw.timed.advance h⟩
    · rw [hq]
      exact hw.live
    · rw [hq]
      exact hw.jobs
  | remove n =>
    obtain rfl := (Prod.mk.inj (Except.ok.inj h)).2.symm
    exact ⟨hw.forest.detach n, hw.grown.detach n, hw.wired.keeps (keeps_detach _ _), hw.live,
      hw.jobs, hw.timed⟩
  | setValue n v =>
    obtain rfl := (Prod.mk.inj (Except.ok.inj h)).2.symm
    exact ⟨hw.forest.restyle (restyled_setValue _ _ _), (sameShape_setValue _ _ _).grown hw.grown,
      hw.wired.keeps (keeps_setValue _ _ _), hw.live, hw.jobs, hw.timed⟩

/-- Attaching to a loaded page starts a run: the fields are the elements then carrying the copy
class, without repeats. -/
theorem Wired.attach {html : String} {s : Settings} {viewport : Float}
    {heights : List (String × Float)} {answers : List Answer} {clip : List Bool} {q : Page}
    (h : attachCopy.run (Page.load html s viewport heights answers clip) = .ok ((), q)) :
    Wired (Page.load html s viewport heights answers clip).nextId
      ((Page.load html s viewport heights answers clip).doc.elementsByClass s.copyClass) q := by
  set p := Page.load html s viewport heights answers clip
  rw [attachCopy_run] at h
  obtain rfl := (Prod.mk.inj (Except.ok.inj h)).2.symm
  -- the loaded document is the markup's, with the layout's heights beside its nodes
  have hr : Restyled (withBody html : Document Reaction) p.doc :=
    ⟨⟨rfl, fun _ => rfl, fun _ => rfl⟩, fun _ => rfl⟩
  have hf : Forest p.doc := (forest_empty.setInnerHtml (by decide) (by decide) html).restyle hr
  have hu := load_untouched html s viewport heights answers clip
  have hlt : ∀ f ∈ p.doc.elementsByClass s.copyClass, f < p.doc.nodes.size :=
    fun f hfF => (mem_descendants hu.grown (List.mem_filter.mp hfF).1).1
  have hw := restyled_wireCopies p.nextId (p.doc.elementsByClass s.copyClass) p.doc
  exact ⟨hf.restyle hw, hw.shape.grown hu.grown,
    wiredOn_wireCopies hu.quiet (hf.elementsByClass_nodup _) hlt _, ⟨[], rfl⟩,
    (fun _ hj => nomatch hj), Timed.empty⟩

/-- Every page of a run satisfies the invariant. -/
theorem Copying.wired {p : Page} (hp : Copying id F p) : Wired id F p := by
  induction hp with
  | attach html s viewport heights answers clip h => exact Wired.attach h
  | step op _ hq ih => exact ih.step hq

end Run

/-! ## Every completed copy gets its indicator -/

/-- What a page of a run of the copy component `id`, wired on the fields `F`, does from it on. -/
structure Indicating (id : Nat) (F : List Nat) (p : Page) : Prop where
  /-- The click listeners are exactly the component's, one on each field wired at attach. -/
  wired : WiredOn id F p.doc
  /-- A click on a node selects each field among the node and its ancestors, innermost first,
  and spawns the write of each one's value as it stands at the click; the click's default is
  not prevented. -/
  click : ∀ n, (dispatch n .click).run p = .ok (false, clickCopies id F (p.doc.path n) p)
  /-- Every waiting job is a write of the component. -/
  jobs : ∀ j ∈ p.jobs, ∃ f text, j = .copy id f text
  /-- A run of the executor completes the waiting writes in order, each against the page the
  ones before it left, as `Completed` says. -/
  run : ∀ q, runJobs.run p = .ok ((), q) → Completes id p.jobs { p with jobs := [] } q
  /-- The run goes through when the removal of an indicator falls due within a word. -/
  run_ok : p.timeline.now + p.settings.copiedIndicatorMs ≤ wordLimit →
    ∃ q, runJobs.run p = .ok ((), q)
  /-- Otherwise a first write whose field has a parent fails the run. -/
  run_overflow : wordLimit < p.timeline.now + p.settings.copiedIndicatorMs →
    ∀ f text rest, p.jobs = .copy id f text :: rest → (p.doc.node f).parent.isSome →
      runJobs.run p = .error ⟨p.timeline.now, p.settings.copiedIndicatorMs⟩
  /-- Every waiting timer detaches a node. -/
  detaches : ∀ x ∈ p.timeline.timers, ∃ m, x.task = .detach m
  /-- An advance by `ms` goes through: it runs, in key order and each with the clock at its due
  time, exactly the waiting timers due by the old clock plus `ms` (capped at the largest word),
  while the others wait, and carries out their removals, changing nothing else. -/
  advance : ∀ ms, ∃ last E q, (Ui.advance ms).run p = .ok ((), q) ∧
    Advanced Page.timeline (p.timeline.target ms) last p E q ∧ Event.born E = [] ∧
    q = { Chore.performAll (Event.ranTimers E) p with timeline := q.timeline }

/-- **Every completed copy gets one indicator, removed after the indicator delay.** On every
page that clicks, runs of the executor, advances, removals and changes of values reach from a
loaded page where a copy component was attached, a click on or inside fields wired at attach
selects each of them and spawns the write of its value at the click; a run of the executor
completes the writes in order, each putting one new indicator just before its field, with the
look of the clipboard's answer, and booking its removal the indicator delay after the clock, or,
for a field without a parent, neither; each indicator is a new node and each removal has its
own key, so those of different writes are distinct; and each advance removes exactly the
indicators whose removal is due by its target. A run fails when the removal would fall due
past the largest word. -/
theorem copies_indicated {id : Nat} {F : List Nat} {p : Page} (hp : Copying id F p) :
    Indicating id F p := by
  have hw := hp.wired
  obtain ⟨c, hc, he⟩ := hw.find
  refine ⟨hw.wired, dispatch_click hw.wired hc he, hw.jobs, fun q h => (hw.run h).1,
    fun hfit => ?_, fun hover f text rest hjobs hpar => ?_, hw.timed.detaches,
    hw.timed.advance_runs⟩
  · obtain ⟨q, hq⟩ := hw.idle.forM_ok p.jobs hw.jobs hfit
    exact ⟨q, by rw [runJobs_run]; exact hq⟩
  · rw [runJobs_run, hjobs, List.forM_eq_forM, List.forM_cons, StateT.run_bind,
      hw.idle.complete_overflow hpar hover]
    rfl

/-- A loaded page with one copy field, an input inside a block, through the attach, a click on
the field, a run of the executor and an advance to the indicator's removal: each goes through;
the click spawns the write of the field's value, the run keeps the text and books the removal of
its indicator, the advance runs it, and the page reached keeps every promise. -/
theorem copies_indicated_clicked :
    let p := Page.load "<div><input class=\"clipboard\" value=\"x\"></div>" {} 768 [] [] []
    let F := p.doc.elementsByClass "clipboard"
    ∃ q₀ q₁ q₂ q₃, attachCopy.run p = .ok ((), q₀) ∧
      (CopyOp.click 3).perform.run q₀ = .ok ((), q₁) ∧ q₁.jobs = [.copy 1 3 "x"] ∧
      CopyOp.run.perform.run q₁ = .ok ((), q₂) ∧ q₂.written = ["x"] ∧
      q₂.timeline.timers.length = 1 ∧
      (CopyOp.advance 1000).perform.run q₂ = .ok ((), q₃) ∧ q₃.timeline.timers = [] ∧
      Copying 1 F q₃ ∧ Indicating 1 F q₃ := by
  intro p F
  -- the attach and the click, with what the page then holds, worked out at once
  obtain ⟨q₀, h₀, q₁, h₁, hjobs, hfit, hpar, hwritten, hanswers, hone, hdue⟩ :
      ∃ q₀, attachCopy.run p = .ok ((), q₀) ∧ ∃ q₁, (CopyOp.click 3).perform.run q₀ = .ok ((), q₁) ∧
        q₁.jobs = [.copy 1 3 "x"] ∧ q₁.timeline.now + q₁.settings.copiedIndicatorMs ≤ wordLimit ∧
        (q₁.doc.node 3).parent = some 2 ∧ q₁.written = [] ∧ q₁.clipboardAnswers = [] ∧
        (q₁.timeline.schedule q₁.settings.copiedIndicatorMs
          (.detach q₁.doc.nodes.size)).2.timers.length = 1 ∧
        ∀ x ∈ (q₁.timeline.schedule q₁.settings.copiedIndicatorMs (.detach q₁.doc.nodes.size)).2.timers,
          x.key.due ≤ (q₁.timeline.schedule q₁.settings.copiedIndicatorMs
            (.detach q₁.doc.nodes.size)).2.target 1000 :=
    ⟨_, attachCopy_run p, _,
      CopyOp.click_run ((copies_indicated (.attach _ _ _ _ _ _ (attachCopy_run p))).click 3),
      by decide +kernel⟩
  have hc₁ : Copying 1 F q₁ := .step (.click 3) (.attach _ _ _ _ _ _ h₀) h₁
  -- the run completes the one write, keeping its text and showing its indicator
  obtain ⟨q₂, h₂⟩ := (copies_indicated hc₁).run_ok hfit
  have hcomp := (copies_indicated hc₁).run q₂ h₂
  rw [hjobs] at hcomp
  have hd := hcomp.singleton
  obtain ⟨-, htl, -⟩ := hd.shown 2 hpar
  have hc₂ : Copying 1 F q₂ := .step .run hc₁ h₂
  -- the advance reaches the indicator's removal and runs it
  obtain ⟨last, E, q₃, h₃, hadv, hborn, -⟩ := (copies_indicated hc₂).advance 1000
  have hc₃ : Copying 1 F q₃ := .step (.advance 1000) hc₂ h₃
  refine ⟨q₀, q₁, q₂, q₃, h₀, h₁, hjobs, h₂, ?_, ?_, h₃, ?_, hc₃, copies_indicated hc₃⟩
  · rw [hd.written]
    simp [hwritten, hanswers]
  · rw [htl]
    exact hone
  · refine hadv.timers_eq_nil hborn ?_
    rw [htl]
    exact hdue

/-- After an advance by the largest word the clock has saturated; a click on the one field
spawns its write, and the executor's run cannot book the removal of the indicator: the whole run
fails. -/
theorem copy_after_saturated_advance_overflows :
    ((Page.load "<div class=\"clipboard\">x</div>" {} 768 [] [] []).runSteps
      [.ok .attachCopy, .ok (.advance wordLimit), .ok (.click (.cls "clipboard" 0)), .ok .run]).map
      (fun _ => ()) = .error ⟨wordLimit, 1000⟩ := by
  decide +kernel

end PageEditor.Ui
