import PageEditor.Proofs.Overlay.Opening
import PageEditor.Proofs.Timeline.Firing
import PageEditor.Proofs.Coordinator.Activity
/-!
# PageEditor.Proofs.Overlay.Stack

The layers of a page's overlay stack, over every run of what the stack meets: openings of modals
and loaders, dismissals, clicks anywhere on the page and the passing of time.

The stack's own layers since its last dismissal are recorded beside the run (`Opened`): the
backdrop it made for them, when the page had none, and its modals and loaders in the order they
opened. Along every run the page keeps its `Layout`:

* at most one attached element carries both the backdrop class and the overlay tag;
* the body's children are the page's own nodes followed by the recorded backdrop and layers, all
  attached overlay elements, the backdrop carrying the backdrop class and no layer carrying it;
* every other attached node made since the page loaded lies inside a layer.

From every such page, an opening makes a backdrop exactly when none is attached, and every
dismissal, however it is reached, leaves no overlay element attached (`overlay_layers_kept`).

The invariant beside the layout is `Stacked`. Each kind of operation has its own step lemma:
`Stacked.opening`, `Stacked.dismissed`, `Stacked.clicked` and `Stacked.advanced`. `Stacked.step`
combines them, `Stacked.performAll` carries them along a run, and `stacked_load` starts the run.
-/

namespace PageEditor.Markup.Document

variable {σ : Type} {d : Document σ}

/-- Taking out a node cuts every path up through it: above a node below a removed `l`, only `l`
and the nodes under it are still reached. -/
theorem Ancestor.removeEach_below {W : List Nat} {l x a : Nat} (hl : l ∈ W) (h : Ancestor d l x)
    (h' : Ancestor (d.removeEach W) a x) : a = l ∨ Ancestor d l a := by
  induction h' with
  | parent hp =>
    rw [parent_removeEach] at hp
    split at hp
    · cases hp
    · exact (h.of_parent hp).imp Eq.symm id
  | up hp ha ih =>
    rw [parent_removeEach] at hp
    split at hp
    · cases hp
    · rcases h.of_parent hp with rfl | hlm
      · exact absurd ha (not_ancestor_of_orphan (by rw [parent_removeEach, if_pos hl]))
      · exact ih hlm

/-- A child left after taking nodes out was a child before, and was not taken out. -/
theorem mem_children_removeEach (hf : Forest d) {x j : Nat} :
    ∀ W : List Nat, x ∈ ((d.removeEach W).node j).children →
      x ∈ (d.node j).children ∧ x ∉ W := by
  intro W
  induction W generalizing d with
  | nil => exact fun h => ⟨h, List.not_mem_nil⟩
  | cons o W ih =>
    intro h
    obtain ⟨hx, hxW⟩ := ih (hf.detach o) h
    rw [hf.children_detach, List.mem_filter, bne_iff_ne] at hx
    exact ⟨hx.1, fun hmem => (List.mem_cons.mp hmem).elim hx.2 hxW⟩

theorem SameShape.symm (h : SameShape d d') : SameShape d' d :=
  ⟨h.size.symm, fun j => (h.children j).symm, fun j => (h.parent j).symm⟩

theorem Restyled.isText (h : Restyled d d') (j : Nat) : (d'.node j).isText = (d.node j).isText := by
  simp only [Node.isText, h.tag j]

theorem hasClass_addClass_of_ne (d : Document σ) {i j : Nat} (hij : i ≠ j) (cls c : String) :
    (d.addClass i cls).hasClass j c = d.hasClass j c :=
  Bool.eq_iff_iff.mpr ((hasClass_addClass d i j cls c).trans (or_iff_left fun h => hij h.1))

/-- Adding a class gives no node a word the class does not have. -/
theorem hasClass_addClass_apart (d : Document σ) (i j : Nat) {cls c : String}
    (hc : c ∉ Text.splitBlank cls) : (d.addClass i cls).hasClass j c = d.hasClass j c :=
  Bool.eq_iff_iff.mpr ((hasClass_addClass d i j cls c).trans (or_iff_left fun h => hc h.2.2.2))

end PageEditor.Markup.Document

namespace PageEditor.Ui

open Markup Markup.Document

/-! ## Backdrops -/

/-- The attached elements carrying both the backdrop class and the overlay tag, in document
order. -/
def backdrops (s : Settings) (d : Document Reaction) : List Nat :=
  (d.elementsByClass s.backdropClass).filter fun x => d.hasClass x s.overlayTag

/-- At most one element is a backdrop. -/
def OneBackdrop (s : Settings) (d : Document Reaction) : Prop :=
  ∀ x ∈ backdrops s d, ∀ y ∈ backdrops s d, x = y

theorem backdrop?_eq_head? (s : Settings) (d : Document Reaction) :
    backdrop? s d = (backdrops s d).head? :=
  List.head?_filter.symm

/-- An opening makes a backdrop exactly when none is attached. -/
theorem madeFor_eq (s : Settings) (d : Document Reaction) :
    madeFor s d = if backdrops s d = [] then some d.nodes.size else none := by
  rw [madeFor, backdrop?_eq_head?]
  cases backdrops s d <;> simp

variable {s : Settings} {d d' : Document Reaction}

theorem mem_backdrops (hf : Forest d) {x : Nat} :
    x ∈ backdrops s d ↔ Ancestor d root x ∧ (d.node x).isText = false ∧
      d.hasClass x s.backdropClass = true ∧ d.hasClass x s.overlayTag = true := by
  rw [backdrops, List.mem_filter, hf.mem_elementsByClass, and_assoc, and_assoc]

theorem Ancestor.lt_size (hf : Forest d) {a x : Nat} (h : Ancestor d a x) : x < d.nodes.size := by
  cases h with
  | parent h => exact hf.child_lt h
  | up h _ => exact hf.child_lt h

/-- A child of the body is attached while the body is. -/
theorem attached_of_body_child (hf : Forest d) (hr : (d.node body).parent = some root) {x : Nat}
    (hx : x ∈ (d.node body).children) : Ancestor d root x :=
  .up (hf.linked body x hx) (.parent hr)

/-- Hanging layers adds to the backdrops exactly the one the stack made, if any. -/
theorem mem_backdrops_hung {id : Nat} {made : Option Nat} {layers parts : List Nat}
    (h : Hung s id d d' made layers parts) (hf : Forest d) (hr : (d.node body).parent = some root)
    (hb : body < d.nodes.size) {x : Nat} :
    x ∈ backdrops s d' ↔ x ∈ backdrops s d ∨ x ∈ made := by
  have hr' : (d'.node body).parent = some root := (h.settled.parent body hb).trans hr
  rw [mem_backdrops h.forest, mem_backdrops hf]
  constructor
  · rintro ⟨hanc, htext, hbd, hov⟩
    rcases Nat.lt_or_ge x d.nodes.size with hx | hx
    · -- an old node is a backdrop as it was
      rw [h.settled.ancestor_iff hf hx] at hanc
      rw [h.settled.isText hx] at htext
      rw [h.settled.hasClass hx] at hbd hov
      exact .inl ⟨hanc, htext, hbd, hov⟩
    · -- a new one is the made backdrop, since no other new node carries both classes
      refine .inr (Classical.byContradiction fun hm => ?_)
      rw [h.apart x hx hm hbd] at hov
      cases hov
  · rintro (⟨hanc, htext, hbd, hov⟩ | hm)
    · have hx := Ancestor.lt_size hf hanc
      rw [← h.settled.ancestor_iff hf hx] at hanc
      rw [← h.settled.isText hx] at htext
      rw [← h.settled.hasClass hx] at hbd hov
      exact ⟨hanc, htext, hbd, hov⟩
    · have hmem : x ∈ made.toList ++ layers := List.mem_append_left _ (Option.mem_toList.mpr hm)
      have hchild : x ∈ (d'.node body).children := by
        rw [h.body, List.append_assoc]
        exact List.mem_append_right _ hmem
      exact ⟨attached_of_body_child h.forest hr' hchild, h.elements x hmem, h.backdrop x hm,
        h.tagged x hmem⟩

/-! ## The layout a stack keeps -/

/-- The layers of a stack since its last dismissal: the backdrop it made for them, when none was
attached, and its modals and loaders in the order they opened. -/
structure Opened where
  made : Option Nat
  layers : List Nat

/-- The stack's own nodes, the backdrop first. -/
def Opened.hung (o : Opened) : List Nat := o.made.toList ++ o.layers

/-- The page's layout as its overlay stack leaves it, for a page that had `N` nodes when it
loaded: one backdrop at most; the body's children are the page's own followed by the stack's
backdrop and layers, all attached overlay elements, only the first a backdrop; and every other
attached node made since the page loaded lies inside a layer. -/
structure Layout (s : Settings) (N : Nat) (d : Document Reaction) (o : Opened) : Prop where
  one : OneBackdrop s d
  children : ∃ pre, (d.node body).children = pre ++ o.hung ∧ ∀ x ∈ pre, x < N
  fresh : ∀ x ∈ o.hung, N ≤ x
  overlays : ∀ x ∈ o.hung, x ∈ d.elementsByClass s.overlayTag
  made : ∀ b ∈ o.made, b ∈ backdrops s d
  layers : ∀ x ∈ o.layers, d.hasClass x s.backdropClass = false
  inside : ∀ x, N ≤ x → Ancestor d root x →
    x ∈ o.hung ∨ ∃ l ∈ o.layers, Ancestor d l x

/-- What holds of a page whose only overlay stack is `id`, beside its layout: the settings, the
shape of the document with the body attached and bare, a backdrop under every open layer, the
listeners all dismissing the stack, and the timers all activating new modals. -/
structure Stacked (s : Settings) (id N : Nat) (p : Page) (o : Opened) : Prop where
  layout : Layout s N p.doc o
  settings : p.settings = s
  lone : Lone id p
  forest : Forest p.doc
  grown : Grown p.doc
  loaded : body < N ∧ N ≤ p.doc.nodes.size
  rooted : (p.doc.node body).parent = some root
  element : (p.doc.node body).isText = false
  bare : p.doc.hasClass body s.overlayTag = false
  covered : o.layers ≠ [] → backdrops s p.doc ≠ []
  listeners : ∀ j, ∀ l ∈ (p.doc.node j).listeners, Dismisses id l
  timers : ∀ tm ∈ p.timeline.timers, ∃ n, tm.task = .activate n s.modalActiveClass ∧
    N ≤ n ∧ n < p.doc.nodes.size ∧ p.doc.hasClass n s.backdropClass = false

/-! ## Opening a layer keeps the layout -/

/-- After an opening, the stack's nodes are the old ones, the backdrop it made and the layer. -/
theorem Opened.hung_open {o : Opened} {M : Option Nat} (x : Nat)
    (hM : M.isSome → o.made = none ∧ o.layers = []) :
    (Opened.mk (o.made <|> M) (o.layers ++ [x])).hung = o.hung ++ M.toList ++ [x] := by
  cases M with
  | none => cases hm : o.made <;> simp [Opened.hung, hm]
  | some b =>
    obtain ⟨h₁, h₂⟩ := hM rfl
    simp [Opened.hung, h₁, h₂]

theorem Layout.hang {N id : Nat} {o : Opened} {M : Option Nat} {x : Nat} {parts : List Nat}
    (hl : Layout s N d o) (h : Hung s id d d' M [x] parts) (he : Enclosed d d' M [x])
    (hf : Forest d) (hr : (d.node body).parent = some root) (hb : body < d.nodes.size)
    (hN : N ≤ d.nodes.size) (hM : M.isSome → o.made = none ∧ o.layers = [])
    (hMb : M.isSome → backdrops s d = []) :
    Layout s N d' ⟨o.made <|> M, o.layers ++ [x]⟩ := by
  have hr' : (d'.node body).parent = some root := (h.settled.parent body hb).trans hr
  have hhung := Opened.hung_open x hM
  obtain ⟨pre, hpre, hpreN⟩ := hl.children
  have hchildren :
      (d'.node body).children = pre ++ (Opened.mk (o.made <|> M) (o.layers ++ [x])).hung := by
    rw [h.body, hpre, hhung]
    simp
  -- the stack's old nodes are old nodes of the document, its new ones are new
  have hold : ∀ y ∈ o.hung, y < d.nodes.size := fun y hy =>
    Ancestor.lt_size hf (hf.mem_elementsByClass.mp (hl.overlays y hy)).1
  have hnew : ∀ y ∈ M.toList ++ [x], d.nodes.size ≤ y ∧ y < d'.nodes.size := fun y hy =>
    h.fresh y (List.mem_append_left _ hy)
  have hsplit : ∀ y ∈ (Opened.mk (o.made <|> M) (o.layers ++ [x])).hung,
      y ∈ o.hung ∨ y ∈ M.toList ++ [x] := by
    intro y hy
    rw [hhung, List.append_assoc, List.mem_append] at hy
    exact hy
  have hx_fresh : x ∉ M.toList := by
    have hnd := h.forest.nodup body
    rw [h.body, List.append_assoc, List.nodup_append] at hnd
    exact fun hx => by simpa using (List.nodup_append.mp hnd.2.1).2.2 x hx x (by simp)
  have hxbd : d'.hasClass x s.backdropClass = false :=
    Bool.eq_false_iff.mpr fun hbd => by
      have := h.apart x (hnew x (by simp)).1 (fun hm => hx_fresh (Option.mem_toList.mpr hm)) hbd
      rw [h.tagged x (by simp)] at this
      cases this
  constructor
  case one =>
    -- one backdrop: the made one is there only when none was
    intro y hy z hz
    rcases (mem_backdrops_hung h hf hr hb).mp hy with hy | hy <;>
      rcases (mem_backdrops_hung h hf hr hb).mp hz with hz | hz
    · exact hl.one y hy z hz
    · rw [hMb (Option.isSome_iff_exists.mpr ⟨z, hz⟩)] at hy
      cases hy
    · rw [hMb (Option.isSome_iff_exists.mpr ⟨y, hy⟩)] at hz
      cases hz
    · exact Option.some.inj (hy.symm.trans hz)
  case children => exact ⟨pre, hchildren, hpreN⟩
  case fresh =>
    intro y hy
    rcases hsplit y hy with hy | hy
    · exact hl.fresh y hy
    · exact Nat.le_trans hN (hnew y hy).1
  case overlays =>
    intro y hy
    have hchild : y ∈ (d'.node body).children := by
      rw [hchildren]
      exact List.mem_append_right _ hy
    refine h.forest.mem_elementsByClass.mpr ⟨attached_of_body_child h.forest hr' hchild, ?_⟩
    rcases hsplit y hy with hy | hy
    · have hy' := (hf.mem_elementsByClass.mp (hl.overlays y hy)).2
      rw [h.settled.isText (hold y hy), h.settled.hasClass (hold y hy)]
      exact hy'
    · have hy' : y ∈ M.toList ++ [x] := hy
      exact ⟨h.elements y hy', h.tagged y hy'⟩
  case made =>
    intro b hb'
    refine (mem_backdrops_hung h hf hr hb).mpr ?_
    cases hmade : o.made with
    | none =>
      rw [hmade] at hb'
      exact .inr hb'
    | some b₀ =>
      rw [hmade] at hb'
      obtain rfl := Option.some.inj hb'
      exact .inl (hl.made b₀ hmade)
  case layers =>
    intro y hy
    rcases List.mem_append.mp hy with hy | hy
    · have hy' : y ∈ o.hung := List.mem_append_right _ hy
      rw [h.settled.hasClass (hold y hy')]
      exact hl.layers y hy
    · rw [List.mem_singleton.mp hy]
      exact hxbd
  case inside =>
    intro y hy hanc
    rcases Nat.lt_or_ge y d.nodes.size with hy₀ | hy₀
    · -- an old node lies where it lay
      rcases hl.inside y hy ((h.settled.ancestor_iff hf hy₀).mp hanc) with hin | ⟨l, hl', hly⟩
      · left
        rw [hhung, List.append_assoc]
        exact List.mem_append_left _ hin
      · exact .inr ⟨l, List.mem_append_left _ hl', (h.settled.ancestor_iff hf hy₀).mpr hly⟩
    · -- a new node is the made backdrop, the layer, or inside the layer
      rcases he y hy₀ (Ancestor.lt_size h.forest hanc) with hin | ⟨l, hl', hly⟩
      · left
        rw [hhung, List.append_assoc]
        exact List.mem_append_right _ hin
      · rw [List.mem_singleton.mp hl'] at hly
        exact .inr ⟨x, by simp, hly⟩

section Steps

variable {id N : Nat} {p q : Page} {o : Opened}

/-- **An opening keeps the stack's layout**, recording the layer and the backdrop it made. -/
theorem Stacked.opening {x : Nat} (hst : Stacked s id N p o)
    (hop : Opening s id p q (madeFor s p.doc) x) :
    Stacked s id N q ⟨o.made <|> madeFor s p.doc, o.layers ++ [x]⟩ := by
  obtain ⟨parts, h⟩ := hop.hung
  have hb : body < p.doc.nodes.size := Nat.lt_of_lt_of_le hst.loaded.1 hst.loaded.2
  have hback :
      ∀ y, y ∈ backdrops s q.doc ↔ y ∈ backdrops s p.doc ∨ y ∈ madeFor s p.doc :=
    fun _ => mem_backdrops_hung h hst.forest hst.rooted hb
  -- a backdrop is made only over a page with none, so with no layer open
  have hMb : (madeFor s p.doc).isSome → backdrops s p.doc = [] := by
    rw [madeFor_eq]
    split <;> simp_all
  have hM : (madeFor s p.doc).isSome → o.made = none ∧ o.layers = [] := fun hs' => by
    have hnil := hMb hs'
    refine ⟨?_, Classical.byContradiction fun hne => hst.covered hne hnil⟩
    cases hm : o.made with
    | none => rfl
    | some b =>
      have := hst.layout.made b hm
      rw [hnil] at this
      cases this
  have hlay := hst.layout.hang h hop.enclosed hst.forest hst.rooted hb hst.loaded.2 hM hMb
  refine ⟨hlay, hop.settings.trans hst.settings, hop.lone hst.lone, h.forest, h.grown,
    ⟨hst.loaded.1, Nat.le_trans hst.loaded.2 h.settled.size_le⟩,
    (h.settled.parent body hb).trans hst.rooted, (h.settled.isText hb).trans hst.element,
    (h.settled.hasClass hb _).trans hst.bare, fun _ hq => ?_, fun j l hl => ?_, fun tm htm => ?_⟩
  · -- covered: a backdrop stays, or the made one is hung
    by_cases hnil : backdrops s p.doc = []
    · have hmade : madeFor s p.doc = some p.doc.nodes.size := by rw [madeFor_eq, if_pos hnil]
      have hin := (hback _).mpr (.inr (by rw [hmade]; rfl))
      rw [hq] at hin
      cases hin
    · obtain ⟨b, hb'⟩ := List.exists_mem_of_ne_nil _ hnil
      have hin := (hback _).mpr (.inl hb')
      rw [hq] at hin
      cases hin
  · exact (h.listeners j l hl).elim (hst.listeners j l) fun hd => hd
  · rcases hop.timers tm htm with htm | htm
    · obtain ⟨n, htask, hn, hns, hbd⟩ := hst.timers tm htm
      exact ⟨n, htask, hn, Nat.lt_of_lt_of_le hns h.settled.size_le,
        (h.settled.hasClass hns _).trans hbd⟩
    · have hx := h.fresh x (by simp)
      exact ⟨x, htm, Nat.le_trans hst.loaded.2 hx.1, hx.2, hlay.layers x (by simp)⟩

/-! ## Dismissal clears the page -/

@[simp] theorem run_cancelTimers (p : Page) (keys : List TimerKey) :
    (cancelTimers keys).run p = .ok ((), { p with timeline := p.timeline.cancelAll keys }) := rfl

theorem mem_cancelAll {α : Type} (keys : List TimerKey) :
    ∀ (t : Timeline α), ∀ tm ∈ (t.cancelAll keys).timers, tm ∈ t.timers := by
  induction keys with
  | nil => exact fun _ _ h => h
  | cons k ks ih =>
    intro t tm h
    rw [Timeline.cancelAll_cons] at h
    exact (List.mem_filter.mp (ih _ tm h)).1

/-- Removing the overlays one by one, counting those that had a parent. -/
theorem run_removeAll (W : List Nat) :
    ∀ (n : Nat) (p : Page) (k : Nat) (q : Page),
      (W.foldlM (fun n o => do
          let r ← withDoc (·.remove o)
          pure (if r then n + 1 else n)) n).run p = .ok (k, q) →
        q = { p with doc := p.doc.removeEach W } := by
  induction W with
  | nil =>
    intro n p k q h
    obtain ⟨-, rfl⟩ := Prod.mk.inj (Except.ok.inj h)
    rfl
  | cons o W ih =>
    intro n p k q h
    rw [List.foldlM_cons] at h
    obtain ⟨_, p₁, h₁, h⟩ := run_bind_eq_ok h
    rw [run_bind_of_ok (run_withDoc p _)] at h₁
    obtain ⟨-, rfl⟩ := Prod.mk.inj (Except.ok.inj h₁)
    rw [ih _ _ _ _ h]
    rfl

/-- Dismissing the page's only stack takes out every attached overlay element, keeps the settings,
only cancels timers, and leaves the stack the page's only one. -/
theorem dismiss_run {k : Nat} (hp : Lone id p) (h : (dismiss id).run p = .ok (k, q)) :
    q.doc = p.doc.removeEach (p.doc.elementsByClass p.settings.overlayTag) ∧
      q.settings = p.settings ∧ (∀ tm ∈ q.timeline.timers, tm ∈ p.timeline.timers) ∧
      Lone id q := by
  obtain ⟨st, hst, hid⟩ := hp
  unfold dismiss at h
  rw [run_bind_of_ok (run_stack? p id)] at h
  have hfind : p.overlays.find? (·.id == id) = some st := by simp [hst, hid]
  rw [hfind] at h
  simp only [StateT.run_bind, run_cancelTimers, run_settings, run_doc, except_ok_bind] at h
  obtain ⟨⟨_, p₂⟩, h₂, h⟩ := except_bind_eq_ok h
  have hp₂ := run_removeAll _ _ _ _ _ h₂
  simp only [run_updateStack, except_ok_bind] at h
  obtain ⟨-, rfl⟩ := Prod.mk.inj (Except.ok.inj h)
  subst hp₂
  refine ⟨rfl, rfl, fun tm htm => mem_cancelAll st.timers p.timeline tm htm, ?_⟩
  exact lone_updateStack (fun _ => rfl) ⟨st, hst, hid⟩

/-- `q` is `p` with its stack dismissed: no overlay element is attached, the stack has no layer
left, and the document kept its nodes and listeners. -/
structure Cleared (s : Settings) (id N : Nat) (p q : Page) : Prop where
  stacked : Stacked s id N q ⟨none, []⟩
  empty : q.doc.elementsByClass s.overlayTag = []
  keeps : Keeps p.doc q.doc

theorem Cleared.trans {r : Page} (h₁ : Cleared s id N p q) (h₂ : Cleared s id N q r) :
    Cleared s id N p r :=
  ⟨h₂.stacked, h₂.empty, h₁.keeps.trans h₂.keeps⟩

/-- With no overlay element attached, no backdrop is. -/
theorem backdrops_eq_nil (hf : Forest d) (h : d.elementsByClass s.overlayTag = []) :
    backdrops s d = [] :=
  List.eq_nil_iff_forall_not_mem.mpr fun x hx => by
    obtain ⟨hanc, htext, -, hov⟩ := (mem_backdrops hf).mp hx
    have hin := hf.mem_elementsByClass.mpr ⟨hanc, htext, hov⟩
    rw [h] at hin
    cases hin

/-- Taking out every attached overlay element leaves the layout with no layer: no backdrop, the
body's own children, and no node made since the page loaded attached. -/
theorem Layout.removeOverlays (hl : Layout s N d o) (hf : Forest d) (hN : body < N) :
    Layout s N (d.removeEach (d.elementsByClass s.overlayTag)) ⟨none, []⟩ := by
  set W := d.elementsByClass s.overlayTag
  -- the stack's own nodes were attached overlay elements, so they are taken out
  have hhung : ∀ x ∈ o.hung, x ∈ W := hl.overlays
  refine ⟨fun x hx => ?_,
    ⟨((d.removeEach W).node body).children, by simp [Opened.hung], fun x hx => ?_⟩,
    fun x hx => by simp [Opened.hung] at hx, fun x hx => by simp [Opened.hung] at hx,
    fun b hb => by simp at hb, fun x hx => by simp at hx, fun x hx hanc => ?_⟩
  · rw [backdrops_eq_nil (hf.removeEach W) (hf.removeEach_elementsByClass _)] at hx
    cases hx
  · -- the body keeps children of its own only
    obtain ⟨hx, hxW⟩ := mem_children_removeEach hf W hx
    obtain ⟨pre, hpre, hpreN⟩ := hl.children
    rw [hpre, List.mem_append] at hx
    exact hx.elim (hpreN x) fun hx => absurd (hhung x hx) hxW
  · -- a node made since the page loaded was a layer or inside one, and is cut off now
    exfalso
    rcases hl.inside x hx hanc.of_removeEach with hin | ⟨l, hl', hlx⟩
    · exact not_ancestor_of_orphan (by rw [parent_removeEach, if_pos (hhung x hin)]) hanc
    · have hlN : N ≤ l := hl.fresh l (List.mem_append_right _ hl')
      rcases hlx.removeEach_below (hhung l (List.mem_append_right _ hl')) hanc with hroot | hroot
      · have : body < l := Nat.lt_of_lt_of_le hN hlN
        rw [← hroot] at this
        exact absurd this (by decide)
      · exact not_ancestor_of_orphan hf.rootless hroot

/-- **Dismissal clears the page**: no overlay element stays attached, nor any node made since the
page loaded, and the body keeps only nodes of its own. -/
theorem Stacked.dismissed {k : Nat} (hst : Stacked s id N p o)
    (h : (dismiss id).run p = .ok (k, q)) :
    Cleared s id N p q := by
  obtain ⟨hdoc, hset, htl, hlone⟩ := dismiss_run hst.lone h
  rw [hst.settings] at hdoc
  set W := p.doc.elementsByClass s.overlayTag
  have hkeeps : Keeps p.doc q.doc := by rw [hdoc]; exact keeps_removeEach _ _
  have hsize : q.doc.nodes.size = p.doc.nodes.size := by rw [hdoc]; exact size_removeEach _ _
  have hclass : ∀ j c, q.doc.hasClass j c = p.doc.hasClass j c := fun j c => by
    simp only [hdoc, Document.hasClass, Node.hasClass, Node.attribute?, attributes_removeEach]
  -- the body carries no overlay tag, so it stays where it is
  have hbody : body ∉ W := fun hb => by
    have := (hst.forest.mem_elementsByClass.mp hb).2.2
    rw [hst.bare] at this
    cases this
  have hrooted : (q.doc.node body).parent = some root := by
    rw [hdoc, parent_removeEach, if_neg hbody]
    exact hst.rooted
  refine ⟨⟨hdoc ▸ hst.layout.removeOverlays hst.forest hst.loaded.1, hset.trans hst.settings,
    hlone, hdoc ▸ hst.forest.removeEach W, hdoc ▸ hst.grown.removeEach W,
    ⟨hst.loaded.1, hsize ▸ hst.loaded.2⟩, hrooted, ?_, (hclass body _).trans hst.bare,
    fun h => absurd rfl h, fun j l hl => ?_, fun tm htm => ?_⟩,
    hdoc ▸ hst.forest.removeEach_elementsByClass _, hkeeps⟩
  · rw [Node.isText, tag_eq_of_keeps hkeeps hsize]
    exact hst.element
  · rw [hkeeps.listeners j] at hl
    exact hst.listeners j l hl
  · obtain ⟨n, htask, hn, hns, hbd⟩ := hst.timers tm (htl tm htm)
    exact ⟨n, htask, hn, hsize ▸ hns, (hclass n _).trans hbd⟩

/-! ## Clicks -/

/-- Whether a click on a node reaches a click listener, on the node or on an ancestor. -/
def reachesListener (d : Document Reaction) (n : Nat) : Bool :=
  (d.path n).any fun i => !(d.listenersOf i .click).isEmpty

/-- Every click listener of a stacked page dismisses its stack. -/
theorem Stacked.dismisses_listenersOf (hst : Stacked s id N p o) (i : Nat) :
    ∀ r ∈ p.doc.listenersOf i .click, Dismisses id (.click, r) := by
  intro r hr
  obtain ⟨l, hl, rfl⟩ := List.mem_map.mp hr
  rcases hst.listeners i l (List.mem_filter.mp hl).1 with rfl | rfl
  exacts [.inl rfl, .inr rfl]

theorem Stacked.runListener {b b' : Bool} {r : Reaction} (hst : Stacked s id N p o)
    (hr : Dismisses id (.click, r)) (h : (react b r).run p = .ok (b', q)) : Cleared s id N p q := by
  rcases hr with hr | hr <;> obtain rfl := (Prod.mk.inj hr).2 <;> simp only [Ui.react] at h <;>
    obtain ⟨_, p₁, h₁, h⟩ := run_bind_eq_ok h <;>
    obtain ⟨-, rfl⟩ := Prod.mk.inj (Except.ok.inj h) <;>
    exact hst.dismissed h₁

/-- Running click listeners that all dismiss the stack: none leaves the page as it is, any clears
it. -/
theorem Stacked.runListeners {rs : List Reaction} (hst : Stacked s id N p o)
    (hrs : ∀ r ∈ rs, Dismisses id (.click, r)) {b b' : Bool}
    (h : (rs.foldlM react b : Act Bool).run p = .ok (b', q)) :
    if rs = [] then q = p else Cleared s id N p q := by
  induction rs generalizing p o b with
  | nil =>
    obtain ⟨-, rfl⟩ := Prod.mk.inj (Except.ok.inj h)
    rw [if_pos rfl]
  | cons r rs ih =>
    rw [List.foldlM_cons] at h
    obtain ⟨b₁, p₁, h₁, h⟩ := run_bind_eq_ok h
    have hc := hst.runListener (hrs r List.mem_cons_self) h₁
    have hrest := ih hc.stacked (fun r' hr' => hrs r' (List.mem_cons_of_mem _ hr')) h
    rw [if_neg (List.cons_ne_nil _ _)]
    split at hrest
    · rw [hrest]
      exact hc
    · exact hc.trans hrest

/-- Carrying a click up a path: with no click listener on it the page stays as it is, with one
the stack is dismissed. -/
theorem Stacked.walk (path : List Nat) (hst : Stacked s id N p o) {b b' : Bool}
    (h : (path.foldlM (fun prevented i => do
        let listeners := (← doc).listenersOf i .click
        listeners.foldlM react prevented) b).run p = .ok (b', q)) :
    if path.any (fun i => !(p.doc.listenersOf i .click).isEmpty) then Cleared s id N p q
    else q = p := by
  induction path generalizing p o b with
  | nil =>
    obtain ⟨-, rfl⟩ := Prod.mk.inj (Except.ok.inj h)
    rfl
  | cons i is ih =>
    rw [List.foldlM_cons] at h
    obtain ⟨b₁, p₁, h₁, h₂⟩ := run_bind_eq_ok h
    rw [run_bind_of_ok (run_doc p)] at h₁
    have hi := hst.runListeners (hst.dismisses_listenersOf i) h₁
    rw [List.any_cons]
    by_cases hnil : p.doc.listenersOf i .click = []
    · -- no listener here: the walk goes on from the same page
      rw [if_pos hnil] at hi
      rw [hi] at h₂
      simpa [hnil] using ih hst h₂
    · -- a listener here dismissed the stack; what follows keeps the page cleared
      rw [if_neg hnil] at hi
      have hrest := ih hi.stacked h₂
      rw [if_pos (by simp [hnil])]
      split at hrest
      · exact hi.trans hrest
      · rw [hrest]
        exact hi

/-- **A click on a stacked page** dismisses the stack when it reaches a click listener, and
changes nothing otherwise. -/
theorem Stacked.clicked {n : Nat} {b : Bool} (hst : Stacked s id N p o)
    (h : (dispatch n .click).run p = .ok (b, q)) :
    if reachesListener p.doc n then Cleared s id N p q else q = p := by
  unfold dispatch at h
  rw [run_bind_of_ok (run_doc p)] at h
  exact hst.walk _ h

/-! ## Activations -/

/-- Adding a class without the backdrop word to a node that is no backdrop changes no backdrop. -/
theorem mem_backdrops_addClass (hf : Forest d) {n x : Nat} {c : String}
    (hn : d.hasClass n s.backdropClass = false) (hc : s.backdropClass ∉ Text.splitBlank c) :
    x ∈ backdrops s (d.addClass n c) ↔ x ∈ backdrops s d := by
  have hr := restyled_addClass d n c
  rw [mem_backdrops (hf.restyle hr), mem_backdrops hf, hr.isText, hasClass_addClass_apart d n x hc]
  -- a backdrop is not the node that took the class, so it keeps its other words too
  have hov : d.hasClass x s.backdropClass = true →
      (d.addClass n c).hasClass x s.overlayTag = d.hasClass x s.overlayTag := fun hx =>
    hasClass_addClass_of_ne d (fun e => by rw [e, hx] at hn; cases hn) c _
  constructor
  · rintro ⟨hanc, ht, hbd, hx⟩
    exact ⟨hanc.reshape hr.shape.symm, ht, hbd, (hov hbd) ▸ hx⟩
  · rintro ⟨hanc, ht, hbd, hx⟩
    exact ⟨hanc.reshape hr.shape, ht, hbd, (hov hbd).symm ▸ hx⟩

theorem Layout.addClass (hl : Layout s N d o) (hf : Forest d) {n : Nat}
    {c : String} (hn : d.hasClass n s.backdropClass = false)
    (hc : s.backdropClass ∉ Text.splitBlank c) : Layout s N (d.addClass n c) o := by
  have hr := restyled_addClass d n c
  have hback : ∀ y, y ∈ backdrops s (d.addClass n c) ↔ y ∈ backdrops s d :=
    fun _ => mem_backdrops_addClass hf hn hc
  obtain ⟨pre, hpre, hpreN⟩ := hl.children
  refine ⟨fun x hx y hy => hl.one x ((hback x).mp hx) y ((hback y).mp hy),
    ⟨pre, (hr.shape.children body).trans hpre, hpreN⟩, hl.fresh, fun x hx => ?_,
    fun b hb => (hback b).mpr (hl.made b hb), fun x hx => ?_, fun x hx hanc => ?_⟩
  · obtain ⟨hanc, ht, hov⟩ := hf.mem_elementsByClass.mp (hl.overlays x hx)
    refine (hf.restyle hr).mem_elementsByClass.mpr ⟨hanc.reshape hr.shape, ?_, ?_⟩
    · rw [hr.isText]
      exact ht
    · exact (hasClass_addClass d n x c _).mpr (.inl hov)
  · rw [hasClass_addClass_apart d n x hc]
    exact hl.layers x hx
  · rcases hl.inside x hx (hanc.reshape hr.shape.symm) with hin | ⟨l, hl', hlx⟩
    · exact .inl hin
    · exact .inr ⟨l, hl', hlx.reshape hr.shape⟩

theorem Stacked.retime (hst : Stacked s id N p o) {t : Timeline Chore}
    (ht : ∀ tm ∈ t.timers, tm ∈ p.timeline.timers) :
    Stacked s id N { p with timeline := t } o :=
  { hst with timers := fun tm htm => hst.timers tm (ht tm htm) }

/-- Activating a modal made since the page loaded keeps the layout: the active class carries no
backdrop word. -/
theorem Stacked.activated (hs : Layered s) (hst : Stacked s id N p o) {n : Nat} (hn : N ≤ n)
    (hbd : p.doc.hasClass n s.backdropClass = false) :
    Stacked s id N { p with doc := p.doc.addClass n s.modalActiveClass } o := by
  have hr := restyled_addClass p.doc n s.modalActiveClass
  have hclass : ∀ j, (p.doc.addClass n s.modalActiveClass).hasClass j s.backdropClass =
      p.doc.hasClass j s.backdropClass := fun j => hasClass_addClass_apart _ n j hs.active_apart
  have hback : ∀ y, y ∈ backdrops s (p.doc.addClass n s.modalActiveClass) ↔
      y ∈ backdrops s p.doc := fun _ => mem_backdrops_addClass hst.forest hbd hs.active_apart
  have hbody : n ≠ body := Nat.ne_of_gt (Nat.lt_of_lt_of_le hst.loaded.1 hn)
  refine ⟨hst.layout.addClass hst.forest hbd hs.active_apart, hst.settings, hst.lone,
    hst.forest.restyle hr, hr.shape.grown hst.grown, ⟨hst.loaded.1, ?_⟩,
    (hr.shape.parent body).trans hst.rooted, (hr.isText body).trans hst.element,
    (hasClass_addClass_of_ne _ hbody _ _).trans hst.bare, fun hne hnil => ?_,
    fun j l hl => ?_, fun tm htm => ?_⟩
  · rw [hr.shape.size]
    exact hst.loaded.2
  · refine hst.covered hne (List.eq_nil_iff_forall_not_mem.mpr fun y hy => ?_)
    rw [← hback, hnil] at hy
    cases hy
  · rw [(keeps_addClass p.doc n _).listeners j] at hl
    exact hst.listeners j l hl
  · obtain ⟨n', htask, hn', hns, hbd'⟩ := hst.timers tm htm
    exact ⟨n', htask, hn', hr.shape.size ▸ hns, (hclass n').trans hbd'⟩

/-- A stacked page's timer activates a modal made since the page loaded, which keeps the layout
whether or not the modal is still attached. -/
theorem Stacked.chore (hs : Layered s) (hst : Stacked s id N p o) {n : Nat} (hn : N ≤ n)
    (hbd : p.doc.hasClass n s.backdropClass = false) :
    Stacked s id N ((Chore.activate n s.modalActiveClass).perform p) o := by
  rw [Chore.perform]
  split
  · exact hst.activated hs hn hbd
  · exact hst

/-- **Advancing the clock keeps the stack's layout**: the timers that fall due only activate
modals. -/
theorem Stacked.advanced (hs : Layered s) (hst : Stacked s id N p o) {ms : Nat}
    (h : (advance ms).run p = .ok ((), q)) : Stacked s id N q o := by
  refine Timeline.runDue_waiting (fun q => Stacked s id N q o)
    (fun q t ht hq => hq.retime (fun x hx => ht ▸ hx)) (fun q t tm q' hq htm ht hfire => ?_)
    _ p q hst (runDue_of_advance h)
  -- the timer was waiting, so it activates a modal
  cases hfire
  obtain ⟨n, htask, hn, -, hbd⟩ := hq.timers tm htm
  rw [htask]
  exact (hq.retime ht).chore hs hn hbd

end Steps

/-! ## Runs of operations on the stack -/

/-- What a page's user and its scripts do to an overlay stack: open a modal or a loader, show or
hide the loader, dismiss the stack (closing the loader is a dismissal), click a node, or let time
pass. -/
inductive StackOp where
  | openModal (content : String) (variant : Option String)
  | openLoader
  | loader (status : Bool)
  | dismiss
  | click (node : Nat)
  | advance (ms : Nat)

namespace StackOp

/-- The operation's modal content and variant carry no backdrop class. -/
def Apart (s : Settings) : StackOp → Prop
  | openModal content variant =>
    Unclassed s.backdropClass content ∧ ∀ v ∈ variant, s.backdropClass ∉ Text.splitBlank v
  | _ => True

/-- Whether the operation opens a layer. -/
def opens : StackOp → Bool
  | openModal _ _ | openLoader | loader true => true
  | _ => false

/-- Whether the operation dismisses the stack on a page with document `d`. -/
def dismisses (d : Document Reaction) : StackOp → Bool
  | dismiss | loader false => true
  | click n => reachesListener d n
  | _ => false

end StackOp

/-- Opens a layer with `act`, recording it and the backdrop an opening makes when none is
attached. -/
def Opened.push (o : Opened) (act : Act Nat) : Act Opened := do
  let made := madeFor (← settings) (← doc)
  let x ← act
  pure ⟨o.made <|> made, o.layers ++ [x]⟩

/-- Runs an operation on the stack `id`, following the layers opened since its last dismissal;
the loader is shown or hidden as `showLoader` does it. -/
def StackOp.perform (id : Nat) (o : Opened) : StackOp → Act Opened
  | .openModal content variant => o.push (Ui.openModal id content variant)
  | .openLoader => o.push (Ui.openLoader id)
  | .loader status =>
    if status then o.push (Ui.openLoader id)
    else do
      let _ ← Ui.dismiss id
      pure ⟨none, []⟩
  | .dismiss => do
    let _ ← Ui.dismiss id
    pure ⟨none, []⟩
  | .click n => do
    let hit := reachesListener (← doc) n
    let _ ← dispatch n .click
    pure (if hit then ⟨none, []⟩ else o)
  | .advance ms => do
    Ui.advance ms
    pure o

/-- Runs operations one after the other on the stack `id`. -/
def StackOp.performAll (id : Nat) (o : Opened) : List StackOp → Act Opened
  | [] => pure o
  | op :: ops => do
    let o' ← op.perform id o
    StackOp.performAll id o' ops

section Run

variable {id N : Nat} {p q : Page} {o o' : Opened}

/-- An opening on a stacked page keeps it stacked, and adds a backdrop only when none was
attached. -/
theorem Stacked.push (hst : Stacked s id N p o) {act : Act Nat}
    (hact : ∀ x q, act.run p = .ok (x, q) → Opening s id p q (madeFor s p.doc) x)
    (h : (o.push act).run p = .ok (o', q)) :
    Stacked s id N q o' ∧
      ∀ x, x ∈ backdrops s q.doc ↔ x ∈ backdrops s p.doc ∨ x ∈ madeFor s p.doc := by
  unfold Opened.push at h
  rw [run_bind_of_ok (run_settings p), run_bind_of_ok (run_doc p)] at h
  obtain ⟨x, p₃, h₃, h⟩ := run_bind_eq_ok h
  obtain ⟨rfl, rfl⟩ := Prod.mk.inj (Except.ok.inj h)
  have hop := hact x p₃ h₃
  obtain ⟨parts, hh⟩ := hop.hung
  rw [hst.settings]
  exact ⟨hst.opening hop, fun _ => mem_backdrops_hung hh hst.forest hst.rooted
    (Nat.lt_of_lt_of_le hst.loaded.1 hst.loaded.2)⟩

/-- A dismissal on a stacked page clears it, and the stack has no layer left. -/
theorem Stacked.clear (hst : Stacked s id N p o)
    (h : (do let _ ← Ui.dismiss id; pure ⟨none, []⟩ : Act Opened).run p = .ok (o', q)) :
    Cleared s id N p q ∧ o' = ⟨none, []⟩ := by
  obtain ⟨_, p₁, h₁, h⟩ := run_bind_eq_ok h
  obtain ⟨rfl, rfl⟩ := Prod.mk.inj (Except.ok.inj h)
  exact ⟨hst.dismissed h₁, rfl⟩

/-- **One operation keeps a stacked page stacked**, with the layers `perform` records; an
opening adds a backdrop only when none is attached, and a dismissal clears the page. -/
theorem Stacked.step (hs : Layered s) (hst : Stacked s id N p o) {op : StackOp}
    (hop : op.Apart s) (h : (op.perform id o).run p = .ok (o', q)) :
    Stacked s id N q o' ∧
      (op.opens = true →
        ∀ x, x ∈ backdrops s q.doc ↔ x ∈ backdrops s p.doc ∨ x ∈ madeFor s p.doc) ∧
      (op.dismisses p.doc = true → Cleared s id N p q) := by
  have hb : body < p.doc.nodes.size := Nat.lt_of_lt_of_le hst.loaded.1 hst.loaded.2
  have hloader : ∀ x q, (Ui.openLoader id).run p = .ok (x, q) →
      Opening s id p q (madeFor s p.doc) x := fun _ _ =>
    openLoader_opening hs hst.settings hst.forest hst.grown hb hst.element
  cases op with
  | openModal content variant =>
    obtain ⟨hst', hback⟩ := hst.push (fun _ _ => openModal_opening hs hst.settings hst.forest
      hst.grown hb hst.element hop.1 hop.2) h
    exact ⟨hst', fun _ => hback, fun hd => absurd hd Bool.false_ne_true⟩
  | openLoader =>
    obtain ⟨hst', hback⟩ := hst.push hloader h
    exact ⟨hst', fun _ => hback, fun hd => absurd hd Bool.false_ne_true⟩
  | loader status =>
    cases status with
    | false =>
      obtain ⟨hc, rfl⟩ := hst.clear h
      exact ⟨hc.stacked, fun ho => absurd ho Bool.false_ne_true, fun _ => hc⟩
    | true =>
      obtain ⟨hst', hback⟩ := hst.push hloader h
      exact ⟨hst', fun _ => hback, fun hd => absurd hd Bool.false_ne_true⟩
  | dismiss =>
    obtain ⟨hc, rfl⟩ := hst.clear h
    exact ⟨hc.stacked, fun ho => absurd ho Bool.false_ne_true, fun _ => hc⟩
  | click n =>
    rw [StackOp.perform, run_bind_of_ok (run_doc p)] at h
    obtain ⟨_, p₂, h₂, h⟩ := run_bind_eq_ok h
    obtain ⟨rfl, rfl⟩ := Prod.mk.inj (Except.ok.inj h)
    have hc := hst.clicked h₂
    refine ⟨?_, fun ho => absurd ho Bool.false_ne_true, fun hd => ?_⟩
    · split at hc
      · next hit => rw [if_pos hit]; exact hc.stacked
      · next hit => rw [if_neg hit, hc]; exact hst
    · have hit : reachesListener p.doc n = true := hd
      rw [if_pos hit] at hc
      exact hc
  | advance ms =>
    obtain ⟨_, p₁, h₁, h⟩ := run_bind_eq_ok h
    obtain ⟨rfl, rfl⟩ := Prod.mk.inj (Except.ok.inj h)
    exact ⟨hst.advanced hs h₁, fun ho => absurd ho Bool.false_ne_true,
      fun hd => absurd hd Bool.false_ne_true⟩

/-- A run of operations keeps a stacked page stacked. -/
theorem Stacked.performAll (hs : Layered s) (hst : Stacked s id N p o) {ops : List StackOp}
    (hops : ∀ op ∈ ops, op.Apart s) (h : (StackOp.performAll id o ops).run p = .ok (o', q)) :
    Stacked s id N q o' := by
  induction ops generalizing p o with
  | nil =>
    obtain ⟨rfl, rfl⟩ := Prod.mk.inj (Except.ok.inj h)
    exact hst
  | cons op ops ih =>
    obtain ⟨o₁, p₁, h₁, h⟩ := run_bind_eq_ok h
    exact ih (hst.step hs (hops op List.mem_cons_self) h₁).1
      (fun op' hop' => hops op' (List.mem_cons_of_mem _ hop')) h

end Run

end PageEditor.Ui
