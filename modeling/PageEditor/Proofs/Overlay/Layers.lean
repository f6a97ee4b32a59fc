import PageEditor.Proofs.Markup.Attached
import PageEditor.Proofs.Page.Actions
/-!
# PageEditor.Proofs.Overlay.Layers

What the actions of an overlay stack do to a page whose only stack it is.

Besides the nodes it builds, a stack only dresses nodes: it sets their style and adds click
listeners that dismiss it (`Dressed`), and it changes the list of nodes it wired (`Rewired`).
Wiring a node, wiring the close triggers and centering a modal are such changes.
-/

namespace PageEditor.Markup.Document

/-! ## Hanging fresh nodes -/

variable {σ : Type} {d : Document σ}

theorem attributes_append (d : Document σ) (p c j : Nat) :
    ((d.append p c).node j).attributes = (d.node j).attributes := by
  simp only [Document.append, node_modify]
  split <;> split <;> exact attributes_detach d c j

theorem hasClass_append (d : Document σ) (p c j : Nat) (cls : String) :
    (d.append p c).hasClass j cls = d.hasClass j cls := by
  simp only [Document.hasClass, Node.hasClass, Node.attribute?, attributes_append]

theorem parent_append (d : Document σ) (p : Nat) {c : Nat} (hc : c < d.nodes.size) (j : Nat) :
    ((d.append p c).node j).parent = if j = c then some p else (d.node j).parent := by
  simp only [Document.append]
  by_cases hj : j = c
  · subst hj
    rw [node_modify_self _ _ (by simpa using hc), if_pos rfl]
  · rw [node_modify_of_ne _ _ (Ne.symm hj), parent_modify_children (f := fun l => l ++ [c]),
      parent_detach, if_neg hj, if_neg hj]

theorem children_append_of_orphan {c : Nat} (h : (d.node c).parent = none) {p : Nat}
    (hp : p < d.nodes.size) (j : Nat) :
    ((d.append p c).node j).children =
      if j = p then (d.node j).children ++ [c] else (d.node j).children := by
  rw [append_of_orphan h, children_modify_parent, node_modify]
  by_cases hj : j = p
  · subst hj
    rw [if_pos ⟨rfl, hp⟩, if_pos rfl]
  · rw [if_neg fun h => hj h.1.symm, if_neg hj]

/-- Hanging a node below an older element keeps a grown forest: the node cannot lie above it. -/
theorem Forest.append_newer (hf : Forest d) (hg : Grown d) {p c : Nat} (hpc : p < c)
    (hc : c < d.nodes.size) (hpt : (d.node p).isText = false) : Forest (d.append p c) :=
  hf.append (Nat.lt_trans hpc hc) hc hpt (Nat.ne_of_gt (Nat.lt_of_le_of_lt (Nat.zero_le p) hpc))
    (Nat.ne_of_gt hpc) fun h => Nat.lt_asymm hpc (hf.ancestor_lt hg h)

theorem hasClass_of_size_le {j : Nat} (h : d.nodes.size ≤ j) (cls : String) :
    d.hasClass j cls = false := by
  rw [Document.hasClass, node_of_size_le h]
  rfl

/-- A fresh element carrying a class list: the node itself. -/
theorem node_classed (d : Document σ) (tag cls : String) (j : Nat) :
    ((d.createElement tag).2.setClassName d.nodes.size cls).node j =
      if j = d.nodes.size then (Node.blank tag.toLower).setAttribute "class" cls else d.node j := by
  simp only [setClassName, setAttribute, createElement, node_modify, node_alloc, size_alloc]
  by_cases hj : j = d.nodes.size
  · rw [if_pos ⟨hj.symm, by omega⟩, if_pos hj, if_pos hj]
  · rw [if_neg fun h => hj h.1.symm, if_neg hj, if_neg hj]

/-! ## Fresh elements -/

/-- `e` is `d` with a fresh element `x` carrying the class list `cls`, with new nodes below it
and no parent: every node of `d` keeps what it had. -/
structure Fresh (d e : Document σ) (x : Nat) (cls : String) : Prop where
  forest : Forest e
  grown : Grown e
  settled : Settled d e
  keeps : Keeps d e
  children : ∀ j < d.nodes.size, (e.node j).children = (d.node j).children
  index : x = d.nodes.size
  lt_size : x < e.nodes.size
  orphan : (e.node x).parent = none
  element : (e.node x).isText = false
  classes : ∀ c, e.hasClass x c = (Text.splitBlank cls).contains c

theorem fresh_classed (hf : Forest d) (hg : Grown d) {tag : String} (ht : tag.toLower ≠ textTag)
    (cls : String) :
    Fresh d ((d.createElement tag).2.setClassName d.nodes.size cls) d.nodes.size cls := by
  have hbare : Bare (Node.blank tag.toLower : Node σ) := ⟨rfl, rfl, rfl⟩
  refine ⟨(hf.alloc hbare).restyle (restyled_setClassName _ _ _),
    (sameShape_setAttribute _ _ _ _).grown (hg.alloc rfl),
    ((Settled.refl d).alloc _).modify _ (.inl (Nat.le_refl _)),
    (keeps_alloc d rfl).trans (keeps_setAttribute _ _ _ _), fun j hj => ?_, rfl,
    by simp [setClassName, setAttribute, createElement], ?_, ?_, fun c => ?_⟩
  · rw [node_classed, if_neg (Nat.ne_of_lt hj)]
  · rw [node_classed, if_pos rfl]
    rfl
  · rw [node_classed, if_pos rfl]
    exact beq_false_of_ne ht
  · rw [Document.hasClass, node_classed, if_pos rfl, Node.hasClass_setAttribute_class]

theorem children_classed (d : Document σ) (tag cls : String) :
    (((d.createElement tag).2.setClassName d.nodes.size cls).node d.nodes.size).children = [] := by
  rw [node_classed, if_pos rfl]
  rfl

namespace Fresh

variable {e : Document σ} {x : Nat} {cls : String}

/-- Filling the fresh element with markup. -/
theorem setInnerHtml (h : Fresh d e x cls) (hx : (e.node x).children = []) (html : String) :
    Fresh d (e.setInnerHtml x html) x cls := by
  have hs := (Settled.refl e).setInnerHtml hx html
  obtain ⟨hk, hc, hg⟩ := setInnerHtml_grows h.grown h.lt_size html
  refine ⟨h.forest.setInnerHtml h.lt_size h.element html, hg, h.settled.trans hs, h.keeps.trans hk,
    fun j hj => ?_, h.index, Nat.lt_of_lt_of_le h.lt_size hs.size_le, ?_, ?_, fun c => ?_⟩
  · rw [hc j (Nat.lt_of_lt_of_le hj h.settled.size_le) (by rw [h.index]; omega)]
    exact h.children j hj
  · rw [hs.parent x h.lt_size]
    exact h.orphan
  · rw [hs.isText h.lt_size]
    exact h.element
  · rw [hs.hasClass h.lt_size]
    exact h.classes c

/-- Setting another attribute of the fresh element. -/
theorem setAttribute (h : Fresh d e x cls) {name : String} (hn : name ≠ "class") (value : String) :
    Fresh d (e.setAttribute x name value) x cls := by
  have hr := restyled_setAttribute e x name value
  refine ⟨h.forest.restyle hr, hr.shape.grown h.grown,
    h.settled.modify x (.inl (Nat.le_of_eq h.index.symm)), h.keeps.trans (keeps_setAttribute _ _ _ _),
    fun j hj => (hr.shape.children j).trans (h.children j hj), h.index, ?_, ?_, ?_, fun c => ?_⟩
  · rw [hr.shape.size]
    exact h.lt_size
  · rw [hr.shape.parent]
    exact h.orphan
  · rw [Node.isText, hr.tag]
    exact h.element
  · rw [hasClass_setAttribute_of_ne _ _ _ _ _ hn]
    exact h.classes c

/-- A node built after a fresh element leaves it fresh. -/
theorem later {e' : Document σ} (h : Fresh d e x cls) (hs : Settled e e') (hk : Keeps e e')
    (hc : ∀ j < e.nodes.size, (e'.node j).children = (e.node j).children) (hf : Forest e')
    (hg : Grown e') : Fresh d e' x cls where
  forest := hf
  grown := hg
  settled := h.settled.trans hs
  keeps := h.keeps.trans hk
  children j hj := (hc j (Nat.lt_of_lt_of_le hj h.settled.size_le)).trans (h.children j hj)
  index := h.index
  lt_size := Nat.lt_of_lt_of_le h.lt_size hs.size_le
  orphan := (hs.parent x h.lt_size).trans h.orphan
  element := (hs.isText h.lt_size).trans h.element
  classes c := (hs.hasClass h.lt_size c).trans (h.classes c)

end Fresh

/-- The label of a close link adds a span and a text, neither carrying a class. -/
theorem label_spec {e : Document σ} {x : Nat} (hx : x < e.nodes.size) :
    (e.setInnerHtml x "<span>Close</span>").nodes.size = e.nodes.size + 2 ∧
      ∀ c, (e.setInnerHtml x "<span>Close</span>").hasClass e.nodes.size c = false ∧
        (e.setInnerHtml x "<span>Close</span>").hasClass (e.nodes.size + 1) c = false := by
  rw [setInnerHtml_label e hx]
  have hx' : x < (e.clearChildren x).nodes.size := by simpa using hx
  have hspan := sprout_node_self (e.clearChildren x) (n := elementNode "span" []) ⟨rfl, rfl, rfl⟩ hx'
  rw [size_clearChildren] at hspan
  have hs : e.nodes.size < ((e.clearChildren x).sprout (elementNode "span" []) x).nodes.size := by
    simp
  have htext := sprout_node_self _ (n := textNode "Close") ⟨rfl, rfl, rfl⟩ hs
  refine ⟨by simp, fun c => ⟨?_, ?_⟩⟩
  · rw [((Settled.refl _).sprout _ _).hasClass hs, Document.hasClass, hspan]
    rfl
  · have hsize : ((e.clearChildren x).sprout (elementNode "span" []) x).nodes.size =
        e.nodes.size + 1 := by simp
    rw [← hsize, Document.hasClass, htext]
    rfl

end PageEditor.Markup.Document

namespace PageEditor.Ui

open Markup Markup.Document

/-! ## Dressing nodes -/

/-- A listener that dismisses the stack `id` on a click: a backdrop's or a close trigger's. -/
def Dismisses (id : Nat) (l : EventKind × Reaction) : Prop :=
  l = (.click, .dismissOverlays id) ∨ l = (.click, .closeOverlays id)

/-- `d'` is `d` with styles set and with listeners added that dismiss the stack `id`. -/
structure Dressed (id : Nat) (d d' : Document Reaction) : Prop where
  cosmetic : Cosmetic d d'
  attributes : ∀ j, (d'.node j).attributes = (d.node j).attributes
  listeners : ∀ j, ∀ l ∈ (d'.node j).listeners, l ∈ (d.node j).listeners ∨ Dismisses id l

namespace Dressed

variable {id : Nat} {d d₁ d₂ : Document Reaction}

theorem refl (d : Document Reaction) : Dressed id d d :=
  ⟨Cosmetic.refl d, fun _ => rfl, fun _ _ hl => .inl hl⟩

theorem trans (h₁ : Dressed id d d₁) (h₂ : Dressed id d₁ d₂) : Dressed id d d₂ where
  cosmetic := h₁.cosmetic.trans h₂.cosmetic
  attributes j := (h₂.attributes j).trans (h₁.attributes j)
  listeners j l hl := (h₂.listeners j l hl).elim (h₁.listeners j l) .inr

theorem restyled (h : Dressed id d d₁) : Restyled d d₁ :=
  ⟨h.cosmetic.sameShape, fun j => (h.cosmetic.alike j).1⟩

theorem settled (h : Dressed id d d₁) : Settled d d₁ where
  size_le := Nat.le_of_eq h.cosmetic.size.symm
  tag j _ := (h.cosmetic.alike j).1
  attributes j _ := h.attributes j
  parent j _ := (h.cosmetic.alike j).2.2.2.2

theorem hasClass (h : Dressed id d d₁) (j : Nat) (cls : String) :
    d₁.hasClass j cls = d.hasClass j cls := by
  simp only [Document.hasClass, Node.hasClass, Node.attribute?, h.attributes j]

theorem elementsByClass (h : Dressed id d d₁) (cls : String) :
    d₁.elementsByClass cls = d.elementsByClass cls := by
  simp only [Document.elementsByClass, elementsByClassWithin, h.cosmetic.descendants,
    Node.hasClass, Node.attribute?, h.attributes]

end Dressed

theorem dressed_setStyle {id : Nat} (d : Document Reaction) (i : Nat) (property value : String) :
    Dressed id d (d.setStyle i property value) where
  cosmetic := cosmetic_modify d i fun _ => ⟨rfl, rfl, rfl, rfl, rfl⟩
  attributes j := by simp only [setStyle, node_modify]; split <;> rfl
  listeners j l hl := by
    simp only [setStyle, node_modify] at hl
    split at hl <;> exact .inl hl

theorem dressed_listen {id : Nat} (d : Document Reaction) (i : Nat) {r : Reaction}
    (hr : Dismisses id (.click, r)) : Dressed id d (d.listen i .click r) where
  cosmetic := cosmetic_listen d i .click r
  attributes j := node_listen_attributes d i j .click r
  listeners j l hl := by
    simp only [Document.listen, node_modify] at hl
    split at hl
    · rcases List.mem_append.mp hl with hl | hl
      · exact .inl hl
      · rw [List.mem_singleton.mp hl]
        exact .inr hr
    · exact .inl hl

/-! ## Rewiring the page -/

/-- `q` is `p` with its document dressed for the stack `id`, and with the wired list of a lone
stack changed. -/
structure Rewired (id : Nat) (p q : Page) : Prop where
  frame : q = { p with doc := q.doc, overlays := q.overlays }
  dressed : Dressed id p.doc q.doc
  stack : ∀ st, p.overlays = [st] → ∃ ws, q.overlays = [{ st with wired := ws }]

namespace Rewired

variable {id : Nat} {p q r : Page}

theorem refl (p : Page) : Rewired id p p :=
  ⟨rfl, Dressed.refl _, fun st h => ⟨st.wired, h⟩⟩

theorem trans (h₁ : Rewired id p q) (h₂ : Rewired id q r) : Rewired id p r where
  frame := h₂.frame.trans (by rw [h₁.frame])
  dressed := h₁.dressed.trans h₂.dressed
  stack st h := by
    obtain ⟨ws, hq⟩ := h₁.stack st h
    obtain ⟨ws', hr⟩ := h₂.stack _ hq
    exact ⟨ws', hr⟩

theorem doc (hd : Dressed id p.doc d) : Rewired id p { p with doc := d } :=
  ⟨rfl, hd, fun st h => ⟨st.wired, h⟩⟩

/-- Changing the wired list of the stack. -/
theorem wired (p : Page) (id : Nat) (g : OverlayStack → List Nat) :
    Rewired id p { p with overlays := p.overlays.map fun st =>
      if st.id == id then { st with wired := g st } else st } := by
  refine ⟨rfl, Dressed.refl _, fun st hst => ?_⟩
  rw [hst]
  by_cases h : st.id = id
  · exact ⟨g st, by simp [h]⟩
  · exact ⟨st.wired, by simp [h]⟩

end Rewired

@[simp] theorem run_stack? (p : Page) (id : Nat) :
    (stack? id).run p = .ok (p.overlays.find? (·.id == id), p) := rfl

@[simp] theorem run_updateStack (p : Page) (id : Nat) (f : OverlayStack → OverlayStack) :
    (updateStack id f).run p =
      .ok ((), { p with overlays := p.overlays.map fun st => if st.id == id then f st else st }) :=
  rfl

theorem goes_stack? (id : Nat) : Goes (stack? id) := fun p => ⟨_, p, rfl⟩

theorem goes_updateStack (id : Nat) (f : OverlayStack → OverlayStack) : Goes (updateStack id f) :=
  fun _ => ⟨_, _, rfl⟩

section Wiring

variable {id : Nat} {p q : Page}

theorem wire_rewired {node : Nat} {r : Reaction} (hr : Dismisses id (.click, r))
    (h : (wire id node r).run p = .ok ((), q)) : Rewired id p q := by
  unfold wire at h
  obtain ⟨o, p₁, h₁, h⟩ := run_bind_eq_ok h
  rw [run_stack?] at h₁
  obtain ⟨rfl, rfl⟩ := Prod.mk.inj (Except.ok.inj h₁)
  cases hf : p.overlays.find? (·.id == id) with
  | none =>
    rw [hf] at h
    cases h
    exact Rewired.refl p
  | some st =>
    rw [hf] at h
    dsimp only at h
    split at h
    · -- a node the stack has not wired yet gets its listener
      obtain ⟨_, p₂, h₂, h⟩ := run_bind_eq_ok h
      rw [run_onDoc] at h₂
      obtain ⟨-, rfl⟩ := Prod.mk.inj (Except.ok.inj h₂)
      rw [run_updateStack] at h
      obtain ⟨-, rfl⟩ := Prod.mk.inj (Except.ok.inj h)
      exact (Rewired.doc (dressed_listen _ _ hr)).trans
        (Rewired.wired _ id fun st => st.wired ++ [node])
    · cases h
      exact Rewired.refl p

theorem goes_wire (id node : Nat) (r : Reaction) : Goes (wire id node r) := by
  unfold wire
  refine (goes_stack? id).bind fun o => ?_
  split
  · exact goes_pure _
  · exact Goes.ite ((goes_onDoc _).bind fun _ => goes_updateStack _ _) (goes_pure _)

theorem forM_wire_rewired {r : Reaction} (hr : Dismisses id (.click, r)) (ts : List Nat) :
    ∀ {p q : Page}, (ts.forM fun t => wire id t r).run p = .ok ((), q) → Rewired id p q := by
  induction ts with
  | nil =>
    intro p q h
    cases h
    exact Rewired.refl p
  | cons t ts ih =>
    intro p q h
    obtain ⟨_, p₁, h₁, h⟩ := run_bind_eq_ok (x := wire id t r) h
    exact (wire_rewired hr h₁).trans (ih h)

theorem wireCloseTriggers_rewired (h : (wireCloseTriggers id).run p = .ok ((), q)) :
    Rewired id p q := by
  unfold wireCloseTriggers at h
  rw [run_bind_of_ok (run_settings p), run_bind_of_ok (run_doc p)] at h
  obtain ⟨_, _, hu, h⟩ := run_bind_eq_ok h
  rw [run_updateStack] at hu
  obtain ⟨-, rfl⟩ := Prod.mk.inj (Except.ok.inj hu)
  exact (Rewired.wired p id fun st => st.wired.filter p.doc.isConnected).trans
    (forM_wire_rewired (.inr rfl) _ h)

/-- Centering a modal only sets its style. -/
theorem center_rewired {m : Nat} (h : (center m).run p = .ok ((), q)) : Rewired id p q := by
  unfold center at h
  rw [run_bind_of_ok (run_settings p), run_bind_of_ok (run_doc p)] at h
  dsimp only at h
  split at h
  · rw [run_onDoc] at h
    obtain ⟨-, rfl⟩ := Prod.mk.inj (Except.ok.inj h)
    exact Rewired.doc ((dressed_setStyle _ _ _ _).trans (dressed_setStyle _ _ _ _))
  · rw [run_onDoc] at h
    obtain ⟨-, rfl⟩ := Prod.mk.inj (Except.ok.inj h)
    exact Rewired.doc (dressed_setStyle _ _ _ _)

end Wiring

/-! ## Hanging layers -/

/-- Class settings under which the nodes of a stack keep to their roles: the overlay tag and the
backdrop class are single words and differ, no modal, loader or activation class holds the
backdrop class, and neither the close link nor the content layer carries the overlay tag. -/
structure Layered (s : Settings) : Prop where
  tag_word : Text.splitBlank s.overlayTag = [s.overlayTag]
  backdrop_word : Text.splitBlank s.backdropClass = [s.backdropClass]
  tag_ne : s.backdropClass ≠ s.overlayTag
  modal_apart : s.backdropClass ∉ Text.splitBlank s.modalClass
  loader_apart : s.backdropClass ∉ Text.splitBlank s.loaderClass
  active_apart : s.backdropClass ∉ Text.splitBlank s.modalActiveClass
  close_apart : s.overlayTag ∉ Text.splitBlank ("modal-close " ++ s.closeTag)
  inner_apart : s.overlayTag ≠ "modal-inner"

/-- Markup none of whose nodes carries the class `cls`, wherever it is read. -/
def Unclassed (cls html : String) : Prop :=
  ∀ (d : Document Reaction) (x j : Nat), d.nodes.size ≤ j →
    (d.setInnerHtml x html).hasClass j cls = false

/-- `d'` is `d` with new nodes hung at the end of the body: `made`, a backdrop the stack made,
then the `layers`; `parts` are the other nodes the stack built. Every node of `d` stays where it
was, among the new nodes only `made` carries both the backdrop class and the overlay tag, and
every listener added dismisses the stack `id`. -/
structure Hung (s : Settings) (id : Nat) (d d' : Document Reaction) (made : Option Nat)
    (layers parts : List Nat) : Prop where
  forest : Forest d'
  grown : Grown d'
  settled : Settled d d'
  body : (d'.node body).children = (d.node body).children ++ made.toList ++ layers
  fresh : ∀ x ∈ made.toList ++ layers ++ parts, d.nodes.size ≤ x ∧ x < d'.nodes.size
  elements : ∀ x ∈ made.toList ++ layers, (d'.node x).isText = false
  tagged : ∀ x ∈ made.toList ++ layers, d'.hasClass x s.overlayTag = true
  backdrop : ∀ b ∈ made, d'.hasClass b s.backdropClass = true
  plain : ∀ x ∈ parts, d'.hasClass x s.overlayTag = false
  apart : ∀ x, d.nodes.size ≤ x → x ∉ made → d'.hasClass x s.backdropClass = true →
    d'.hasClass x s.overlayTag = false
  listeners : ∀ j, ∀ l ∈ (d'.node j).listeners, l ∈ (d.node j).listeners ∨ Dismisses id l

namespace Hung

variable {s : Settings} {id : Nat} {d d₁ d₂ : Document Reaction} {made : Option Nat}
  {layers parts : List Nat}

/-- Hanging nothing. -/
theorem rfl' (hf : Forest d) (hg : Grown d) : Hung s id d d none [] [] where
  forest := hf
  grown := hg
  settled := Settled.refl d
  body := by simp
  fresh _ h := by simp at h
  elements _ h := by simp at h
  tagged _ h := by simp at h
  backdrop _ h := by simp at h
  plain _ h := by simp at h
  apart x hx _ hb := by rw [hasClass_of_size_le hx] at hb; cases hb
  listeners _ _ hl := .inl hl

theorem dress (h : Hung s id d d₁ made layers parts) (hd : Dressed id d₁ d₂) :
    Hung s id d d₂ made layers parts where
  forest := h.forest.restyle hd.restyled
  grown := hd.cosmetic.sameShape.grown h.grown
  settled := h.settled.trans hd.settled
  body := (hd.cosmetic.alike Document.body).2.2.2.1.trans h.body
  fresh x hx := by rw [hd.cosmetic.size]; exact h.fresh x hx
  elements x hx := by rw [Node.isText, (hd.cosmetic.alike x).1]; exact h.elements x hx
  tagged x hx := by rw [hd.hasClass]; exact h.tagged x hx
  backdrop b hb := by rw [hd.hasClass]; exact h.backdrop b hb
  plain x hx := by rw [hd.hasClass]; exact h.plain x hx
  apart x hx hm hb := by
    rw [hd.hasClass] at hb ⊢
    exact h.apart x hx hm hb
  listeners j l hl := (hd.listeners j l hl).elim (h.listeners j l) .inr

/-- Hanging more layers after some. -/
theorem trans (h₁ : Hung s id d d₁ made layers parts) {layers₂ parts₂ : List Nat}
    (h₂ : Hung s id d₁ d₂ none layers₂ parts₂) :
    Hung s id d d₂ made (layers ++ layers₂) (parts ++ parts₂) := by
  -- the nodes hung first keep their classes, and the nodes hung next are newer than `d`
  have old : ∀ {x}, x ∈ made.toList ++ layers ++ parts → ∀ c, d₂.hasClass x c = d₁.hasClass x c :=
    fun hx c => h₂.settled.hasClass (h₁.fresh _ hx).2 c
  have grow : ∀ {x}, d₁.nodes.size ≤ x → d.nodes.size ≤ x :=
    fun hx => Nat.le_trans h₁.settled.size_le hx
  have first : ∀ {x}, x ∈ made.toList ++ layers → x ∈ made.toList ++ layers ++ parts :=
    List.mem_append_left _
  have hung : ∀ {x}, x ∈ made.toList ++ (layers ++ layers₂) →
      x ∈ made.toList ++ layers ∨ x ∈ none.toList ++ layers₂ := by
    intro x hx
    simp only [List.mem_append, Option.toList_none, List.not_mem_nil, false_or] at hx ⊢
    tauto
  constructor
  case forest => exact h₂.forest
  case grown => exact h₂.grown
  case settled => exact h₁.settled.trans h₂.settled
  case body =>
    rw [h₂.body, h₁.body]
    simp
  case fresh =>
    intro x hx
    have hx' : x ∈ made.toList ++ layers ++ parts ∨ x ∈ none.toList ++ layers₂ ++ parts₂ := by
      simp only [List.mem_append, Option.toList_none, List.not_mem_nil, false_or] at hx ⊢
      tauto
    rcases hx' with hx | hx
    · exact ⟨(h₁.fresh x hx).1, Nat.lt_of_lt_of_le (h₁.fresh x hx).2 h₂.settled.size_le⟩
    · exact ⟨grow (h₂.fresh x hx).1, (h₂.fresh x hx).2⟩
  case elements =>
    intro x hx
    rcases hung hx with hx | hx
    · rw [h₂.settled.isText (h₁.fresh x (first hx)).2]
      exact h₁.elements x hx
    · exact h₂.elements x hx
  case tagged =>
    intro x hx
    rcases hung hx with hx | hx
    · rw [old (first hx)]
      exact h₁.tagged x hx
    · exact h₂.tagged x hx
  case backdrop =>
    intro b hb
    rw [old (first (List.mem_append_left _ (Option.mem_toList.mpr hb)))]
    exact h₁.backdrop b hb
  case plain =>
    intro x hx
    rcases List.mem_append.mp hx with hx | hx
    · rw [old (List.mem_append_right _ hx)]
      exact h₁.plain x hx
    · exact h₂.plain x hx
  case apart =>
    intro x hx hm hb
    by_cases hx₁ : x < d₁.nodes.size
    · rw [h₂.settled.hasClass hx₁] at hb ⊢
      exact h₁.apart x hx hm hb
    · exact h₂.apart x (Nat.le_of_not_lt hx₁) (by simp) hb
  case listeners =>
    intro j l hl
    exact (h₂.listeners j l hl).elim (h₁.listeners j l) .inr

end Hung

/-- A fresh `div` carrying a class list, hung at the end of the body: a backdrop or a loader. -/
def hangLayer (d : Document Reaction) (cls : String) : Document Reaction :=
  ((d.createElement "div").2.setClassName d.nodes.size cls).append body d.nodes.size

section Building

variable {s : Settings} {id : Nat} {d : Document Reaction}

/-- Hanging one fresh `div` makes it a backdrop or a layer, as its classes say. -/
theorem hangLayer_hung (hf : Forest d) (hg : Grown d) (hb : body < d.nodes.size)
    (hbt : (d.node body).isText = false) {cls : String} {made : Option Nat} {layers : List Nat}
    (hnew : made.toList ++ layers = [d.nodes.size]) (htag : s.overlayTag ∈ Text.splitBlank cls)
    (hmade : made.isSome → s.backdropClass ∈ Text.splitBlank cls)
    (hlayer : made = none → s.backdropClass ∉ Text.splitBlank cls) :
    Hung s id d (hangLayer d cls) made layers [] := by
  have hd : Fresh d ((d.createElement "div").2.setClassName d.nodes.size cls) d.nodes.size cls :=
    fresh_classed hf hg (by decide +kernel) cls
  have hbt' := (hd.settled.isText hb).trans hbt
  have hsize : (hangLayer d cls).nodes.size = d.nodes.size + 1 := by
    simp [hangLayer, setClassName, setAttribute, createElement]
  have hk := hd.keeps.trans (keeps_append _ body d.nodes.size)
  -- the one new node is the hung `div`, carrying the words of `cls`
  have hone : ∀ x ∈ made.toList ++ layers ++ [], x = d.nodes.size := by
    intro x hx
    rw [List.append_nil, hnew] at hx
    exact List.mem_singleton.mp hx
  have hcls : ∀ c, (hangLayer d cls).hasClass d.nodes.size c = (Text.splitBlank cls).contains c :=
    fun c => (hasClass_append _ _ _ _ _).trans (hd.classes c)
  constructor
  case forest => exact hd.forest.append_newer hd.grown hb hd.lt_size hbt'
  case grown => exact hd.grown.append hb hd.lt_size
  case settled => exact hd.settled.append _ (Nat.le_refl _)
  case body =>
    rw [hangLayer, children_append_of_orphan hd.orphan (Nat.lt_trans hb hd.lt_size), if_pos rfl,
      hd.children _ hb, List.append_assoc, hnew]
  case fresh =>
    intro x hx
    rw [hone x hx]
    exact ⟨Nat.le_refl _, by rw [hangLayer, size_append]; exact hd.lt_size⟩
  case elements =>
    intro x hx
    rw [hone x (List.mem_append_left _ hx), Node.isText, hangLayer,
      (keeps_append _ body d.nodes.size).tag _ hd.lt_size]
    exact hd.element
  case tagged =>
    intro x hx
    rw [hone x (List.mem_append_left _ hx), hcls]
    exact List.contains_iff_mem.mpr htag
  case backdrop =>
    intro b hb'
    have hbn : b = d.nodes.size := hone b (by simp [Option.mem_toList.mpr hb'])
    rw [hbn, hcls]
    exact List.contains_iff_mem.mpr (hmade (Option.isSome_iff_exists.mpr ⟨b, hb'⟩))
  case plain =>
    intro x hx
    simp at hx
  case apart =>
    intro x hx hm hbc
    exfalso
    rcases Nat.lt_or_ge d.nodes.size x with hlt | hle
    · rw [hasClass_of_size_le (by rw [hsize]; exact hlt)] at hbc
      cases hbc
    · have hxn : x = d.nodes.size := Nat.le_antisymm hle hx
      subst hxn
      -- a node that is not the made backdrop is a layer, which the backdrop class misses
      have hnone : made = none := by
        cases made with
        | none => rfl
        | some b =>
          have : b = d.nodes.size := hone b (by simp)
          exact absurd (this ▸ rfl : some b = some d.nodes.size) hm
      rw [hcls, List.contains_iff_mem] at hbc
      exact hlayer hnone hbc
  case listeners =>
    -- the hung `div` has no listeners, and every old node keeps its own
    intro j l hl
    left
    rw [← hk.listeners j]
    exact hl

end Building

end PageEditor.Ui
