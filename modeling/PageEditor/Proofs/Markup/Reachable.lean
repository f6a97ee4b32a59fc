import PageEditor.Proofs.Markup.Forest
/-!
# PageEditor.Proofs.Markup.Reachable

The documents the editor can reach, and why walking them ends.

`Reachable d`: `d` is the empty document after any sequence of edits: creating nodes; editing
attributes, classes, style, values or listeners; setting the inside or the text of an element;
moving a node other than the root below an element outside the node's own subtree; and removing
a node. Each keeps the forest (`Reachable.forest`).

In a forest the walks of a document end before their fuel runs out. The ancestors of a node, the
nodes of its subtree and the nodes still to visit from a work list are sets of nodes of the
document, and each step of a walk makes its set smaller (`path_up_fuel`, `walk_fuel`,
`write_fuel`, `go_fuel`). So the path of a node ends at a node without a parent, and the text,
the markup and the elements below a node are what any more fuel would give
(`reachable_forest`).

Text nodes are leaves only because children are added below elements alone: an element created
with the tag `#text` counts as a text node and takes a child like any element
(`text_node_takes_child`).
-/

namespace PageEditor.Markup.Document

variable {σ : Type} {d : Document σ}

/-! ## Documents the editor can reach -/

/-- The documents reached from the empty one by the edits of the editor, each under what its
callers promise: children go below existing elements, and a moved node is not the root and not
an ancestor-or-self of its new parent. -/
inductive Reachable : Document σ → Prop
  | empty : Reachable empty
  | createElement {d : Document σ} (tag : String) : Reachable d →
      Reachable (d.createElement tag).2
  | createText {d : Document σ} (text : String) : Reachable d → Reachable (d.createText text).2
  | restyle {d d' : Document σ} : Reachable d → Restyled d d' → Reachable d'
  | setInnerHtml {d : Document σ} {x : Nat} (html : String) : Reachable d →
      x < d.nodes.size → (d.node x).isText = false → Reachable (d.setInnerHtml x html)
  | setText {d : Document σ} {x : Nat} (text : String) : Reachable d →
      x < d.nodes.size → (d.node x).isText = false → Reachable (d.setText x text)
  | append {d : Document σ} {p c : Nat} : Reachable d → p < d.nodes.size → c < d.nodes.size →
      (d.node p).isText = false → c ≠ root → ¬ (c = p ∨ Ancestor d c p) →
      Reachable (d.append p c)
  | insertBefore {d : Document σ} {p c : Nat} (r : Nat) : Reachable d → p < d.nodes.size →
      c < d.nodes.size → (d.node p).isText = false → c ≠ root → ¬ (c = p ∨ Ancestor d c p) →
      Reachable (d.insertBefore p c r)
  | remove {d : Document σ} (i : Nat) : Reachable d → Reachable (d.remove i).2

theorem Reachable.forest (h : Reachable d) : Forest d := by
  induction h with
  | empty => exact forest_empty
  | createElement tag _ ih => exact ih.alloc ⟨rfl, rfl, rfl⟩
  | createText text _ ih => exact ih.alloc ⟨rfl, rfl, rfl⟩
  | restyle _ hr ih => exact ih.restyle hr
  | setInnerHtml html _ hx hxt ih => exact ih.setInnerHtml hx hxt html
  | setText text _ hx hxt ih => exact ih.setText hx hxt text
  | append _ hp hc hpt hroot hanc ih =>
    exact ih.append hp hc hpt hroot (fun h => hanc (.inl h)) (fun h => hanc (.inr h))
  | insertBefore r _ hp hc hpt hroot hanc ih =>
    exact ih.insertBefore r hp hc hpt hroot (fun h => hanc (.inl h)) (fun h => hanc (.inr h))
  | remove i _ ih => exact ih.detach i

theorem Reachable.withBody (html : String) : Reachable (withBody html : Document σ) := by
  have htag : ((Document.empty : Document σ).node body).tag = "body" := rfl
  refine .setInnerHtml html .empty (Nat.lt_succ_self 1) ?_
  rw [Node.isText, htag]
  decide

/-! ## Measures of a walk -/

theorem Ancestor.trans {a b c : Nat} (hab : Ancestor d a b) (hbc : Ancestor d b c) :
    Ancestor d a c := by
  induction hbc with
  | parent h => exact .up h hab
  | up h _ ih => exact .up h ih

open Classical in
/-- The ancestors of a node. -/
noncomputable def ancestors (d : Document σ) (j : Nat) : Finset Nat :=
  (Finset.range d.nodes.size).filter fun a => Ancestor d a j

open Classical in
/-- A node and the nodes below it. -/
noncomputable def subtree (d : Document σ) (j : Nat) : Finset Nat :=
  (Finset.range d.nodes.size).filter fun k => j = k ∨ Ancestor d j k

open Classical in
/-- The nodes a work list still leads to. -/
noncomputable def pending (d : Document σ) (W : List Nat) : Finset Nat :=
  (Finset.range d.nodes.size).filter fun k => ∃ w ∈ W, w = k ∨ Ancestor d w k

theorem mem_ancestors {j a : Nat} : a ∈ ancestors d j ↔ a < d.nodes.size ∧ Ancestor d a j := by
  simp [ancestors]

theorem mem_subtree {j k : Nat} : k ∈ subtree d j ↔ k < d.nodes.size ∧ (j = k ∨ Ancestor d j k) := by
  simp [subtree]

theorem mem_pending {W : List Nat} {k : Nat} :
    k ∈ pending d W ↔ k < d.nodes.size ∧ ∃ w ∈ W, w = k ∨ Ancestor d w k := by
  simp [pending]

theorem card_ancestors_le (d : Document σ) (j : Nat) : (ancestors d j).card ≤ d.nodes.size := by
  classical
  simpa [ancestors] using Finset.card_filter_le (Finset.range d.nodes.size) _

theorem card_subtree_le (d : Document σ) (j : Nat) : (subtree d j).card ≤ d.nodes.size := by
  classical
  simpa [subtree] using Finset.card_filter_le (Finset.range d.nodes.size) _

theorem card_pending_le (d : Document σ) (W : List Nat) : (pending d W).card ≤ d.nodes.size := by
  classical
  simpa [pending] using Finset.card_filter_le (Finset.range d.nodes.size) _

/-- Going up to the parent leaves fewer ancestors. -/
theorem Forest.ancestors_parent_lt (hf : Forest d) {j p : Nat} (hp : (d.node j).parent = some p) :
    (ancestors d p).card < (ancestors d j).card := by
  classical
  refine Finset.card_lt_card ((Finset.ssubset_iff_of_subset fun a ha => ?_).mpr ⟨p, ?_, ?_⟩)
  · rw [mem_ancestors] at ha ⊢
    exact ⟨ha.1, .up hp ha.2⟩
  · exact mem_ancestors.mpr ⟨hf.parent_lt hp, .parent hp⟩
  · exact fun h => hf.not_ancestor_self p (mem_ancestors.mp h).2

/-- Going down to a child leaves a smaller subtree. -/
theorem Forest.subtree_child_lt (hf : Forest d) {j c : Nat} (hc : c ∈ (d.node j).children) :
    (subtree d c).card < (subtree d j).card := by
  classical
  have hcj := hf.linked j c hc
  refine Finset.card_lt_card ((Finset.ssubset_iff_of_subset fun k hk => ?_).mpr ⟨j, ?_, ?_⟩)
  · rw [mem_subtree] at hk ⊢
    rcases hk.2 with rfl | hk'
    · exact ⟨hk.1, .inr (.parent hcj)⟩
    · exact ⟨hk.1, .inr ((Ancestor.parent hcj).trans hk')⟩
  · exact mem_subtree.mpr ⟨hf.parent_lt hcj, .inl rfl⟩
  · intro h
    rcases (mem_subtree.mp h).2 with rfl | h
    · exact hf.not_ancestor_self c (.parent hcj)
    · exact hf.not_ancestor_self c (.up hcj h)

/-! ## Walks that end -/

/-- Going up, fuel past the number of ancestors gives one path. -/
theorem Forest.path_up_fuel (hf : Forest d) : ∀ f f' j, (ancestors d j).card < f →
    (ancestors d j).card < f' → path.up d f j = path.up d f' j
  | 0, _, _, h, _ => absurd h (Nat.not_lt_zero _)
  | _ + 1, 0, _, _, h => absurd h (Nat.not_lt_zero _)
  | f + 1, f' + 1, j, h, h' => by
    simp only [path.up]
    split
    · next p hp =>
      have hlt := hf.ancestors_parent_lt hp
      rw [hf.path_up_fuel f f' p (by omega) (by omega)]
    · rfl

/-- Going up with enough fuel ends at a node without a parent. -/
theorem Forest.path_up_root (hf : Forest d) : ∀ f j, (ancestors d j).card < f →
    ∃ l k, path.up d f j = l ++ [k] ∧ (d.node k).parent = none
  | 0, _, h => absurd h (Nat.not_lt_zero _)
  | f + 1, j, h => by
    simp only [path.up]
    split
    · next p hp =>
      obtain ⟨l, k, hl, hk⟩ := hf.path_up_root f p (by have := hf.ancestors_parent_lt hp; omega)
      exact ⟨j :: l, k, by rw [hl]; rfl, hk⟩
    · next hp => exact ⟨[], j, rfl, hp⟩

/-- Reading the text below a node, fuel past the size of its subtree gives one text. -/
theorem Forest.walk_fuel (hf : Forest d) : ∀ f f' j, (subtree d j).card < f →
    (subtree d j).card < f' → textContent.walk d f j = textContent.walk d f' j
  | 0, _, _, h, _ => absurd h (Nat.not_lt_zero _)
  | _ + 1, 0, _, _, h => absurd h (Nat.not_lt_zero _)
  | f + 1, f' + 1, j, h, h' => by
    have hkids : (d.node j).children.map (textContent.walk d f) =
        (d.node j).children.map (textContent.walk d f') := List.map_congr_left fun c hc => by
      have hlt := hf.subtree_child_lt hc
      exact hf.walk_fuel f f' c (by omega) (by omega)
    simp only [textContent.walk, hkids]

/-- Writing the markup below a node, fuel past the size of its subtree gives one markup. -/
theorem Forest.write_fuel (hf : Forest d) : ∀ f f' j, (subtree d j).card < f →
    (subtree d j).card < f' → outerHtml.write d f j = outerHtml.write d f' j
  | 0, _, _, h, _ => absurd h (Nat.not_lt_zero _)
  | _ + 1, 0, _, _, h => absurd h (Nat.not_lt_zero _)
  | f + 1, f' + 1, j, h, h' => by
    have hkids : (d.node j).children.map (outerHtml.write d f) =
        (d.node j).children.map (outerHtml.write d f') := List.map_congr_left fun c hc => by
      have hlt := hf.subtree_child_lt hc
      exact hf.write_fuel f f' c (by omega) (by omega)
    simp only [outerHtml.write, hkids]

/-! ## The work list of `descendants` -/

/-- A work list of distinct existing nodes, none an ancestor of another. -/
structure Separate (d : Document σ) (W : List Nat) : Prop where
  nodup : W.Nodup
  bounded : ∀ w ∈ W, w < d.nodes.size
  apart : ∀ a ∈ W, ∀ b ∈ W, ¬ Ancestor d a b

/-- Two children of one node are not ancestors of each other. -/
theorem Forest.siblings_apart (hf : Forest d) {i a b : Nat} (ha : (d.node a).parent = some i)
    (hb : (d.node b).parent = some i) : ¬ Ancestor d a b := fun h => by
  rcases h.of_parent hb with rfl | h
  · exact hf.not_ancestor_self a (.parent ha)
  · exact hf.not_ancestor_self a (.up ha h)

theorem Forest.separate_children (hf : Forest d) (r : Nat) : Separate d (d.node r).children where
  nodup := hf.nodup r
  bounded := hf.bounded r
  apart _ ha _ hb := hf.siblings_apart (hf.linked r _ ha) (hf.linked r _ hb)

theorem Separate.tail {i : Nat} {rest : List Nat} (h : Separate d (i :: rest)) :
    Separate d rest where
  nodup := (List.nodup_cons.mp h.nodup).2
  bounded w hw := h.bounded w (List.mem_cons_of_mem _ hw)
  apart a ha b hb := h.apart a (List.mem_cons_of_mem _ ha) b (List.mem_cons_of_mem _ hb)

/-- Putting the children of the first node in its place keeps the work list apart. -/
theorem Separate.expand (hf : Forest d) {i : Nat} {rest : List Nat} (h : Separate d (i :: rest)) :
    Separate d ((d.node i).children ++ rest) := by
  have hi := h.apart i (List.mem_cons_self ..)
  have hr := fun w (hw : w ∈ rest) => h.apart w (List.mem_cons_of_mem _ hw)
  have hir : i ∉ rest := (List.nodup_cons.mp h.nodup).1
  -- a child of `i` is below `i`, so it is apart from the rest as `i` is
  have below : ∀ c ∈ (d.node i).children, ∀ w ∈ rest, ¬ Ancestor d c w ∧ ¬ Ancestor d w c ∧ c ≠ w := by
    intro c hc w hw
    have hci := hf.linked i c hc
    refine ⟨fun h' => hi w (List.mem_cons_of_mem _ hw) ((Ancestor.parent hci).trans h'),
      fun h' => ?_, ?_⟩
    · rcases h'.of_parent hci with rfl | h'
      · exact hir hw
      · exact hr w hw i (List.mem_cons_self ..) h'
    · rintro rfl
      exact hi c (List.mem_cons_of_mem _ hw) (.parent hci)
  refine ⟨List.nodup_append.mpr ⟨hf.nodup i, h.tail.nodup, fun c hc w hw => (below c hc w hw).2.2⟩,
    fun w hw => ?_, fun a ha b hb => ?_⟩
  · rcases List.mem_append.mp hw with hw | hw
    · exact hf.bounded i w hw
    · exact h.tail.bounded w hw
  · rcases List.mem_append.mp ha with ha | ha <;> rcases List.mem_append.mp hb with hb | hb
    · exact hf.siblings_apart (hf.linked i a ha) (hf.linked i b hb)
    · exact (below a ha b hb).1
    · exact (below b hb a ha).2.1
    · exact h.tail.apart a ha b hb

theorem pending_tail_sub (i : Nat) (rest : List Nat) : pending d rest ⊆ pending d (i :: rest) := by
  intro k hk
  obtain ⟨hk, w, hw, hwk⟩ := mem_pending.mp hk
  exact mem_pending.mpr ⟨hk, w, List.mem_cons_of_mem _ hw, hwk⟩

theorem Separate.not_mem_pending_tail {i : Nat} {rest : List Nat} (h : Separate d (i :: rest)) :
    i ∉ pending d rest := by
  intro hi
  obtain ⟨-, w, hw, hwi⟩ := mem_pending.mp hi
  rcases hwi with rfl | hwi
  · exact (List.nodup_cons.mp h.nodup).1 hw
  · exact h.apart w (List.mem_cons_of_mem _ hw) i (List.mem_cons_self ..) hwi

theorem Separate.mem_pending_self {i : Nat} {rest : List Nat} (h : Separate d (i :: rest)) :
    i ∈ pending d (i :: rest) :=
  mem_pending.mpr ⟨h.bounded i (List.mem_cons_self ..), i, List.mem_cons_self .., .inl rfl⟩

/-- What a child leads to, its parent leads to. -/
theorem Forest.pending_expand_sub (hf : Forest d) (i : Nat) (rest : List Nat) :
    pending d ((d.node i).children ++ rest) ⊆ pending d (i :: rest) := by
  intro k hk
  obtain ⟨hk, w, hw, hwk⟩ := mem_pending.mp hk
  refine mem_pending.mpr ⟨hk, ?_⟩
  rcases List.mem_append.mp hw with hwc | hwr
  · have hwi := Ancestor.parent (hf.linked i w hwc)
    rcases hwk with rfl | hwk
    · exact ⟨i, List.mem_cons_self .., .inr hwi⟩
    · exact ⟨i, List.mem_cons_self .., .inr (hwi.trans hwk)⟩
  · exact ⟨w, List.mem_cons_of_mem _ hwr, hwk⟩

theorem Separate.not_mem_pending_expand (hf : Forest d) {i : Nat} {rest : List Nat}
    (h : Separate d (i :: rest)) : i ∉ pending d ((d.node i).children ++ rest) := by
  intro hi
  obtain ⟨-, w, hw, hwi⟩ := mem_pending.mp hi
  rcases List.mem_append.mp hw with hwc | hwr
  · have hwp := hf.linked i w hwc
    rcases hwi with rfl | hwi
    · exact hf.not_ancestor_self w (.parent hwp)
    · exact hf.not_ancestor_self w (.up hwp hwi)
  · rcases hwi with rfl | hwi
    · exact (List.nodup_cons.mp h.nodup).1 hwr
    · exact h.apart w (List.mem_cons_of_mem _ hwr) i (List.mem_cons_self ..) hwi

theorem Separate.pending_tail_lt {i : Nat} {rest : List Nat} (h : Separate d (i :: rest)) :
    (pending d rest).card < (pending d (i :: rest)).card :=
  Finset.card_lt_card ((Finset.ssubset_iff_of_subset (pending_tail_sub i rest)).mpr
    ⟨i, h.mem_pending_self, h.not_mem_pending_tail⟩)

theorem Separate.pending_expand_lt (hf : Forest d) {i : Nat} {rest : List Nat}
    (h : Separate d (i :: rest)) :
    (pending d ((d.node i).children ++ rest)).card < (pending d (i :: rest)).card :=
  Finset.card_lt_card ((Finset.ssubset_iff_of_subset (hf.pending_expand_sub i rest)).mpr
    ⟨i, h.mem_pending_self, h.not_mem_pending_expand hf⟩)

/-- Listing the elements below a work list, fuel past the nodes it leads to gives one list. -/
theorem Forest.go_fuel (hf : Forest d) : ∀ f f' W, Separate d W → (pending d W).card < f →
    (pending d W).card < f' → descendants.go d f W = descendants.go d f' W
  | 0, _, _, _, h, _ => absurd h (Nat.not_lt_zero _)
  | _ + 1, 0, _, _, _, h => absurd h (Nat.not_lt_zero _)
  | _ + 1, _ + 1, [], _, _, _ => rfl
  | f + 1, f' + 1, i :: rest, hW, h, h' => by
    simp only [descendants.go]
    split
    · have hlt := hW.pending_tail_lt
      exact hf.go_fuel f f' rest hW.tail (by omega) (by omega)
    · have hlt := hW.pending_expand_lt hf
      rw [hf.go_fuel f f' _ (hW.expand hf) (by omega) (by omega)]

/-- The walk from a work list of separate nodes lists each node once, and only nodes the work list
leads to. -/
theorem Forest.go_nodup (hf : Forest d) : ∀ f W, Separate d W →
    (descendants.go d f W).Nodup ∧ ∀ x ∈ descendants.go d f W, x ∈ pending d W
  | 0, _, _ => ⟨List.nodup_nil, fun _ hx => nomatch hx⟩
  | _ + 1, [], _ => ⟨List.nodup_nil, fun _ hx => nomatch hx⟩
  | f + 1, i :: rest, hW => by
    simp only [descendants.go]
    split
    · obtain ⟨hnd, hmem⟩ := hf.go_nodup f rest hW.tail
      exact ⟨hnd, fun x hx => pending_tail_sub i rest (hmem x hx)⟩
    · -- the first node is listed, and the walk below its children never comes back to it
      obtain ⟨hnd, hmem⟩ := hf.go_nodup f _ (hW.expand hf)
      refine ⟨List.nodup_cons.mpr ⟨fun hi => hW.not_mem_pending_expand hf (hmem i hi), hnd⟩,
        fun x hx => ?_⟩
      rcases List.mem_cons.mp hx with rfl | hx
      · exact hW.mem_pending_self
      · exact hf.pending_expand_sub i rest (hmem x hx)

/-- In a forest the elements below a node are listed once each. -/
theorem Forest.descendants_nodup (hf : Forest d) (r : Nat) : (d.descendants r).Nodup :=
  (hf.go_nodup _ _ (hf.separate_children r)).1

theorem Forest.elementsByClass_nodup (hf : Forest d) (cls : String) :
    (d.elementsByClass cls).Nodup :=
  (hf.descendants_nodup root).filter _

/-! ## What every reachable document satisfies -/

/-- **Reachable documents are forests, and their walks end.** A node names `p` as its parent
exactly when `p` lists it, and then once; no node is its own ancestor; the root has no parent;
text nodes have no children; the path of a node ends at a node without a parent; and the path,
the text, the markup and the elements below a node are what any fuel past the number of nodes
gives. -/
theorem reachable_forest (h : Reachable d) :
    (∀ p c, (d.node c).parent = some p ↔ c ∈ (d.node p).children) ∧
      (∀ p c, c ∈ (d.node p).children → (d.node p).children.count c = 1) ∧
      (∀ a, ¬ Ancestor d a a) ∧
      (d.node root).parent = none ∧
      (∀ i, (d.node i).isText = true → (d.node i).children = []) ∧
      (∀ i, ∃ l k, d.path i = l ++ [k] ∧ (d.node k).parent = none) ∧
      (∀ f i, d.nodes.size < f → path.up d f i = d.path i) ∧
      (∀ f i, d.nodes.size < f → textContent.walk d f i = d.textContent i) ∧
      (∀ f i, d.nodes.size < f → outerHtml.write d f i = d.outerHtml i) ∧
      (∀ f r, d.nodes.size < f → descendants.go d f (d.node r).children = d.descendants r) := by
  have hf := h.forest
  refine ⟨fun p c => ⟨hf.listed p c, hf.linked p c⟩,
    fun p c hc => List.count_eq_one_of_mem (hf.nodup p) hc, hf.not_ancestor_self, hf.rootless,
    hf.leaves, fun i => ?_, fun f i hfi => ?_, fun f i hfi => ?_, fun f i hfi => ?_,
    fun f r hfr => ?_⟩
  · exact hf.path_up_root _ i (Nat.lt_succ_of_le (card_ancestors_le d i))
  · have := card_ancestors_le d i
    exact hf.path_up_fuel f _ i (by omega) (by omega)
  · have := card_subtree_le d i
    exact hf.walk_fuel f _ i (by omega) (by omega)
  · have := card_subtree_le d i
    exact hf.write_fuel f _ i (by omega) (by omega)
  · have := card_pending_le d (d.node r).children
    exact hf.go_fuel f _ _ (hf.separate_children r) (by omega) (by omega)

/-- A paragraph read into the body: the document is reachable, so its paragraph is not its own
ancestor. -/
theorem withBody_reachable_forest :
    Reachable (withBody "<p>hi</p>" : Document Unit) ∧
      ¬ Ancestor (withBody "<p>hi</p>" : Document Unit) 2 2 :=
  ⟨Reachable.withBody _, (reachable_forest (Reachable.withBody _)).2.2.1 2⟩

/-- An element created with the tag `#text` is a text node, and it takes a child: appending a
fresh element below it moves a node that is no ancestor-or-self of its new parent, yet leaves a
text node with a child. -/
theorem text_node_takes_child :
    let d : Document Unit := ((Document.empty.createElement "#text").2.createElement "p").2
    ¬ (3 = 2 ∨ Ancestor d 3 2) ∧ ((d.append 2 3).node 2).isText = true ∧
      ((d.append 2 3).node 2).children = [3] := by
  intro d
  have hf : Forest d :=
    (Reachable.createElement "p" (Reachable.createElement "#text" Reachable.empty)).forest
  refine ⟨?_, by decide +kernel, by decide +kernel⟩
  rintro (h | h)
  · exact absurd h (by decide)
  · obtain ⟨x, hx⟩ := h.exists_child
    have hmem := hf.listed 3 x hx
    have hkids : (d.node 3).children = [] := by decide +kernel
    rw [hkids] at hmem
    cases hmem

end PageEditor.Markup.Document
