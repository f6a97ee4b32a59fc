import PageEditor.Proofs.Markup.Attached
/-!
# PageEditor.Proofs.Markup.Siblings

Putting a node without a parent just before a child of an element.

`insertBefore` first takes the node out of its old parent; for a node without one that step
does nothing (`insertBefore_of_orphan`), and the node goes into the parent's children right
before the reference child, or last when the reference is not a child
(`children_insertBefore`). When the reference is a child, the node becomes its immediately
preceding sibling (`children_insertBefore_child`). Only the parent's children and the node's
parent change (`parent_insertBefore`, `attributes_insertBefore`), so the document keeps its
nodes, their growth and the places of the old nodes (`keeps_insertBefore`,
`Grown.insertBefore_orphan`, `Settled.insertBefore`).
-/

namespace PageEditor.Markup.Document

variable {σ : Type} {d : Document σ}

/-- Inserting at the length of a prefix puts the element right after the prefix. -/
theorem insertIdx_length_append (pre l : List Nat) (c : Nat) :
    (pre ++ l).insertIdx pre.length c = pre ++ c :: l := by
  induction pre with
  | nil => simp
  | cons a pre ih => simp [ih]

/-- The position before a child that comes after `pre` is the length of `pre`. -/
theorem findIdx?_before {pre post : List Nat} {r : Nat} (hr : r ∉ pre) :
    (pre ++ r :: post).findIdx? (· == r) = some pre.length := by
  have hpre : pre.findIdx? (· == r) = none := by
    rw [List.findIdx?_eq_none_iff]
    intro x hx
    rw [beq_eq_false_iff_ne]
    rintro rfl
    exact hr hx
  simp [List.findIdx?_append, hpre, List.findIdx?_cons]

/-- Putting a node before a child that comes after `pre`. -/
theorem insertIdx_before {pre post : List Nat} {r : Nat} (hr : r ∉ pre) (c : Nat) :
    (pre ++ r :: post).insertIdx
        (((pre ++ r :: post).findIdx? (· == r)).getD (pre ++ r :: post).length) c =
      pre ++ c :: r :: post := by
  rw [findIdx?_before hr, Option.getD_some, insertIdx_length_append]

/-- Inserting a node that has no parent skips the detaching. -/
theorem insertBefore_of_orphan {c : Nat} (h : (d.node c).parent = none) (p r : Nat) :
    d.insertBefore p c r =
      (d.modify p fun n => { n with children := (n.children.insertIdx
        (((d.node p).children.findIdx? (· == r)).getD (d.node p).children.length) c) }).modify c
        fun n => { n with parent := some p } := by
  simp [insertBefore, detach, h]

theorem children_insertBefore {c : Nat} (h : (d.node c).parent = none) {p : Nat}
    (hp : p < d.nodes.size) (r j : Nat) :
    ((d.insertBefore p c r).node j).children =
      if j = p then (d.node p).children.insertIdx
        (((d.node p).children.findIdx? (· == r)).getD (d.node p).children.length) c
      else (d.node j).children := by
  rw [insertBefore_of_orphan h, children_modify_parent, node_modify]
  by_cases hj : j = p
  · subst hj
    rw [if_pos ⟨rfl, hp⟩, if_pos rfl]
  · rw [if_neg fun h => hj h.1.symm, if_neg hj]

/-- **A node put before a child becomes its immediately preceding sibling**; the other children
keep their order. -/
theorem children_insertBefore_child {c : Nat} (h : (d.node c).parent = none) {p r : Nat}
    (hp : p < d.nodes.size) {pre post : List Nat} (hkids : (d.node p).children = pre ++ r :: post)
    (hr : r ∉ pre) : ((d.insertBefore p c r).node p).children = pre ++ c :: r :: post := by
  rw [children_insertBefore h hp, if_pos rfl, hkids, insertIdx_before hr]

/-- A child of an element with distinct children has one place among them. -/
theorem exists_split_of_mem {l : List Nat} {r : Nat} (hl : l.Nodup) (hr : r ∈ l) :
    ∃ pre post, l = pre ++ r :: post ∧ r ∉ pre := by
  obtain ⟨pre, post, rfl⟩ := List.append_of_mem hr
  refine ⟨pre, post, rfl, fun hpre => ?_⟩
  exact (List.nodup_append.mp hl).2.2 r hpre r List.mem_cons_self rfl

theorem parent_insertBefore {c : Nat} (h : (d.node c).parent = none) (hc : c < d.nodes.size)
    (p r j : Nat) :
    ((d.insertBefore p c r).node j).parent = if j = c then some p else (d.node j).parent := by
  rw [insertBefore_of_orphan h]
  by_cases hj : j = c
  · subst hj
    rw [node_modify_self _ _ (by simpa using hc), if_pos rfl]
  · rw [node_modify_of_ne _ _ (Ne.symm hj), if_neg hj, node_modify]
    split <;> rfl

theorem attributes_insertBefore (d : Document σ) (p c r j : Nat) :
    ((d.insertBefore p c r).node j).attributes = (d.node j).attributes := by
  simp only [insertBefore, node_modify]
  split <;> split <;> exact attributes_detach d c j

@[simp] theorem size_insertBefore (d : Document σ) (p c r : Nat) :
    (d.insertBefore p c r).nodes.size = d.nodes.size := by
  simp [insertBefore]

theorem keeps_insertBefore (d : Document σ) (p c r : Nat) : Keeps d (d.insertBefore p c r) := by
  refine ((keeps_detach d c).trans (keeps_modify _ _ ?_)).trans (keeps_modify _ _ ?_) <;>
    exact fun _ => ⟨rfl, rfl, rfl⟩

/-- Only the parent's children change. -/
theorem childrenKept_insertBefore {c : Nat} (h : (d.node c).parent = none) {p : Nat}
    (hp : p < d.nodes.size) (r : Nat) : ChildrenKept d (d.insertBefore p c r) p := by
  intro i _ hip
  rw [children_insertBefore h hp, if_neg hip]

/-- Hanging an orphan below an older node, in any place among the children, keeps the document
grown. -/
theorem Grown.attach (hg : Grown d) {p c : Nat} {f : List Nat → List Nat}
    (hperm : (f (d.node p).children).Perm ((d.node p).children ++ [c]))
    (hc : (d.node c).parent = none) (hpc : p < c) (hcs : c < d.nodes.size) :
    Grown ((d.modify p fun n => { n with children := f n.children }).modify c
      fun n => { n with parent := some p }) := by
  have hmem : ∀ i k, k ∈ (((d.modify p fun n => { n with children := f n.children }).modify c
      fun n => { n with parent := some p }).node i).children →
      k ∈ (d.node i).children ∨ (i = p ∧ k = c) := by
    intro i k hk
    rw [children_modify_parent, node_modify] at hk
    split at hk
    · next h =>
      obtain ⟨rfl, -⟩ := h
      rcases List.mem_append.mp (hperm.mem_iff.mp hk) with hk | hk
      · exact .inl hk
      · exact .inr ⟨rfl, List.mem_singleton.mp hk⟩
    · exact .inl hk
  refine ⟨fun i k hk => ?_, fun i k hk => ?_, fun i k hk => ?_⟩
  · rcases hmem i k hk with hk | ⟨rfl, rfl⟩
    · exact hg.newer i k hk
    · exact hpc
  · simp only [size_modify]
    rcases hmem i k hk with hk | ⟨rfl, rfl⟩
    · exact hg.bounded i k hk
    · exact hcs
  · rcases hmem i k hk with hk | ⟨rfl, rfl⟩
    · have hkc : c ≠ k := by
        rintro rfl
        exact hg.not_mem_of_orphan hc i hk
      rw [node_modify_of_ne _ _ hkc, parent_modify_children]
      exact hg.linked i k hk
    · rw [node_modify_self _ _ (by simpa using hcs)]

theorem Grown.insertBefore_orphan (hg : Grown d) {p c : Nat} (hc : (d.node c).parent = none)
    (hpc : p < c) (hcs : c < d.nodes.size) (r : Nat) : Grown (d.insertBefore p c r) := by
  rw [insertBefore_of_orphan hc]
  exact hg.attach ((List.perm_insertIdx c _ (findIdx?_getD_le _ _)).trans
    (List.perm_append_singleton c _).symm) hc hpc hcs

/-- Hanging a node `d₀` does not have before any child keeps the old nodes where they were. -/
theorem Settled.insertBefore {d₀ : Document σ} (h : Settled d₀ d) (p : Nat) {c : Nat}
    (hc : d₀.nodes.size ≤ c) (r : Nat) : Settled d₀ (d.insertBefore p c r) := by
  unfold Document.insertBefore Document.detach
  split <;> dsimp only
  · exact (h.modify_children p _).modify c (.inl hc)
  · next q _ =>
    exact (((h.modify_children q (List.filter (· != c))).modify c (.inl hc)).modify_children p
      _).modify c (.inl hc)

end PageEditor.Markup.Document
