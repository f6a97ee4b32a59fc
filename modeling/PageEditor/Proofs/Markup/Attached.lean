import PageEditor.Proofs.Markup.Reachable
import PageEditor.Proofs.Markup.Classes
/-!
# PageEditor.Proofs.Markup.Attached

Which nodes are on the page, read off the parent links.

In a forest, the elements `descendants` lists below a node are exactly the elements that have
it as an ancestor (`Forest.mem_descendants`), so the attached elements carrying a class are the
elements below the root that carry it (`Forest.mem_elementsByClass`). In a grown forest an
ancestor comes before the nodes below it (`Forest.ancestor_lt`), and a node whose parent link an
edit kept has the ancestors it had (`Settled.ancestor_iff`).

Taking every attached element carrying a class out of its parent, as dismissing overlays does,
leaves none attached (`Forest.removeEach_elementsByClass`): each of them has lost its parent, and
whatever is still attached was attached before.
-/

namespace PageEditor.Markup.Document

variable {σ : Type} {d d₀ : Document σ}

/-- Going down from an ancestor: a child of it is the node or lies above it. -/
theorem Ancestor.down {a b : Nat} (h : Ancestor d a b) :
    ∃ c, (d.node c).parent = some a ∧ (c = b ∨ Ancestor d c b) := by
  induction h with
  | parent h => exact ⟨_, h, .inl rfl⟩
  | up h _ ih =>
    obtain ⟨c, hc, hcm⟩ := ih
    rcases hcm with rfl | hcm
    · exact ⟨c, hc, .inr (.parent h)⟩
    · exact ⟨c, hc, .inr (.up h hcm)⟩

/-- The nodes below `r` are its children and the nodes below them. -/
theorem Forest.ancestor_iff_child (hf : Forest d) {r i : Nat} :
    Ancestor d r i ↔ ∃ c ∈ (d.node r).children, c = i ∨ Ancestor d c i := by
  constructor
  · intro h
    obtain ⟨c, hc, hci⟩ := h.down
    exact ⟨c, hf.listed r c hc, hci⟩
  · rintro ⟨c, hc, rfl | hci⟩
    · exact .parent (hf.linked r c hc)
    · exact (Ancestor.parent (hf.linked r c hc)).trans hci

/-- A text node is nobody's ancestor. -/
theorem Forest.not_ancestor_of_text (hf : Forest d) {a b : Nat} (ha : (d.node a).isText = true) :
    ¬ Ancestor d a b := fun h => by
  obtain ⟨c, hc, -⟩ := h.down
  have hmem := hf.listed a c hc
  rw [hf.leaves a ha] at hmem
  cases hmem

/-- What `descendants` lists from a work list: the elements among the nodes it leads to. -/
theorem Forest.mem_go (hf : Forest d) {i : Nat} : ∀ f W, Separate d W → (pending d W).card < f →
    (i ∈ descendants.go d f W ↔ (∃ w ∈ W, w = i ∨ Ancestor d w i) ∧ (d.node i).isText = false)
  | 0, _, _, h => absurd h (Nat.not_lt_zero _)
  | _ + 1, [], _, _ => by simp [descendants.go]
  | f + 1, j :: rest, hW, h => by
    simp only [descendants.go]
    split
    · next hj =>
      -- a text node is skipped, and nothing lies below it
      have hlt := hW.pending_tail_lt
      rw [hf.mem_go f rest hW.tail (by omega)]
      constructor
      · rintro ⟨⟨w, hw, hwi⟩, hi⟩
        exact ⟨⟨w, List.mem_cons_of_mem _ hw, hwi⟩, hi⟩
      · rintro ⟨⟨w, hw, hwi⟩, hi⟩
        refine ⟨?_, hi⟩
        rcases List.mem_cons.mp hw with rfl | hw
        · rcases hwi with rfl | hwi
          · rw [hj] at hi; cases hi
          · exact absurd hwi (hf.not_ancestor_of_text hj)
        · exact ⟨w, hw, hwi⟩
    · next hj =>
      have hlt := hW.pending_expand_lt hf
      rw [List.mem_cons, hf.mem_go f _ (hW.expand hf) (by omega)]
      constructor
      · rintro (rfl | ⟨⟨w, hw, hwi⟩, hi⟩)
        · exact ⟨⟨i, List.mem_cons_self .., .inl rfl⟩, Bool.eq_false_iff.mpr hj⟩
        · refine ⟨?_, hi⟩
          rcases List.mem_append.mp hw with hw | hw
          · exact ⟨j, List.mem_cons_self .., .inr (hf.ancestor_iff_child.mpr ⟨w, hw, hwi⟩)⟩
          · exact ⟨w, List.mem_cons_of_mem _ hw, hwi⟩
      · rintro ⟨⟨w, hw, hwi⟩, hi⟩
        rcases List.mem_cons.mp hw with rfl | hw
        · rcases hwi with rfl | hwi
          · exact .inl rfl
          · obtain ⟨c, hc, hci⟩ := hf.ancestor_iff_child.mp hwi
            exact .inr ⟨⟨c, List.mem_append_left _ hc, hci⟩, hi⟩
        · exact .inr ⟨⟨w, List.mem_append_right _ hw, hwi⟩, hi⟩

/-- The elements below a node, in a forest. -/
theorem Forest.mem_descendants (hf : Forest d) {r i : Nat} :
    i ∈ d.descendants r ↔ Ancestor d r i ∧ (d.node i).isText = false := by
  have := card_pending_le d (d.node r).children
  rw [descendants, hf.mem_go _ _ (hf.separate_children r) (by omega), hf.ancestor_iff_child]

/-- The attached elements carrying a class, in a forest. -/
theorem Forest.mem_elementsByClass (hf : Forest d) {i : Nat} {cls : String} :
    i ∈ d.elementsByClass cls ↔
      Ancestor d root i ∧ (d.node i).isText = false ∧ d.hasClass i cls = true := by
  rw [elementsByClass, elementsByClassWithin, List.mem_filter, hf.mem_descendants, and_assoc]
  rfl

end PageEditor.Markup.Document

namespace PageEditor.Markup.Document

variable {σ : Type} {d : Document σ}

/-- In a grown forest, an ancestor comes before the nodes below it. -/
theorem Forest.ancestor_lt (hf : Forest d) (hg : Grown d) {a b : Nat} (h : Ancestor d a b) :
    a < b :=
  h.rank_lt (r := fun x => x) fun p c hc => hg.newer p c (hf.listed p c hc)

/-- A node without a parent is below nothing. -/
theorem not_ancestor_of_orphan {a b : Nat} (hb : (d.node b).parent = none) : ¬ Ancestor d a b := by
  intro h
  cases h with
  | parent h => rw [hb] at h; cases h
  | up h _ => rw [hb] at h; cases h

/-- A settled node has the ancestors it had. -/
theorem Settled.ancestor_iff {d₀ : Document σ} (h : Settled d₀ d) (hf : Forest d₀) {a x : Nat}
    (hx : x < d₀.nodes.size) : Ancestor d a x ↔ Ancestor d₀ a x := by
  constructor
  · intro hax
    induction hax with
    | parent hp => exact .parent ((h.parent _ hx).symm.trans hp)
    | up hp _ ih =>
      have hp₀ := (h.parent _ hx).symm.trans hp
      exact .up hp₀ (ih (hf.parent_lt hp₀))
  · intro hax
    induction hax with
    | parent hp => exact .parent ((h.parent _ hx).trans hp)
    | up hp _ ih => exact .up ((h.parent _ hx).trans hp) (ih (hf.parent_lt hp))

/-! ## Taking nodes out -/

/-- Takes the nodes of a list out of their parents, one after another. -/
def removeEach (d : Document σ) (W : List Nat) : Document σ :=
  W.foldl (fun d o => (d.remove o).2) d

theorem attributes_detach (d : Document σ) (c j : Nat) :
    ((d.detach c).2.node j).attributes = (d.node j).attributes := by
  unfold detach
  split
  · rfl
  · dsimp only
    rw [node_modify]
    split <;> (rw [node_modify]; split <;> rfl)

theorem parent_removeEach : ∀ (W : List Nat) (d : Document σ) (j : Nat),
    ((d.removeEach W).node j).parent = if j ∈ W then none else (d.node j).parent
  | [], d, j => by simp [removeEach]
  | o :: W, d, j => by
    rw [removeEach, List.foldl_cons, ← removeEach, parent_removeEach W, remove, parent_detach]
    by_cases hj : j ∈ W <;> by_cases hjo : j = o <;> simp [hj, hjo]

theorem attributes_removeEach : ∀ (W : List Nat) (d : Document σ) (j : Nat),
    ((d.removeEach W).node j).attributes = (d.node j).attributes
  | [], d, j => rfl
  | o :: W, d, j => by
    rw [removeEach, List.foldl_cons, ← removeEach, attributes_removeEach W, remove,
      attributes_detach]

theorem keeps_removeEach (d : Document σ) (W : List Nat) : Keeps d (d.removeEach W) :=
  keeps_foldl _ (fun d o => keeps_detach d o) W d

@[simp] theorem size_removeEach : ∀ (W : List Nat) (d : Document σ),
    (d.removeEach W).nodes.size = d.nodes.size
  | [], d => rfl
  | o :: W, d => by
    rw [removeEach, List.foldl_cons, ← removeEach, size_removeEach W, remove, size_detach]

theorem Forest.removeEach (hf : Forest d) (W : List Nat) : Forest (d.removeEach W) := by
  induction W generalizing d with
  | nil => exact hf
  | cons o W ih => exact ih (hf.detach o)

theorem Grown.removeEach (hg : Grown d) (W : List Nat) : Grown (d.removeEach W) := by
  induction W generalizing d with
  | nil => exact hg
  | cons o W ih => exact ih (hg.detach o)

/-- Taking nodes out makes no node an ancestor of another. -/
theorem Ancestor.of_removeEach {W : List Nat} {a x : Nat} (h : Ancestor (d.removeEach W) a x) :
    Ancestor d a x :=
  h.mono fun y q hyq => by
    rw [parent_removeEach] at hyq
    split at hyq
    · cases hyq
    · exact hyq

/-- Taking out every attached element carrying a class leaves none attached. -/
theorem Forest.removeEach_elementsByClass (hf : Forest d) (cls : String) :
    (d.removeEach (d.elementsByClass cls)).elementsByClass cls = [] := by
  refine List.eq_nil_iff_forall_not_mem.mpr fun i hi => ?_
  obtain ⟨hanc, htext, hcls⟩ := (hf.removeEach _).mem_elementsByClass.mp hi
  have hold : Ancestor d root i := hanc.of_removeEach
  have hin : i ∈ d.elementsByClass cls := by
    refine hf.mem_elementsByClass.mpr ⟨hold, ?_, ?_⟩
    · rwa [Node.isText, tag_eq_of_keeps (keeps_removeEach d _) (size_removeEach _ d)] at htext
    · simpa only [hasClass, Node.hasClass, Node.attribute?, attributes_removeEach] using hcls
  exact not_ancestor_of_orphan (by rw [parent_removeEach, if_pos hin]) hanc

end PageEditor.Markup.Document
