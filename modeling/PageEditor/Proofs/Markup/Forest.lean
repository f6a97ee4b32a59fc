import Mathlib
import PageEditor.Proofs.Markup.Growth
/-!
# PageEditor.Proofs.Markup.Forest

The nodes of a document form a forest.

`Forest d` says that a node names `p` as its parent exactly when `p` lists it among its
children, and then once; that the parent links rank the nodes, so that no node is its own
`Ancestor`; that the root has no parent; and that text nodes have no children.

Each edit keeps it, under what the editor's callers promise: an edit that keeps every node's
children, parent and tag (`Forest.restyle`), adding a node (`Forest.alloc`), taking a node out
of its parent (`Forest.detach`), emptying a node (`Forest.clearChildren`), and hanging a node
without a parent below an element outside its own subtree (`Forest.attach`), from which moving
a node (`Forest.append`, `Forest.insertBefore`) and writing a text (`Forest.setText`) follow.

A node created as an element with the tag `#text` is a text node, so appending below it gives a
text node with children; that is why every edit that adds children asks for an element.
-/

namespace PageEditor.Markup.Document

variable {σ : Type} {d d' : Document σ}

/-! ## Ancestors -/

/-- `Ancestor d a b`: going up the parent links from `b` reaches `a`. -/
inductive Ancestor (d : Document σ) (a : Nat) : Nat → Prop
  | parent {b : Nat} : (d.node b).parent = some a → Ancestor d a b
  | up {b m : Nat} : (d.node b).parent = some m → Ancestor d a m → Ancestor d a b

/-- An ancestor is somebody's parent. -/
theorem Ancestor.exists_child {a b : Nat} (h : Ancestor d a b) :
    ∃ x, (d.node x).parent = some a := by
  induction h with
  | parent h => exact ⟨_, h⟩
  | up _ _ ih => exact ih

/-- The first step up from `b` leads to its parent, which is `a` or lies below `a`. -/
theorem Ancestor.of_parent {a b y : Nat} (h : Ancestor d a b) (hy : (d.node b).parent = some y) :
    a = y ∨ Ancestor d a y := by
  cases h with
  | parent h => exact .inl (Option.some.inj (h.symm.trans hy))
  | up h ha =>
    obtain rfl := Option.some.inj (h.symm.trans hy)
    exact .inr ha

/-- An edit that keeps the parent links it does not cut keeps the ancestors along them. -/
theorem Ancestor.mono (hpar : ∀ x y, (d.node x).parent = some y → (d'.node x).parent = some y)
    {a b : Nat} (h : Ancestor d a b) : Ancestor d' a b := by
  induction h with
  | parent h => exact .parent (hpar _ _ h)
  | up h _ ih => exact .up (hpar _ _ h) ih

/-- Along a ranking of the parent links, ancestors rank lower. -/
theorem Ancestor.rank_lt {r : Nat → Nat} (hr : ∀ p c, (d.node c).parent = some p → r p < r c)
    {a b : Nat} (h : Ancestor d a b) : r a < r b := by
  induction h with
  | parent h => exact hr _ _ h
  | up h _ ih => exact Nat.lt_trans ih (hr _ _ h)

/-! ## The invariant -/

/-- The nodes of `d` form a forest of elements with texts as leaves. -/
structure Forest (d : Document σ) : Prop where
  linked : ∀ p c, c ∈ (d.node p).children → (d.node c).parent = some p
  listed : ∀ p c, (d.node c).parent = some p → c ∈ (d.node p).children
  nodup : ∀ p, (d.node p).children.Nodup
  bounded : ∀ p c, c ∈ (d.node p).children → c < d.nodes.size
  ranked : ∃ r : Nat → Nat, ∀ p c, (d.node c).parent = some p → r p < r c
  rootless : (d.node root).parent = none
  leaves : ∀ i, (d.node i).isText = true → (d.node i).children = []

namespace Forest

theorem not_ancestor_self (hf : Forest d) (a : Nat) : ¬ Ancestor d a a := by
  obtain ⟨r, hr⟩ := hf.ranked
  exact fun h => Nat.lt_irrefl _ (h.rank_lt hr)

theorem not_mem_of_orphan (hf : Forest d) {c : Nat} (hc : (d.node c).parent = none) (p : Nat) :
    c ∉ (d.node p).children := fun h => by
  rw [hf.linked p c h] at hc
  cases hc

/-- A parent exists. -/
theorem parent_lt (hf : Forest d) {p c : Nat} (h : (d.node c).parent = some p) :
    p < d.nodes.size := by
  by_contra hp
  have hmem := hf.listed p c h
  rw [node_of_size_le (Nat.le_of_not_lt hp)] at hmem
  cases hmem

/-- A node with a parent exists. -/
theorem child_lt (hf : Forest d) {p c : Nat} (h : (d.node c).parent = some p) :
    c < d.nodes.size :=
  hf.bounded p c (hf.listed p c h)

end Forest

theorem forest_empty : Forest (empty : Document σ) := by
  have hparent : ∀ j, ((empty : Document σ).node j).parent = if j = body then some root else none := by
    intro j
    match j with
    | 0 => rfl
    | 1 => rfl
    | n + 2 => rfl
  constructor
  case linked =>
    intro p c hc
    rw [children_empty] at hc
    split at hc
    · next hp => rw [List.mem_singleton.mp hc, hparent, if_pos rfl, hp]; rfl
    · cases hc
  case listed =>
    intro p c hc
    rw [hparent] at hc
    split at hc
    · next hc' =>
      obtain rfl := Option.some.inj hc
      subst hc'
      exact List.mem_singleton_self _
    · cases hc
  case nodup =>
    intro p
    rw [children_empty]
    split <;> simp
  case bounded =>
    intro p c hc
    rw [children_empty] at hc
    split at hc
    · rw [List.mem_singleton.mp hc]
      exact Nat.lt_succ_self 1
    · cases hc
  case ranked =>
    refine ⟨fun j => if j = body then 1 else 0, fun p c hc => ?_⟩
    rw [hparent] at hc
    split at hc
    · next hc' =>
      obtain rfl := Option.some.inj hc
      subst hc'
      simp [root, body]
    · cases hc
  case rootless => rfl
  case leaves =>
    intro i hi
    rw [children_empty]
    split
    · next h => subst h; cases hi
    · rfl

/-! ## Edits that keep the shape -/

/-- `d'` has the nodes of `d`, each with the same children, parent and tag: an edit of
attributes, style, values or listeners. -/
structure Restyled (d d' : Document σ) : Prop where
  shape : SameShape d d'
  tag : ∀ j, (d'.node j).tag = (d.node j).tag

theorem Restyled.refl (d : Document σ) : Restyled d d := ⟨SameShape.refl d, fun _ => rfl⟩

theorem Restyled.trans {d₁ d₂ d₃ : Document σ} (h₁ : Restyled d₁ d₂) (h₂ : Restyled d₂ d₃) :
    Restyled d₁ d₃ :=
  ⟨h₁.shape.trans h₂.shape, fun j => (h₂.tag j).trans (h₁.tag j)⟩

/-- Changing one node but for its children, parent and tag. -/
theorem restyled_modify (d : Document σ) (i : Nat) {f : Node σ → Node σ}
    (hf : ∀ n, (f n).children = n.children ∧ (f n).parent = n.parent ∧ (f n).tag = n.tag) :
    Restyled d (d.modify i f) where
  shape := sameShape_modify d i fun n => ⟨(hf n).1, (hf n).2.1⟩
  tag j := by rw [node_modify]; split <;> simp [(hf _).2.2]

theorem Forest.restyle (hf : Forest d) (h : Restyled d d') : Forest d' where
  linked p c hc := by
    rw [h.shape.parent]
    exact hf.linked p c (h.shape.children p ▸ hc)
  listed p c hc := by
    rw [h.shape.children]
    exact hf.listed p c (h.shape.parent c ▸ hc)
  nodup p := h.shape.children p ▸ hf.nodup p
  bounded p c hc := h.shape.size ▸ hf.bounded p c (h.shape.children p ▸ hc)
  ranked := by
    obtain ⟨r, hr⟩ := hf.ranked
    exact ⟨r, fun p c hc => hr p c (h.shape.parent c ▸ hc)⟩
  rootless := (h.shape.parent root).trans hf.rootless
  leaves i hi := by
    rw [h.shape.children]
    exact hf.leaves i (by rw [Node.isText, ← h.tag i]; exact hi)

theorem restyled_setAttribute (d : Document σ) (i : Nat) (name value : String) :
    Restyled d (d.setAttribute i name value) :=
  restyled_modify d i fun _ => ⟨rfl, rfl, rfl⟩

theorem restyled_removeAttribute (d : Document σ) (i : Nat) (name : String) :
    Restyled d (d.removeAttribute i name) :=
  restyled_modify d i fun _ => ⟨rfl, rfl, rfl⟩

theorem restyled_setStyle (d : Document σ) (i : Nat) (property value : String) :
    Restyled d (d.setStyle i property value) :=
  restyled_modify d i fun _ => ⟨rfl, rfl, rfl⟩

theorem restyled_listen (d : Document σ) (i : Nat) (kind : EventKind) (l : σ) :
    Restyled d (d.listen i kind l) :=
  restyled_modify d i fun _ => ⟨rfl, rfl, rfl⟩

theorem restyled_setClassName (d : Document σ) (i : Nat) (cls : String) :
    Restyled d (d.setClassName i cls) :=
  restyled_setAttribute d i "class" cls

theorem restyled_addClass (d : Document σ) (i : Nat) (cls : String) :
    Restyled d (d.addClass i cls) := by
  unfold addClass
  split
  · exact Restyled.refl d
  · exact restyled_setClassName _ _ _

theorem restyled_setChecked (d : Document σ) (i : Nat) (checked : Bool) :
    Restyled d (d.setChecked i checked) := by
  unfold setChecked
  split
  · exact restyled_setAttribute _ _ _ _
  · exact restyled_removeAttribute _ _ _

theorem restyled_setValue (d : Document σ) (i : Nat) (v : String) :
    Restyled d (d.setValue i v) :=
  rel_setValue Restyled.refl Restyled.trans (fun e => restyled_setAttribute e _ _ _)
    (fun e o => restyled_setAttribute e o _ _) (fun e o => restyled_removeAttribute e o _) d

theorem restyled_selectText (d : Document σ) (i : Nat) : Restyled d (d.selectText i) :=
  ⟨⟨rfl, fun _ => rfl, fun _ => rfl⟩, fun _ => rfl⟩

/-! ## Nodes after moving -/

@[simp] theorem parent_modify_children (d : Document σ) (i j : Nat) (f : List Nat → List Nat) :
    ((d.modify i fun n => { n with children := f n.children }).node j).parent = (d.node j).parent := by
  rw [node_modify]
  split <;> rfl

@[simp] theorem tag_modify_children (d : Document σ) (i j : Nat) (f : List Nat → List Nat) :
    ((d.modify i fun n => { n with children := f n.children }).node j).tag = (d.node j).tag := by
  rw [node_modify]
  split <;> rfl

@[simp] theorem children_modify_parent (d : Document σ) (i j : Nat) (q : Option Nat) :
    ((d.modify i fun n => { n with parent := q }).node j).children = (d.node j).children := by
  rw [node_modify]
  split <;> rfl

@[simp] theorem tag_modify_parent (d : Document σ) (i j : Nat) (q : Option Nat) :
    ((d.modify i fun n => { n with parent := q }).node j).tag = (d.node j).tag := by
  rw [node_modify]
  split <;> rfl

/-- An edit that keeps the nodes and the number of nodes keeps every tag. -/
theorem tag_eq_of_keeps (hk : Keeps d d') (hs : d'.nodes.size = d.nodes.size) (j : Nat) :
    (d'.node j).tag = (d.node j).tag := by
  by_cases hj : j < d.nodes.size
  · exact hk.tag j hj
  · rw [node_of_size_le (by omega), node_of_size_le (by omega)]

theorem parent_detach (d : Document σ) (c j : Nat) :
    ((d.detach c).2.node j).parent = if j = c then none else (d.node j).parent := by
  unfold detach
  split
  · next h =>
    split
    · next hj => subst hj; exact h
    · rfl
  · next p h =>
    have hc : c < d.nodes.size := by
      by_contra hc
      rw [node_of_size_le (Nat.le_of_not_lt hc)] at h
      cases h
    by_cases hj : j = c
    · subst hj
      rw [node_modify_self _ _ (by simpa using hc), if_pos rfl]
    · rw [node_modify_of_ne _ _ (Ne.symm hj), parent_modify_children, if_neg hj]

/-- Taking `c` out of its parent takes it out of every list of children. -/
theorem Forest.children_detach (hf : Forest d) (c j : Nat) :
    ((d.detach c).2.node j).children = (d.node j).children.filter (· != c) := by
  have hkeep : ∀ k, c ∉ (d.node k).children →
      (d.node k).children = (d.node k).children.filter (· != c) := fun k hk =>
    (List.filter_eq_self.mpr fun a ha => by
      simp only [bne_iff_ne, ne_eq]
      rintro rfl
      exact hk ha).symm
  unfold detach
  split
  · next h => exact hkeep j (hf.not_mem_of_orphan h j)
  · next p h =>
    rw [children_modify_parent, node_modify]
    split
    · next hj => obtain ⟨rfl, -⟩ := hj; rfl
    · next hj =>
      refine hkeep j fun hmem => hj ⟨?_, hf.parent_lt (hf.linked j c hmem)⟩
      have hjc := hf.linked j c hmem
      rw [h] at hjc
      exact Option.some.inj hjc

theorem isText_detach (d : Document σ) (c j : Nat) :
    ((d.detach c).2.node j).isText = (d.node j).isText := by
  simp only [Node.isText, tag_eq_of_keeps (keeps_detach d c) (size_detach d c) j]

/-- A link that survives taking `c` out was there before. -/
theorem parent_of_detach {c x y : Nat} (h : ((d.detach c).2.node x).parent = some y) :
    (d.node x).parent = some y := by
  rw [parent_detach] at h
  split at h
  · cases h
  · exact h

/-! ## Edits that keep the forest -/

theorem Forest.alloc (hf : Forest d) {n : Node σ} (hn : Bare n) : Forest (d.alloc n).2 where
  linked p c hc := by
    rw [node_alloc] at hc
    split at hc
    · rw [hn.1] at hc; cases hc
    · rw [node_alloc, if_neg (Nat.ne_of_lt (hf.bounded p c hc))]
      exact hf.linked p c hc
  listed p c hc := by
    rw [node_alloc] at hc
    split at hc
    · rw [hn.2.1] at hc; cases hc
    · rw [node_alloc, if_neg (Nat.ne_of_lt (hf.parent_lt hc))]
      exact hf.listed p c hc
  nodup p := by
    rw [node_alloc]
    split
    · rw [hn.1]; exact List.nodup_nil
    · exact hf.nodup p
  bounded p c hc := by
    rw [size_alloc]
    rw [node_alloc] at hc
    split at hc
    · rw [hn.1] at hc; cases hc
    · exact Nat.lt_succ_of_lt (hf.bounded p c hc)
  ranked := by
    obtain ⟨r, hr⟩ := hf.ranked
    refine ⟨r, fun p c hc => ?_⟩
    rw [node_alloc] at hc
    split at hc
    · rw [hn.2.1] at hc; cases hc
    · exact hr p c hc
  rootless := by
    rw [node_alloc]
    split
    · exact hn.2.1
    · exact hf.rootless
  leaves i hi := by
    rw [node_alloc] at hi ⊢
    split
    · exact hn.1
    · next h => rw [if_neg h] at hi; exact hf.leaves i hi

theorem Forest.detach (hf : Forest d) (c : Nat) : Forest (d.detach c).2 where
  linked p k hk := by
    rw [hf.children_detach, List.mem_filter] at hk
    rw [parent_detach, if_neg (by simpa using hk.2)]
    exact hf.linked p k hk.1
  listed p k hk := by
    rw [parent_detach] at hk
    split at hk
    · cases hk
    · next hkc =>
      rw [hf.children_detach, List.mem_filter]
      exact ⟨hf.listed p k hk, by simpa using hkc⟩
  nodup p := by
    rw [hf.children_detach]
    exact (hf.nodup p).filter _
  bounded p k hk := by
    rw [size_detach]
    rw [hf.children_detach] at hk
    exact hf.bounded p k (List.mem_filter.mp hk).1
  ranked := by
    obtain ⟨r, hr⟩ := hf.ranked
    exact ⟨r, fun p k hk => hr p k (parent_of_detach hk)⟩
  rootless := by
    rw [parent_detach]
    split
    · rfl
    · exact hf.rootless
  leaves i hi := by
    rw [isText_detach] at hi
    rw [hf.children_detach, hf.leaves i hi]
    rfl

/-- Giving an orphan `c` the parent `p`, where `p` is not below `c`, keeps the parents ranked:
the subtree of `c` is lifted above the rank of `p`. -/
theorem ranked_reparent {d D : Document σ} {p c : Nat} {r : Nat → Nat}
    (hr : ∀ y x, (d.node x).parent = some y → r y < r x)
    (hpar : ∀ j, (D.node j).parent = if j = c then some p else (d.node j).parent)
    (hcp : c ≠ p) (hanc : ¬ Ancestor d c p) :
    ∃ r' : Nat → Nat, ∀ y x, (D.node x).parent = some y → r' y < r' x := by
  classical
  refine ⟨fun x => if c = x ∨ Ancestor d c x then r x + r p + 1 else r x, fun y x hx => ?_⟩
  rw [hpar] at hx
  split at hx
  · next hxc =>
    subst hxc
    obtain rfl := Option.some.inj hx
    simp only [true_or, if_true, if_neg (not_or.mpr ⟨hcp, hanc⟩)]
    omega
  · next hxc =>
    -- below `c` exactly when the parent is
    have hiff : (c = x ∨ Ancestor d c x) ↔ (c = y ∨ Ancestor d c y) := by
      constructor
      · rintro (h | h)
        · exact absurd h.symm hxc
        · exact h.of_parent hx
      · rintro (rfl | h)
        · exact .inr (.parent hx)
        · exact .inr (.up hx h)
    have hxy := hr y x hx
    by_cases hy : c = y ∨ Ancestor d c y
    · simp only [if_pos hy, if_pos (hiff.mpr hy)]
      omega
    · simp only [if_neg hy, if_neg (mt hiff.mp hy)]
      exact hxy

/-- **Hanging a node below an element.** A node without a parent, hung below an element that is
not in its subtree, with the element's children reordered in any way, keeps the forest: the
subtree of the node moves up in rank above the element. -/
theorem Forest.attach (hf : Forest d) {p c : Nat} {f : List Nat → List Nat}
    (hperm : (f (d.node p).children).Perm ((d.node p).children ++ [c]))
    (hp : p < d.nodes.size) (hc : c < d.nodes.size) (horphan : (d.node c).parent = none)
    (hpt : (d.node p).isText = false) (hroot : c ≠ root) (hcp : c ≠ p)
    (hanc : ¬ Ancestor d c p) :
    Forest ((d.modify p fun n => { n with children := f n.children }).modify c
      fun n => { n with parent := some p }) := by
  set D := (d.modify p fun n => { n with children := f n.children }).modify c
    fun n => { n with parent := some p }
  have hch : ∀ j, (D.node j).children =
      if j = p then f (d.node p).children else (d.node j).children := by
    intro j
    rw [children_modify_parent, node_modify]
    split
    · next h => obtain ⟨rfl, -⟩ := h; rw [if_pos rfl]
    · next h => rw [if_neg fun (hj : j = p) => h ⟨hj.symm, hj ▸ hp⟩]
  have hpar : ∀ j, (D.node j).parent = if j = c then some p else (d.node j).parent := by
    intro j
    by_cases hj : j = c
    · subst hj
      rw [node_modify_self _ _ (by simpa using hc), if_pos rfl]
    · rw [node_modify_of_ne _ _ (Ne.symm hj), parent_modify_children, if_neg hj]
  have htext : ∀ j, (D.node j).isText = (d.node j).isText := fun j => by
    simp only [D, Node.isText, tag_modify_parent, tag_modify_children]
  have hcnot : ∀ j, c ∉ (d.node j).children := hf.not_mem_of_orphan horphan
  have hmem : ∀ j k, k ∈ (D.node j).children ↔ k ∈ (d.node j).children ∨ (j = p ∧ k = c) := by
    intro j k
    rw [hch]
    split
    · next h => subst h; simp [hperm.mem_iff]
    · next h => simp [h]
  constructor
  case linked =>
    intro j k hk
    rcases (hmem j k).mp hk with hk | ⟨rfl, rfl⟩
    · rw [hpar, if_neg fun (h : k = c) => hcnot j (h ▸ hk)]
      exact hf.linked j k hk
    · rw [hpar, if_pos rfl]
  case listed =>
    intro j k hk
    rw [hpar] at hk
    split at hk
    · next hkc => exact (hmem j k).mpr (.inr ⟨(Option.some.inj hk).symm, hkc⟩)
    · exact (hmem j k).mpr (.inl (hf.listed j k hk))
  case nodup =>
    intro j
    rw [hch]
    split
    · next h =>
      subst h
      refine hperm.nodup_iff.mpr (List.nodup_append.mpr ⟨hf.nodup _, List.nodup_singleton c, ?_⟩)
      intro a ha b hb
      rw [List.mem_singleton.mp hb]
      rintro rfl
      exact hcnot _ ha
    · exact hf.nodup j
  case bounded =>
    intro j k hk
    rw [size_modify, size_modify]
    rcases (hmem j k).mp hk with hk | ⟨-, rfl⟩
    · exact hf.bounded j k hk
    · exact hc
  case ranked =>
    obtain ⟨r, hr⟩ := hf.ranked
    exact ranked_reparent hr hpar hcp hanc
  case rootless =>
    rw [hpar, if_neg (Ne.symm hroot)]
    exact hf.rootless
  case leaves =>
    intro i hi
    rw [htext] at hi
    rw [hch]
    split
    · next h => subst h; rw [hpt] at hi; cases hi
    · exact hf.leaves i hi

theorem findIdx?_getD_le (l : List Nat) (q : Nat → Bool) :
    (l.findIdx? q).getD l.length ≤ l.length := by
  cases h : l.findIdx? q with
  | none => exact Nat.le_refl _
  | some i => exact Nat.le_of_lt (List.findIdx?_eq_some_iff_getElem.mp h).1

/-- Moving a node below an element outside its subtree keeps the forest. -/
theorem Forest.append (hf : Forest d) {p c : Nat} (hp : p < d.nodes.size)
    (hc : c < d.nodes.size) (hpt : (d.node p).isText = false) (hroot : c ≠ root) (hcp : c ≠ p)
    (hanc : ¬ Ancestor d c p) : Forest (d.append p c) := by
  have h₁ := hf.detach c
  show Forest (((d.detach c).2.modify p fun n => { n with children := n.children ++ [c] }).modify c
    fun n => { n with parent := some p })
  exact @Forest.attach _ _ h₁ p c (· ++ [c]) (List.Perm.refl _) (by simpa using hp) (by simpa using hc)
    (by rw [parent_detach, if_pos rfl]) (by rw [isText_detach]; exact hpt) hroot hcp
    (fun h => hanc (h.mono fun _ _ => parent_of_detach))

/-- Moving a node before a child of an element outside its subtree keeps the forest. -/
theorem Forest.insertBefore (hf : Forest d) {p c : Nat} (r : Nat) (hp : p < d.nodes.size)
    (hc : c < d.nodes.size) (hpt : (d.node p).isText = false) (hroot : c ≠ root) (hcp : c ≠ p)
    (hanc : ¬ Ancestor d c p) : Forest (d.insertBefore p c r) := by
  have h₁ := hf.detach c
  have hperm : ∀ l : List Nat, (l.insertIdx ((l.findIdx? (· == r)).getD l.length) c).Perm
      (l ++ [c]) := fun l =>
    (List.perm_insertIdx c l (findIdx?_getD_le l _)).trans (List.perm_append_singleton c l).symm
  exact @Forest.attach _ _ h₁ p c _ (hperm _) (by simpa using hp) (by simpa using hc)
    (by rw [parent_detach, if_pos rfl]) (by rw [isText_detach]; exact hpt) hroot hcp
    (fun h => hanc (h.mono fun _ _ => parent_of_detach))

theorem Forest.clearChildren (hf : Forest d) (x : Nat) : Forest (d.clearChildren x) := by
  have htext : ∀ j, ((d.clearChildren x).node j).isText = (d.node j).isText := fun j => by
    simp only [Node.isText,
      tag_eq_of_keeps (keeps_clearChildren d x) (size_clearChildren d x) j]
  constructor
  case linked =>
    intro p k hk
    rw [children_clearChildren] at hk
    split at hk
    · cases hk
    · next hpx =>
      rw [parent_clearChildren, if_neg fun hkx => hpx ?_]
      · exact hf.linked p k hk
      · have h := (hf.linked x k hkx).symm.trans (hf.linked p k hk)
        exact (Option.some.inj h).symm
  case listed =>
    intro p k hk
    rw [parent_clearChildren] at hk
    split at hk
    · cases hk
    · next hkx =>
      rw [children_clearChildren, if_neg fun (hpx : p = x) => hkx (hpx ▸ hf.listed p k hk)]
      exact hf.listed p k hk
  case nodup =>
    intro p
    rw [children_clearChildren]
    split
    · exact List.nodup_nil
    · exact hf.nodup p
  case bounded =>
    intro p k hk
    rw [size_clearChildren]
    rw [children_clearChildren] at hk
    split at hk
    · cases hk
    · exact hf.bounded p k hk
  case ranked =>
    obtain ⟨r, hr⟩ := hf.ranked
    refine ⟨r, fun p k hk => ?_⟩
    rw [parent_clearChildren] at hk
    split at hk
    · cases hk
    · exact hr p k hk
  case rootless =>
    rw [parent_clearChildren]
    split
    · rfl
    · exact hf.rootless
  case leaves =>
    intro i hi
    rw [htext] at hi
    rw [children_clearChildren]
    split
    · rfl
    · exact hf.leaves i hi

/-- A fresh node hung below an element keeps the forest. -/
theorem Forest.sprout (hf : Forest d) {n : Node σ} (hn : Bare n) {p : Nat}
    (hp : p < d.nodes.size) (hpt : (d.node p).isText = false) : Forest (d.sprout n p) := by
  have h₁ := hf.alloc hn
  have hfresh : ¬ Ancestor (d.alloc n).2 d.nodes.size p := fun h => by
    obtain ⟨x, hx⟩ := h.exists_child
    have hmem := h₁.listed _ x hx
    rw [node_alloc, if_pos rfl, hn.1] at hmem
    cases hmem
  unfold Document.sprout
  rw [append_of_orphan (orphan_alloc d hn)]
  exact @Forest.attach _ _ h₁ p d.nodes.size (· ++ [d.nodes.size]) (List.Perm.refl _)
    (by simpa using Nat.lt_succ_of_lt hp) (by simp)
    (orphan_alloc d hn) (by rw [node_alloc, if_neg (Nat.ne_of_lt hp)]; exact hpt)
    (by unfold root; omega) (Nat.ne_of_gt hp) hfresh

/-- Writing the text of an element keeps the forest. -/
theorem Forest.setText (hf : Forest d) {x : Nat} (hx : x < d.nodes.size)
    (hxt : (d.node x).isText = false) (text : String) : Forest (d.setText x text) := by
  rw [setText_eq]
  split
  · exact hf.clearChildren x
  · refine (hf.clearChildren x).sprout ⟨rfl, rfl, rfl⟩ (by simpa using hx) ?_
    rw [Node.isText, tag_eq_of_keeps (keeps_clearChildren d x) (size_clearChildren d x)]
    exact hxt

/-! ## Reading markup -/

/-- While markup is read: the document is a forest, and the open elements exist and are
elements. -/
structure Reading (d : Document σ) (opened : List Nat) : Prop where
  forest : Forest d
  nonempty : opened ≠ []
  opens : ∀ o ∈ opened, o < d.nodes.size ∧ (d.node o).isText = false

namespace Reading

variable {opened : List Nat}

theorem current (h : Reading d opened) :
    opened.headD body < d.nodes.size ∧ (d.node (opened.headD body)).isText = false := by
  obtain ⟨o, os, rfl⟩ := List.exists_cons_of_ne_nil h.nonempty
  exact h.opens o (List.mem_cons_self ..)

theorem sprout (h : Reading d opened) {n : Node σ} (hn : Bare n) {p : Nat}
    (hp : p < d.nodes.size) (hpt : (d.node p).isText = false) : Reading (d.sprout n p) opened where
  forest := h.forest.sprout hn hp hpt
  nonempty := h.nonempty
  opens o ho := by
    obtain ⟨hos, hot⟩ := h.opens o ho
    refine ⟨by simpa using Nat.lt_succ_of_lt hos, ?_⟩
    rw [Node.isText, (keeps_sprout d hn p).tag o hos]
    exact hot

theorem push (h : Reading d opened) {t : Nat} (ht : t < d.nodes.size)
    (htt : (d.node t).isText = false) : Reading d (t :: opened) where
  forest := h.forest
  nonempty := List.cons_ne_nil _ _
  opens o ho := by
    rcases List.mem_cons.mp ho with rfl | ho
    · exact ⟨ht, htt⟩
    · exact h.opens o ho

theorem close (h : Reading d opened) (tag : String) : Reading d (d.closeOpen tag opened) where
  forest := h.forest
  nonempty := closeOpen_ne_nil d tag h.nonempty
  opens o ho := h.opens o (closeOpen_sub d tag opened o ho)

/-- **Reading markup keeps the forest**: every node it adds is fresh and hangs below an open
element. -/
theorem readInto (h : Reading d opened) (rest : List Char) :
    Forest (d.readInto opened rest) := by
  -- an opened element is no text node, so it may take children
  obtain ⟨o, ho⟩ := readInto_induction (motive := fun o d => Reading d o)
    (fun _ _ tag h => h.close tag) (fun _ _ _ hn h => h.sprout hn h.current.1 h.current.2)
    (fun _ d _ hn hnt h => (h.sprout hn h.current.1 h.current.2).push (by simp)
      (by rw [sprout_node_self d hn h.current.1]; exact hnt))
    opened rest h
  exact ho.forest

end Reading

/-- Setting the inside of an element keeps the forest. -/
theorem Forest.setInnerHtml (hf : Forest d) {x : Nat} (hx : x < d.nodes.size)
    (hxt : (d.node x).isText = false) (html : String) : Forest (d.setInnerHtml x html) := by
  refine Reading.readInto ⟨hf.clearChildren x, List.cons_ne_nil _ _, fun o ho => ?_⟩ html.toList
  rw [List.mem_singleton.mp ho]
  refine ⟨by simpa using hx, ?_⟩
  rw [Node.isText, tag_eq_of_keeps (keeps_clearChildren d x) (size_clearChildren d x)]
  exact hxt

end PageEditor.Markup.Document
