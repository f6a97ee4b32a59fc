import Mathlib.Data.List.DropRight
import PageEditor.Markup.Fragment
import PageEditor.Markup.Controls
/-!
# PageEditor.Proofs.Markup.Growth

What the edits of the editor components leave alone in a document, stated as frame facts.

Three relations carry the later proofs about documents:

* `Keeps d d'`: every node of `d` keeps its tag, its text and its listeners in `d'`, and a node
  `d'` adds has no listeners. Every edit but `listen` keeps the document in this sense.
* `ChildrenKept d d' x`: every node of `d` but `x` keeps its children.
* `Grown d`: every child is newer than its parent, exists, and names the node that lists it. A
  document read from markup is grown, and it stays grown while only fresh nodes are attached.

From them: the text of an element depends on its subtree alone (`textContent_eq_of_kept`), and
an element whose text was just written shows that text (`textContent_setText`).

Every invariant of reading markup is carried by one induction over the reader
(`readInto_induction`). A property that three steps keep holds after the whole read: closing
open elements, hanging a fresh node below the innermost open element, and opening a fresh
element there. In the same way, setting a control's value is a chain of attribute writes, so
every preorder that those writes respect holds across it (`rel_setValue`).
-/

namespace PageEditor.Markup.Document

variable {σ : Type}

/-! ## Nodes after an edit -/

theorem node_eq_getD (d : Document σ) (i : Nat) : d.node i = (d.nodes[i]?).getD default :=
  Array.getD_eq_getD_getElem?

theorem node_of_size_le {d : Document σ} {i : Nat} (h : d.nodes.size ≤ i) :
    d.node i = default := by
  rw [node_eq_getD, Array.getElem?_eq_none h]
  rfl

@[simp] theorem size_modify (d : Document σ) (i : Nat) (f : Node σ → Node σ) :
    (d.modify i f).nodes.size = d.nodes.size :=
  Array.size_modify

theorem node_modify (d : Document σ) (i j : Nat) (f : Node σ → Node σ) :
    (d.modify i f).node j = if i = j ∧ j < d.nodes.size then f (d.node j) else d.node j := by
  simp only [node_eq_getD, modify, Array.getElem?_modify]
  by_cases hij : i = j
  · subst hij
    by_cases hj : i < d.nodes.size
    · simp [hj]
    · simp [hj]
  · simp [hij]

@[simp] theorem node_modify_of_ne (d : Document σ) {i j : Nat} (f : Node σ → Node σ)
    (h : i ≠ j) : (d.modify i f).node j = d.node j := by
  rw [node_modify, if_neg (fun h' => h h'.1)]

theorem node_modify_self (d : Document σ) {i : Nat} (f : Node σ → Node σ)
    (h : i < d.nodes.size) : (d.modify i f).node i = f (d.node i) := by
  rw [node_modify, if_pos ⟨rfl, h⟩]

@[simp] theorem alloc_fst (d : Document σ) (n : Node σ) : (d.alloc n).1 = d.nodes.size := rfl

@[simp] theorem size_alloc (d : Document σ) (n : Node σ) :
    (d.alloc n).2.nodes.size = d.nodes.size + 1 :=
  Array.size_push _

theorem node_alloc (d : Document σ) (n : Node σ) (j : Nat) :
    (d.alloc n).2.node j = if j = d.nodes.size then n else d.node j := by
  simp only [node_eq_getD, alloc, Array.getElem?_push]
  split <;> simp

/-- Setting a control's value is a chain of attribute writes: its `value` attribute, or the
`selected` attribute of each option of a select. A preorder on documents that each of these
writes respects relates a document to the one with the value set. -/
theorem rel_setValue {R : Document σ → Document σ → Prop} (refl : ∀ d, R d d)
    (trans : ∀ {d₁ d₂ d₃}, R d₁ d₂ → R d₂ d₃ → R d₁ d₃) {i : Nat} {v : String}
    (hvalue : ∀ e : Document σ, R e (e.setAttribute i "value" v))
    (hselect : ∀ (e : Document σ) o, R e (e.setAttribute o "selected" ""))
    (hunselect : ∀ (e : Document σ) o, R e (e.removeAttribute o "selected")) (d : Document σ) :
    R d (d.setValue i v) := by
  unfold setValue
  split
  · exact hvalue d
  · -- a select marks its options one by one
    suffices fold : ∀ (os : List Nat) (e : Document σ), R e (os.foldl (fun d o =>
        if d.optionValue o == v then d.setAttribute o "selected" "" else
          d.removeAttribute o "selected") e) from fold _ d
    intro os
    induction os with
    | nil => exact refl
    | cons o os ih =>
      intro e
      rw [List.foldl_cons]
      refine trans ?_ (ih _)
      split
      · exact hselect e o
      · exact hunselect e o

/-! ## Keeping nodes -/

/-- `d'` keeps every node of `d`: its tag, its text and its listeners; a node that `d'` adds
has no listeners. -/
structure Keeps (d d' : Document σ) : Prop where
  size_le : d.nodes.size ≤ d'.nodes.size
  tag : ∀ i < d.nodes.size, (d'.node i).tag = (d.node i).tag
  text : ∀ i < d.nodes.size, (d'.node i).text = (d.node i).text
  listeners : ∀ i, (d'.node i).listeners = (d.node i).listeners

namespace Keeps

theorem refl (d : Document σ) : Keeps d d :=
  ⟨Nat.le_refl _, fun _ _ => rfl, fun _ _ => rfl, fun _ => rfl⟩

theorem trans {d₁ d₂ d₃ : Document σ} (h₁ : Keeps d₁ d₂) (h₂ : Keeps d₂ d₃) : Keeps d₁ d₃ where
  size_le := Nat.le_trans h₁.size_le h₂.size_le
  tag i hi := (h₂.tag i (Nat.lt_of_lt_of_le hi h₁.size_le)).trans (h₁.tag i hi)
  text i hi := (h₂.text i (Nat.lt_of_lt_of_le hi h₁.size_le)).trans (h₁.text i hi)
  listeners i := (h₂.listeners i).trans (h₁.listeners i)

end Keeps

/-- A change of one node that leaves its tag, text and listeners as they were. -/
def Tame (f : Node σ → Node σ) : Prop :=
  ∀ n, (f n).tag = n.tag ∧ (f n).text = n.text ∧ (f n).listeners = n.listeners

theorem keeps_modify (d : Document σ) (i : Nat) {f : Node σ → Node σ} (hf : Tame f) :
    Keeps d (d.modify i f) where
  size_le := by simp
  tag j _ := by rw [node_modify]; split <;> simp [(hf _).1]
  text j _ := by rw [node_modify]; split <;> simp [(hf _).2.1]
  listeners j := by rw [node_modify]; split <;> simp [(hf _).2.2]

theorem keeps_alloc (d : Document σ) {n : Node σ} (hn : n.listeners = []) :
    Keeps d (d.alloc n).2 where
  size_le := by simp
  tag j hj := by rw [node_alloc, if_neg (Nat.ne_of_lt hj)]
  text j hj := by rw [node_alloc, if_neg (Nat.ne_of_lt hj)]
  listeners j := by
    rw [node_alloc]
    split
    · next hj => rw [hn, node_of_size_le (Nat.le_of_eq hj.symm)]; rfl
    · rfl

theorem keeps_foldl {α : Type} (g : Document σ → α → Document σ)
    (hg : ∀ d a, Keeps d (g d a)) : ∀ (l : List α) (d : Document σ), Keeps d (l.foldl g d)
  | [], d => Keeps.refl d
  | a :: l, d => (hg d a).trans (keeps_foldl g hg l (g d a))

theorem keeps_detach (d : Document σ) (i : Nat) : Keeps d (d.detach i).2 := by
  unfold detach
  split
  · exact Keeps.refl d
  · refine (keeps_modify _ _ ?_).trans (keeps_modify _ _ ?_) <;> exact fun _ => ⟨rfl, rfl, rfl⟩

theorem keeps_append (d : Document σ) (parent child : Nat) : Keeps d (d.append parent child) := by
  refine ((keeps_detach d child).trans (keeps_modify _ _ ?_)).trans (keeps_modify _ _ ?_) <;>
    exact fun _ => ⟨rfl, rfl, rfl⟩

theorem keeps_clearChildren (d : Document σ) (i : Nat) : Keeps d (d.clearChildren i) := by
  refine (keeps_modify d i ?_).trans (keeps_foldl _ (fun d k => keeps_modify d k ?_) _ _) <;>
    exact fun _ => ⟨rfl, rfl, rfl⟩

theorem keeps_createText (d : Document σ) (text : String) : Keeps d (d.createText text).2 :=
  keeps_alloc d rfl

theorem keeps_setText (d : Document σ) (i : Nat) (text : String) : Keeps d (d.setText i text) := by
  unfold setText
  split
  · exact keeps_clearChildren d i
  · exact ((keeps_clearChildren d i).trans (keeps_createText _ text)).trans (keeps_append _ _ _)

theorem keeps_setAttribute (d : Document σ) (i : Nat) (name value : String) :
    Keeps d (d.setAttribute i name value) := by
  refine keeps_modify d i ?_
  exact fun _ => ⟨rfl, rfl, rfl⟩

theorem keeps_removeAttribute (d : Document σ) (i : Nat) (name : String) :
    Keeps d (d.removeAttribute i name) := by
  refine keeps_modify d i ?_
  exact fun _ => ⟨rfl, rfl, rfl⟩

theorem keeps_addClass (d : Document σ) (i : Nat) (cls : String) : Keeps d (d.addClass i cls) := by
  unfold addClass
  split
  · exact Keeps.refl d
  · exact keeps_setAttribute _ _ _ _

theorem keeps_setValue (d : Document σ) (i : Nat) (v : String) : Keeps d (d.setValue i v) :=
  rel_setValue Keeps.refl Keeps.trans (fun e => keeps_setAttribute e _ _ _)
    (fun e o => keeps_setAttribute e o _ _) (fun e o => keeps_removeAttribute e o _) d

/-! ## Keeping children -/

/-- Every node of `d` but `x` has the same children in `d'`. -/
def ChildrenKept (d d' : Document σ) (x : Nat) : Prop :=
  ∀ i < d.nodes.size, i ≠ x → (d'.node i).children = (d.node i).children

theorem ChildrenKept.refl (d : Document σ) (x : Nat) : ChildrenKept d d x := fun _ _ _ => rfl

/-- A change that keeps the children of the changed node keeps the children of all. -/
theorem ChildrenKept.modify {d₀ d : Document σ} {x : Nat} (hc : ChildrenKept d₀ d x)
    (j : Nat) {f : Node σ → Node σ} (hf : ∀ n, (f n).children = n.children) :
    ChildrenKept d₀ (d.modify j f) x := by
  intro i hi hix
  rw [node_modify]
  split
  · rw [hf, hc i hi hix]
  · exact hc i hi hix

/-- A change of `x` itself, or of a node `d₀` does not have, is free. -/
theorem ChildrenKept.modify_free {d₀ d : Document σ} {x : Nat} (hc : ChildrenKept d₀ d x)
    {j : Nat} (hj : j = x ∨ d₀.nodes.size ≤ j) (f : Node σ → Node σ) :
    ChildrenKept d₀ (d.modify j f) x := by
  intro i hi hix
  have hji : j ≠ i := by
    rintro rfl
    rcases hj with rfl | hj
    · exact hix rfl
    · exact Nat.lt_irrefl _ (Nat.lt_of_lt_of_le hi hj)
  rw [node_modify_of_ne _ _ hji]
  exact hc i hi hix

theorem ChildrenKept.alloc {d₀ d : Document σ} {x : Nat} (hc : ChildrenKept d₀ d x)
    (hk : Keeps d₀ d) (n : Node σ) : ChildrenKept d₀ (d.alloc n).2 x := by
  intro i hi hix
  rw [node_alloc, if_neg (Nat.ne_of_lt (Nat.lt_of_lt_of_le hi hk.size_le))]
  exact hc i hi hix

/-! ## Grown documents -/

/-- A document grown by attaching fresh nodes: each child is newer than its parent, each child
exists, and each child names the node that lists it. -/
structure Grown (d : Document σ) : Prop where
  newer : ∀ i c, c ∈ (d.node i).children → i < c
  bounded : ∀ i c, c ∈ (d.node i).children → c < d.nodes.size
  linked : ∀ i c, c ∈ (d.node i).children → (d.node c).parent = some i

/-- A node whose parent is unknown is nobody's child. -/
theorem Grown.not_mem_of_orphan {d : Document σ} (hg : Grown d) {c : Nat}
    (hc : (d.node c).parent = none) (i : Nat) : c ∉ (d.node i).children := by
  intro h
  rw [hg.linked i c h] at hc
  cases hc

/-- A change that keeps every node's children and parent keeps the document grown. -/
theorem Grown.modify {d : Document σ} (hg : Grown d) (j : Nat) {f : Node σ → Node σ}
    (hf : ∀ n, (f n).children = n.children ∧ (f n).parent = n.parent) : Grown (d.modify j f) where
  newer i c hc := by
    rw [node_modify] at hc
    split at hc
    · rw [(hf _).1] at hc; exact hg.newer i c hc
    · exact hg.newer i c hc
  bounded i c hc := by
    rw [node_modify] at hc
    rw [size_modify]
    split at hc
    · rw [(hf _).1] at hc; exact hg.bounded i c hc
    · exact hg.bounded i c hc
  linked i c hc := by
    have hc' : c ∈ (d.node i).children := by
      rw [node_modify] at hc
      split at hc
      · rwa [(hf _).1] at hc
      · exact hc
    rw [node_modify]
    split
    · rw [(hf _).2]; exact hg.linked i c hc'
    · exact hg.linked i c hc'

theorem Grown.alloc {d : Document σ} (hg : Grown d) {n : Node σ} (hn : n.children = []) :
    Grown (d.alloc n).2 := by
  have old : ∀ i c, c ∈ ((d.alloc n).2.node i).children → c ∈ (d.node i).children := by
    intro i c hc
    rw [node_alloc] at hc
    split at hc
    · rw [hn] at hc; cases hc
    · exact hc
  refine ⟨fun i c hc => hg.newer i c (old i c hc), fun i c hc => ?_, fun i c hc => ?_⟩
  · rw [size_alloc]
    exact Nat.lt_succ_of_lt (hg.bounded i c (old i c hc))
  · rw [node_alloc, if_neg (Nat.ne_of_lt (hg.bounded i c (old i c hc)))]
    exact hg.linked i c (old i c hc)

/-! ## Attaching and detaching -/

/-- Appending a node that has no parent skips the detaching. -/
theorem append_of_orphan {d : Document σ} {c : Nat} (h : (d.node c).parent = none) (p : Nat) :
    d.append p c = (d.modify p fun n => { n with children := n.children ++ [c] }).modify c
      fun n => { n with parent := some p } := by
  simp [append, detach, h]

theorem Grown.append_orphan {d : Document σ} (hg : Grown d) {p c : Nat}
    (hc : (d.node c).parent = none) (hpc : p < c) (hcs : c < d.nodes.size) :
    Grown (d.append p c) := by
  rw [append_of_orphan hc]
  have hch : ∀ i k, k ∈ (((d.modify p fun n => { n with children := n.children ++ [c] }).modify c
      fun n => { n with parent := some p }).node i).children →
      k ∈ (d.node i).children ∨ (i = p ∧ k = c) := by
    intro i k hk
    rw [node_modify] at hk
    have hk' :
        k ∈ ((d.modify p fun n => { n with children := n.children ++ [c] }).node i).children := by
      split at hk <;> exact hk
    rw [node_modify] at hk'
    split at hk'
    · next h =>
      rcases List.mem_append.mp hk' with hk' | hk'
      · exact .inl hk'
      · exact .inr ⟨h.1.symm, List.mem_singleton.mp hk'⟩
    · exact .inl hk'
  refine ⟨fun i k hk => ?_, fun i k hk => ?_, fun i k hk => ?_⟩
  · rcases hch i k hk with hk | ⟨rfl, rfl⟩
    · exact hg.newer i k hk
    · exact hpc
  · simp only [size_modify]
    rcases hch i k hk with hk | ⟨rfl, rfl⟩
    · exact hg.bounded i k hk
    · exact hcs
  · rcases hch i k hk with hk | ⟨rfl, rfl⟩
    · have hkc : c ≠ k := by
        rintro rfl
        exact hg.not_mem_of_orphan hc i hk
      rw [node_modify_of_ne _ _ hkc, node_modify]
      split <;> exact hg.linked i k hk
    · rw [node_modify_self _ _ (by simpa using hcs)]

theorem Grown.detach {d : Document σ} (hg : Grown d) (c : Nat) : Grown (d.detach c).2 := by
  unfold Document.detach
  split
  · exact hg
  · next q hq =>
    have hch : ∀ i k, k ∈ (((d.modify q fun n => { n with children := n.children.filter (· != c) }).modify
        c fun n => { n with parent := none }).node i).children → k ∈ (d.node i).children ∧ k ≠ c := by
      intro i k hk
      rw [node_modify] at hk
      have hk' : k ∈ ((d.modify q fun n => { n with children := n.children.filter (· != c) }).node
          i).children := by
        split at hk <;> exact hk
      rw [node_modify] at hk'
      split at hk'
      · next h =>
        have := List.mem_filter.mp hk'
        exact ⟨this.1, by simpa using this.2⟩
      · next h =>
        refine ⟨hk', fun hkc => ?_⟩
        subst hkc
        rw [hg.linked i k hk'] at hq
        exact h ⟨(Option.some.inj hq).symm, by
          have := hg.bounded i k hk'
          exact Nat.lt_of_le_of_lt (Nat.le_of_lt (hg.newer i k hk')) this⟩
    refine ⟨fun i k hk => hg.newer i k (hch i k hk).1, fun i k hk => ?_, fun i k hk => ?_⟩
    · simpa using hg.bounded i k (hch i k hk).1
    · obtain ⟨hk, hkc⟩ := hch i k hk
      rw [node_modify_of_ne _ _ (Ne.symm hkc), node_modify]
      split <;> exact hg.linked i k hk

theorem parent_detach_self (d : Document σ) (c : Nat) : ((d.detach c).2.node c).parent = none := by
  unfold Document.detach
  split
  · assumption
  · next q hq =>
    by_cases hc : c < d.nodes.size
    · rw [node_modify_self _ _ (by simpa using hc)]
    · rw [node_of_size_le (by simpa using hc)] at hq
      cases hq

/-- Appending detaches the node first, so it may as well have been detached before. -/
theorem append_eq_detach (d : Document σ) (p c : Nat) : d.append p c = (d.detach c).2.append p c := by
  conv => rhs; rw [append_of_orphan (parent_detach_self d c)]
  rfl

/-- Orphaning the nodes of a list leaves every node's children and changes only their parents. -/
theorem node_foldl_orphan (kids : List Nat) (d : Document σ) (j : Nat) :
    (kids.foldl (fun d k => d.modify k fun n => { n with parent := none }) d).node j =
      if j ∈ kids then { d.node j with parent := none } else d.node j := by
  induction kids generalizing d with
  | nil => simp
  | cons k kids ih =>
    rw [List.foldl_cons, ih, node_modify]
    by_cases hjk : j = k
    · subst hjk
      by_cases hj : j < d.nodes.size
      · simp [hj]
      · rw [node_of_size_le (Nat.le_of_not_lt hj)]
        simp only [hj, and_false, if_false, List.mem_cons, true_or, if_true]
        split <;> rfl
    · simp [hjk, Ne.symm hjk]

theorem children_clearChildren (d : Document σ) (x i : Nat) :
    ((d.clearChildren x).node i).children = if i = x then [] else (d.node i).children := by
  simp only [clearChildren, node_foldl_orphan]
  rw [node_modify]
  by_cases hix : i = x
  · subst hix
    by_cases hi : i < d.nodes.size
    · split <;> simp [hi]
    · split <;> simp [hi, node_of_size_le (Nat.le_of_not_lt hi)] <;> rfl
  · split <;> simp [Ne.symm hix]

@[simp] theorem size_clearChildren (d : Document σ) (x : Nat) :
    (d.clearChildren x).nodes.size = d.nodes.size := by
  have fold : ∀ (kids : List Nat) (d : Document σ),
      (kids.foldl (fun d k => d.modify k fun n => { n with parent := none }) d).nodes.size =
        d.nodes.size := by
    intro kids
    induction kids with
    | nil => intro d; rfl
    | cons k kids ih => intro d; rw [List.foldl_cons, ih, size_modify]
  simp only [clearChildren, fold, size_modify]

theorem parent_clearChildren (d : Document σ) (x k : Nat) :
    ((d.clearChildren x).node k).parent =
      if k ∈ (d.node x).children then none else (d.node k).parent := by
  simp only [clearChildren, node_foldl_orphan]
  split
  · rfl
  · rw [node_modify]
    split <;> rfl

theorem Grown.clearChildren {d : Document σ} (hg : Grown d) (x : Nat) :
    Grown (d.clearChildren x) := by
  have hch : ∀ i k, k ∈ ((d.clearChildren x).node i).children → k ∈ (d.node i).children ∧ i ≠ x := by
    intro i k hk
    rw [children_clearChildren] at hk
    split at hk
    · cases hk
    · next h => exact ⟨hk, h⟩
  refine ⟨fun i k hk => hg.newer i k (hch i k hk).1, fun i k hk => ?_, fun i k hk => ?_⟩
  · rw [size_clearChildren]
    exact hg.bounded i k (hch i k hk).1
  · obtain ⟨hk, hix⟩ := hch i k hk
    rw [parent_clearChildren, if_neg]
    · exact hg.linked i k hk
    · intro hkx
      have h := hg.linked x k hkx
      rw [hg.linked i k hk] at h
      exact hix (Option.some.inj h)

/-! ## Hanging fresh nodes -/

/-- A childless node without a parent, added and appended below `p`. -/
def sprout (d : Document σ) (n : Node σ) (p : Nat) : Document σ :=
  (d.alloc n).2.append p d.nodes.size

/-- A node fit to be hung: no children, no parent, no listeners. -/
def Bare (n : Node σ) : Prop := n.children = [] ∧ n.parent = none ∧ n.listeners = []

@[simp] theorem size_detach (d : Document σ) (c : Nat) : (d.detach c).2.nodes.size = d.nodes.size := by
  unfold Document.detach
  split <;> simp

@[simp] theorem size_append (d : Document σ) (p c : Nat) :
    (d.append p c).nodes.size = d.nodes.size := by
  simp [Document.append]

@[simp] theorem size_sprout (d : Document σ) (n : Node σ) (p : Nat) :
    (d.sprout n p).nodes.size = d.nodes.size + 1 := by
  simp [Document.sprout]

theorem Grown.append {d : Document σ} (hg : Grown d) {p c : Nat} (hpc : p < c)
    (hcs : c < d.nodes.size) : Grown (d.append p c) := by
  rw [append_eq_detach]
  exact (hg.detach c).append_orphan (parent_detach_self d c) hpc (by simpa using hcs)

theorem keeps_sprout (d : Document σ) {n : Node σ} (hn : Bare n) (p : Nat) :
    Keeps d (d.sprout n p) :=
  (keeps_alloc d hn.2.2).trans (keeps_append _ _ _)

theorem orphan_alloc (d : Document σ) {n : Node σ} (hn : Bare n) :
    ((d.alloc n).2.node d.nodes.size).parent = none := by
  rw [node_alloc, if_pos rfl]
  exact hn.2.1

theorem Grown.sprout {d : Document σ} (hg : Grown d) {n : Node σ} (hn : Bare n) {p : Nat}
    (hp : p < d.nodes.size) : Grown (d.sprout n p) :=
  (hg.alloc hn.1).append_orphan (orphan_alloc d hn) hp (by simp)

theorem ChildrenKept.sprout {d₀ d : Document σ} {x : Nat} (hc : ChildrenKept d₀ d x)
    (hk : Keeps d₀ d) {n : Node σ} (hn : Bare n) {p : Nat} (hp : p = x ∨ d₀.nodes.size ≤ p) :
    ChildrenKept d₀ (d.sprout n p) x := by
  unfold Document.sprout
  rw [append_of_orphan (orphan_alloc d hn)]
  exact ((hc.alloc hk n).modify_free hp _).modify _ fun _ => rfl

theorem sprout_node_self (d : Document σ) {n : Node σ} (hn : Bare n) {p : Nat}
    (hp : p < d.nodes.size) : (d.sprout n p).node d.nodes.size = { n with parent := some p } := by
  unfold Document.sprout
  rw [append_of_orphan (orphan_alloc d hn), node_modify_self _ _ (by simp),
    node_modify_of_ne _ _ (Nat.ne_of_lt hp), node_alloc, if_pos rfl]

theorem sprout_children_parent (d : Document σ) {n : Node σ} (hn : Bare n) {p : Nat}
    (hp : p < d.nodes.size) :
    ((d.sprout n p).node p).children = (d.node p).children ++ [d.nodes.size] := by
  unfold Document.sprout
  rw [append_of_orphan (orphan_alloc d hn), node_modify_of_ne _ _ (Nat.ne_of_gt hp),
    node_modify_self _ _ (by simp; omega), node_alloc, if_neg (Nat.ne_of_lt hp)]

/-! ## Writing a text -/

theorem setText_eq (d : Document σ) (x : Nat) (text : String) :
    d.setText x text = if text.isEmpty then d.clearChildren x
      else (d.clearChildren x).sprout { Node.blank textTag with text := text } x := by
  simp only [setText, createText, alloc, sprout]

theorem ChildrenKept.clearChildren {d₀ d : Document σ} {x : Nat} (hc : ChildrenKept d₀ d x) :
    ChildrenKept d₀ (d.clearChildren x) x := by
  intro i hi hix
  rw [children_clearChildren, if_neg hix]
  exact hc i hi hix

theorem Grown.setText {d : Document σ} (hg : Grown d) {x : Nat} (hx : x < d.nodes.size)
    (text : String) : Grown (d.setText x text) := by
  rw [setText_eq]
  split
  · exact hg.clearChildren x
  · exact (hg.clearChildren x).sprout ⟨rfl, rfl, rfl⟩ (by simpa using hx)

theorem ChildrenKept.setText {d₀ d : Document σ} {x : Nat} (hc : ChildrenKept d₀ d x)
    (hk : Keeps d₀ d) (text : String) : ChildrenKept d₀ (d.setText x text) x := by
  rw [setText_eq]
  split
  · exact hc.clearChildren
  · exact hc.clearChildren.sprout (hk.trans (keeps_clearChildren d x)) ⟨rfl, rfl, rfl⟩ (.inl rfl)

/-- Writing the text of a node `d₀` does not have is free. -/
theorem ChildrenKept.setText_new {d₀ d : Document σ} {x m : Nat} (hc : ChildrenKept d₀ d x)
    (hk : Keeps d₀ d) (hm : d₀.nodes.size ≤ m) (text : String) :
    ChildrenKept d₀ (d.setText m text) x := by
  have hcl : ChildrenKept d₀ (d.clearChildren m) x := by
    intro i hi hix
    rw [children_clearChildren, if_neg (Nat.ne_of_lt (Nat.lt_of_lt_of_le hi hm))]
    exact hc i hi hix
  rw [setText_eq]
  split
  · exact hcl
  · exact hcl.sprout (hk.trans (keeps_clearChildren d m)) ⟨rfl, rfl, rfl⟩ (.inr hm)

/-- Writing the text of a node without a parent leaves it without one. -/
theorem parent_setText_self {d : Document σ} {x : Nat} (hx : (d.node x).parent = none)
    (hxs : x < d.nodes.size) (text : String) : ((d.setText x text).node x).parent = none := by
  have hcl : ((d.clearChildren x).node x).parent = none := by
    rw [parent_clearChildren]
    split
    · rfl
    · exact hx
  rw [setText_eq]
  split
  · exact hcl
  · unfold Document.sprout
    rw [append_of_orphan (orphan_alloc _ ⟨rfl, rfl, rfl⟩),
      node_modify_of_ne _ _ (Nat.ne_of_gt (by simpa using hxs)), node_modify]
    split
    · rw [node_alloc, if_neg (Nat.ne_of_lt (by simpa using hxs))]
      exact hcl
    · rw [node_alloc, if_neg (Nat.ne_of_lt (by simpa using hxs))]
      exact hcl

/-! ## The tag an opening reads -/

/-- What a scan of a tag has taken so far starts what it answers. -/
theorem scanTag_prefix : ∀ (q : Option Char) (acc l inside after : List Char),
    scanTag q acc l = some (inside, after) → acc.reverse <+: inside
  | _, _, [], _, _, h => by simp [scanTag] at h
  | q, acc, c :: rest, inside, after, h => by
    have step : ∀ q', scanTag q' (c :: acc) rest = some (inside, after) → acc.reverse <+: inside :=
      fun q' h' => (List.prefix_append acc.reverse [c]).trans
        (by simpa using scanTag_prefix q' (c :: acc) rest inside after h')
    cases q with
    | some q' => exact step _ h
    | none =>
      simp only [scanTag] at h
      split at h
      · exact step _ h
      · split at h
        · obtain ⟨rfl, -⟩ := Prod.mk.inj (Option.some.inj h)
          exact List.prefix_refl _
        · exact step _ h

/-- The inside of a tag starts with the letter after `<`. -/
theorem scanTag_head {c : Char} {tl inside after : List Char} (hc : isAsciiLetter c = true)
    (h : scanTag none [] (c :: tl) = some (inside, after)) : inside.head? = some c := by
  have hq : c ≠ '"' ∧ c ≠ '\'' ∧ c ≠ '>' := by
    refine ⟨?_, ?_, ?_⟩ <;> (rintro rfl; revert hc; decide)
  simp only [scanTag, hq.1, hq.2.1, hq.2.2, decide_false, Bool.or_self, Bool.false_eq_true,
    ↓reduceIte] at h
  obtain ⟨t, rfl⟩ := scanTag_prefix _ _ _ _ _ h
  rfl

/-- Dropping from the end keeps the first character, when the drop cannot take it. -/
theorem head?_rdropWhile {p : Char → Bool} {l : List Char} {c : Char} (h : l.head? = some c)
    (hc : p c = false) : (l.rdropWhile p).head? = some c := by
  have hne : l.rdropWhile p ≠ [] := fun he => by
    rw [List.rdropWhile_eq_nil_iff] at he
    rw [he c (List.mem_of_head? h)] at hc
    cases hc
  obtain ⟨t, ht⟩ := List.rdropWhile_prefix p l
  rw [← ht, List.head?_append_of_ne_nil _ hne] at h
  exact h

theorem head?_trim {s : String} {c : Char} (h : s.toList.head? = some c)
    (hc : Text.isBlank c = false) : (Text.trim s).toList.head? = some c := by
  obtain ⟨l, hl⟩ : ∃ l, s.toList = c :: l := ⟨s.toList.tail, by
    cases hs : s.toList with
    | nil => rw [hs] at h; cases h
    | cons x l => rw [hs] at h; obtain rfl := Option.some.inj h; rfl⟩
  have hstart : Text.dropBlank s.toList = c :: l := by
    rw [hl, Text.dropBlank, List.dropWhile_cons_of_neg (by simp [hc])]
  simp only [Text.trim, Text.trimEnd, Text.trimStart, String.toList_ofList, hstart]
  exact head?_rdropWhile rfl hc

theorem head?_stripSlashes {s : String} {c : Char} (h : s.toList.head? = some c) (hc : c ≠ '/') :
    (stripSlashes s).toList.head? = some c := by
  rw [stripSlashes, String.toList_ofList]
  exact head?_rdropWhile h (by simpa using hc)

/-- The name of a tag is the lowercased run of non-blank characters it starts with. -/
theorem head?_parseTag {s : String} {c : Char} (h : s.toList.head? = some c)
    (hc : Text.isBlank c = false) : (parseTag s).1.toList.head? = some c.toLower := by
  obtain ⟨l, hl⟩ : ∃ l, (Text.trim s).toList = c :: l := by
    have ht := head?_trim h hc
    cases hs : (Text.trim s).toList with
    | nil => rw [hs] at ht; cases ht
    | cons x l => rw [hs] at ht; obtain rfl := Option.some.inj ht; exact ⟨l, rfl⟩
  simp only [parseTag]
  change (String.map Char.toLower _).toList.head? = _
  rw [String.toList_map, String.toList_ofList, hl,
    List.takeWhile_cons_of_pos (by simp [hc])]
  rfl

/-- Lowercasing leaves a character as it is or gives a lowercase ASCII letter. -/
theorem toLower_eq_self_or_lower (c : Char) :
    c.toLower = c ∨ 97 ≤ c.toLower.val.toNat ∧ c.toLower.val.toNat ≤ 122 := by
  unfold Char.toLower
  split
  · rename_i hr
    obtain ⟨h1, h2⟩ := hr
    simp only [ge_iff_le, UInt32.le_iff_toNat_le] at h1 h2
    simp only [UInt32.toNat_add]
    simp at h1 h2 ⊢
    omega
  · exact .inl rfl

theorem toLower_ne_hash {c : Char} (hc : isAsciiLetter c = true) : c.toLower ≠ '#' := by
  intro h
  rcases toLower_eq_self_or_lower c with hs | hr
  · rw [hs] at h
    subst h
    revert hc
    decide
  · rw [h] at hr
    exact absurd hr (by decide)

/-- An element read from an opening tag is no text node: its tag starts with a letter. -/
theorem opened_tag_ne_text {c : Char} {tl inside after : List Char} {tag : String}
    {attrs : List (String × String)} (hc : isAsciiLetter c = true)
    (hscan : scanTag none [] (c :: tl) = some (inside, after))
    (hparse : parseTag (stripSlashes (Text.trim (String.ofList inside))) = (tag, attrs)) :
    (tag == textTag) = false := by
  have hletter : c ≠ '/' ∧ Text.isBlank c = false := by
    refine ⟨?_, ?_⟩
    · rintro rfl; revert hc; decide
    · cases hb : Text.isBlank c
      · rfl
      · -- blanks are no letters
        have hn : c.toNat < 0x41 ∨ (0x5A < c.toNat ∧ c.toNat < 0x61) ∨ 0x7A < c.toNat := by
          simp only [Text.isBlank, Bool.or_eq_true, Bool.and_eq_true, decide_eq_true_eq,
            beq_iff_eq] at hb
          omega
        simp only [isAsciiLetter, Bool.or_eq_true, Bool.and_eq_true, decide_eq_true_eq,
          Char.le_def] at hc
        simp only [Char.toNat] at hn
        have : ('a' : Char).val.toNat = 97 := rfl
        have : ('z' : Char).val.toNat = 122 := rfl
        have : ('A' : Char).val.toNat = 65 := rfl
        have : ('Z' : Char).val.toNat = 90 := rfl
        simp only [UInt32.le_iff_toNat_le] at hc
        omega
  have hhead := head?_parseTag
    (head?_stripSlashes (head?_trim (by rw [String.toList_ofList]; exact scanTag_head hc hscan)
      hletter.2) hletter.1) hletter.2
  rw [hparse] at hhead
  cases htag : tag == textTag
  · rfl
  · rw [beq_iff_eq.mp htag] at hhead
    simp only [textTag, String.reduceToList, List.head?_cons, Option.some.injEq] at hhead
    exact absurd hhead.symm (toLower_ne_hash hc)

/-! ## Reading markup, step by step -/

/-- **Reading markup, step by step.** A property of the open elements and the document that
closing elements, hanging a new node below the innermost open element, and opening a new element
there all keep, holds of the document the whole read leaves, for some stack of open elements.
The elements opened are never text nodes: their tags start with a letter. -/
theorem readInto_induction {motive : List Nat → Document σ → Prop}
    (close : ∀ opened d tag, motive opened d → motive (d.closeOpen tag opened) d)
    (sprout : ∀ opened d (n : Node σ), Bare n → motive opened d →
      motive opened (d.sprout n (opened.headD body)))
    (push : ∀ opened d (n : Node σ), Bare n → n.isText = false → motive opened d →
      motive (d.nodes.size :: opened) (d.sprout n (opened.headD body)))
    (opened : List Nat) (rest : List Char) {d : Document σ} (h : motive opened d) :
    ∃ o, motive o (d.readInto opened rest) := by
  revert h
  fun_induction Document.readInto opened rest d with
  | case1 opened d => exact fun h => ⟨opened, h⟩
  | case2 opened d after tag _ ih => exact fun h => ih (close _ _ tag h)
  | case3 opened d after _ ih => exact ih
  | case4 opened d current c tl _ _ inside after hscan _ inner tag attrs hparse t d₁ halloc d₂ _
      bodyEnd d₃ _ ih =>
    intro h
    obtain rfl : t = d.nodes.size := (congrArg Prod.fst halloc).symm
    obtain rfl : d₁ = (d.alloc _).2 := (congrArg Prod.snd halloc).symm
    split at hscan
    · next hc =>
      -- a raw-text element is opened, and its text, if any, hangs below it
      have h₂ : motive (d.nodes.size :: opened) d₂ :=
        push _ _ _ ⟨rfl, rfl, rfl⟩ (opened_tag_ne_text hc hscan hparse) h
      apply ih
      simp only [d₃]
      split
      · exact h₂
      · exact sprout _ _ _ ⟨rfl, rfl, rfl⟩ h₂
    · cases hscan
  | case5 opened d current c tl _ _ inside after hscan _ inner selfClosing tag attrs hparse t d₁
      halloc d₂ _ _ ih =>
    intro h
    obtain rfl : t = d.nodes.size := (congrArg Prod.fst halloc).symm
    obtain rfl : d₁ = (d.alloc _).2 := (congrArg Prod.snd halloc).symm
    split at hscan
    · next hc => exact ih (push _ _ _ ⟨rfl, rfl, rfl⟩ (opened_tag_ne_text hc hscan hparse) h)
    · cases hscan
  | case6 opened d current c tl _ _ inside after _ _ inner selfClosing tag attrs _ t d₁ halloc d₂
      _ _ ih =>
    intro h
    obtain rfl : t = d.nodes.size := (congrArg Prod.fst halloc).symm
    obtain rfl : d₁ = (d.alloc _).2 := (congrArg Prod.snd halloc).symm
    exact ih (sprout _ _ _ ⟨rfl, rfl, rfl⟩ h)
  | case7 opened d current c tl _ _ _ _ t d₁ hcreate ih =>
    intro h
    obtain rfl : t = d.nodes.size := (congrArg Prod.fst hcreate).symm
    obtain rfl : d₁ = (d.createText _).2 := (congrArg Prod.snd hcreate).symm
    exact ih (sprout _ _ _ ⟨rfl, rfl, rfl⟩ h)
  | case8 opened d current c tl _ _ _ _ t d₁ hcreate ih =>
    intro h
    obtain rfl : t = d.nodes.size := (congrArg Prod.fst hcreate).symm
    obtain rfl : d₁ = (d.createText _).2 := (congrArg Prod.snd hcreate).symm
    exact ih (sprout _ _ _ ⟨rfl, rfl, rfl⟩ h)

/-! ## Reading markup into a node -/

theorem closeOpen_sub (d : Document σ) (tag : String) (opened : List Nat) :
    ∀ o ∈ d.closeOpen tag opened, o ∈ opened := by
  intro o ho
  unfold closeOpen at ho
  split at ho
  · split at ho
    · exact List.mem_of_mem_drop ho
    · exact ho
  · exact ho

theorem closeOpen_ne_nil (d : Document σ) (tag : String) {opened : List Nat} (h : opened ≠ []) :
    d.closeOpen tag opened ≠ [] := by
  unfold closeOpen
  split
  · split
    · next k _ hk =>
      intro hnil
      have := congrArg List.length hnil
      simp only [List.length_drop, List.length_nil] at this
      omega
    · exact h
  · exact h

/-- While markup is read into `x`: the document keeps the nodes of `d₀`, changes the children of
no node of `d₀` but `x`, is grown, and its open elements are `x` or fresh. -/
structure Filling (d₀ : Document σ) (x : Nat) (opened : List Nat) (d : Document σ) : Prop where
  keeps : Keeps d₀ d
  kept : ChildrenKept d₀ d x
  grown : Grown d
  nonempty : opened ≠ []
  opens : ∀ o ∈ opened, (o = x ∨ d₀.nodes.size ≤ o) ∧ o < d.nodes.size

namespace Filling

variable {d₀ d : Document σ} {x : Nat} {opened : List Nat}

theorem current (hf : Filling d₀ x opened d) :
    (opened.headD body = x ∨ d₀.nodes.size ≤ opened.headD body) ∧
      opened.headD body < d.nodes.size := by
  obtain ⟨o, os, rfl⟩ := List.exists_cons_of_ne_nil hf.nonempty
  exact hf.opens o (List.mem_cons_self ..)

theorem sprout (hf : Filling d₀ x opened d) {n : Node σ} (hn : Bare n) {p : Nat}
    (hp : p = x ∨ d₀.nodes.size ≤ p) (hps : p < d.nodes.size) :
    Filling d₀ x opened (d.sprout n p) where
  keeps := hf.keeps.trans (keeps_sprout d hn p)
  kept := hf.kept.sprout hf.keeps hn hp
  grown := hf.grown.sprout hn hps
  nonempty := hf.nonempty
  opens o ho := ⟨(hf.opens o ho).1, by simpa using Nat.lt_succ_of_lt (hf.opens o ho).2⟩

theorem push (hf : Filling d₀ x opened d) {t : Nat} (ht : d₀.nodes.size ≤ t)
    (hts : t < d.nodes.size) : Filling d₀ x (t :: opened) d where
  keeps := hf.keeps
  kept := hf.kept
  grown := hf.grown
  nonempty := List.cons_ne_nil _ _
  opens o ho := by
    rcases List.mem_cons.mp ho with rfl | ho
    · exact ⟨.inr ht, hts⟩
    · exact hf.opens o ho

theorem close (hf : Filling d₀ x opened d) (tag : String) :
    Filling d₀ x (d.closeOpen tag opened) d where
  keeps := hf.keeps
  kept := hf.kept
  grown := hf.grown
  nonempty := closeOpen_ne_nil d tag hf.nonempty
  opens o ho := hf.opens o (closeOpen_sub d tag opened o ho)

/-- **Reading markup into `x`** keeps the nodes of the document, changes the children of no old
node but `x`, and keeps the document grown. -/
theorem readInto (hf : Filling d₀ x opened d) (rest : List Char) :
    Keeps d₀ (d.readInto opened rest) ∧ ChildrenKept d₀ (d.readInto opened rest) x ∧
      Grown (d.readInto opened rest) := by
  -- a new element is opened at the next index, which is fresh
  obtain ⟨o, ho⟩ := readInto_induction (motive := fun o d => Filling d₀ x o d)
    (fun _ _ tag h => h.close tag) (fun _ _ _ hn h => h.sprout hn h.current.1 h.current.2)
    (fun _ _ _ hn _ h => (h.sprout hn h.current.1 h.current.2).push h.keeps.size_le (by simp))
    opened rest hf
  exact ⟨ho.keeps, ho.kept, ho.grown⟩

end Filling

theorem Filling.start {d : Document σ} (hg : Grown d) {x : Nat} (hx : x < d.nodes.size) :
    Filling d x [x] (d.clearChildren x) where
  keeps := keeps_clearChildren d x
  kept := (ChildrenKept.refl d x).clearChildren
  grown := hg.clearChildren x
  nonempty := List.cons_ne_nil _ _
  opens o ho := by
    rw [List.mem_singleton.mp ho]
    exact ⟨.inl rfl, by simpa using hx⟩

/-- **Setting the inside of `x`** keeps the nodes of the document, changes the children of no
node but `x`, and keeps the document grown. -/
theorem setInnerHtml_grows {d : Document σ} (hg : Grown d) {x : Nat} (hx : x < d.nodes.size)
    (html : String) :
    Keeps d (d.setInnerHtml x html) ∧ ChildrenKept d (d.setInnerHtml x html) x ∧
      Grown (d.setInnerHtml x html) :=
  (Filling.start hg hx).readInto html.toList

theorem children_empty (i : Nat) :
    ((empty : Document σ).node i).children = if i = 0 then [body] else [] := by
  match i with
  | 0 => rfl
  | 1 => rfl
  | n + 2 => rfl

theorem Grown.empty : Grown (empty : Document σ) := by
  have hc : ∀ i c, c ∈ ((Document.empty : Document σ).node i).children → i = 0 ∧ c = body := by
    intro i c h
    rw [children_empty] at h
    split at h
    · exact ⟨‹_›, List.mem_singleton.mp h⟩
    · cases h
  refine ⟨fun i c h => ?_, fun i c h => ?_, fun i c h => ?_⟩ <;>
    obtain ⟨rfl, rfl⟩ := hc i c h
  · exact Nat.zero_lt_one
  · exact Nat.lt_succ_self 1
  · rfl

theorem withBody_grows (html : String) :
    Keeps (empty : Document σ) (withBody html) ∧ Grown (withBody html : Document σ) :=
  have h := setInnerHtml_grows (Grown.empty : Grown (empty : Document σ))
    (Nat.lt_succ_self 1 : body < (empty : Document σ).nodes.size) html
  ⟨h.1, h.2.2⟩

/-! ## Subtrees -/

/-- `Below d a b`: `b` lies in the subtree of `a`, reached from `a` by going down children. -/
inductive Below (d : Document σ) (a : Nat) : Nat → Prop
  | refl : Below d a a
  | child {b c : Nat} : Below d a b → c ∈ (d.node b).children → Below d a c

theorem Below.lt_size {d : Document σ} (hg : Grown d) {a b : Nat} (ha : a < d.nodes.size)
    (h : Below d a b) : b < d.nodes.size := by
  induction h with
  | refl => exact ha
  | child _ hc _ => exact hg.bounded _ _ hc

/-- Going up from a node of `a`'s subtree, with enough steps, passes `a`. -/
theorem mem_path_up {d : Document σ} (hg : Grown d) {a b : Nat} (h : Below d a b) :
    ∀ fuel, b < fuel → a ∈ path.up d fuel b := by
  induction h with
  | refl =>
    intro fuel hf
    obtain ⟨f, rfl⟩ : ∃ f, fuel = f + 1 := ⟨fuel - 1, by omega⟩
    simp only [path.up]
    split <;> simp
  | @child b c _ hc ih =>
    intro fuel hf
    obtain ⟨f, rfl⟩ : ∃ f, fuel = f + 1 := ⟨fuel - 1, by omega⟩
    have hbc := hg.newer b c hc
    simp only [path.up, hg.linked b c hc]
    exact List.mem_cons_of_mem _ (ih f (by omega))

/-- In a grown document the ancestors of a node are the nodes whose subtree holds it. -/
theorem mem_path_of_below {d : Document σ} (hg : Grown d) {a b : Nat} (ha : a < d.nodes.size)
    (h : Below d a b) : a ∈ d.path b :=
  mem_path_up hg h _ (Nat.lt_succ_of_lt (h.lt_size hg ha))

/-- A node without children is alone in its subtree. -/
theorem Below.eq_of_childless {d : Document σ} {a b : Nat} (h : Below d a b)
    (ha : (d.node a).children = []) : b = a := by
  induction h with
  | refl => rfl
  | child _ hc ih =>
    rw [ih, ha] at hc
    cases hc

/-- A node is its own first ancestor. -/
theorem mem_path_self (d : Document σ) (n : Nat) : n ∈ d.path n := by
  simp only [path, path.up]
  split <;> simp

theorem attributes_clearChildren (d : Document σ) (x j : Nat) :
    ((d.clearChildren x).node j).attributes = (d.node j).attributes := by
  simp only [clearChildren, node_foldl_orphan]
  split <;> (rw [node_modify]; split <;> rfl)

/-! ## Text of a subtree -/

/-- A walk down a grown document that spends one unit of fuel per level reads the same from
every fuel that reaches past the last node, when a node past the last one reads alike under any
fuel and a node reads alike whenever its children do: a child is newer than its parent, so the
fuel left at a child still reaches past the last node. -/
theorem Grown.fuel_eq {β : Type} {d : Document σ} (hg : Grown d) (walk : Nat → Nat → β)
    (past : ∀ f f' j, d.nodes.size ≤ j → walk f j = walk f' j)
    (step : ∀ f f' j, (∀ c ∈ (d.node j).children, walk f c = walk f' c) →
      walk (f + 1) j = walk (f' + 1) j) :
    ∀ f f' j, d.nodes.size < j + f → d.nodes.size < j + f' → walk f j = walk f' j := by
  intro f
  induction f with
  | zero => intro f' j h _; exact past 0 f' j (by omega)
  | succ g ih =>
    intro f' j h h'
    cases f' with
    | zero => exact past _ 0 j (by omega)
    | succ g' =>
      refine step g g' j fun c hc => ih g' c ?_ ?_
      · have := hg.newer j c hc; omega
      · have := hg.newer j c hc; omega

/-- Walking down a grown document, any fuel that reaches past its last node gives the same
text. -/
theorem walk_fuel {d : Document σ} (hg : Grown d) :
    ∀ f f' j, d.nodes.size < j + f → d.nodes.size < j + f' →
      textContent.walk d f j = textContent.walk d f' j := by
  have past : ∀ f j, d.nodes.size ≤ j → textContent.walk d f j = "" := by
    intro f j hj
    cases f with
    | zero => rfl
    | succ f => simp [textContent.walk, node_of_size_le hj, default, Node.blank, Node.isText]
  refine hg.fuel_eq _ (fun f f' j hj => (past f j hj).trans (past f' j hj).symm) ?_
  intro f f' j hc
  simp only [textContent.walk]
  split
  · rfl
  · rw [List.map_congr_left hc]

/-- The text of a subtree is read from the tags, texts and children of its nodes only. -/
theorem walk_congr {d d' : Document σ} {w : Nat}
    (h : ∀ k, Below d w k → (d'.node k).tag = (d.node k).tag ∧ (d'.node k).text = (d.node k).text ∧
      (d'.node k).children = (d.node k).children) :
    ∀ f k, Below d w k → textContent.walk d' f k = textContent.walk d f k := by
  intro f
  induction f with
  | zero => intro k _; rfl
  | succ g ih =>
    intro k hk
    obtain ⟨htag, htext, hch⟩ := h k hk
    unfold textContent.walk Node.isText
    dsimp only
    rw [htag, htext, hch, List.map_congr_left fun c hc => ih c (hk.child hc)]

/-- **Frame of a text**: an edit that keeps the nodes and changes the children of one node only,
outside the subtree of `w`, leaves the text of `w` as it was. -/
theorem textContent_eq_of_kept {d d' : Document σ} (hg : Grown d) (hk : Keeps d d') {x w : Nat}
    (hc : ChildrenKept d d' x) (hw : w < d.nodes.size) (hx : ¬ Below d w x) :
    d'.textContent w = d.textContent w := by
  have same : ∀ k, Below d w k → (d'.node k).tag = (d.node k).tag ∧
      (d'.node k).text = (d.node k).text ∧ (d'.node k).children = (d.node k).children := by
    intro k hwk
    have hks := hwk.lt_size hg hw
    have hkx : k ≠ x := by rintro rfl; exact hx hwk
    exact ⟨hk.tag k hks, hk.text k hks, hc k hks hkx⟩
  calc d'.textContent w
      = textContent.walk d (d'.nodes.size + 1) w := walk_congr same _ w .refl
    _ = textContent.walk d (d.nodes.size + 1) w :=
        walk_fuel hg _ _ w (by have := hk.size_le; omega) (by omega)
    _ = d.textContent w := rfl

/-- **Writing a text**: an element whose text was just set shows exactly that text. -/
theorem textContent_setText {d : Document σ} {x : Nat} (hx : x < d.nodes.size)
    (hxt : (d.node x).isText = false) (text : String) : (d.setText x text).textContent x = text := by
  have hxt' : ((d.clearChildren x).node x).isText = false := by
    rw [Node.isText, (keeps_clearChildren d x).tag x hx]
    exact hxt
  rw [setText_eq]
  split
  · next hempty =>
    simp only [textContent, size_clearChildren, textContent.walk, hxt', children_clearChildren]
    simpa using (String.isEmpty_iff.mp hempty).symm
  · show ((d.clearChildren x).sprout ⟨textTag, [], text, [], none, [], []⟩ x).textContent x = text
    have hx₁ : x < (d.clearChildren x).nodes.size := by simpa using hx
    have hbare : Bare (⟨textTag, [], text, [], none, [], []⟩ : Node σ) := ⟨rfl, rfl, rfl⟩
    have hxt₂ : (((d.clearChildren x).sprout ⟨textTag, [], text, [], none, [], []⟩ x).node x).isText
        = false := by
      rw [Node.isText, (keeps_sprout _ hbare x).tag x hx₁]
      exact hxt'
    have hkids : (((d.clearChildren x).sprout ⟨textTag, [], text, [], none, [], []⟩ x).node x).children
        = [d.nodes.size] := by
      rw [sprout_children_parent _ hbare hx₁, children_clearChildren, if_pos rfl]
      simp
    have hnode : ((d.clearChildren x).sprout ⟨textTag, [], text, [], none, [], []⟩ x).node d.nodes.size
        = ⟨textTag, [], text, [], some x, [], []⟩ := by
      simpa using sprout_node_self _ hbare hx₁
    simp only [textContent, size_sprout, size_clearChildren, textContent.walk, hxt₂, hkids,
      List.map_cons, List.map_nil, Bool.false_eq_true, if_false]
    rw [hnode]
    simp [Node.isText]

/-! ## Edits that keep the shape -/

/-- `d'` has the nodes of `d`, each with the same children and parent. -/
structure SameShape (d d' : Document σ) : Prop where
  size : d'.nodes.size = d.nodes.size
  children : ∀ j, (d'.node j).children = (d.node j).children
  parent : ∀ j, (d'.node j).parent = (d.node j).parent

theorem SameShape.refl (d : Document σ) : SameShape d d := ⟨rfl, fun _ => rfl, fun _ => rfl⟩

theorem SameShape.trans {d₁ d₂ d₃ : Document σ} (h₁ : SameShape d₁ d₂) (h₂ : SameShape d₂ d₃) :
    SameShape d₁ d₃ :=
  ⟨h₂.size.trans h₁.size, fun j => (h₂.children j).trans (h₁.children j),
    fun j => (h₂.parent j).trans (h₁.parent j)⟩

theorem sameShape_modify (d : Document σ) (i : Nat) {f : Node σ → Node σ}
    (hf : ∀ n, (f n).children = n.children ∧ (f n).parent = n.parent) :
    SameShape d (d.modify i f) where
  size := size_modify d i f
  children j := by rw [node_modify]; split <;> simp [(hf _).1]
  parent j := by rw [node_modify]; split <;> simp [(hf _).2]

theorem sameShape_setAttribute (d : Document σ) (i : Nat) (name value : String) :
    SameShape d (d.setAttribute i name value) := by
  refine sameShape_modify d i ?_
  exact fun _ => ⟨rfl, rfl⟩

theorem sameShape_removeAttribute (d : Document σ) (i : Nat) (name : String) :
    SameShape d (d.removeAttribute i name) := by
  refine sameShape_modify d i ?_
  exact fun _ => ⟨rfl, rfl⟩

theorem sameShape_listen (d : Document σ) (i : Nat) (kind : EventKind) (l : σ) :
    SameShape d (d.listen i kind l) := by
  refine sameShape_modify d i ?_
  exact fun _ => ⟨rfl, rfl⟩

theorem sameShape_addClass (d : Document σ) (i : Nat) (cls : String) :
    SameShape d (d.addClass i cls) := by
  unfold addClass
  split
  · exact SameShape.refl d
  · exact sameShape_setAttribute _ _ _ _

theorem sameShape_setValue (d : Document σ) (i : Nat) (v : String) :
    SameShape d (d.setValue i v) :=
  rel_setValue SameShape.refl SameShape.trans (fun e => sameShape_setAttribute e _ _ _)
    (fun e o => sameShape_setAttribute e o _ _) (fun e o => sameShape_removeAttribute e o _) d

theorem SameShape.grown {d d' : Document σ} (h : SameShape d d') (hg : Grown d) : Grown d' where
  newer i c hc := hg.newer i c (h.children i ▸ hc)
  bounded i c hc := h.size ▸ hg.bounded i c (h.children i ▸ hc)
  linked i c hc := (h.parent c).trans (hg.linked i c (h.children i ▸ hc))

/-! ## Finding elements -/

/-- The nodes `descendants` lists exist and are elements. -/
theorem mem_descendants {d : Document σ} (hg : Grown d) {r i : Nat} (h : i ∈ d.descendants r) :
    i < d.nodes.size ∧ (d.node i).isText = false := by
  have walk : ∀ fuel work, (∀ j ∈ work, j < d.nodes.size) → i ∈ descendants.go d fuel work →
      i < d.nodes.size ∧ (d.node i).isText = false := by
    intro fuel
    induction fuel with
    | zero => intro work _ hi; simp [descendants.go] at hi
    | succ f ih =>
      intro work hwork hi
      match work, hwork, hi with
      | [], _, hi => simp [descendants.go] at hi
      | j :: rest, hwork, hi =>
        simp only [descendants.go] at hi
        split at hi
        · exact ih rest (fun k hk => hwork k (List.mem_cons_of_mem _ hk)) hi
        · next htext =>
          rcases List.mem_cons.mp hi with rfl | hi
          · exact ⟨hwork i (List.mem_cons_self ..), Bool.eq_false_iff.mpr htext⟩
          · refine ih _ (fun k hk => ?_) hi
            rcases List.mem_append.mp hk with hk | hk
            · exact hg.bounded j k hk
            · exact hwork k (List.mem_cons_of_mem _ hk)
  exact walk _ _ (fun k hk => hg.bounded r k hk) h

/-- The element found by an id exists, is an element, and carries that id. -/
theorem elementById_spec {d : Document σ} (hg : Grown d) {id : String} {w : Nat}
    (h : d.elementById id = some w) :
    w < d.nodes.size ∧ (d.node w).isText = false ∧ (d.node w).attribute? "id" = some id := by
  have hmem := List.mem_of_find?_eq_some h
  have hid := List.find?_some h
  exact ⟨(mem_descendants hg hmem).1, (mem_descendants hg hmem).2, by simpa using hid⟩

/-! ## Edits that readers by id and text do not see -/

/-- Two nodes agree on all that finding elements by id and reading texts looks at. -/
def Alike (n n' : Node σ) : Prop :=
  n'.tag = n.tag ∧ n'.text = n.text ∧ n'.attribute? "id" = n.attribute? "id" ∧
    n'.children = n.children ∧ n'.parent = n.parent

/-- `d'` has the nodes of `d`, each alike: an edit of listeners, or of attributes other than
the id. -/
structure Cosmetic (d d' : Document σ) : Prop where
  size : d'.nodes.size = d.nodes.size
  alike : ∀ j, Alike (d.node j) (d'.node j)

theorem Cosmetic.refl (d : Document σ) : Cosmetic d d :=
  ⟨rfl, fun _ => ⟨rfl, rfl, rfl, rfl, rfl⟩⟩

theorem Cosmetic.trans {d₁ d₂ d₃ : Document σ} (h₁ : Cosmetic d₁ d₂) (h₂ : Cosmetic d₂ d₃) :
    Cosmetic d₁ d₃ := by
  refine ⟨h₂.size.trans h₁.size, fun j => ?_⟩
  obtain ⟨a₁, b₁, c₁, e₁, f₁⟩ := h₁.alike j
  obtain ⟨a₂, b₂, c₂, e₂, f₂⟩ := h₂.alike j
  exact ⟨a₂.trans a₁, b₂.trans b₁, c₂.trans c₁, e₂.trans e₁, f₂.trans f₁⟩

theorem Cosmetic.sameShape {d d' : Document σ} (h : Cosmetic d d') : SameShape d d' :=
  ⟨h.size, fun j => (h.alike j).2.2.2.1, fun j => (h.alike j).2.2.2.2⟩

theorem cosmetic_modify (d : Document σ) (i : Nat) {f : Node σ → Node σ}
    (hf : ∀ n, Alike n (f n)) : Cosmetic d (d.modify i f) := by
  refine ⟨size_modify d i f, fun j => ?_⟩
  rw [node_modify]
  split
  · exact hf _
  · exact ⟨rfl, rfl, rfl, rfl, rfl⟩

/-- Setting an attribute other than `key` leaves the attribute `key` as it was. -/
theorem find_setEntry {kvs : List (String × String)} {name key : String} (value : String)
    (h : name ≠ key) :
    (setEntry kvs name value).find? (·.1 == key) = kvs.find? (·.1 == key) := by
  induction kvs with
  | nil => simp [setEntry, h]
  | cons kv rest ih =>
    obtain ⟨k, v⟩ := kv
    unfold setEntry
    by_cases hk : k = name
    · subst hk
      simp [h]
    · by_cases hkey : k = key
      · subst hkey
        simp [hk]
      · simp [hk, hkey, ih]

theorem alike_setAttribute (n : Node σ) {name : String} (value : String) (h : name ≠ "id") :
    Alike n (n.setAttribute name value) :=
  ⟨rfl, rfl, by simp only [Node.attribute?, Node.setAttribute, find_setEntry value h], rfl, rfl⟩

theorem alike_removeAttribute (n : Node σ) {name : String} (h : name ≠ "id") :
    Alike n (n.removeAttribute name) := by
  refine ⟨rfl, rfl, ?_, rfl, rfl⟩
  simp only [Node.attribute?, Node.removeAttribute, List.find?_filter]
  congr 1
  congr 1
  funext kv
  by_cases hk : kv.1 = "id"
  · simp [hk, Ne.symm h]
  · simp [hk]

theorem cosmetic_setAttribute (d : Document σ) (i : Nat) {name : String} (value : String)
    (h : name ≠ "id") : Cosmetic d (d.setAttribute i name value) :=
  cosmetic_modify d i fun n => alike_setAttribute n value h

theorem cosmetic_removeAttribute (d : Document σ) (i : Nat) {name : String} (h : name ≠ "id") :
    Cosmetic d (d.removeAttribute i name) :=
  cosmetic_modify d i fun n => alike_removeAttribute n h

theorem cosmetic_listen (d : Document σ) (i : Nat) (kind : EventKind) (l : σ) :
    Cosmetic d (d.listen i kind l) :=
  cosmetic_modify d i fun _ => ⟨rfl, rfl, rfl, rfl, rfl⟩

/-- Setting a control's value writes the `value` attribute, or the `selected` attributes of a
select's options. -/
theorem cosmetic_setValue (d : Document σ) (i : Nat) (v : String) :
    Cosmetic d (d.setValue i v) :=
  rel_setValue Cosmetic.refl Cosmetic.trans (fun e => cosmetic_setAttribute e _ _ (by decide))
    (fun e o => cosmetic_setAttribute e o _ (by decide))
    (fun e o => cosmetic_removeAttribute e o (by decide)) d

theorem Cosmetic.descendants {d d' : Document σ} (h : Cosmetic d d') (r : Nat) :
    d'.descendants r = d.descendants r := by
  have go : ∀ fuel work, descendants.go d' fuel work = descendants.go d fuel work := by
    intro fuel
    induction fuel with
    | zero => intro work; rfl
    | succ f ih =>
      intro work
      match work with
      | [] => rfl
      | j :: rest =>
        simp only [descendants.go, Node.isText, (h.alike j).1, (h.alike j).2.2.2.1, ih]
        rfl
  simp only [Document.descendants, (h.alike r).2.2.2.1, go, h.size]

theorem Cosmetic.elementById {d d' : Document σ} (h : Cosmetic d d') (id : String) :
    d'.elementById id = d.elementById id := by
  simp only [Document.elementById, h.descendants, (h.alike _).2.2.1]

theorem Cosmetic.textContent {d d' : Document σ} (h : Cosmetic d d') (w : Nat) :
    d'.textContent w = d.textContent w := by
  have := @walk_congr σ d d' w
    (fun k _ => ⟨(h.alike k).1, (h.alike k).2.1, (h.alike k).2.2.2.1⟩) (d.nodes.size + 1) w .refl
  simpa [Document.textContent, h.size] using this

/-! ## Listening changes nothing else -/

theorem node_listen_attributes (d : Document σ) (i j : Nat) (kind : EventKind) (l : σ) :
    ((d.listen i kind l).node j).attributes = (d.node j).attributes := by
  simp only [listen, node_modify]
  split <;> simp

theorem descendants_listen (d : Document σ) (i r : Nat) (kind : EventKind) (l : σ) :
    (d.listen i kind l).descendants r = d.descendants r :=
  (cosmetic_listen d i kind l).descendants r

theorem elementsByClassWithin_listen (d : Document σ) (i r : Nat) (kind : EventKind) (l : σ)
    (cls : String) :
    (d.listen i kind l).elementsByClassWithin r cls = d.elementsByClassWithin r cls := by
  simp only [elementsByClassWithin, descendants_listen, Node.hasClass, Node.attribute?,
    node_listen_attributes]

end PageEditor.Markup.Document
