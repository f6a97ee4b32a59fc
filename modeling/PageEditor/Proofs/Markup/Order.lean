import PageEditor.Proofs.Markup.Attached
/-!
# PageEditor.Proofs.Markup.Order

Document order, and the walk that lists the elements below a node in it.

Document order is pre-order: a node, then the subtree of each of its children in turn
(`treeOrder`). `descendants` does not recurse. It keeps a work list, takes its first node, skips
it when it is text, and otherwise lists it and puts its children in front of the rest. The work
list is the part of the traversal not yet visited, one subtree per node, so the walk lists those
subtrees one after the other (`Forest.go_eq_treeOrder`). In a forest the walk below a node is
therefore the node's subtree in document order, with the node and the text nodes left out
(`Forest.descendants_eq_treeOrder`).

Every search of the document reads that list: the element with an id is the first such element
below the root in document order, and the elements with a class and the controls of a form
come in document order, each once (`descendants_in_tree_order`).

That needs text nodes to be leaves. An element created with the tag `#text` is a text node, and
the walk skips it together with everything below it; an element appended below it hangs in the
body, yet no search finds it (`id_below_text_node_unfound`).
-/

namespace PageEditor.Markup.Document

variable {σ : Type} {d : Document σ}

/-! ## Document order -/

/-- The nodes of a subtree in document order: the node, then the subtree of each child in turn.
Like the other walks it is bounded by the number of nodes. -/
def treeOrder (d : Document σ) (j : Nat) : List Nat :=
  let rec visit : Nat → Nat → List Nat
    | 0, _ => []
    | fuel + 1, j => j :: (d.node j).children.flatMap (visit fuel)
  visit (d.nodes.size + 1) j

/-- Fuel past the size of a subtree gives one order. -/
theorem Forest.visit_fuel (hf : Forest d) : ∀ f f' j, (subtree d j).card < f →
    (subtree d j).card < f' → treeOrder.visit d f j = treeOrder.visit d f' j
  | 0, _, _, h, _ => absurd h (Nat.not_lt_zero _)
  | _ + 1, 0, _, _, h => absurd h (Nat.not_lt_zero _)
  | f + 1, f' + 1, j, h, h' => by
    have hkids : (d.node j).children.flatMap (treeOrder.visit d f) =
        (d.node j).children.flatMap (treeOrder.visit d f') := List.flatMap_congr fun c hc => by
      have hlt := hf.subtree_child_lt hc
      exact hf.visit_fuel f f' c (by omega) (by omega)
    simp only [treeOrder.visit, hkids]

/-- A node comes first in its subtree, then the subtrees of its children in turn. -/
theorem Forest.treeOrder_eq (hf : Forest d) (j : Nat) :
    d.treeOrder j = j :: (d.node j).children.flatMap d.treeOrder := by
  have hj := card_subtree_le d j
  have hkids : (d.node j).children.flatMap (treeOrder.visit d d.nodes.size) =
      (d.node j).children.flatMap d.treeOrder := List.flatMap_congr fun c hc => by
    have hlt := hf.subtree_child_lt hc
    exact hf.visit_fuel _ _ c (by omega) (by omega)
  rw [treeOrder, treeOrder.visit, hkids]

/-- A text node is a leaf: its subtree is itself. -/
theorem Forest.treeOrder_text (hf : Forest d) {i : Nat} (hi : (d.node i).isText = true) :
    d.treeOrder i = [i] := by
  rw [hf.treeOrder_eq, hf.leaves i hi]
  rfl

/-! ## The walk -/

/-- **The work list is what is left of the traversal.** From a work list of separate nodes, the
walk lists the subtrees of the nodes one after the other, each in document order, text left
out. -/
theorem Forest.go_eq_treeOrder (hf : Forest d) : ∀ f W, Separate d W → (pending d W).card < f →
    descendants.go d f W = (W.flatMap d.treeOrder).filter fun i => !(d.node i).isText
  | 0, _, _, h => absurd h (Nat.not_lt_zero _)
  | _ + 1, [], _, _ => rfl
  | f + 1, i :: rest, hW, h => by
    simp only [descendants.go, List.flatMap_cons]
    split
    · next hi =>
      -- a text node is a leaf, so skipping it skips its whole subtree
      have hlt := hW.pending_tail_lt
      rw [hf.treeOrder_text hi, hf.go_eq_treeOrder f rest hW.tail (by omega)]
      simp [hi]
    · next hi =>
      -- an element is listed, and its children take its place at the front of the work list
      have hlt := hW.pending_expand_lt hf
      rw [hf.go_eq_treeOrder f _ (hW.expand hf) (by omega), hf.treeOrder_eq i]
      simp [hi, List.flatMap_append]

/-- **The walk lists a subtree in document order.** In a forest, the elements below `r` are the
nodes of its subtree in document order, with `r` and the text nodes left out. -/
theorem Forest.descendants_eq_treeOrder (hf : Forest d) (r : Nat) :
    d.descendants r = (d.treeOrder r).tail.filter fun i => !(d.node i).isText := by
  have := card_pending_le d (d.node r).children
  rw [descendants, hf.go_eq_treeOrder _ _ (hf.separate_children r) (by omega), hf.treeOrder_eq r]
  rfl

/-! ## Searches -/

/-- **Searches read the document in document order.** In every document the editor reaches, the
elements below a node are its subtree in document order without the node and the text nodes. So
the element with an id is the first element below the root with that id in document order, the
elements below a node with a class are those of its subtree in document order, each once, and
the controls of a form are read off its subtree in document order. -/
theorem descendants_in_tree_order (h : Reachable d) :
    (∀ r, d.descendants r = (d.treeOrder r).tail.filter fun i => !(d.node i).isText) ∧
      (∀ id, d.elementById id =
        ((d.treeOrder root).tail.filter fun i => !(d.node i).isText).find?
          fun i => (d.node i).attribute? "id" == some id) ∧
      (∀ r cls, d.elementsByClassWithin r cls =
          (d.treeOrder r).tail.filter (fun i => (d.node i).hasClass cls && !(d.node i).isText) ∧
        (d.elementsByClassWithin r cls).Nodup) ∧
      (∀ form, d.formControls form =
        ((d.treeOrder form).tail.filter fun i => !(d.node i).isText).filterMap fun i =>
          (d.controlState i).map fun state =>
            ⟨(d.attribute? i "name").getD "", (d.attribute? i "disabled").isSome, state⟩) := by
  have hf := h.forest
  refine ⟨hf.descendants_eq_treeOrder, fun id => ?_,
    fun r cls => ⟨?_, (hf.descendants_nodup r).filter _⟩, fun form => ?_⟩
  · rw [elementById, hf.descendants_eq_treeOrder]
  · rw [elementsByClassWithin, hf.descendants_eq_treeOrder, List.filter_filter]
  · rw [formControls, hf.descendants_eq_treeOrder]

/-- A page read from markup with two paragraphs of one id is reachable, and below every node the
walk lists the subtree in document order. -/
theorem descendants_in_tree_order_paragraphs :
    let d : Document Unit := withBody "<p id=\"a\"><b></b></p><p id=\"a\"></p>"
    Reachable d ∧ ∀ r, d.descendants r = (d.treeOrder r).tail.filter fun i => !(d.node i).isText :=
  ⟨Reachable.withBody _, (descendants_in_tree_order (Reachable.withBody _)).1⟩

/-- An element created with the tag `#text` is a text node that takes a child. A paragraph with
the id `x` appended below it, and it in turn appended to the body, is an attached element, yet
the walk skips the text node with its subtree and no element with that id is found. -/
theorem id_below_text_node_unfound :
    let d : Document Unit :=
      ((((empty.createElement "#text").2.createElement "p").2.setAttribute 3 "id" "x").append 2
        3).append body 2
    Ancestor d root 3 ∧ (d.node 3).isText = false ∧ (d.node 3).attribute? "id" = some "x" ∧
      d.elementById "x" = none := by
  intro d
  have h3 : (d.node 3).parent = some 2 := by decide +kernel
  have h2 : (d.node 2).parent = some body := by decide +kernel
  have h1 : (d.node body).parent = some root := by decide +kernel
  exact ⟨.up h3 (.up h2 (.parent h1)), by decide +kernel, by decide +kernel, by decide +kernel⟩

end PageEditor.Markup.Document
