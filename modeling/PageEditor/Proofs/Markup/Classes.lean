import PageEditor.Proofs.Markup.Forest
import PageEditor.Proofs.Markup.Reread
/-!
# PageEditor.Proofs.Markup.Classes

The classes a node carries, and the nodes an edit leaves where they were.

A node carries a class when the words of its `class` attribute, split at blanks, include it.
So a class list joined from two by a blank has the words of both (`splitBlank_join`), trimming
keeps the words (`splitBlank_trim`), a node given a class list carries exactly its words
(`hasClass_setClassName`), and adding a class keeps every class and adds only the new words
(`hasClass_addClass`).

`Settled d₀ d`: every node of `d₀` has in `d` the tag, the attributes and the parent it had. Adding
nodes, editing nodes `d₀` does not have, hanging such a node anywhere, and reading markup into
a node without children all keep the old nodes settled (`Settled.setInnerHtml`).

The label of a close link, `<span>Close</span>`, reads as a span holding the text `Close`
(`setInnerHtml_label`).
-/

namespace PageEditor.Text

/-! ## Words -/

/-- A blank ends the word being read. -/
theorem words_go_blank {c : Char} (hc : isBlank c = true) (cur rest : List Char) :
    words.go cur (c :: rest) = words.go cur [] ++ words.go [] rest := by
  simp only [words.go, hc, ↓reduceIte]
  split <;> simp

/-- The words on either side of a blank are read apart. -/
theorem words_go_append_blank {c : Char} (hc : isBlank c = true) (l₂ : List Char) :
    ∀ (l₁ cur : List Char), words.go cur (l₁ ++ c :: l₂) = words.go cur l₁ ++ words.go [] l₂
  | [], cur => by rw [List.nil_append, words_go_blank hc]
  | x :: l₁, cur => by
    by_cases hx : isBlank x = true
    · rw [List.cons_append, words_go_blank hx, words_go_blank hx, words_go_append_blank hc l₂ l₁,
        List.append_assoc]
    · simp only [List.cons_append, words.go, hx, Bool.false_eq_true, ↓reduceIte]
      exact words_go_append_blank hc l₂ l₁ (x :: cur)

theorem words_go_blanks : ∀ l : List Char, (∀ c ∈ l, isBlank c = true) → words.go [] l = []
  | [], _ => rfl
  | c :: l, h => by
    rw [words_go_blank (h c (List.mem_cons_self ..)),
      words_go_blanks l fun x hx => h x (List.mem_cons_of_mem _ hx)]
    rfl

/-- Blanks at the end add no word. -/
theorem words_append_blanks (l : List Char) :
    ∀ bs : List Char, (∀ c ∈ bs, isBlank c = true) → words (l ++ bs) = words l
  | [], _ => by rw [List.append_nil]
  | c :: bs, h => by
    rw [words, words, words_go_append_blank (h c (List.mem_cons_self ..)),
      words_go_blanks bs fun x hx => h x (List.mem_cons_of_mem _ hx), List.append_nil]

/-- Blanks at the front add no word. -/
theorem words_dropBlank (l : List Char) : words (dropBlank l) = words l := by
  induction l with
  | nil => rfl
  | cons c l ih =>
    by_cases hc : isBlank c = true
    · rw [dropBlank, List.dropWhile_cons_of_pos hc, ← dropBlank, ih, words, words,
        words_go_blank hc]
      rfl
    · rw [dropBlank, List.dropWhile_cons_of_neg hc]

theorem words_trimEnd (l : List Char) : words (dropBlank l.reverse).reverse = words l := by
  -- the blanks dropped from the end are those taken from the front of the reversed text
  have hsplit : l = (dropBlank l.reverse).reverse ++ (l.reverse.takeWhile isBlank).reverse :=
    calc l = (l.reverse.takeWhile isBlank ++ l.reverse.dropWhile isBlank).reverse := by
          rw [List.takeWhile_append_dropWhile, List.reverse_reverse]
      _ = (dropBlank l.reverse).reverse ++ (l.reverse.takeWhile isBlank).reverse := by
          rw [List.reverse_append]
          rfl
  have hblank : ∀ x ∈ (l.reverse.takeWhile isBlank).reverse, isBlank x = true := fun x hx =>
    List.mem_takeWhile_imp (List.mem_reverse.mp hx)
  conv => rhs; rw [hsplit]
  exact (words_append_blanks _ _ hblank).symm

/-- A text joined from two by a blank has the words of both. -/
theorem splitBlank_join (a b : String) :
    splitBlank (a ++ " " ++ b) = splitBlank a ++ splitBlank b := by
  have hspace : (" " : String).toList = [' '] := rfl
  simp only [splitBlank, words, String.toList_append, hspace, List.append_assoc,
    List.singleton_append]
  exact words_go_append_blank (by decide) _ _ _

/-- Trimming keeps the words. -/
theorem splitBlank_trim (s : String) : splitBlank (trim s) = splitBlank s := by
  simp only [splitBlank, trim, trimEnd, trimStart, String.toList_ofList, words_trimEnd,
    words_dropBlank]

end PageEditor.Text

namespace PageEditor.Markup

namespace Node

variable {σ : Type}

theorem find_setEntry_self (kvs : List (String × String)) (key value : String) :
    (setEntry kvs key value).find? (·.1 == key) = some (key, value) := by
  induction kvs with
  | nil => simp [setEntry]
  | cons kv rest ih =>
    obtain ⟨k, v⟩ := kv
    unfold setEntry
    by_cases hk : k = key
    · subst hk
      simp
    · simp [hk, ih]

theorem attribute?_setAttribute_self (n : Node σ) (name value : String) :
    (n.setAttribute name value).attribute? name = some value := by
  simp [attribute?, setAttribute, find_setEntry_self]

/-- A node given a class list carries exactly its words. -/
theorem hasClass_setAttribute_class (n : Node σ) (classes cls : String) :
    (n.setAttribute "class" classes).hasClass cls = (Text.splitBlank classes).contains cls := by
  rw [hasClass, attribute?_setAttribute_self]

theorem hasClass_setAttribute_of_ne (n : Node σ) {name : String} (value cls : String)
    (h : name ≠ "class") : (n.setAttribute name value).hasClass cls = n.hasClass cls := by
  simp only [hasClass, attribute?, setAttribute, Document.find_setEntry value h]

end Node

namespace Document

variable {σ : Type} {d d₀ d₁ d₂ : Document σ}

/-! ## Classes after an edit -/

theorem hasClass_eq_className (d : Document σ) (i : Nat) (cls : String) :
    d.hasClass i cls = (Text.splitBlank (d.className i)).contains cls := by
  have hempty : Text.splitBlank "" = [] := rfl
  simp only [hasClass, Node.hasClass, className, attribute?]
  split <;> rename_i h <;> simp [h, hempty]

theorem hasClass_setClassName (d : Document σ) (i j : Nat) (classes cls : String) :
    (d.setClassName i classes).hasClass j cls =
      if i = j ∧ j < d.nodes.size then (Text.splitBlank classes).contains cls
      else d.hasClass j cls := by
  simp only [setClassName, setAttribute, hasClass, node_modify]
  split
  · exact Node.hasClass_setAttribute_class _ _ _
  · rfl

theorem hasClass_setAttribute_of_ne (d : Document σ) (i j : Nat) {name : String}
    (value cls : String) (h : name ≠ "class") :
    (d.setAttribute i name value).hasClass j cls = d.hasClass j cls := by
  simp only [setAttribute, hasClass, node_modify]
  split
  · exact Node.hasClass_setAttribute_of_ne _ _ _ h
  · rfl

/-- Adding a class keeps the classes a node carries, and adds only the words of the new one. -/
theorem hasClass_addClass (d : Document σ) (i j : Nat) (cls c : String) :
    (d.addClass i cls).hasClass j c = true ↔
      d.hasClass j c = true ∨ (i = j ∧ j < d.nodes.size ∧ d.hasClass i cls = false ∧
        c ∈ Text.splitBlank cls) := by
  unfold addClass
  split
  · next h => simp [h]
  · next h =>
    rw [hasClass_setClassName]
    split
    · next hij =>
      obtain ⟨rfl, hj⟩ := hij
      rw [List.contains_iff_mem, Text.splitBlank_trim, Text.splitBlank_join, List.mem_append,
        ← List.contains_iff_mem, ← hasClass_eq_className]
      simp [hj, h]
    · next hij =>
      simp only [iff_self_or]
      rintro ⟨rfl, hj, -⟩
      exact absurd ⟨rfl, hj⟩ hij

/-! ## Settled nodes -/

/-- `d` keeps every node of `d₀` where it was: with its tag, its attributes and its parent. -/
structure Settled (d₀ d : Document σ) : Prop where
  size_le : d₀.nodes.size ≤ d.nodes.size
  tag : ∀ j < d₀.nodes.size, (d.node j).tag = (d₀.node j).tag
  attributes : ∀ j < d₀.nodes.size, (d.node j).attributes = (d₀.node j).attributes
  parent : ∀ j < d₀.nodes.size, (d.node j).parent = (d₀.node j).parent

namespace Settled

theorem refl (d : Document σ) : Settled d d :=
  ⟨Nat.le_refl _, fun _ _ => rfl, fun _ _ => rfl, fun _ _ => rfl⟩

theorem trans (h₁ : Settled d₀ d₁) (h₂ : Settled d₁ d₂) : Settled d₀ d₂ where
  size_le := Nat.le_trans h₁.size_le h₂.size_le
  tag j hj := (h₂.tag j (Nat.lt_of_lt_of_le hj h₁.size_le)).trans (h₁.tag j hj)
  attributes j hj :=
    (h₂.attributes j (Nat.lt_of_lt_of_le hj h₁.size_le)).trans (h₁.attributes j hj)
  parent j hj := (h₂.parent j (Nat.lt_of_lt_of_le hj h₁.size_le)).trans (h₁.parent j hj)

theorem hasClass (h : Settled d₀ d) {j : Nat} (hj : j < d₀.nodes.size) (cls : String) :
    d.hasClass j cls = d₀.hasClass j cls := by
  simp only [Document.hasClass, Node.hasClass, Node.attribute?, h.attributes j hj]

theorem isText (h : Settled d₀ d) {j : Nat} (hj : j < d₀.nodes.size) :
    (d.node j).isText = (d₀.node j).isText := by
  simp only [Node.isText, h.tag j hj]

/-- A change of a node `d₀` does not have, or one that keeps tag, attributes and parent. -/
theorem modify (h : Settled d₀ d) (i : Nat) {f : Node σ → Node σ}
    (hf : d₀.nodes.size ≤ i ∨
      ∀ n, (f n).tag = n.tag ∧ (f n).attributes = n.attributes ∧ (f n).parent = n.parent) :
    Settled d₀ (d.modify i f) := by
  -- the changed node is new, or keeps what is compared
  have hsame : ∀ j < d₀.nodes.size, i = j → (f (d.node j)).tag = (d.node j).tag ∧
      (f (d.node j)).attributes = (d.node j).attributes ∧
        (f (d.node j)).parent = (d.node j).parent := by
    rintro j hj rfl
    rcases hf with hf | hf
    · omega
    · exact hf _
  refine ⟨by rw [size_modify]; exact h.size_le, fun j hj => ?_, fun j hj => ?_, fun j hj => ?_⟩ <;>
    rw [node_modify] <;> split
  · next hij => rw [(hsame j hj hij.1).1]; exact h.tag j hj
  · exact h.tag j hj
  · next hij => rw [(hsame j hj hij.1).2.1]; exact h.attributes j hj
  · exact h.attributes j hj
  · next hij => rw [(hsame j hj hij.1).2.2]; exact h.parent j hj
  · exact h.parent j hj

/-- Changing only the children of a node settles every node. -/
theorem modify_children (h : Settled d₀ d) (i : Nat) (g : List Nat → List Nat) :
    Settled d₀ (d.modify i fun n => { n with children := g n.children }) :=
  h.modify i (.inr fun _ => ⟨rfl, rfl, rfl⟩)

theorem alloc (h : Settled d₀ d) (n : Node σ) : Settled d₀ (d.alloc n).2 where
  size_le := by rw [size_alloc]; exact Nat.le_succ_of_le h.size_le
  tag j hj := by
    rw [node_alloc, if_neg (by have := h.size_le; omega)]
    exact h.tag j hj
  attributes j hj := by
    rw [node_alloc, if_neg (by have := h.size_le; omega)]
    exact h.attributes j hj
  parent j hj := by
    rw [node_alloc, if_neg (by have := h.size_le; omega)]
    exact h.parent j hj

/-- Hanging a node `d₀` does not have below any node. -/
theorem append (h : Settled d₀ d) (p : Nat) {c : Nat} (hc : d₀.nodes.size ≤ c) :
    Settled d₀ (d.append p c) := by
  unfold Document.append Document.detach
  split <;> dsimp only
  · exact (h.modify_children p (· ++ [c])).modify c (.inl hc)
  · next q _ =>
    exact (((h.modify_children q (List.filter (· != c))).modify c (.inl hc)).modify_children p
      (· ++ [c])).modify c (.inl hc)

theorem sprout (h : Settled d₀ d) (n : Node σ) (p : Nat) : Settled d₀ (d.sprout n p) :=
  (h.alloc n).append p h.size_le

/-- Reading markup only hangs new nodes. -/
theorem readInto (h : Settled d₀ d) (opened : List Nat) (rest : List Char) :
    Settled d₀ (d.readInto opened rest) := by
  obtain ⟨-, ho⟩ := readInto_induction (motive := fun _ d => Settled d₀ d) (fun _ _ _ h => h)
    (fun o _ n _ h => h.sprout n (o.headD body)) (fun o _ n _ _ h => h.sprout n (o.headD body))
    opened rest h
  exact ho

/-- Setting the inside of a node without children settles every other node. -/
theorem setInnerHtml (h : Settled d₀ d) {x : Nat} (hx : (d.node x).children = [])
    (html : String) : Settled d₀ (d.setInnerHtml x html) := by
  refine Settled.readInto ⟨?_, fun j hj => ?_, fun j hj => ?_, fun j hj => ?_⟩ [x] html.toList
  · rw [size_clearChildren]; exact h.size_le
  · rw [tag_eq_of_keeps (keeps_clearChildren _ x) (size_clearChildren _ x)]; exact h.tag j hj
  · rw [attributes_clearChildren]; exact h.attributes j hj
  · rw [parent_clearChildren, hx, if_neg List.not_mem_nil]; exact h.parent j hj

end Settled

/-! ## The label of a close link -/

/-- The label of a close link reads as a span holding the text `Close`. -/
theorem setInnerHtml_label (d : Document σ) {x : Nat} (hx : x < d.nodes.size) :
    d.setInnerHtml x "<span>Close</span>" =
      ((d.clearChildren x).sprout (elementNode "span" []) x).sprout (textNode "Close")
        d.nodes.size := by
  have hx' : x < (d.clearChildren x).nodes.size := by simpa using hx
  have hlabel : ("<span>Close</span>" : String).toList =
      Tree.markupAll [.element "span" [] [.text "Close"]] ++ [] := by decide
  have h := readInto_markupAll (d.clearChildren x) hx' [] [] (fun _ h => nomatch h)
    [.element "span" [] [.text "Close"]] (by decide) (by decide)
  rw [setInnerHtml, hlabel, h, readInto.eq_1]
  simp [buildAll, build, voidTags]

end Document

end PageEditor.Markup
