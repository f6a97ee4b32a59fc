import PageEditor.Proofs.Markup.Growth
/-!
# PageEditor.Proofs.Markup.Trees

The tree a node of a document holds, and the markup that tree is written as.

A `Tree` is a text, or an element with its tag, its attributes in order and its children.
`Document.treeAt` reads the tree below a node (bounded by the number of nodes, like every walk of
a document), and `Tree.markup` writes a tree as `outerHtml` writes the node
(`outerHtml_toList`). `Document.build` adds a tree below a node, one node at a time in document
order, as reading its markup does; in a grown document the tree read back from the nodes it adds
is the tree it was given (`buildAll_spec`).

A tree is printable when its markup reads back as it: tags and attribute names are lowercase and
hold no blank, quote or `>`; tags start with an ASCII letter and hold no `/` or `<`; attribute
values hold no double quote; texts are not empty and hold no `<`; void elements have no children
and `script`, `style` and `textarea` only texts. It is tidy when no two texts stand side by side.
`Tree.tidy` merges texts that stand side by side.
-/

namespace PageEditor.Markup

/-- A tree of markup: a text, or an element with its tag, its attributes and its children. -/
inductive Tree where
  | text (s : String)
  | element (tag : String) (attrs : List (String × String)) (children : List Tree)
  deriving Repr

namespace Tree

mutual
/-- Equality of trees, decided constructor by constructor. -/
def decEq : (a b : Tree) → Decidable (a = b)
  | .text s, .text s' =>
    if h : s = s' then isTrue (h ▸ rfl) else isFalse fun e => h (Tree.text.inj e)
  | .text _, .element .. => isFalse nofun
  | .element .., .text _ => isFalse nofun
  | .element tag attrs cs, .element tag' attrs' cs' =>
    if ht : tag = tag' then
      if ha : attrs = attrs' then
        match decEqAll cs cs' with
        | isTrue hc => isTrue (ht ▸ ha ▸ hc ▸ rfl)
        | isFalse hc => isFalse fun e => hc (Tree.element.inj e).2.2
      else isFalse fun e => ha (Tree.element.inj e).2.1
    else isFalse fun e => ht (Tree.element.inj e).1

/-- Equality of lists of trees. -/
def decEqAll : (F G : List Tree) → Decidable (F = G)
  | [], [] => isTrue rfl
  | [], _ :: _ => isFalse nofun
  | _ :: _, [] => isFalse nofun
  | t :: ts, u :: us =>
    match decEq t u, decEqAll ts us with
    | isTrue h, isTrue h' => isTrue (h ▸ h' ▸ rfl)
    | isFalse h, _ => isFalse fun e => h (List.cons.inj e).1
    | _, isFalse h' => isFalse fun e => h' (List.cons.inj e).2
end

instance : DecidableEq Tree := decEq

/-- Whether a tree is a text. -/
def isText : Tree → Bool
  | .text _ => true
  | .element .. => false

/-- The markup of attributes, each as ` name="value"`. -/
def attrMarkup (attrs : List (String × String)) : List Char :=
  attrs.flatMap fun kv => ' ' :: kv.1.toList ++ '=' :: '"' :: kv.2.toList ++ ['"']

mutual
/-- The markup of a tree: a text as it is; an element as its opening tag, then, unless it is
void, its children and its closing tag. -/
def markup : Tree → List Char
  | .text s => s.toList
  | .element tag attrs children =>
    if voidTags.contains tag then '<' :: tag.toList ++ attrMarkup attrs ++ ['>']
    else '<' :: tag.toList ++ attrMarkup attrs ++ '>' :: markupAll children ++
      '<' :: '/' :: tag.toList ++ ['>']

/-- The markup of trees side by side. -/
def markupAll : List Tree → List Char
  | [] => []
  | t :: ts => markup t ++ markupAll ts
end

/-! ## Printable trees -/

/-- A character a tag may hold. -/
def tagChar (c : Char) : Bool :=
  !Text.isBlank c && c != '>' && c != '/' && c != '<' && c != '"' && c != '\'' && c.toLower == c

/-- A character an attribute name may hold. -/
def nameChar (c : Char) : Bool :=
  !Text.isBlank c && c != '=' && c != '>' && c != '"' && c != '\'' && c.toLower == c

/-- A tag that reads back: an ASCII letter, then tag characters. -/
def tagOk (tag : String) : Bool :=
  match tag.toList with
  | c :: cs => isAsciiLetter c && (c :: cs).all tagChar
  | [] => false

/-- An attribute that reads back: a name of name characters, and a value without `"`. -/
def attrOk (kv : String × String) : Bool :=
  !kv.1.toList.isEmpty && kv.1.toList.all nameChar && !kv.2.toList.contains '"'

/-- A text that reads back: not empty, and without `<`. -/
def textOk (s : String) : Bool := !s.toList.isEmpty && !s.toList.contains '<'

mutual
/-- Whether the markup of a tree reads back as the tree, once texts side by side are merged. -/
def printable : Tree → Bool
  | .text s => textOk s
  | .element tag attrs children =>
    tagOk tag && attrs.all attrOk &&
      (if voidTags.contains tag then children.isEmpty
       else if rawTextTags.contains tag then children.all isText && printableAll children
       else printableAll children)

def printableAll : List Tree → Bool
  | [] => true
  | t :: ts => printable t && printableAll ts
end

mutual
/-- Whether no two texts stand side by side anywhere in a tree. -/
def tidy? : Tree → Bool
  | .text _ => true
  | .element _ _ children => tidyAll? children

def tidyAll? : List Tree → Bool
  | [] => true
  | [t] => tidy? t
  | t :: u :: ts => !(t.isText && u.isText) && tidy? t && tidyAll? (u :: ts)
end

/-- Puts a tree in front of others, merging it into a text that follows a text. -/
def adjoin : Tree → List Tree → List Tree
  | .text a, .text b :: rest => .text (a ++ b) :: rest
  | t, rest => t :: rest

mutual
/-- A tree with the texts that stand side by side merged. -/
def tidy : Tree → Tree
  | .text s => .text s
  | .element tag attrs children => .element tag attrs (tidyAll children)

def tidyAll : List Tree → List Tree
  | [] => []
  | t :: ts => adjoin (tidy t) (tidyAll ts)
end

/-! ### Merging texts side by side -/

theorem markupAll_adjoin (u : Tree) (L : List Tree) :
    markupAll (adjoin u L) = markup u ++ markupAll L := by
  unfold adjoin
  split
  · simp [markup, markupAll, String.toList_append]
  · rfl

theorem textOk_append {a b : String} (ha : textOk a = true) (hb : textOk b = true) :
    textOk (a ++ b) = true := by
  simp only [textOk, Bool.and_eq_true, Bool.not_eq_true', List.isEmpty_eq_false_iff,
    List.contains_eq_mem, decide_eq_false_iff_not, String.toList_append, List.mem_append,
    not_or, ne_eq, List.append_eq_nil_iff] at ha hb ⊢
  exact ⟨fun h => ha.1 h.1, ha.2, hb.2⟩

theorem printableAll_adjoin {u : Tree} {L : List Tree} (hu : u.printable = true)
    (hL : printableAll L = true) : printableAll (adjoin u L) = true := by
  unfold adjoin
  split
  · simp only [printable, printableAll, Bool.and_eq_true] at hu hL ⊢
    exact ⟨textOk_append hu hL.1, hL.2⟩
  · simp [printableAll, hu, hL]

theorem tidyAll?_adjoin {u : Tree} {L : List Tree} (hu : u.tidy? = true)
    (hL : tidyAll? L = true) : tidyAll? (adjoin u L) = true := by
  unfold adjoin
  split
  · rename_i a b rest
    cases rest with
    | nil => rfl
    | cons v rest => simpa [tidyAll?, isText, tidy?] using hL
  · rename_i hne
    cases L with
    | nil => simpa [tidyAll?] using hu
    | cons v rest =>
      simp only [tidyAll?, hu, hL, Bool.and_true, Bool.not_eq_true', Bool.and_eq_false_iff]
      cases u with
      | text a =>
        cases v with
        | text b => exact (hne a b rest rfl rfl).elim
        | element => exact .inr rfl
      | element => exact .inl rfl

mutual
theorem markup_tidy : ∀ t : Tree, markup (tidy t) = markup t
  | .text _ => rfl
  | .element tag attrs cs => by simp only [tidy, markup, markupAll_tidyAll cs]

theorem markupAll_tidyAll : ∀ F : List Tree, markupAll (tidyAll F) = markupAll F
  | [] => rfl
  | t :: ts => by rw [tidyAll, markupAll_adjoin, markup_tidy t, markupAll_tidyAll ts]; rfl
end

theorem all_isText_adjoin {u : Tree} {L : List Tree} (hu : u.isText = true)
    (hL : L.all isText = true) : (adjoin u L).all isText = true := by
  unfold adjoin
  split
  · simpa [isText] using hL
  · simp [hu, hL]

mutual
theorem printable_tidy : ∀ t : Tree, t.printable = true → (tidy t).printable = true
  | .text _, h => h
  | .element tag attrs cs, h => by
    simp only [printable, tidy, Bool.and_eq_true] at h ⊢
    refine ⟨h.1, ?_⟩
    split
    · rename_i hv
      rw [if_pos hv] at h
      rw [List.isEmpty_iff.mp h.2, tidyAll]
      rfl
    · rename_i hv
      rw [if_neg hv] at h
      split
      · rename_i hr
        rw [if_pos hr, Bool.and_eq_true] at h
        exact (Bool.and_eq_true _ _).mpr ⟨allText_tidyAll cs h.2.1, printableAll_tidyAll cs h.2.2⟩
      · rename_i hr
        rw [if_neg hr] at h
        exact printableAll_tidyAll cs h.2

theorem printableAll_tidyAll : ∀ F : List Tree, printableAll F = true →
    printableAll (tidyAll F) = true
  | [], _ => rfl
  | t :: ts, h => by
    simp only [printableAll, Bool.and_eq_true] at h
    exact printableAll_adjoin (printable_tidy t h.1) (printableAll_tidyAll ts h.2)

theorem allText_tidyAll : ∀ F : List Tree, F.all isText = true → (tidyAll F).all isText = true
  | [], _ => rfl
  | t :: ts, h => by
    simp only [List.all_cons, Bool.and_eq_true] at h
    cases t with
    | text s => exact all_isText_adjoin rfl (allText_tidyAll ts h.2)
    | element => cases h.1
end

mutual
theorem tidy?_tidy : ∀ t : Tree, (tidy t).tidy? = true
  | .text _ => rfl
  | .element _ _ cs => tidyAll?_tidyAll cs

theorem tidyAll?_tidyAll : ∀ F : List Tree, tidyAll? (tidyAll F) = true
  | [] => rfl
  | t :: ts => tidyAll?_adjoin (tidy?_tidy t) (tidyAll?_tidyAll ts)
end

end Tree

namespace Document

variable {σ : Type}

/-! ## Reading the tree below a node -/

/-- The tree below a node, read down at most `fuel` levels. -/
def treeAt (d : Document σ) : Nat → Nat → Tree
  | 0, _ => .text ""
  | fuel + 1, j =>
    let n := d.node j
    if n.isText then .text n.text else .element n.tag n.attributes (n.children.map (treeAt d fuel))

/-- The trees below the children of a node. -/
def forest (d : Document σ) (i : Nat) : List Tree :=
  (d.node i).children.map (d.treeAt (d.nodes.size + 1))

/-- The markup of the children of a node, one after another. -/
def innerHtml (d : Document σ) (i : Nat) : String :=
  String.join ((d.node i).children.map d.outerHtml)

/-- Attributes written one by one, each as ` name="value"`, are their markup. -/
theorem flatMap_attrs (attrs : List (String × String)) :
    (attrs.map fun kv => " " ++ kv.1 ++ "=\"" ++ kv.2 ++ "\"").flatMap String.toList =
      Tree.attrMarkup attrs := by
  induction attrs with
  | nil => rfl
  | cons kv rest ih =>
    rw [List.map_cons, List.flatMap_cons, ih]
    simp [Tree.attrMarkup, String.toList_append]

/-- Writing a node is writing the tree below it. -/
theorem write_toList (d : Document σ) :
    ∀ fuel j, (outerHtml.write d fuel j).toList = (d.treeAt fuel j).markup
  | 0, j => rfl
  | fuel + 1, j => by
    have hall : ∀ l : List Nat, (String.join (l.map (outerHtml.write d fuel))).toList =
        Tree.markupAll (l.map (d.treeAt fuel)) := by
      intro l
      induction l with
      | nil => rfl
      | cons k l ih =>
        rw [List.map_cons, String.join_cons, String.toList_append, ih, write_toList d fuel k]
        rfl
    simp only [outerHtml.write, treeAt]
    split
    · rfl
    · simp only [Tree.markup]
      split <;> simp [flatMap_attrs, String.toList_append, hall]

theorem outerHtml_toList (d : Document σ) (i : Nat) :
    (d.outerHtml i).toList = (d.treeAt (d.nodes.size + 1) i).markup :=
  write_toList d _ i

theorem innerHtml_toList (d : Document σ) (i : Nat) :
    (d.innerHtml i).toList = Tree.markupAll (d.forest i) := by
  unfold innerHtml forest
  induction (d.node i).children with
  | nil => rfl
  | cons k l ih =>
    rw [List.map_cons, String.join_cons, String.toList_append, ih, outerHtml_toList]
    rfl

/-- The tree below a node is read from the nodes of its subtree only. -/
theorem treeAt_congr {d d' : Document σ} {w : Nat} (h : ∀ k, Below d w k → d'.node k = d.node k) :
    ∀ f k, Below d w k → d'.treeAt f k = d.treeAt f k := by
  intro f
  induction f with
  | zero => intro k _; rfl
  | succ g ih =>
    intro k hk
    simp only [treeAt, h k hk]
    split
    · rfl
    · rw [List.map_congr_left fun c hc => ih c (hk.child hc)]

/-- The subtree of a node lies between it and the last node. -/
theorem Below.le {d : Document σ} (hg : Grown d) {a b : Nat} (h : Below d a b) : a ≤ b := by
  induction h with
  | refl => exact Nat.le_refl _
  | child _ hc ih => exact Nat.le_trans ih (Nat.le_of_lt (hg.newer _ _ hc))

/-! ## Building a tree below a node -/

/-- A fresh element with these attributes, as reading markup makes it. -/
def elementNode (tag : String) (attrs : List (String × String)) : Node σ :=
  { Node.blank tag with attributes := attrs }

/-- A fresh text node, as reading markup makes it. -/
def textNode (s : String) : Node σ := { Node.blank textTag with text := s }

@[simp] theorem elementNode_tag (tag : String) (attrs : List (String × String)) :
    (elementNode tag attrs : Node σ).tag = tag := rfl

@[simp] theorem elementNode_attributes (tag : String) (attrs : List (String × String)) :
    (elementNode tag attrs : Node σ).attributes = attrs := rfl

theorem bare_elementNode (tag : String) (attrs : List (String × String)) :
    Bare (elementNode tag attrs : Node σ) := ⟨rfl, rfl, rfl⟩

theorem bare_textNode (s : String) : Bare (textNode s : Node σ) := ⟨rfl, rfl, rfl⟩

mutual
/-- Adds a tree below `p`: its root past the last node and last among `p`'s children, then,
unless it is void, its children below the root. -/
def build (d : Document σ) (p : Nat) : Tree → Document σ
  | .text s => d.sprout (textNode s) p
  | .element tag attrs children =>
    if voidTags.contains tag then d.sprout (elementNode tag attrs) p
    else (d.sprout (elementNode tag attrs) p).buildAll d.nodes.size children

/-- Adds trees below `p`, one after another. -/
def buildAll (d : Document σ) (p : Nat) : List Tree → Document σ
  | [] => d
  | t :: ts => (d.build p t).buildAll p ts
end

theorem sprout_node_old (d : Document σ) {n : Node σ} (hn : Bare n) {p i : Nat}
    (hi : i < d.nodes.size) (hip : i ≠ p) : (d.sprout n p).node i = d.node i := by
  unfold Document.sprout
  rw [append_of_orphan (orphan_alloc d hn), node_modify_of_ne _ _ (Nat.ne_of_gt hi),
    node_modify_of_ne _ _ (Ne.symm hip), node_alloc, if_neg (Nat.ne_of_lt hi)]

theorem sprout_node_parent (d : Document σ) {n : Node σ} (hn : Bare n) {p : Nat}
    (hp : p < d.nodes.size) :
    (d.sprout n p).node p = { d.node p with children := (d.node p).children ++ [d.nodes.size] } := by
  unfold Document.sprout
  rw [append_of_orphan (orphan_alloc d hn), node_modify_of_ne _ _ (Nat.ne_of_gt hp),
    node_modify_self _ _ (by simp; omega), node_alloc, if_neg (Nat.ne_of_lt hp)]

/-- `d'` is `d` with the trees `F` built below `p`: new nodes come past the old ones, the roots
of the trees are appended to `p`'s children, every other old node stays as it was, and the trees
read back from the roots are `F`. -/
structure Built (d d' : Document σ) (p : Nat) (roots : List Nat) (F : List Tree) : Prop where
  grown : Grown d'
  size_le : d.nodes.size ≤ d'.nodes.size
  old : ∀ i < d.nodes.size, i ≠ p → d'.node i = d.node i
  parent : d'.node p = { d.node p with children := (d.node p).children ++ roots }
  roots_ge : ∀ r ∈ roots, d.nodes.size ≤ r
  reads : ∀ f, d'.nodes.size < d.nodes.size + f → roots.map (d'.treeAt f) = F

theorem Built.nil (hg : Grown d) (p : Nat) : Built d d p [] [] where
  grown := hg
  size_le := Nat.le_refl _
  old _ _ _ := rfl
  parent := by simp
  roots_ge _ h := nomatch h
  reads _ _ := rfl

/-- Building some trees, then more below the same node. -/
theorem Built.append {d₁ d₂ d₃ : Document σ} {p : Nat} {R₁ R₂ : List Nat} {F₁ F₂ : List Tree}
    (hp : p < d₁.nodes.size) (h₁ : Built d₁ d₂ p R₁ F₁) (h₂ : Built d₂ d₃ p R₂ F₂) :
    Built d₁ d₃ p (R₁ ++ R₂) (F₁ ++ F₂) where
  grown := h₂.grown
  size_le := Nat.le_trans h₁.size_le h₂.size_le
  old i hi hip := by rw [h₂.old i (Nat.lt_of_lt_of_le hi h₁.size_le) hip, h₁.old i hi hip]
  parent := by rw [h₂.parent, h₁.parent]; simp
  roots_ge r hr := by
    rcases List.mem_append.mp hr with hr | hr
    · exact h₁.roots_ge r hr
    · exact Nat.le_trans h₁.size_le (h₂.roots_ge r hr)
  reads f hf := by
    have hle := h₂.size_le
    rw [List.map_append, h₂.reads f (by have := h₁.size_le; omega)]
    congr 1
    -- the later trees leave the subtrees of the earlier roots alone
    rw [← h₁.reads f (by omega)]
    refine List.map_congr_left fun r hr => treeAt_congr (fun k hk => ?_) f r .refl
    have hr₂ : r < d₂.nodes.size := by
      have hmem : r ∈ (d₂.node p).children := by rw [h₁.parent]; simp [hr]
      exact h₁.grown.bounded p r hmem
    have hrk := hk.le h₁.grown
    have hk₂ := hk.lt_size h₁.grown hr₂
    have := h₁.roots_ge r hr
    exact h₂.old k hk₂ (by omega)

theorem Tree.tagOk_not_text {tag : String} (h : Tree.tagOk tag = true) :
    (tag == textTag) = false := by
  cases htag : tag == textTag
  · rfl
  · obtain rfl := beq_iff_eq.mp htag
    revert h
    decide

/-- What a printable element asks of its tag and children. -/
theorem Tree.printable_element {tag : String} {attrs : List (String × String)}
    {cs : List Tree} (h : (Tree.element tag attrs cs).printable = true) :
    Tree.tagOk tag = true ∧ (voidTags.contains tag = true → cs = []) ∧
      (voidTags.contains tag = false → Tree.printableAll cs = true) := by
  simp only [Tree.printable, Bool.and_eq_true] at h
  obtain ⟨⟨htag, -⟩, hcs⟩ := h
  refine ⟨htag, fun hv => ?_, fun hv => ?_⟩
  · rw [if_pos hv] at hcs
    exact List.isEmpty_iff.mp hcs
  · rw [if_neg (by rw [hv]; decide)] at hcs
    split at hcs
    · exact (Bool.and_eq_true _ _ ▸ hcs).2
    · exact hcs

theorem treeAt_succ {d : Document σ} {f j : Nat} (h : (d.node j).isText = false) :
    d.treeAt (f + 1) j =
      .element (d.node j).tag (d.node j).attributes ((d.node j).children.map (d.treeAt f)) := by
  simp only [treeAt, h, Bool.false_eq_true, ↓reduceIte]

/-- A fresh node below `p`, read back. -/
theorem treeAt_sprout {d : Document σ} {n : Node σ} (hn : Bare n) {p f : Nat}
    (hp : p < d.nodes.size) :
    (d.sprout n p).treeAt (f + 1) d.nodes.size =
      if n.isText then .text n.text else .element n.tag n.attributes [] := by
  simp only [treeAt, sprout_node_self d hn hp, hn.1, List.map_nil]
  rfl

mutual
/-- Building a printable tree below `p` in a grown document. -/
theorem build_built {d : Document σ} (hg : Grown d) {p : Nat} (hp : p < d.nodes.size) :
    ∀ t : Tree, t.printable = true → Built d (d.build p t) p [d.nodes.size] [t]
  | .text s, _ => by
    have hn : Bare (textNode s : Node σ) := bare_textNode s
    refine ⟨hg.sprout hn hp, by simp [build], fun i hi hip => sprout_node_old d hn hi hip,
      sprout_node_parent d hn hp, by simp, fun f hf => ?_⟩
    obtain ⟨f, rfl⟩ : ∃ f', f = f' + 1 := ⟨f - 1, by simp [build] at hf; omega⟩
    rw [build, List.map_cons, List.map_nil, treeAt_sprout hn hp]
    rfl
  | .element tag attrs cs, ht => by
    obtain ⟨htag, hvoid, hkids⟩ := Tree.printable_element ht
    have hn : Bare (elementNode tag attrs : Node σ) := bare_elementNode tag attrs
    have hnt : (elementNode tag attrs : Node σ).isText = false := Tree.tagOk_not_text htag
    have h₁ : Built d (d.sprout (elementNode tag attrs) p) p [d.nodes.size]
        [.element tag attrs []] := by
      refine ⟨hg.sprout hn hp, by simp, fun i hi hip => sprout_node_old d hn hi hip,
        sprout_node_parent d hn hp, by simp, fun f hf => ?_⟩
      obtain ⟨f, rfl⟩ : ∃ f', f = f' + 1 := ⟨f - 1, by simp at hf; omega⟩
      rw [List.map_cons, List.map_nil, treeAt_sprout hn hp, hnt]
      rfl
    cases hv : voidTags.contains tag
    · -- the children go below the new element, which stays as it was but for them
      have hp₁ : d.nodes.size < (d.sprout (elementNode tag attrs : Node σ) p).nodes.size := by simp
      obtain ⟨R, hR⟩ := buildAll_built h₁.grown hp₁ cs (hkids hv)
      simp only [build, hv, Bool.false_eq_true, ↓reduceIte]
      refine ⟨hR.grown, Nat.le_trans h₁.size_le hR.size_le, fun i hi hip => ?_, ?_, by simp,
        fun f hf => ?_⟩
      · rw [hR.old i (by simp; omega) (Nat.ne_of_lt hi), h₁.old i hi hip]
      · rw [hR.old p (by simp; omega) (Nat.ne_of_lt hp), h₁.parent]
      · obtain ⟨f, rfl⟩ : ∃ f', f = f' + 1 := ⟨f - 1, by have := hR.size_le; simp at this; omega⟩
        have hroot : ((d.sprout (elementNode tag attrs) p).buildAll d.nodes.size cs).node
            d.nodes.size =
              { (elementNode tag attrs : Node σ) with parent := some p, children := R } := by
          rw [hR.parent, sprout_node_self d hn hp]
          rfl
        rw [List.map_cons, List.map_nil, treeAt_succ (by rw [hroot]; exact hnt), hroot]
        simp only [elementNode_tag, elementNode_attributes]
        rw [hR.reads f (by simp; omega)]
    · simp only [build, hv, ↓reduceIte]
      rw [hvoid hv]
      exact h₁

/-- Building printable trees below `p` in a grown document. -/
theorem buildAll_built {d : Document σ} (hg : Grown d) {p : Nat} (hp : p < d.nodes.size) :
    ∀ F : List Tree, Tree.printableAll F = true → ∃ roots, Built d (d.buildAll p F) p roots F
  | [], _ => ⟨[], Built.nil hg p⟩
  | t :: ts, h => by
    simp only [Tree.printableAll, Bool.and_eq_true] at h
    have h₁ := build_built hg hp t h.1
    obtain ⟨R, h₂⟩ := buildAll_built h₁.grown (Nat.lt_of_lt_of_le hp h₁.size_le) ts h.2
    exact ⟨d.nodes.size :: R, h₁.append hp h₂⟩
end

mutual
/-- Building keeps every node there was. -/
theorem keeps_build (d : Document σ) (p : Nat) : ∀ t : Tree, Keeps d (d.build p t)
  | .text s => keeps_sprout d (bare_textNode s) p
  | .element tag attrs cs => by
    rw [build]
    split
    · exact keeps_sprout d (bare_elementNode tag attrs) p
    · exact (keeps_sprout d (bare_elementNode tag attrs) p).trans (keeps_buildAll _ _ cs)

theorem keeps_buildAll (d : Document σ) (p : Nat) : ∀ F : List Tree, Keeps d (d.buildAll p F)
  | [] => Keeps.refl d
  | t :: ts => (keeps_build d p t).trans (keeps_buildAll _ p ts)
end

end Document

end PageEditor.Markup
