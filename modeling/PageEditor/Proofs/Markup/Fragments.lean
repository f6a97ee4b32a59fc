import Mathlib
import PageEditor.Proofs.Markup.Tokens
/-!
# PageEditor.Proofs.Markup.Fragments

The trees a fragment's tokens describe, and the reader building them.

The tokens describe trees through a stack of open elements. A start tag opens its element,
unless it is void or ends in `/` (a raw-text element always opens); a start tag that does not
open, or a text, goes last below the innermost open element; a closing tag closes the innermost
open element with its name and everything opened inside it, but never the element being filled.
`Frames.step` is that stack machine, over frames that hold the trees closed so far below each open
element, and `buildTokens` closes what is still open at the end.

Setting the inside of a node builds below it exactly those trees (`setInnerHtml_builds_tokens`).
The proof follows the reader token by token with `Spine`: the open elements of the document are
the frames of the stack, each holding below it the trees of its frame and then the element open
inside it. Listing the nodes of the trees in document order gives one node per start tag and per
text, in the order of the text (`nodesAll_buildTokens`).
-/

namespace PageEditor.Markup

/-! ## The stack of open elements -/

/-- An open element while tokens are read: its tag, its attributes, and the trees closed below it
so far. -/
structure Frame where
  tag : String
  attrs : List (String × String)
  kids : List Tree

namespace Frame

/-- The element a frame closes into. -/
def tree (f : Frame) : Tree := .element f.tag f.attrs f.kids

/-- A frame with one more tree closed below it. -/
def adopt (f : Frame) (t : Tree) : Frame := { f with kids := f.kids ++ [t] }

end Frame

namespace Frames

/-- Closes the `n` innermost open elements, each into the one around it; the outermost stays. -/
def closeN : Nat → List Frame → List Frame
  | n + 1, f :: g :: fs => closeN n (g.adopt f.tree :: fs)
  | _, fs => fs

/-- A closing tag closes the innermost open element with its name and everything inside it,
unless that is the outermost one. -/
def close (name : String) (fs : List Frame) : List Frame :=
  match fs.findIdx? (·.tag == name) with
  | some k => if k + 1 < fs.length then closeN (k + 1) fs else fs
  | none => fs

/-- A tree goes last below the innermost open element. -/
def add (t : Tree) : List Frame → List Frame
  | f :: fs => f.adopt t :: fs
  | [] => []

/-- One token on the stack. -/
def step (fs : List Frame) : Token → List Frame
  | .close name => close name fs
  | .comment => fs
  | .start tag attrs selfClosing =>
    if opensAfter tag selfClosing then ⟨tag, attrs, []⟩ :: fs
    else add (.element tag attrs []) fs
  | .text s => add (.text s) fs

/-- Closes every open element: the trees below the outermost one. -/
def finish : List Frame → List Tree
  | [] => []
  | f :: fs => (fs.foldl (fun inner outer => outer.adopt inner.tree) f).kids

theorem finish_cons_cons (f g : Frame) (fs : List Frame) :
    finish (f :: g :: fs) = finish (g.adopt f.tree :: fs) := rfl

/-- Closing open elements early changes nothing at the end. -/
theorem finish_closeN : ∀ (n : Nat) (fs : List Frame), finish (closeN n fs) = finish fs
  | 0, _ => rfl
  | _ + 1, [] => rfl
  | _ + 1, [_] => rfl
  | n + 1, f :: g :: fs => by rw [closeN, finish_closeN n, finish_cons_cons]

theorem finish_close (name : String) (fs : List Frame) : finish (close name fs) = finish fs := by
  unfold close
  split
  · split
    · exact finish_closeN _ _
    · rfl
  · rfl

end Frames

/-- The trees that tokens build below an element whose frame is `top`. -/
def buildTokens (top : Frame) (ts : List Token) : List Tree :=
  Frames.finish (ts.foldl Frames.step [top])

/-! ## One node per token -/

namespace Tree

mutual
/-- The nodes of a tree in document order, each without its children. -/
def nodes : Tree → List Tree
  | .text s => [.text s]
  | .element tag attrs cs => .element tag attrs [] :: nodesAll cs

/-- The nodes of trees side by side, in document order. -/
def nodesAll : List Tree → List Tree
  | [] => []
  | t :: ts => nodes t ++ nodesAll ts
end

theorem nodesAll_append (F G : List Tree) : nodesAll (F ++ G) = nodesAll F ++ nodesAll G := by
  induction F with
  | nil => rfl
  | cons t F ih => simp [nodesAll, ih]

end Tree

/-- The node a token makes, without children: start tags and texts make one. -/
def Token.made : Token → Option Tree
  | .start tag attrs _ => some (.element tag attrs [])
  | .text s => some (.text s)
  | _ => none

namespace Frames

/-- A tree closed below the innermost open element comes last in document order. -/
theorem nodesAll_finish_adopt :
    ∀ (fs : List Frame) (f : Frame) (t : Tree),
      Tree.nodesAll (finish (f.adopt t :: fs)) = Tree.nodesAll (finish (f :: fs)) ++ t.nodes
  | [], f, t => by simp [finish, Frame.adopt, Tree.nodesAll_append, Tree.nodesAll]
  | g :: fs, f, t => by
    rw [finish_cons_cons, finish_cons_cons, nodesAll_finish_adopt fs, nodesAll_finish_adopt fs]
    simp [Frame.tree, Frame.adopt, Tree.nodes, Tree.nodesAll_append, Tree.nodesAll]

theorem closeN_ne_nil : ∀ (n : Nat) (g : Frame) (gs : List Frame), closeN n (g :: gs) ≠ []
  | 0, _, _ => List.cons_ne_nil _ _
  | _ + 1, _, [] => List.cons_ne_nil _ _
  | n + 1, g, g' :: gs => by
    rw [closeN]
    exact closeN_ne_nil n _ _

theorem step_ne_nil {fs : List Frame} (h : fs ≠ []) (t : Token) : step fs t ≠ [] := by
  obtain ⟨f, fs, rfl⟩ := List.exists_cons_of_ne_nil h
  cases t with
  | close name =>
    simp only [step, close]
    split
    · split
      · exact closeN_ne_nil _ _ _
      · exact List.cons_ne_nil _ _
    · exact List.cons_ne_nil _ _
  | comment => exact List.cons_ne_nil _ _
  | start tag attrs selfClosing =>
    simp only [step]
    split <;> exact List.cons_ne_nil _ _
  | text s => exact List.cons_ne_nil _ _

/-- Each token adds the node it makes, if any, last in document order. -/
theorem nodesAll_finish_step {fs : List Frame} (h : fs ≠ []) (t : Token) :
    Tree.nodesAll (finish (step fs t)) = Tree.nodesAll (finish fs) ++ t.made.toList := by
  obtain ⟨f, fs, rfl⟩ := List.exists_cons_of_ne_nil h
  cases t with
  | close name => simp [step, finish_close, Token.made]
  | comment => simp [step, Token.made]
  | start tag attrs selfClosing =>
    simp only [step, Token.made, Option.toList_some]
    split
    · rw [finish_cons_cons, nodesAll_finish_adopt]
      rfl
    · rw [add, nodesAll_finish_adopt]
      rfl
  | text s =>
    rw [step, add, nodesAll_finish_adopt]
    rfl

/-- **One node per token, in order**: the nodes of the trees that tokens build, in document
order, are the nodes the tokens make, in the order of the tokens. -/
theorem nodesAll_buildTokens (top : Frame) (ts : List Token) :
    Tree.nodesAll (buildTokens top ts) = Tree.nodesAll top.kids ++ ts.filterMap Token.made := by
  suffices h : ∀ fs : List Frame, fs ≠ [] →
      Tree.nodesAll (finish (ts.foldl step fs)) =
        Tree.nodesAll (finish fs) ++ ts.filterMap Token.made from
    h [top] (List.cons_ne_nil _ _)
  induction ts with
  | nil => simp
  | cons t ts ih =>
    intro fs hfs
    rw [List.foldl_cons, ih _ (step_ne_nil hfs t), nodesAll_finish_step hfs, List.filterMap_cons]
    cases t.made <;> simp

end Frames

/-! ## The document against the stack -/

namespace Document

variable {σ : Type} {d d' : Document σ} {N c : Nat}

/-- The tree a fresh node reads as, before anything is hung below it. -/
def leafTree (n : Node σ) : Tree :=
  if n.isText then .text n.text else .element n.tag n.attributes []

theorem children_sprout (d : Document σ) {n : Node σ} (hn : Bare n) {p : Nat}
    (hp : p < d.nodes.size) (j : Nat) :
    ((d.sprout n p).node j).children =
      if j = p then (d.node p).children ++ [d.nodes.size] else (d.node j).children := by
  split
  · next hj => rw [hj, sprout_children_parent d hn hp]
  · next hj =>
    rcases Nat.lt_or_ge j d.nodes.size with hjs | hjs
    · rw [sprout_node_old d hn hjs hj]
    · rcases Nat.eq_or_lt_of_le hjs with rfl | hjs
      · rw [sprout_node_self d hn hp, node_of_size_le (Nat.le_refl _)]
        exact hn.1
      · rw [node_of_size_le (by simp; omega), node_of_size_le (Nat.le_of_lt hjs)]

/-- While reading into `c`, the nodes from `N` on are the ones hung so far: each has children
that come after it and exist, and the children of `c` are among them. -/
structure Sprouted (d : Document σ) (N c : Nat) : Prop where
  newer : ∀ j, N ≤ j → ∀ x ∈ (d.node j).children, j < x ∧ x < d.nodes.size
  container : ∀ x ∈ (d.node c).children, N ≤ x ∧ x < d.nodes.size
  lt : c < N
  le : N ≤ d.nodes.size

namespace Sprouted

/-- A child of `c` or of a hung node is a hung node after it. -/
theorem child (h : Sprouted d N c) {p x : Nat} (hp : p = c ∨ N ≤ p)
    (hx : x ∈ (d.node p).children) : p < x ∧ N ≤ x ∧ x < d.nodes.size := by
  rcases hp with rfl | hp
  · obtain ⟨h₁, h₂⟩ := h.container x hx
    exact ⟨Nat.lt_of_lt_of_le h.lt h₁, h₁, h₂⟩
  · obtain ⟨h₁, h₂⟩ := h.newer p hp x hx
    exact ⟨h₁, Nat.le_trans hp (Nat.le_of_lt h₁), h₂⟩

/-- Below a hung node lie hung nodes after it. -/
theorem below (h : Sprouted d N c) {r k : Nat} (hr : N ≤ r) (hrs : r < d.nodes.size)
    (hk : Below d r k) : r ≤ k ∧ k < d.nodes.size := by
  induction hk with
  | refl => exact ⟨Nat.le_refl _, hrs⟩
  | child _ hc ih =>
    obtain ⟨h₁, h₂⟩ := h.newer _ (Nat.le_trans hr ih.1) _ hc
    exact ⟨Nat.le_trans ih.1 (Nat.le_of_lt h₁), h₂⟩

/-- Hanging a fresh node below `c` or a hung node keeps the hung nodes apart. -/
theorem sprout (h : Sprouted d N c) {n : Node σ} (hn : Bare n) {p : Nat} (hp : p = c ∨ N ≤ p)
    (hps : p < d.nodes.size) : Sprouted (d.sprout n p) N c where
  newer j hj x hx := by
    rw [children_sprout d hn hps] at hx
    rw [size_sprout]
    split at hx
    · next hjp =>
      subst hjp
      rcases List.mem_append.mp hx with hx | hx
      · obtain ⟨h₁, h₂⟩ := h.newer j hj x hx
        exact ⟨h₁, Nat.lt_succ_of_lt h₂⟩
      · rw [List.mem_singleton.mp hx]
        exact ⟨hps, Nat.lt_succ_self _⟩
    · obtain ⟨h₁, h₂⟩ := h.newer j hj x hx
      exact ⟨h₁, Nat.lt_succ_of_lt h₂⟩
  container x hx := by
    rw [children_sprout d hn hps] at hx
    rw [size_sprout]
    split at hx
    · rcases List.mem_append.mp hx with hx | hx
      · obtain ⟨h₁, h₂⟩ := h.container x ((by assumption : c = p) ▸ hx)
        exact ⟨h₁, Nat.lt_succ_of_lt h₂⟩
      · rw [List.mem_singleton.mp hx]
        exact ⟨h.le, Nat.lt_succ_self _⟩
    · obtain ⟨h₁, h₂⟩ := h.container x hx
      exact ⟨h₁, Nat.lt_succ_of_lt h₂⟩
  lt := h.lt
  le := by rw [size_sprout]; exact Nat.le_succ_of_le h.le

end Sprouted

/-- Whatever lies below `r` in `d'` lies below it in `d`, when `d'` keeps the subtree of `r`. -/
theorem Below.of_agree {r k : Nat} (hag : ∀ m, Below d r m → d'.node m = d.node m)
    (h : Below d' r k) : Below d r k := by
  induction h with
  | refl => exact .refl
  | child _ hk ih => exact .child ih (hag _ ih ▸ hk)

/-- An open element `o` as its frame `f` says: its tag and attributes are the frame's, and its
children are the roots of the frame's trees, then `next`, the element open inside it. The
subtrees of the roots lie before `next`. -/
structure Level (d : Document σ) (o : Nat) (next : Option Nat) (f : Frame) : Prop where
  tag : (d.node o).tag = f.tag
  attrs : (d.node o).attributes = f.attrs
  roots : ∃ R, (d.node o).children = R ++ next.toList ∧
    (∀ fuel, d.nodes.size ≤ o + fuel → R.map (d.treeAt fuel) = f.kids) ∧
    ∀ x ∈ next, ∀ r ∈ R, ∀ k, Below d r k → k < x

namespace Level

/-- An element with nothing open inside reads as its frame closed. -/
theorem treeAt {o : Nat} {f : Frame} (h : Level d o none f) (ht : (d.node o).isText = false)
    {fuel : Nat} (hf : d.nodes.size ≤ o + fuel) : d.treeAt (fuel + 1) o = f.tree := by
  obtain ⟨R, hc, hR, -⟩ := h.roots
  rw [treeAt_succ ht, h.tag, h.attrs, hc, Option.toList_none, List.append_nil, hR fuel hf]
  rfl

/-- The element open inside `p` is closed into its frame as the tree it reads as. -/
theorem adopt {p o : Nat} {g : Frame} {t : Tree} (h : Level d p (some o) g)
    (ho : ∀ fuel, d.nodes.size ≤ o + fuel → d.treeAt (fuel + 1) o = t) (hpo : p < o)
    (hos : o < d.nodes.size) : Level d p none (g.adopt t) where
  tag := h.tag
  attrs := h.attrs
  roots := by
    obtain ⟨R, hc, hR, -⟩ := h.roots
    refine ⟨R ++ [o], by rw [hc]; simp, fun fuel hf => ?_, fun x hx => nomatch hx⟩
    obtain ⟨fuel, rfl⟩ : ∃ k, fuel = k + 1 := ⟨fuel - 1, by omega⟩
    rw [List.map_append, hR _ hf, List.map_singleton, ho fuel (by omega)]
    rfl

/-- A level whose nodes up to `x` another document keeps holds there too. -/
theorem agree {o x : Nat} {f : Frame} (h : Level d o (some x) f) (hox : o < x)
    (hag : ∀ m < x, d'.node m = d.node m) (hs : d.nodes.size ≤ d'.nodes.size) :
    Level d' o (some x) f where
  tag := by rw [hag o hox]; exact h.tag
  attrs := by rw [hag o hox]; exact h.attrs
  roots := by
    obtain ⟨R, hc, hR, hB⟩ := h.roots
    have hkeep : ∀ r ∈ R, ∀ m, Below d r m → d'.node m = d.node m :=
      fun r hr m hm => hag m (hB x rfl r hr m hm)
    refine ⟨R, by rw [hag o hox]; exact hc, fun fuel hf => ?_, fun y hy r hr k hk => ?_⟩
    · rw [← hR fuel (Nat.le_trans hs hf)]
      exact List.map_congr_left fun r hr => treeAt_congr (hkeep r hr) fuel r .refl
    · obtain rfl := Option.mem_some_iff.mp hy
      exact hB x rfl r hr k (Below.of_agree (hkeep r hr) hk)

/-- Hanging a fresh node below an element with nothing open inside: the node is the element open
inside it. -/
theorem sprout {o : Nat} {f : Frame} (h : Level d o none f) (hF : Sprouted d N c)
    (ho : o = c ∨ N ≤ o) (hos : o < d.nodes.size) {n : Node σ} (hn : Bare n) :
    Level (d.sprout n o) o (some d.nodes.size) f where
  tag := by rw [sprout_node_parent d hn hos]; exact h.tag
  attrs := by rw [sprout_node_parent d hn hos]; exact h.attrs
  roots := by
    obtain ⟨R, hc, hR, -⟩ := h.roots
    -- the subtrees of the roots lie past `o` and before the new node, so they stay
    have hkeep : ∀ r ∈ R, ∀ m, Below d r m → (d.sprout n o).node m = d.node m := by
      intro r hr m hm
      obtain ⟨hor, hrN, hrs⟩ := hF.child ho (by rw [hc]; exact List.mem_append_left _ hr)
      obtain ⟨hrm, hms⟩ := hF.below hrN hrs hm
      exact sprout_node_old d hn hms (by omega)
    refine ⟨R, by rw [sprout_children_parent d hn hos, hc]; simp, fun fuel hf => ?_,
      fun x hx r hr k hk => ?_⟩
    · rw [← hR fuel (by simp at hf; omega)]
      exact List.map_congr_left fun r hr => treeAt_congr (hkeep r hr) fuel r .refl
    · obtain rfl := Option.mem_some_iff.mp hx
      obtain ⟨-, hrN, hrs⟩ := hF.child ho (by rw [hc]; exact List.mem_append_left _ hr)
      exact (hF.below hrN hrs (Below.of_agree (hkeep r hr) hk)).2

end Level

/-- The open elements, innermost first, as the frames of the stack say: each is as its frame says,
with the one before it open inside; all but the last are elements, and the last is the container
`c`. -/
def Spine (d : Document σ) (c : Nat) : Option Nat → List Nat → List Frame → Prop
  | next, [o], [f] => o = c ∧ Level d o next f
  | next, o :: p :: os, f :: g :: fs =>
    (d.node o).isText = false ∧ Level d o next f ∧ Spine d c (some o) (p :: os) (g :: fs)
  | _, _, _ => False

namespace Spine

variable {next : Option Nat} {o : Nat} {os : List Nat} {f : Frame} {fs : List Frame}

theorem level (h : Spine d c next (o :: os) (f :: fs)) : Level d o next f := by
  cases os with
  | nil =>
    cases fs with
    | nil => exact h.2
    | cons => exact h.elim
  | cons p os =>
    cases fs with
    | nil => exact h.elim
    | cons g fs => exact h.2.1

/-- The innermost open element, changed as its frame is. -/
theorem retop {next' : Option Nat} {f' : Frame} (h : Spine d c next (o :: os) (f :: fs))
    (hl : Level d o next f → Level d o next' f') : Spine d c next' (o :: os) (f' :: fs) := by
  cases os with
  | nil =>
    cases fs with
    | nil => exact ⟨h.1, hl h.2⟩
    | cons => exact h.elim
  | cons p os =>
    cases fs with
    | nil => exact h.elim
    | cons g fs => exact ⟨h.1, hl h.2.1, h.2.2⟩

/-- An open element is the container or a hung node. -/
theorem opens (hF : Sprouted d N c) :
    ∀ {next o os fs}, Spine d c next (o :: os) fs →
      (o = c ∨ N ≤ o) ∧ o < d.nodes.size := by
  intro next o os
  induction os generalizing next o with
  | nil =>
    intro fs h
    rcases fs with _ | ⟨f, _ | ⟨g, fs⟩⟩
    · exact h.elim
    · exact ⟨.inl h.1, h.1 ▸ Nat.lt_of_lt_of_le hF.lt hF.le⟩
    · exact h.elim
  | cons p os ih =>
    intro fs h
    rcases fs with _ | ⟨f, _ | ⟨g, fs⟩⟩
    · exact h.elim
    · exact h.elim
    · -- `o` is the open child of the hung node or container below it
      obtain ⟨R, hR, -, -⟩ := h.2.2.level.roots
      obtain ⟨-, hoN, hos⟩ :=
        hF.child (ih h.2.2).1 (show o ∈ (d.node p).children by rw [hR]; simp)
      exact ⟨.inr hoN, hos⟩

/-- An open element below which nothing changed up to its open child. -/
theorem lt_next (hF : Sprouted d N c) {x : Nat} (h : Spine d c (some x) (o :: os) fs) : o < x := by
  rcases fs with _ | ⟨f, fs⟩
  · cases os <;> exact h.elim
  · obtain ⟨R, hR, -, -⟩ := h.level.roots
    exact (hF.child (h.opens hF).1 (show x ∈ (d.node o).children by rw [hR]; simp)).1

/-- The open elements below `x` stay as they are in a document that keeps every node before
`x`. -/
theorem agree (hF : Sprouted d N c) (hs : d.nodes.size ≤ d'.nodes.size) :
    ∀ {x os fs}, Spine d c (some x) os fs → (∀ m < x, d'.node m = d.node m) →
      Spine d' c (some x) os fs := by
  intro x os
  induction os generalizing x with
  | nil => intro fs h; cases fs <;> exact h.elim
  | cons o os ih =>
    intro fs h hag
    have hox := h.lt_next hF
    rcases os with _ | ⟨p, os⟩ <;> rcases fs with _ | ⟨f, _ | ⟨g, fs⟩⟩
    all_goals try exact h.elim
    · exact ⟨h.1, h.2.agree hox hag hs⟩
    · exact ⟨by rw [hag o hox]; exact h.1, h.2.1.agree hox hag hs,
        ih h.2.2 fun m hm => hag m (Nat.lt_trans hm hox)⟩

/-- Hanging a fresh node below the innermost open element: it is open inside that element. -/
theorem hang (hF : Sprouted d N c) {n : Node σ} (hn : Bare n)
    (h : Spine d c none (o :: os) (f :: fs)) :
    Spine (d.sprout n o) c (some d.nodes.size) (o :: os) (f :: fs) := by
  obtain ⟨ho, hos⟩ := h.opens hF
  have hag : ∀ m < o, (d.sprout n o).node m = d.node m :=
    fun m hm => sprout_node_old d hn (Nat.lt_trans hm hos) (Nat.ne_of_lt hm)
  rcases os with _ | ⟨p, os⟩ <;> rcases fs with _ | ⟨g, fs⟩
  all_goals try exact h.elim
  · exact ⟨h.1, h.2.sprout hF ho hos hn⟩
  · exact ⟨by rw [sprout_node_parent d hn hos]; exact h.1, h.2.1.sprout hF ho hos hn,
      h.2.2.agree hF (by simp) hag⟩

/-- A start tag that opens: its element is hung below the innermost open element and opened. -/
theorem push (hF : Sprouted d N c) {tag : String} {attrs : List (String × String)}
    (ht : (tag == textTag) = false) (h : Spine d c none (o :: os) (f :: fs)) :
    Spine (d.sprout (elementNode tag attrs) o) c none (d.nodes.size :: o :: os)
      (⟨tag, attrs, []⟩ :: f :: fs) := by
  have hos := (h.opens hF).2
  have hself :=
    sprout_node_self d (bare_elementNode tag attrs : Bare (elementNode tag attrs : Node σ)) hos
  refine ⟨by rw [hself]; exact ht, ⟨by rw [hself]; rfl, by rw [hself]; rfl, ?_⟩,
    h.hang hF (bare_elementNode tag attrs)⟩
  exact ⟨[], by rw [hself]; rfl, fun _ _ => rfl, fun x hx => nomatch hx⟩

/-- A text, or a start tag that does not open: a fresh node goes last below the innermost open
element. -/
theorem leaf (hF : Sprouted d N c) {n : Node σ} (hn : Bare n)
    (h : Spine d c none (o :: os) (f :: fs)) :
    Spine (d.sprout n o) c none (o :: os) (f.adopt (leafTree n) :: fs) := by
  have hos := (h.opens hF).2
  refine (h.hang hF hn).retop fun hl => hl.adopt (fun fuel _ => ?_) hos (by simp)
  rw [treeAt_sprout hn hos]
  rfl

/-- Closing the innermost open element into its frame. -/
theorem closeOne (hF : Sprouted d N c) {p : Nat} {g : Frame}
    (h : Spine d c none (o :: p :: os) (f :: g :: fs)) :
    Spine d c none (p :: os) (g.adopt f.tree :: fs) := by
  have hos := (h.opens hF).2
  obtain ⟨hto, hlo, hrest⟩ := h
  have hpo := hrest.lt_next hF
  exact hrest.retop fun hl => hl.adopt (fun fuel hf => hlo.treeAt hto hf) hpo hos

/-- Closing the `n` innermost open elements, with the container left open. -/
theorem closeN (hF : Sprouted d N c) :
    ∀ (n : Nat) {os fs}, n < os.length → Spine d c none os fs →
      Spine d c none (os.drop n) (Frames.closeN n fs)
  | 0, _, _, _, h => h
  | n + 1, os, fs, hn, h => by
    rcases os with _ | ⟨o, _ | ⟨p, os⟩⟩
    · exact absurd hn (by simp)
    · exact absurd hn (by simp)
    · rcases fs with _ | ⟨f, _ | ⟨g, fs⟩⟩
      all_goals try exact h.elim
      exact closeN hF n (by simp at hn ⊢; omega) (h.closeOne hF)

/-- The open elements have the tags of their frames. -/
theorem tags : ∀ {next os fs}, Spine d c next os fs →
    os.map (fun o => (d.node o).tag) = fs.map Frame.tag := by
  intro next os
  induction os generalizing next with
  | nil => intro fs h; cases fs <;> exact h.elim
  | cons o os ih =>
    intro fs h
    rcases os with _ | ⟨p, os⟩ <;> rcases fs with _ | ⟨f, _ | ⟨g, fs⟩⟩
    all_goals try exact h.elim
    · simp [h.2.tag]
    · have hrest := ih h.2.2
      simp only [List.map_cons] at hrest ⊢
      rw [h.2.1.tag, hrest]

/-- A closing tag closes in the document what it closes on the stack. -/
theorem close (hF : Sprouted d N c) (name : String) (h : Spine d c none os fs) :
    Spine d c none (d.closeOpen name os) (Frames.close name fs) := by
  have ht := h.tags
  have hlen : os.length = fs.length := by simpa using congrArg List.length ht
  have hfind : os.findIdx? (fun o => (d.node o).tag == name) = fs.findIdx? (·.tag == name) := by
    have h₁ : os.findIdx? (fun o => (d.node o).tag == name) =
        (os.map fun o => (d.node o).tag).findIdx? (· == name) := by
      rw [List.findIdx?_map]
      rfl
    have h₂ : fs.findIdx? (·.tag == name) = (fs.map Frame.tag).findIdx? (· == name) := by
      rw [List.findIdx?_map]
      rfl
    rw [h₁, h₂, ht]
  unfold closeOpen Frames.close
  rw [hfind]
  cases fs.findIdx? (·.tag == name) with
  | none => exact h
  | some k =>
    dsimp only
    rw [hlen]
    split
    · exact h.closeN hF _ (by omega)
    · exact h

/-- At the end, the trees below the container are those of the stack with everything closed. -/
theorem forest_eq (hF : Sprouted d N c) (h : Spine d c none os fs) :
    d.forest c = Frames.finish fs := by
  have hne : os ≠ [] := by rintro rfl; cases fs <;> exact h.elim
  have hlast := h.closeN hF (os.length - 1) (by have := List.length_pos_of_ne_nil hne; omega)
  obtain ⟨x, hx⟩ : ∃ x, os.drop (os.length - 1) = [x] :=
    List.length_eq_one_iff.mp (by simp; have := List.length_pos_of_ne_nil hne; omega)
  rw [hx] at hlast
  rw [← Frames.finish_closeN (os.length - 1) fs]
  rcases hc : Frames.closeN (os.length - 1) fs with _ | ⟨f, _ | ⟨g, gs⟩⟩
  all_goals rw [hc] at hlast
  · exact hlast.elim
  · obtain ⟨rfl, hl⟩ := hlast
    obtain ⟨R, hR, hkids, -⟩ := hl.roots
    rw [forest, hR, Option.toList_none, List.append_nil, hkids _ (by omega)]
    rfl
  · exact hlast.elim

end Spine

/-- A fresh node read from a token reads as that token's leaf. -/
theorem leafTree_elementNode {tag : String} (attrs : List (String × String))
    (ht : (tag == textTag) = false) :
    leafTree (elementNode tag attrs : Node σ) = .element tag attrs [] := by
  simp only [leafTree, Node.isText, elementNode_tag, ht, Bool.false_eq_true, ↓reduceIte]
  rfl

/-- Reading one token keeps the document as the stack says. -/
theorem Spine.token {os : List Nat} {fs : List Frame} (hF : Sprouted d N c)
    (h : Spine d c none os fs) {t : Token} (ht : t.namesText = false) :
    Sprouted (Document.readToken (os, d) t).2 N c ∧
      Spine (Document.readToken (os, d) t).2 c none (Document.readToken (os, d) t).1
        (Frames.step fs t) := by
  obtain ⟨o, os, rfl⟩ : ∃ o os', os = o :: os' := by
    rcases os with _ | ⟨o, os⟩
    · cases fs <;> exact h.elim
    · exact ⟨o, os, rfl⟩
  obtain ⟨f, fs, rfl⟩ : ∃ f fs', fs = f :: fs' := by
    rcases fs with _ | ⟨f, fs⟩
    · cases os <;> exact h.elim
    · exact ⟨f, fs, rfl⟩
  obtain ⟨ho, hos⟩ := h.opens hF
  cases t with
  | close name => exact ⟨hF, h.close hF name⟩
  | comment => exact ⟨hF, h⟩
  | start tag attrs selfClosing =>
    have hn : Bare (elementNode tag attrs : Node σ) := bare_elementNode tag attrs
    refine ⟨hF.sprout hn ho hos, ?_⟩
    simp only [Document.readToken, Frames.step, List.headD_cons]
    cases opensAfter tag selfClosing
    · have hleaf := h.leaf hF hn
      rw [leafTree_elementNode attrs ht] at hleaf
      exact hleaf
    · exact h.push hF ht
  | text s =>
    exact ⟨hF.sprout (bare_textNode s) ho hos, h.leaf hF (bare_textNode s)⟩

/-- Reading tokens keeps the document as the stack says. -/
theorem Spine.tokens :
    ∀ (ts : List Token) (st : List Nat × Document σ) (fs : List Frame),
      (∀ t ∈ ts, t.namesText = false) → Sprouted st.2 N c → Spine st.2 c none st.1 fs →
      Sprouted (ts.foldl Document.readToken st).2 N c ∧
        Spine (ts.foldl Document.readToken st).2 c none (ts.foldl Document.readToken st).1
          (ts.foldl Frames.step fs)
  | [], _, _, _, hF, h => ⟨hF, h⟩
  | t :: ts, st, fs, hts, hF, h => by
    have h₁ := h.token hF (hts t (List.mem_cons_self ..))
    exact Spine.tokens ts _ _ (fun t' ht' => hts t' (List.mem_cons_of_mem _ ht')) h₁.1 h₁.2

/-- Emptying `c` starts the reading: nothing is hung yet, and `c` alone is open. -/
theorem Sprouted.start (hc : c < d.nodes.size) : Sprouted (d.clearChildren c) d.nodes.size c where
  newer j hj x hx := by
    rw [children_clearChildren] at hx
    split at hx
    · cases hx
    · rw [node_of_size_le hj] at hx
      cases hx
  container x hx := by
    rw [children_clearChildren, if_pos rfl] at hx
    cases hx
  lt := hc
  le := by simp

theorem Spine.start (hc : c < d.nodes.size) :
    Spine (d.clearChildren c) c none [c] [⟨(d.node c).tag, (d.node c).attributes, []⟩] :=
  ⟨rfl, (keeps_clearChildren d c).tag c hc, attributes_clearChildren d c c,
    ⟨[], by rw [children_clearChildren, if_pos rfl]; rfl, fun _ _ => rfl,
      fun x hx => nomatch hx⟩⟩

/-- **Setting the inside of a node builds the trees its tokens describe.** Below `c` come the
trees that the stack of open elements builds from the tokens of the text; listed in document
order, their nodes are one per start tag and per text, in the order of the text. -/
theorem setInnerHtml_builds_tokens (d : Document σ) {c : Nat} (hc : c < d.nodes.size)
    (s : String) :
    (d.setInnerHtml c s).forest c =
        buildTokens ⟨(d.node c).tag, (d.node c).attributes, []⟩ (tokens s.toList) ∧
      Tree.nodesAll ((d.setInnerHtml c s).forest c) = (tokens s.toList).filterMap Token.made := by
  have hbuild : (d.setInnerHtml c s).forest c =
      buildTokens ⟨(d.node c).tag, (d.node c).attributes, []⟩ (tokens s.toList) := by
    obtain ⟨hF, hS⟩ := Spine.tokens (tokens s.toList) ([c], d.clearChildren c) _
      (tokens_namesText s.toList) (Sprouted.start hc) (Spine.start hc)
    rw [setInnerHtml, readInto_eq_tokens]
    exact hS.forest_eq hF
  refine ⟨hbuild, ?_⟩
  rw [hbuild, Frames.nodesAll_buildTokens]
  rfl

/-- A list whose items are never closed, set as the inside of the body of an empty page. -/
theorem setInnerHtml_builds_tokens_list :
    body < (empty : Document Unit).nodes.size ∧
      ((empty : Document Unit).setInnerHtml body "<ul><li>a<li>b</ul>").forest body =
          buildTokens ⟨((empty : Document Unit).node body).tag,
            ((empty : Document Unit).node body).attributes, []⟩
            (tokens "<ul><li>a<li>b</ul>".toList) ∧
        Tree.nodesAll
            (((empty : Document Unit).setInnerHtml body "<ul><li>a<li>b</ul>").forest body) =
          (tokens "<ul><li>a<li>b</ul>".toList).filterMap Token.made :=
  have hc : body < (empty : Document Unit).nodes.size := by decide
  ⟨hc, setInnerHtml_builds_tokens empty hc "<ul><li>a<li>b</ul>"⟩

/-- An item left open takes the next item inside it. -/
example : ((empty : Document Unit).setInnerHtml body "<ul><li>a<li>b</ul>").forest body =
    [.element "ul" [] [.element "li" [] [.text "a", .element "li" [] [.text "b"]]]] := by
  decide +kernel

end Document

end PageEditor.Markup
