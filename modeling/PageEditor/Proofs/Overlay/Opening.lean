import PageEditor.Proofs.Overlay.Layers
import PageEditor.Proofs.Markup.Tokens
import PageEditor.Proofs.Timeline.Scripts
/-!
# PageEditor.Proofs.Overlay.Opening

What opening a modal or a loader does to a page whose only stack it is.

An opening hangs its layer at the end of the body, after the backdrop it had to make when no
backdrop was on the page (`Opening`). Every other node it builds lies below the layer: the close
link of a modal with its label, and the content layer holding the content, however the content
markup nests (`setInnerHtml_below`). Besides, it only styles nodes, adds listeners that dismiss
the stack, and schedules the activation of a modal.

* `openLoader_opening`: a loader, over the backdrop;
* `openModal_opening`: a modal, when neither its content nor its variant carries the backdrop
  class.
-/

namespace PageEditor.Markup.Document

variable {σ : Type} {d d' : Document σ}

/-! ## Ancestors kept -/

/-- A document that settles the nodes of another keeps their ancestors. -/
theorem Ancestor.settle (hs : Settled d d') {a b : Nat} (h : Ancestor d a b) : Ancestor d' a b :=
  h.mono fun x y hxy => by
    rcases Nat.lt_or_ge x d.nodes.size with hx | hx
    · rw [hs.parent x hx]
      exact hxy
    · rw [node_of_size_le hx] at hxy
      cases hxy

/-- Hanging a node that had no parent keeps every ancestor. -/
theorem Ancestor.append_orphan {p c : Nat} (hc : (d.node c).parent = none)
    (hcs : c < d.nodes.size) {a b : Nat} (h : Ancestor d a b) : Ancestor (d.append p c) a b :=
  h.mono fun x y hxy => by
    rw [parent_append d p hcs, if_neg]
    · exact hxy
    · rintro rfl
      rw [hc] at hxy
      cases hxy

/-- Styling keeps every ancestor. -/
theorem Ancestor.reshape (hs : SameShape d d') {a b : Nat} (h : Ancestor d a b) :
    Ancestor d' a b :=
  h.mono fun x y hxy => by rw [hs.parent x]; exact hxy

theorem ancestor_append_self (p : Nat) {c : Nat} (hcs : c < d.nodes.size) :
    Ancestor (d.append p c) p c :=
  .parent (by rw [parent_append d p hcs, if_pos rfl])

/-! ## Markup read into a node stays below it -/

/-- While markup is read into `c`, the nodes from `N` on lie below `c`, and the open elements
are `c` or such nodes. -/
structure Nested (c N : Nat) (st : List Nat × Document σ) : Prop where
  opened : st.1 ≠ []
  opens : ∀ o ∈ st.1, o = c ∨ N ≤ o ∧ o < st.2.nodes.size
  below : ∀ j, N ≤ j → j < st.2.nodes.size → Ancestor st.2 c j
  lt : c < N
  le : N ≤ st.2.nodes.size

namespace Nested

variable {c N : Nat} {os : List Nat}

/-- A node hung below the innermost open element lies below `c`, as do the nodes before it. -/
theorem sprout (h : Nested c N (os, d)) {n : Node σ} (hn : Bare n) :
    ∀ j, N ≤ j → j < (d.sprout n (os.headD body)).nodes.size →
      Ancestor (d.sprout n (os.headD body)) c j := by
  obtain ⟨o, os', rfl⟩ := List.exists_cons_of_ne_nil h.opened
  have ho := h.opens o (List.mem_cons_self ..)
  have hos : o < d.nodes.size := by
    rcases ho with rfl | ho
    · exact Nat.lt_of_lt_of_le h.lt h.le
    · exact ho.2
  intro j hj hjs
  rw [size_sprout] at hjs
  rcases Nat.lt_or_ge j d.nodes.size with hjd | hjd
  · exact Ancestor.settle ((Settled.refl d).sprout n o) (h.below j hj hjd)
  · -- the new node hangs from `o`, which is `c` or lies below it
    obtain rfl : j = d.nodes.size := by omega
    have hpar : ((d.sprout n o).node d.nodes.size).parent = some o := by
      rw [sprout_node_self d hn hos]
    rcases ho with rfl | ho
    · exact .parent hpar
    · exact .up hpar (Ancestor.settle ((Settled.refl d).sprout n o) (h.below o ho.1 ho.2))

/-- Reading one token keeps the new nodes below `c`. -/
theorem readToken {st : List Nat × Document σ} (h : Nested c N st) (t : Token) :
    Nested c N (Document.readToken st t) := by
  obtain ⟨os, d⟩ := st
  have hopens : ∀ {os' : List Nat}, (∀ o ∈ os', o ∈ os ∨ o = d.nodes.size) →
      ∀ o ∈ os', o = c ∨ N ≤ o ∧ o < d.nodes.size + 1 := by
    intro os' hsub o ho
    rcases hsub o ho with ho | rfl
    · rcases h.opens o ho with rfl | ho
      · exact .inl rfl
      · exact .inr ⟨ho.1, Nat.lt_succ_of_lt ho.2⟩
    · exact .inr ⟨h.le, Nat.lt_succ_self _⟩
  cases t with
  | close name =>
    exact ⟨closeOpen_ne_nil d name h.opened,
      fun o ho => h.opens o (closeOpen_sub d name os o ho), h.below, h.lt, h.le⟩
  | comment => exact h
  | start tag attrs selfClosing =>
    refine ⟨?_, ?_, h.sprout ⟨rfl, rfl, rfl⟩, h.lt, ?_⟩
    · dsimp only [Document.readToken]
      split
      · exact List.cons_ne_nil _ _
      · exact h.opened
    · dsimp only [Document.readToken]
      rw [size_sprout]
      split
      · exact hopens fun o ho => (List.mem_cons.mp ho).symm.imp id id
      · exact hopens fun o ho => .inl ho
    · simp only [Document.readToken, size_sprout]
      exact Nat.le_succ_of_le h.le
  | text s =>
    refine ⟨h.opened, ?_, h.sprout ⟨rfl, rfl, rfl⟩, h.lt, ?_⟩
    · simp only [Document.readToken, size_sprout]
      exact hopens fun o ho => .inl ho
    · simp only [Document.readToken, size_sprout]
      exact Nat.le_succ_of_le h.le

theorem foldl (ts : List Token) :
    ∀ {st : List Nat × Document σ}, Nested c N st →
      Nested c N (ts.foldl Document.readToken st) := by
  induction ts with
  | nil => exact id
  | cons t ts ih => exact fun h => ih (h.readToken t)

end Nested

/-- **Markup read into a node stays below it**: every node that setting the inside of `c` makes
lies below `c`, however the markup opens and closes its elements. -/
theorem setInnerHtml_below {c : Nat} (hc : c < d.nodes.size) (html : String) :
    ∀ j, d.nodes.size ≤ j → j < (d.setInnerHtml c html).nodes.size →
      Ancestor (d.setInnerHtml c html) c j := by
  have start : Nested c d.nodes.size ([c], d.clearChildren c) := by
    refine ⟨List.cons_ne_nil _ _, fun o ho => .inl (List.mem_singleton.mp ho), ?_, hc, ?_⟩
    · intro j hj hjs
      rw [size_clearChildren] at hjs
      omega
    · rw [size_clearChildren]
  rw [setInnerHtml, readInto_eq_tokens]
  exact (Nested.foldl _ start).below

end PageEditor.Markup.Document

namespace PageEditor.Markup.Document.Fresh

variable {d e e' : Document Reaction} {x y : Nat} {cls cls' : String}

/-- An element stays fresh while fresh elements are built after it. -/
theorem after (h : Fresh d e x cls) (h' : Fresh e e' y cls') : Fresh d e' x cls :=
  h.later h'.settled h'.keeps h'.children h'.forest h'.grown

end PageEditor.Markup.Document.Fresh

namespace PageEditor.Ui

open Markup Markup.Document

/-! ## Building a modal -/

/-- The nodes `d'` gained over `d` are the hung ones and nodes below its layers. -/
def Enclosed (d d' : Document Reaction) (made : Option Nat) (layers : List Nat) : Prop :=
  ∀ j, d.nodes.size ≤ j → j < d'.nodes.size →
    j ∈ made.toList ++ layers ∨ ∃ l ∈ layers, Ancestor d' l j

/-- A modal with the class list `cls` built and hung at the end of the body: it holds its close
link, labelled by a span, and its content layer, which holds the content. -/
def hangModal (d : Document Reaction) (cls closeCls content : String) : Document Reaction :=
  let d₁ := (d.createElement "div").2.setClassName d.nodes.size cls
  let d₂ := (((d₁.createElement "a").2.setClassName d₁.nodes.size closeCls).setInnerHtml
    d₁.nodes.size "<span>Close</span>").setAttribute d₁.nodes.size "href" "#"
  let d₃ := ((d₂.createElement "div").2.setClassName d₂.nodes.size "modal-inner").setInnerHtml
    d₂.nodes.size content
  ((d₃.append d.nodes.size d₁.nodes.size).append d.nodes.size d₂.nodes.size).append body
    d.nodes.size

section Modal

variable {s : Settings} {id : Nat} {d : Document Reaction}

theorem size_classed (d : Document Reaction) (tag cls : String) :
    ((d.createElement tag).2.setClassName d.nodes.size cls).nodes.size = d.nodes.size + 1 := by
  simp [setClassName, setAttribute, createElement]

/-- `g` is `e` with the orphan `n` holding the orphans `c₁` and `c₂` and hung at the end of the
body: it keeps the forest, the nodes and their classes, and gains only those links. -/
structure PairHung (e g : Document Reaction) (n c₁ c₂ : Nat) : Prop where
  forest : Forest g
  grown : Grown g
  keeps : Keeps e g
  size : g.nodes.size = e.nodes.size
  classes : ∀ x c, g.hasClass x c = e.hasClass x c
  body : (g.node body).children = (e.node body).children ++ [n]
  first : Ancestor g n c₁
  second : Ancestor g n c₂
  lift : ∀ {a j}, Ancestor e a j → Ancestor g a j

/-- Hanging two new orphans under a new element, and the element at the end of the body. -/
theorem pairHung {e : Document Reaction} (hf : Forest e) (hg : Grown e) {n c₁ c₂ : Nat}
    (hbn : body < n) (h₁ : n < c₁) (h₂ : c₁ < c₂) (hc : c₂ < e.nodes.size)
    (hon : (e.node n).parent = none) (ho₁ : (e.node c₁).parent = none)
    (ho₂ : (e.node c₂).parent = none) (hnt : (e.node n).isText = false)
    (hbt : (e.node body).isText = false) :
    PairHung e (((e.append n c₁).append n c₂).append body n) n c₁ c₂ := by
  set g₁ := e.append n c₁
  set g₂ := g₁.append n c₂
  have hs₁ : g₁.nodes.size = e.nodes.size := size_append _ _ _
  have hs₂ : g₂.nodes.size = e.nodes.size := by rw [size_append, hs₁]
  -- the second part and the element are still orphans when their turn comes
  have horphan₁ : (g₁.node c₂).parent = none := by
    rw [parent_append _ _ (by omega), if_neg (by omega)]
    exact ho₂
  have horphan₂ : (g₂.node n).parent = none := by
    rw [parent_append _ _ (by omega), if_neg (by omega), parent_append _ _ (by omega),
      if_neg (by omega)]
    exact hon
  have hkeeps₁ : Keeps e g₁ := keeps_append _ _ _
  have hkeeps₂ : Keeps e g₂ := hkeeps₁.trans (keeps_append _ _ _)
  have hf₁ : Forest g₁ := hf.append_newer hg h₁ (by omega) hnt
  have hg₁ : Grown g₁ := hg.append h₁ (by omega)
  have hf₂ : Forest g₂ := hf₁.append_newer hg₁ (by omega) (by omega)
    (by rw [Node.isText, hkeeps₁.tag n (by omega)]; exact hnt)
  have hg₂ : Grown g₂ := hg₁.append (by omega) (by omega)
  refine ⟨hf₂.append_newer hg₂ hbn (by omega)
      (by rw [Node.isText, hkeeps₂.tag body (by omega)]; exact hbt),
    hg₂.append hbn (by omega), hkeeps₂.trans (keeps_append _ _ _), by rw [size_append, hs₂],
    fun x c => by simp only [g₂, g₁, hasClass_append], ?_, ?_, ?_, fun h => ?_⟩
  · rw [children_append_of_orphan horphan₂ (by omega), if_pos rfl,
      children_append_of_orphan horphan₁ (by omega), if_neg (by omega),
      children_append_of_orphan ho₁ (by omega), if_neg (by omega)]
  · exact ((ancestor_append_self n (by omega)).append_orphan horphan₁ (by omega)).append_orphan
      horphan₂ (by omega)
  · exact (ancestor_append_self n (by omega)).append_orphan horphan₂ (by omega)
  · exact ((h.append_orphan ho₁ (by omega)).append_orphan horphan₁ (by omega)).append_orphan
      horphan₂ (by omega)

variable (id) in
/-- A modal is hung with the modal as its one layer; its close link and content layer are its
parts, and every other node it brings lies below it. -/
theorem hangModal_hung (hs : Layered s) (hf : Forest d) (hg : Grown d) (hb : body < d.nodes.size)
    (hbt : (d.node body).isText = false) {cls content : String}
    (htag : s.overlayTag ∈ Text.splitBlank cls) (hcls : s.backdropClass ∉ Text.splitBlank cls)
    (hcontent : Unclassed s.backdropClass content) :
    (∃ parts, Hung s id d (hangModal d cls ("modal-close " ++ s.closeTag) content) none
      [d.nodes.size] parts) ∧
    Enclosed d (hangModal d cls ("modal-close " ++ s.closeTag) content) none [d.nodes.size] := by
  -- the three elements, built one after another before anything is hung
  set n := d.nodes.size with hn
  set closeCls := "modal-close " ++ s.closeTag
  set e₁ := (d.createElement "div").2.setClassName n cls
  have f₁ : Fresh d e₁ n cls := fresh_classed hf hg (by decide +kernel) cls
  have hs₁ : e₁.nodes.size = n + 1 := size_classed d "div" cls
  set a := (e₁.createElement "a").2.setClassName e₁.nodes.size closeCls
  have fa : Fresh e₁ a e₁.nodes.size closeCls :=
    fresh_classed f₁.forest f₁.grown (by decide +kernel) _
  have hsa : a.nodes.size = n + 2 := by rw [size_classed, hs₁]
  have hlabel := label_spec (e := a) (x := e₁.nodes.size) (by omega)
  set e₂ :=
    (a.setInnerHtml e₁.nodes.size "<span>Close</span>").setAttribute e₁.nodes.size "href" "#"
  have f₂ : Fresh e₁ e₂ e₁.nodes.size closeCls :=
    (fa.setInnerHtml (children_classed e₁ "a" closeCls) _).setAttribute (by decide) "#"
  have hs₂ : e₂.nodes.size = n + 4 := by
    simp only [e₂, setAttribute, size_modify]
    omega
  set b := (e₂.createElement "div").2.setClassName e₂.nodes.size "modal-inner"
  have hsb : b.nodes.size = n + 5 := by rw [size_classed, hs₂]
  set e₃ := b.setInnerHtml e₂.nodes.size content
  have f₃ : Fresh e₂ e₃ e₂.nodes.size "modal-inner" :=
    (fresh_classed f₂.forest f₂.grown (by decide +kernel) _).setInnerHtml
      (children_classed e₂ "div" "modal-inner") content
  have F₂ := f₂.after f₃
  have F₁ := f₁.after F₂
  have hn₃ : n < e₃.nodes.size := F₁.lt_size
  have hc₃ : e₁.nodes.size < e₃.nodes.size := F₂.lt_size
  have hi₃ : e₂.nodes.size < e₃.nodes.size := f₃.lt_size
  -- hanging: the close link and the content layer into the modal, the modal into the body
  set g := ((e₃.append n e₁.nodes.size).append n e₂.nodes.size).append body n
  show (∃ parts, Hung s id d g none [n] parts) ∧ Enclosed d g none [n]
  have P : PairHung e₃ g n e₁.nodes.size e₂.nodes.size :=
    pairHung F₁.forest F₁.grown (by omega) (by omega) (by omega) hi₃ F₁.orphan F₂.orphan
      f₃.orphan F₁.element ((F₁.settled.isText hb).trans hbt)
  have hsettled : Settled d g :=
    ((F₁.settled.append n (by omega)).append n (by omega)).append body (Nat.le_refl _)
  have hbody : (g.node body).children = (d.node body).children ++ [n] := by
    rw [P.body, F₁.children body hb]
  -- neither part carries the overlay tag
  have hcloseTag : e₃.hasClass e₁.nodes.size s.overlayTag = false := by
    rw [F₂.classes]
    exact Bool.eq_false_iff.mpr fun h => hs.close_apart (List.contains_iff_mem.mp h)
  have hinnerTag : e₃.hasClass e₂.nodes.size s.overlayTag = false := by
    have hinner : Text.splitBlank "modal-inner" = ["modal-inner"] := by decide
    rw [f₃.classes]
    exact Bool.eq_false_iff.mpr fun h => hs.inner_apart (by simpa [hinner] using h)
  obtain ⟨hlsize, hlcls⟩ := hlabel
  refine ⟨⟨[e₁.nodes.size, e₂.nodes.size], ?_⟩, ?_⟩
  · constructor
    case forest => exact P.forest
    case grown => exact P.grown
    case settled => exact hsettled
    case body =>
      rw [hbody]
      simp
    case fresh =>
      -- the modal and its two parts are new
      intro x hx
      simp only [Option.toList_none, List.nil_append, List.cons_append, List.mem_cons,
        List.not_mem_nil, or_false] at hx
      rw [P.size]
      rcases hx with rfl | rfl | rfl <;> omega
    case elements =>
      intro x hx
      simp only [Option.toList_none, List.nil_append, List.mem_singleton] at hx
      subst hx
      rw [Node.isText, P.keeps.tag _ hn₃]
      exact F₁.element
    case tagged =>
      intro x hx
      simp only [Option.toList_none, List.nil_append, List.mem_singleton] at hx
      subst hx
      rw [P.classes, F₁.classes]
      exact List.contains_iff_mem.mpr htag
    case backdrop =>
      intro b hb
      simp at hb
    case plain =>
      intro x hx
      simp only [List.mem_cons, List.not_mem_nil, or_false] at hx
      rcases hx with rfl | rfl
      · rw [P.classes]
        exact hcloseTag
      · rw [P.classes]
        exact hinnerTag
    case apart =>
      -- the modal misses the backdrop class, its parts the overlay tag, and the label and the
      -- content the backdrop class
      intro x hx hm hbx
      rw [P.classes] at hbx ⊢
      rcases Nat.lt_or_ge x e₃.nodes.size with hx₃ | hx₃
      · rcases (show x = n ∨ x = e₁.nodes.size ∨
            (e₁.nodes.size < x ∧ x < e₂.nodes.size) ∨ x = e₂.nodes.size ∨
            e₂.nodes.size < x by omega) with rfl | rfl | hlab | rfl | hcon
        · rw [F₁.classes] at hbx
          exact absurd (List.contains_iff_mem.mp hbx) hcls
        · exact hcloseTag
        · rw [f₃.settled.hasClass (by omega), hasClass_setAttribute_of_ne _ _ _ _ _ (by decide)]
            at hbx
          rcases (show x = a.nodes.size ∨ x = a.nodes.size + 1 by omega) with rfl | rfl
          · rw [(hlcls _).1] at hbx
            cases hbx
          · rw [(hlcls _).2] at hbx
            cases hbx
        · exact hinnerTag
        · rw [hcontent b e₂.nodes.size x (by omega)] at hbx
          cases hbx
      · rw [hasClass_of_size_le hx₃] at hbx
        cases hbx
    case listeners =>
      intro j l hl
      left
      rw [← F₁.keeps.listeners j, ← P.keeps.listeners j]
      exact hl
  · -- enclosed: the modal is hung, and every other new node lies below it
    intro j hj hjs
    rw [P.size] at hjs
    rcases Nat.lt_or_ge j (n + 1) with h₀ | h₀
    · exact .inl (by simp; omega)
    refine .inr ⟨n, List.mem_singleton_self n, ?_⟩
    rcases (show j = e₁.nodes.size ∨ (e₁.nodes.size < j ∧ j < e₂.nodes.size) ∨
        j = e₂.nodes.size ∨ e₂.nodes.size < j by omega) with rfl | hlab | rfl | hcon
    · exact P.first
    · have h := setInnerHtml_below (d := a) (by omega : e₁.nodes.size < a.nodes.size)
        "<span>Close</span>" j (by omega) (by omega)
      exact P.first.trans (P.lift (Ancestor.settle f₃.settled
        (Ancestor.reshape (restyled_setAttribute _ _ _ _).shape h)))
    · exact P.second
    · exact P.second.trans
        (P.lift (setInnerHtml_below (d := b) (by omega) content j (by omega) hjs))

end Modal

/-! ## Opening a layer -/

/-- The backdrop an opening makes: the next node, when no backdrop is on the page. -/
def madeFor (s : Settings) (d : Document Reaction) : Option Nat :=
  if (backdrop? s d).isSome then none else some d.nodes.size

/-- The stack `id` is the page's only overlay stack. -/
def Lone (id : Nat) (p : Page) : Prop := ∃ st, p.overlays = [st] ∧ st.id = id

theorem Rewired.lone {id : Nat} {p q : Page} (h : Rewired id p q) (hp : Lone id p) :
    Lone id q := by
  obtain ⟨st, hst, rfl⟩ := hp
  obtain ⟨ws, hq⟩ := h.stack st hst
  exact ⟨_, hq, rfl⟩

theorem Lone.of_overlays {id : Nat} {p q : Page} (hp : Lone id p)
    (h : q.overlays = p.overlays) : Lone id q := by
  rw [Lone, h]
  exact hp

namespace Enclosed

variable {d d₁ d₂ : Document Reaction} {made : Option Nat} {layers : List Nat}

/-- Dressing a document brings no node. -/
theorem dress {id : Nat} (h : Enclosed d d₁ made layers) (hd : Dressed id d₁ d₂) :
    Enclosed d d₂ made layers := by
  intro j hj hjs
  rw [hd.cosmetic.size] at hjs
  obtain h | ⟨l, hl, hlj⟩ := h j hj hjs
  · exact .inl h
  · exact .inr ⟨l, hl, Ancestor.reshape hd.cosmetic.sameShape hlj⟩

/-- Hanging more layers after some. -/
theorem trans (h₁ : Enclosed d d₁ made layers) {layers₂ : List Nat}
    (h₂ : Enclosed d₁ d₂ none layers₂) (hs : Settled d₁ d₂) :
    Enclosed d d₂ made (layers ++ layers₂) := by
  intro j hj hjs
  rcases Nat.lt_or_ge j d₁.nodes.size with hj₁ | hj₁
  · obtain h | ⟨l, hl, hlj⟩ := h₁ j hj hj₁
    · exact .inl (by simp only [← List.append_assoc]; exact List.mem_append_left _ h)
    · exact .inr ⟨l, List.mem_append_left _ hl, Ancestor.settle hs hlj⟩
  · obtain h | ⟨l, hl, hlj⟩ := h₂ j hj₁ hjs
    · exact .inl (by simp only [Option.toList_none, List.nil_append] at h; simp [h])
    · exact .inr ⟨l, List.mem_append_right _ hl, hlj⟩

end Enclosed

theorem size_hangLayer (d : Document Reaction) (cls : String) :
    (hangLayer d cls).nodes.size = d.nodes.size + 1 := by
  simp [hangLayer, setClassName, setAttribute, createElement]

/-- A hung layer is the one new node. -/
theorem hangLayer_enclosed (d : Document Reaction) (cls : String) {made : Option Nat}
    {layers : List Nat} (hnew : made.toList ++ layers = [d.nodes.size]) :
    Enclosed d (hangLayer d cls) made layers := by
  intro j hj hjs
  rw [size_hangLayer] at hjs
  exact .inl (by rw [hnew, List.mem_singleton]; omega)

section Opening

variable {s : Settings} {id : Nat} {p q : Page}

theorem goes_ensureBackdrop (id : Nat) : Goes (ensureBackdrop id) := by
  unfold ensureBackdrop
  refine goes_settings.bind fun _ => goes_doc.bind fun _ => ?_
  dsimp only
  -- a backdrop found or made, then wired
  split
  · exact (goes_pure _).bind fun _ => goes_wire _ _ _
  · exact (goes_withDoc _).bind fun _ => (goes_onDoc _).bind fun _ => (goes_pure _).bind fun _ =>
      goes_wire _ _ _

/-- Making sure of a backdrop leaves the clock, the timers and the settings as they were. -/
theorem ensureBackdrop_frame (h : (ensureBackdrop id).run p = .ok ((), q)) :
    q.timeline = p.timeline ∧ q.settings = p.settings := by
  unfold ensureBackdrop at h
  rw [run_bind_of_ok (run_settings p), run_bind_of_ok (run_doc p)] at h
  cases hbk : backdrop? p.settings p.doc with
  | some b =>
    simp only [hbk, pure_bind] at h
    rw [(wire_rewired (.inl rfl) h).frame]
    exact ⟨rfl, rfl⟩
  | none =>
    simp only [hbk, pure_bind] at h
    rw [run_bind_of_ok (run_withDoc p _), run_bind_of_ok (run_onDoc _ _)] at h
    rw [(wire_rewired (.inl rfl) h).frame]
    exact ⟨rfl, rfl⟩

/-- Making sure of a backdrop hangs one exactly when none is on the page, and wires it. -/
theorem ensureBackdrop_spec (hs : Layered s) (hps : p.settings = s) (hf : Forest p.doc)
    (hg : Grown p.doc) (hb : body < p.doc.nodes.size) (hbt : (p.doc.node body).isText = false)
    (h : (ensureBackdrop id).run p = .ok ((), q)) :
    Hung s id p.doc q.doc (madeFor s p.doc) [] [] ∧ Enclosed p.doc q.doc (madeFor s p.doc) [] ∧
      q.settings = p.settings ∧ q.timeline = p.timeline ∧ (Lone id p → Lone id q) := by
  subst hps
  obtain ⟨htl, hset⟩ := ensureBackdrop_frame h
  unfold ensureBackdrop at h
  rw [run_bind_of_ok (run_settings p), run_bind_of_ok (run_doc p)] at h
  cases hbk : backdrop? p.settings p.doc with
  | some b₀ =>
    -- a backdrop is on the page: it is only wired
    simp only [hbk, pure_bind] at h
    have hw := wire_rewired (.inl rfl) h
    have hmade : madeFor p.settings p.doc = none := by simp [madeFor, hbk]
    rw [hmade]
    refine ⟨(Hung.rfl' hf hg).dress hw.dressed, fun j hj hjs => ?_, hset, htl, hw.lone⟩
    rw [hw.dressed.cosmetic.size] at hjs
    omega
  | none =>
    -- none is: a new one is hung at the end of the body, then wired
    simp only [hbk, pure_bind] at h
    rw [run_bind_of_ok (run_withDoc p _), run_bind_of_ok (run_onDoc _ _)] at h
    have hw := wire_rewired (.inl rfl) h
    have hmade : madeFor p.settings p.doc = some p.doc.nodes.size := by simp [madeFor, hbk]
    rw [hmade]
    have hwords : Text.splitBlank (p.settings.backdropClass ++ " " ++ p.settings.overlayTag) =
        [p.settings.backdropClass, p.settings.overlayTag] := by
      rw [Text.splitBlank_join, hs.backdrop_word, hs.tag_word]
      rfl
    have hhung : Hung p.settings id p.doc
        (hangLayer p.doc (p.settings.backdropClass ++ " " ++ p.settings.overlayTag))
        (some p.doc.nodes.size) [] [] :=
      hangLayer_hung hf hg hb hbt rfl (by simp [hwords]) (fun _ => by simp [hwords])
        (fun h => by cases h)
    exact ⟨hhung.dress hw.dressed, (hangLayer_enclosed _ _ rfl).dress hw.dressed, hset, htl,
      fun hp => hw.lone (hp.of_overlays rfl)⟩

/-- `q` is `p` after the stack `id` opened the layer `x`, with the backdrop `made` hung before it
when it had to make one: every other new node lies below the layer, the settings stay, the stack
stays the page's only one, and the only timer added activates the layer. -/
structure Opening (s : Settings) (id : Nat) (p q : Page) (made : Option Nat) (x : Nat) : Prop where
  hung : ∃ parts, Hung s id p.doc q.doc made [x] parts
  enclosed : Enclosed p.doc q.doc made [x]
  settings : q.settings = p.settings
  lone : Lone id p → Lone id q
  timers : ∀ tm ∈ q.timeline.timers,
    tm ∈ p.timeline.timers ∨ tm.task = .activate x s.modalActiveClass

theorem lone_updateStack {id : Nat} {p : Page} {f : OverlayStack → OverlayStack}
    (hf : ∀ st, (f st).id = st.id) (hp : Lone id p) :
    Lone id { p with overlays := p.overlays.map fun st => if st.id == id then f st else st } := by
  obtain ⟨st, hst, rfl⟩ := hp
  exact ⟨f st, by simp [hst], hf st⟩

theorem schedule_timers {delay : Nat} {ch : Chore} {k : TimerKey}
    (h : (schedule delay ch).run p = .ok (k, q)) :
    q = { p with timeline := q.timeline } ∧
      q.timeline.timers = p.timeline.timers ++ [⟨k, ch⟩] := by
  rw [schedule_run] at h
  split at h
  · obtain ⟨rfl, rfl⟩ := Prod.mk.inj (Except.ok.inj h)
    exact ⟨rfl, rfl⟩
  · cases h

theorem except_bind_eq_ok {α β : Type} {e : Except DueOverflow α}
    {f : α → Except DueOverflow β} {b : β} (h : e >>= f = .ok b) :
    ∃ a, e = .ok a ∧ f a = .ok b := by
  cases e with
  | error => cases h
  | ok a => exact ⟨a, rfl, h⟩

/-- **Opening a loader** hangs it over the backdrop, making one when none is on the page. -/
theorem openLoader_opening (hs : Layered s) (hps : p.settings = s) (hf : Forest p.doc)
    (hg : Grown p.doc) (hb : body < p.doc.nodes.size) (hbt : (p.doc.node body).isText = false)
    {x : Nat} (h : (openLoader id).run p = .ok (x, q)) : Opening s id p q (madeFor s p.doc) x := by
  unfold openLoader at h
  obtain ⟨_, p₁, he, h⟩ := run_bind_eq_ok h
  obtain ⟨hung₁, enc₁, hset₁, htime₁, hlone₁⟩ :=
    ensureBackdrop_spec hs hps hf hg hb hbt he
  simp only [StateT.run_bind, run_settings, run_withDoc, run_onDoc, except_ok_bind, hset₁, hps]
    at h
  obtain ⟨rfl, rfl⟩ := Prod.mk.inj (Except.ok.inj h)
  -- the loader carries the overlay tag and misses the backdrop class
  have hwords : Text.splitBlank (s.loaderClass ++ " " ++ s.overlayTag) =
      Text.splitBlank s.loaderClass ++ [s.overlayTag] := by
    rw [Text.splitBlank_join, hs.tag_word]
  have hloader : Hung s id p₁.doc (hangLayer p₁.doc (s.loaderClass ++ " " ++ s.overlayTag)) none
      [p₁.doc.nodes.size] [] :=
    hangLayer_hung hung₁.forest hung₁.grown (Nat.lt_of_lt_of_le hb hung₁.settled.size_le)
      ((hung₁.settled.isText hb).trans hbt) rfl (by simp [hwords]) (fun h => by cases h)
      fun _ => by simpa [hwords] using ⟨hs.loader_apart, hs.tag_ne⟩
  have hung : Hung s id p.doc (hangLayer p₁.doc (s.loaderClass ++ " " ++ s.overlayTag))
      (madeFor s p.doc) [p₁.doc.nodes.size] [] := by
    simpa using hung₁.trans hloader
  have enc : Enclosed p.doc (hangLayer p₁.doc (s.loaderClass ++ " " ++ s.overlayTag))
      (madeFor s p.doc) [p₁.doc.nodes.size] := by
    simpa using enc₁.trans (hangLayer_enclosed _ _ rfl) hloader.settled
  exact ⟨⟨[], hung⟩, enc, hps.symm, fun hp => (hlone₁ hp).imp fun st h => ⟨h.1, h.2⟩,
    fun tm htm => .inl (by rw [← htime₁]; exact htm)⟩

/-- The words of a modal's class list: the modal class, the overlay tag and the variant's. -/
theorem mem_modalClass {variant : Option String} {c : String}
    (h : c ∈ Text.splitBlank (modalClass s variant)) :
    c ∈ Text.splitBlank s.modalClass ∨ c ∈ Text.splitBlank s.overlayTag ∨
      ∃ v ∈ variant, c ∈ Text.splitBlank v := by
  unfold modalClass at h
  have hbase : c ∈ Text.splitBlank (s.modalClass ++ " " ++ s.overlayTag) →
      c ∈ Text.splitBlank s.modalClass ∨ c ∈ Text.splitBlank s.overlayTag := by
    rw [Text.splitBlank_join, List.mem_append]
    exact id
  cases variant with
  | none => exact (hbase h).elim .inl (.inr ∘ .inl)
  | some v =>
    simp only [Option.map_some] at h
    split at h
    · exact (hbase h).elim .inl (.inr ∘ .inl)
    · rw [Text.splitBlank_join, List.mem_append, Text.splitBlank_trim] at h
      rcases h with h | h
      · exact (hbase h).elim .inl (.inr ∘ .inl)
      · exact .inr (.inr ⟨v, rfl, h⟩)

theorem overlayTag_mem_modalClass (hs : Layered s) (variant : Option String) :
    s.overlayTag ∈ Text.splitBlank (modalClass s variant) := by
  have hbase : s.overlayTag ∈ Text.splitBlank (s.modalClass ++ " " ++ s.overlayTag) := by
    rw [Text.splitBlank_join, hs.tag_word]
    simp
  unfold modalClass
  cases variant with
  | none => exact hbase
  | some v =>
    simp only [Option.map_some]
    split
    · exact hbase
    · rw [Text.splitBlank_join]
      exact List.mem_append_left _ hbase

/-- **Opening a modal** hangs it over the backdrop, making one when none is on the page, when
neither its content nor its variant carries the backdrop class. -/
theorem openModal_opening (hs : Layered s) (hps : p.settings = s) (hf : Forest p.doc)
    (hg : Grown p.doc) (hb : body < p.doc.nodes.size) (hbt : (p.doc.node body).isText = false)
    {content : String} {variant : Option String} (hcontent : Unclassed s.backdropClass content)
    (hvariant : ∀ v ∈ variant, s.backdropClass ∉ Text.splitBlank v) {x : Nat}
    (h : (openModal id content variant).run p = .ok (x, q)) :
    Opening s id p q (madeFor s p.doc) x := by
  unfold openModal at h
  obtain ⟨_, p₁, he, h⟩ := run_bind_eq_ok h
  obtain ⟨hung₁, enc₁, hset₁, htime₁, hlone₁⟩ :=
    ensureBackdrop_spec hs hps hf hg hb hbt he
  simp only [StateT.run_bind, run_settings, run_withDoc, run_onDoc, except_ok_bind] at h
  -- the modal is built and hung; then its activation is scheduled, it is centered, and the close
  -- triggers are wired
  obtain ⟨⟨key, p₃⟩, hsch, h⟩ := except_bind_eq_ok h
  obtain ⟨hp₃, htimers₃⟩ := schedule_timers hsch
  simp only [run_updateStack, except_ok_bind] at h
  obtain ⟨⟨_, p₅⟩, hcen, h⟩ := except_bind_eq_ok h
  obtain ⟨⟨_, p₆⟩, hwire, h⟩ := except_bind_eq_ok h
  obtain ⟨rfl, rfl⟩ := Prod.mk.inj (Except.ok.inj h)
  have hc : Rewired id _ p₅ := center_rewired hcen
  have hw : Rewired id p₅ p₆ := wireCloseTriggers_rewired hwire
  have hdoc : p₃.doc = hangModal p₁.doc (modalClass s variant) ("modal-close " ++ s.closeTag)
      content := by
    rw [hp₃, hset₁, hps]
    rfl
  have hmodal := hangModal_hung id hs hung₁.forest hung₁.grown
    (Nat.lt_of_lt_of_le hb hung₁.settled.size_le) ((hung₁.settled.isText hb).trans hbt)
    (overlayTag_mem_modalClass hs variant)
    (fun h => (mem_modalClass h).elim hs.modal_apart fun h => h.elim
      (fun h => hs.tag_ne (by simpa [hs.tag_word] using h))
      fun ⟨v, hv, h⟩ => hvariant v hv h)
    hcontent
  rw [← hdoc] at hmodal
  obtain ⟨⟨parts, hung₂⟩, enc₂⟩ := hmodal
  have hdress : Dressed id p₃.doc p₆.doc := hc.dressed.trans hw.dressed
  -- what the three last steps keep, read off field by field
  have hset₆ : p₆.settings = p₃.settings := by rw [hw.frame, hc.frame]
  have htl₆ : p₆.timeline = p₃.timeline := by rw [hw.frame, hc.frame]
  have hset₃ : p₃.settings = p₁.settings := by rw [hp₃]
  have hover₃ : p₃.overlays = p₁.overlays := by rw [hp₃]
  have htl₁ : p₃.timeline.timers = p.timeline.timers ++
      [⟨key, .activate p₁.doc.nodes.size s.modalActiveClass⟩] := by
    rw [htimers₃, ← htime₁, hset₁, hps]
    rfl
  have hung : Hung s id p.doc p₆.doc (madeFor s p.doc) [p₁.doc.nodes.size] parts := by
    simpa using (hung₁.trans hung₂).dress hdress
  have enc : Enclosed p.doc p₆.doc (madeFor s p.doc) [p₁.doc.nodes.size] := by
    simpa using (enc₁.trans enc₂ hung₂.settled).dress hdress
  refine ⟨⟨parts, hung⟩, enc, hset₆.trans (hset₃.trans hset₁), fun hp => ?_,
    fun tm htm => ?_⟩
  · exact hw.lone (hc.lone (lone_updateStack (fun _ => rfl)
      ((hlone₁ hp).of_overlays hover₃)))
  · rw [htl₆, htl₁, List.mem_append, List.mem_singleton] at htm
    rcases htm with htm | rfl
    · exact .inl htm
    · exact .inr rfl

theorem goes_openLoader (id : Nat) : Goes (openLoader id) := by
  unfold openLoader
  exact (goes_ensureBackdrop id).bind fun _ => goes_settings.bind fun _ => (goes_withDoc _).bind
    fun l => (goes_onDoc _).bind fun _ => goes_pure l

end Opening

end PageEditor.Ui
