import PageEditor.Proofs.Coordinator.Activity
import PageEditor.Proofs.Markup.Reachable
/-!
# PageEditor.Proofs.Page.Bubbling

How an event goes through the document.

`dispatch n kind` takes the path of `n` (the node, its parent, and so on up to a node without a
parent) before any listener runs. Then, for each node of that path in turn, it runs the
listeners for `kind` that the node has when the event gets there, one after the other in the
order they were added. The flag it answers says whether one of them prevented the event's
default.

The relations below say this without the monad, as relational folds. `Runs` is the run of one
node's listeners, recording each call with the flag the listener raised; `Bubbles` strings the
nodes of a path together, each reading its listeners off the page the node before it left. A
listener only ever raises the flag, and what it does does not depend on the flag (`react_run`),
so the flag a dispatch answers is whether some call raised it (`dispatch_iff_bubbles`). In a
forest the path climbs the parent links to a node without a parent and passes no node twice
(`Forest.path_climbs`, `Climbs.nodup`). However the listeners move nodes, the path is the one
taken at the start (`dispatch_bubbles`).
-/

namespace PageEditor.Markup.Document

variable {σ : Type} {d : Document σ}

/-! ## The path of a node -/

/-- `Climbs d n l`: `l` is `n`, its parent, its parent's parent and so on, up to a node without
a parent. -/
inductive Climbs (d : Document σ) : Nat → List Nat → Prop
  | top {n : Nat} : (d.node n).parent = none → Climbs d n [n]
  | up {n m : Nat} {l : List Nat} : (d.node n).parent = some m → Climbs d m l →
      Climbs d n (n :: l)

/-- A climb from `n` passes `n` and ancestors of `n` only. -/
theorem Climbs.mem {n : Nat} {l : List Nat} (h : Climbs d n l) :
    ∀ x ∈ l, x = n ∨ Ancestor d x n := by
  induction h with
  | top _ => simp
  | up hp _ ih =>
    intro x hx
    rcases List.mem_cons.mp hx with rfl | hx
    · exact .inl rfl
    · rcases ih x hx with rfl | hx
      · exact .inr (.parent hp)
      · exact .inr (.up hp hx)

/-- In a forest a climb passes no node twice: a node met again would be its own ancestor. -/
theorem Climbs.nodup (hf : Forest d) {n : Nat} {l : List Nat} (h : Climbs d n l) : l.Nodup := by
  induction h with
  | top _ => exact List.nodup_singleton _
  | @up n m l hp hl ih =>
    refine List.nodup_cons.mpr ⟨fun hn => ?_, ih⟩
    rcases hl.mem n hn with rfl | hanc
    · exact hf.not_ancestor_self n (.parent hp)
    · exact hf.not_ancestor_self n (.up hp hanc)

/-- Going up with fuel past the number of ancestors climbs to a node without a parent. -/
theorem Forest.path_up_climbs (hf : Forest d) : ∀ f j, (ancestors d j).card < f →
    Climbs d j (path.up d f j)
  | 0, _, h => absurd h (Nat.not_lt_zero _)
  | f + 1, j, h => by
    simp only [path.up]
    split
    · next p hp =>
      have hlt := hf.ancestors_parent_lt hp
      exact .up hp (hf.path_up_climbs f p (by omega))
    · next hp => exact .top hp

/-- In a forest the path of a node climbs to a node without a parent. -/
theorem Forest.path_climbs (hf : Forest d) (n : Nat) : Climbs d n (d.path n) := by
  have := card_ancestors_le d n
  exact hf.path_up_climbs _ n (by omega)

end PageEditor.Markup.Document

namespace PageEditor.Ui

open Markup Markup.Document

/-! ## A listener raises the flag and nothing else depends on it -/

/-- A step followed by a flag that only ever adds to the flag it is given: running it with any
flag is running it with `false` and adding the flag. -/
theorem run_bind_flag {α : Type} (x : Act α) (f : Bool → α → Bool)
    (hf : ∀ b a, f b a = (b || f false a)) (b : Bool) (p : Page) :
    (x >>= fun a => pure (f b a)).run p =
      (fun y => (b || y.1, y.2)) <$> (x >>= fun a => pure (f false a)).run p := by
  rw [StateT.run_bind, StateT.run_bind]
  cases x.run p with
  | error e => rfl
  | ok aq => simp only [except_ok_bind, StateT.run_pure, except_pure, except_map_ok, ← hf]

/-- A listener runs alike whatever the flag: it leaves the same page, and raises the flag or
leaves it as it was. -/
theorem react_run (b : Bool) (r : Reaction) (p : Page) :
    (react b r).run p = (fun y => (b || y.1, y.2)) <$> (react false r).run p := by
  cases r with
  | markDirty c => exact run_bind_flag (markDirty c) (fun b _ => b) (by simp) b p
  | requireReload c => exact run_bind_flag (requireReload c) (fun b _ => b) (by simp) b p
  | interceptSubmit c => exact run_bind_flag (interceptSubmit c) (fun b a => b || a) (by simp) b p
  | dismissOverlays st => exact run_bind_flag (dismiss st) (fun b _ => b) (by simp) b p
  | closeOverlays st => exact run_bind_flag (dismiss st) (fun _ _ => true) (by simp) b p
  | copyField k f => exact run_bind_flag (copyField k f) (fun b _ => b) (by simp) b p
  | followSelector e sel label fallback =>
    exact run_bind_flag (followSelector e sel label fallback) (fun b _ => b) (by simp) b p

/-! ## Bubbling as relations -/

/-- A listener's run during a dispatch: the node it is registered on, what it does, and whether
it prevented the event's default. -/
structure Call where
  node : Nat
  reaction : Reaction
  prevented : Bool
  deriving Repr, DecidableEq

/-- `Runs i rs p calls q`: the listeners `rs` of node `i` run one after the other from page `p`,
each on the page the one before left, and leave page `q`; `calls` records each run. -/
inductive Runs (i : Nat) : List Reaction → Page → List Call → Page → Prop
  | nil (p : Page) : Runs i [] p [] p
  | cons {r : Reaction} {rs : List Reaction} {p q p' : Page} {b : Bool} {calls : List Call} :
      (react false r).run p = .ok (b, q) → Runs i rs q calls p' →
      Runs i (r :: rs) p (⟨i, r, b⟩ :: calls) p'

/-- `Bubbles kind path p calls q`: an event of `kind` goes along `path` from page `p` to page
`q`: at each node the listeners for `kind` that the node has on the page the event finds there
run, and `calls` records every run, node by node. -/
inductive Bubbles (kind : EventKind) : List Nat → Page → List Call → Page → Prop
  | nil (p : Page) : Bubbles kind [] p [] p
  | cons {i : Nat} {rest : List Nat} {p q p' : Page} {calls calls' : List Call} :
      Runs i (p.doc.listenersOf i kind) p calls q → Bubbles kind rest q calls' p' →
      Bubbles kind (i :: rest) p (calls ++ calls') p'

/-- The listeners of a node, run in turn, answer the flag they were given raised by whatever
the calls raised. -/
theorem foldlM_react_iff (i : Nat) : ∀ (rs : List Reaction) (prev b : Bool) (p q : Page),
    (rs.foldlM react prev).run p = .ok (b, q) ↔
      ∃ calls, Runs i rs p calls q ∧ b = (prev || calls.any (·.prevented))
  | [], prev, b, p, q => by
    constructor
    · intro h
      cases h
      exact ⟨[], .nil p, by simp⟩
    · rintro ⟨calls, hr, rfl⟩
      cases hr
      simp [StateT.run_pure]
  | r :: rs, prev, b, p, q => by
    rw [List.foldlM_cons, StateT.run_bind, react_run]
    cases hr : (react false r).run p with
    | error e =>
      have herr : ((fun y => (prev || y.1, y.2)) <$>
          (Except.error e : Except DueOverflow (Bool × Page))) = .error e := rfl
      rw [herr, except_error_bind]
      refine ⟨(fun h => by cases h), ?_⟩
      rintro ⟨calls, hruns, -⟩
      cases hruns with
      | cons h _ => rw [hr] at h; cases h
    | ok cq =>
      obtain ⟨c, p₁⟩ := cq
      simp only [except_map_ok, except_ok_bind]
      rw [foldlM_react_iff i rs]
      constructor
      · rintro ⟨calls, hruns, rfl⟩
        exact ⟨⟨i, r, c⟩ :: calls, .cons hr hruns, by simp [Bool.or_assoc]⟩
      · rintro ⟨calls, hruns, rfl⟩
        cases hruns with
        | cons h hrest =>
          rw [hr] at h
          obtain ⟨rfl, rfl⟩ := Prod.mk.inj (Except.ok.inj h)
          exact ⟨_, hrest, by simp [Bool.or_assoc]⟩

/-- Along a path, the listeners of each node run on the page the event finds there, and the flag
is raised when some call raised it. -/
theorem foldlM_path_iff (kind : EventKind) : ∀ (path : List Nat) (prev b : Bool) (p q : Page),
    (path.foldlM (fun prev i => do
        let listeners := (← doc).listenersOf i kind
        listeners.foldlM react prev) prev).run p = .ok (b, q) ↔
      ∃ calls, Bubbles kind path p calls q ∧ b = (prev || calls.any (·.prevented))
  | [], prev, b, p, q => by
    constructor
    · intro h
      cases h
      exact ⟨[], .nil p, by simp⟩
    · rintro ⟨calls, hb, rfl⟩
      cases hb
      simp [StateT.run_pure]
  | i :: rest, prev, b, p, q => by
    rw [List.foldlM_cons]
    constructor
    · intro h
      obtain ⟨c, p₁, h₁, h₂⟩ := run_bind_eq_ok h
      rw [StateT.run_bind, run_doc, except_ok_bind] at h₁
      obtain ⟨calls₁, hruns, rfl⟩ := (foldlM_react_iff i _ prev c p p₁).mp h₁
      obtain ⟨calls₂, hrest, rfl⟩ := (foldlM_path_iff kind rest _ b p₁ q).mp h₂
      exact ⟨calls₁ ++ calls₂, .cons hruns hrest, by simp [Bool.or_assoc]⟩
    · rintro ⟨calls, hb, rfl⟩
      cases hb with
      | @cons _ _ _ p₁ _ calls₁ calls₂ hruns hrest =>
        have h₁ := (foldlM_react_iff i _ prev _ p p₁).mpr ⟨calls₁, hruns, rfl⟩
        have h₂ := (foldlM_path_iff kind rest (prev || calls₁.any (·.prevented)) _ p₁ q).mpr
          ⟨calls₂, hrest, rfl⟩
        rw [StateT.run_bind, StateT.run_bind, run_doc, except_ok_bind, h₁, except_ok_bind, h₂]
        simp [Bool.or_assoc]

/-- A dispatch answers `b` and leaves `q` exactly when the event bubbles along the path taken
at the start, with `b` telling whether some call prevented the default. -/
theorem dispatch_iff_bubbles (p : Page) (n : Nat) (kind : EventKind) (b : Bool) (q : Page) :
    (dispatch n kind).run p = .ok (b, q) ↔
      ∃ calls, Bubbles kind (p.doc.path n) p calls q ∧ b = calls.any (·.prevented) := by
  rw [dispatch, StateT.run_bind, run_doc, except_ok_bind, foldlM_path_iff]
  simp

/-- **An event bubbles once along the path taken when it is fired.** In a forest, the path of
`n` climbs from `n` through its parents to a node without a parent, passing no node twice. A
dispatch of `kind` at `n` answers `b` and leaves page `q` exactly when the event goes along that
path, taken from the page as it was when the event was fired: at each node it runs the
listeners for `kind` that the node has when the event gets there, each once and in the order
they were added, and nothing else, whatever those listeners do to the tree; `b` tells whether
one of the calls prevented the default. -/
theorem dispatch_bubbles {p : Page} (hf : Forest p.doc) (n : Nat) (kind : EventKind) :
    Climbs p.doc n (p.doc.path n) ∧ (p.doc.path n).Nodup ∧
      ∀ b q, (dispatch n kind).run p = .ok (b, q) ↔
        ∃ calls, Bubbles kind (p.doc.path n) p calls q ∧ b = calls.any (·.prevented) :=
  ⟨hf.path_climbs n, (hf.path_climbs n).nodup hf, dispatch_iff_bubbles p n kind⟩

/-- A freshly loaded form holding a text input: the path of the input climbs through the form
and the body to the root, and a click on the input bubbles along it with no call. -/
theorem dispatch_bubbles_input :
    let p := Page.load "<form id=\"f\"><input id=\"t\"></form>" {} 768 [] [] []
    Forest p.doc ∧ p.doc.path 3 = [3, 2, 1, 0] ∧
      ∃ calls, Bubbles .click [3, 2, 1, 0] p calls p ∧ calls.any (·.prevented) = false := by
  intro p
  -- the loaded document is the markup's, with the layout's heights beside its nodes
  have hr : Restyled (withBody "<form id=\"f\"><input id=\"t\"></form>" : Document Reaction)
      p.doc :=
    ⟨⟨rfl, fun _ => rfl, fun _ => rfl⟩, fun _ => rfl⟩
  have hf : Forest p.doc := (Reachable.withBody _).forest.restyle hr
  have hu : Untouched p := load_untouched _ _ _ _ _ _
  have hpath : p.doc.path 3 = [3, 2, 1, 0] := by decide +kernel
  obtain ⟨-, -, hiff⟩ := dispatch_bubbles hf 3 .click
  have hquiet : ∀ i, p.doc.listenersOf i .click = [] := fun i => by
    simp [listenersOf, hu.quiet i]
  obtain ⟨calls, hb, hany⟩ := (hiff false p).mp (dispatch_silent hquiet 3)
  exact ⟨hf, hpath, calls, hpath ▸ hb, hany.symm⟩

end PageEditor.Ui
