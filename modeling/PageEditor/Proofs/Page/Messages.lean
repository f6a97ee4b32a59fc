import PageEditor.Proofs.Page.Clock
/-!
# PageEditor.Proofs.Page.Messages

When the messages of a board leave.

A board books one timer per message, each detaching its message from its parent:

1. a batch books the `j`-th message of the page, in document order, after the `j`-th removal
   delay (`batchRemovals`, `scheduleBatch_ok`);
2. a fragment from the server fills the message region, and each message then inside the region
   is booked after the saved-message delay (`regionRemovals`, `replaceRegion_ok`);
3. an error is appended to the region as a new element, booked after the same delay
   (`pushError_ok`);
4. cancelling takes the board's timers off the timeline (`cancel_run`).

Booking fails, and the whole run with it, exactly when a due time passes the largest word of
time (`scheduleBatch_error`, and the same for the others); an advance by the largest word
saturates the clock, and the next batch fails (`batch_after_saturated_advance_overflows`). The
removal delay of the `j`-th message of a batch is
`min (2^32 - 1) (message_delay + min j (2^32 - 1) * stagger)`, worked out over the naturals
(`Settings.removalDelay_eq`), so it never wraps and grows with `j`; the keys of a batch
therefore increase in document order.

`Posted` is every page that board actions, edits of the document and advances reach from a
fresh page. Each of them keeps the timeline orderly with only removals waiting (`Timed.perform`,
`Posted.timed`), so on every such page each advance runs, in key order, exactly the waiting
timers due by its target, each with the clock at its due time, detaching their messages and
changing nothing else (`OnTime`, `messages_leave_on_time`).
-/

namespace PageEditor

/-! ## The removal delay -/

namespace Settings

/-- The saturated product is the product unless it passes the largest word, and then so does
the saturated sum. -/
theorem removalDelay_eq (s : Settings) (i : Nat) :
    s.removalDelay i =
      min Json.word32Limit (s.messageDelayMs + min i Json.word32Limit * s.messageStaggerMs) := by
  have hidx : (if i ≤ Json.word32Limit then i else Json.word32Limit) = min i Json.word32Limit := by
    split <;> omega
  simp only [removalDelay, saturatingAdd32, saturatingMul32, hidx]
  generalize min i Json.word32Limit * s.messageStaggerMs = x
  omega

theorem removalDelay_le (s : Settings) (i : Nat) : s.removalDelay i ≤ Json.word32Limit := by
  rw [removalDelay_eq]
  exact Nat.min_le_left _ _

/-- Later messages of a batch leave no earlier. -/
theorem removalDelay_mono (s : Settings) {i j : Nat} (h : i ≤ j) :
    s.removalDelay i ≤ s.removalDelay j := by
  rw [removalDelay_eq, removalDelay_eq]
  have : min i Json.word32Limit * s.messageStaggerMs ≤ min j Json.word32Limit * s.messageStaggerMs :=
    Nat.mul_le_mul_right _ (by omega)
  omega

end Settings

namespace Ui

open Timeline Markup

/-! ## Booking removals -/

/-- The removals booked for messages, each given with its delay. -/
def removals (L : List (Nat × Nat)) : List (Nat × Chore) :=
  L.map fun x => (x.2, .detach x.1)

/-- The removals of a batch: the `j`-th message of the page, in document order, after the
`j`-th removal delay. -/
def batchRemovals (p : Page) : List (Nat × Chore) :=
  (p.doc.elementsByClass p.settings.messageClass).zipIdx.map fun x =>
    (p.settings.removalDelay x.2, .detach x.1)

/-- The removals after a fragment fills region `r` of document `d`: each message in the region
after the saved-message delay. -/
def regionRemovals (s : Settings) (d : Document Reaction) (r : Nat) : List (Nat × Chore) :=
  (d.elementsByClassWithin r s.messageClass).map fun m => (s.savedMessageDelayMs, .detach m)

/-- The removals of a region are those of its messages, each after the saved-message delay. -/
theorem regionRemovals_eq (s : Settings) (d : Document Reaction) (r : Nat) :
    regionRemovals s d r = removals ((d.elementsByClassWithin r s.messageClass).map
      fun m => (m, s.savedMessageDelayMs)) := by
  simp [regionRemovals, removals]

/-- Whether every removal of a list falls due within a word of time from a clock. -/
def Fits (now : Nat) (L : List (Nat × Chore)) : Prop := ∀ x ∈ L, now + x.1 ≤ wordLimit

theorem removeLater_run (b : Board) (m delay : Nat) (p : Page) :
    (b.removeLater m delay).run p =
      if p.timeline.now + delay ≤ wordLimit then
        .ok (⟨b.timers ++ [⟨p.timeline.now + delay, p.timeline.nextSeq⟩]⟩,
          { p with timeline := (p.timeline.schedule delay (.detach m)).2 })
      else .error ⟨p.timeline.now, delay⟩ := by
  by_cases h : p.timeline.now + delay ≤ wordLimit
  · rw [Board.removeLater, run_bind_of_ok (by rw [schedule_run, if_pos h]), if_pos h]
    rfl
  · rw [Board.removeLater, StateT.run_bind, schedule_run, if_neg h, if_neg h]
    rfl

/-- Booking removals one after another, when all fall due within a word: the board keeps the
keys of the new timers after its own. -/
theorem removeLaters_ok {X : Type} (g : X → Nat × Nat) (f : Board → X → Act Board)
    (hf : ∀ b x, f b x = b.removeLater (g x).1 (g x).2) :
    ∀ (xs : List X) (b : Board) (p : Page), Fits p.timeline.now (removals (xs.map g)) →
      (xs.foldlM f b).run p =
        .ok (⟨b.timers ++ (p.timeline.booked (removals (xs.map g))).map (·.key)⟩,
          { p with timeline := p.timeline.bookAll (removals (xs.map g)) })
  | [], b, p, _ => by simp [removals, booked, bookAll]
  | x :: xs, b, p, hfit => by
    have hx : p.timeline.now + (g x).2 ≤ wordLimit :=
      hfit ((g x).2, .detach (g x).1) (by simp [removals])
    rw [List.foldlM_cons, hf, run_bind_of_ok (by rw [removeLater_run, if_pos hx])]
    -- the rest is booked from the clock of the first booking, which is the same clock
    have hrest : Fits (p.timeline.schedule (g x).2 (.detach (g x).1)).2.now (removals (xs.map g)) :=
      fun y hy => by simpa using hfit y (by simp_all [removals])
    rw [removeLaters_ok g f hf xs _
      { p with timeline := (p.timeline.schedule (g x).2 (.detach (g x).1)).2 } hrest]
    simp [removals, booked_cons, bookAll]

/-- Booking removals fails when one falls due past the largest word. -/
theorem removeLaters_error {X : Type} (g : X → Nat × Nat) (f : Board → X → Act Board)
    (hf : ∀ b x, f b x = b.removeLater (g x).1 (g x).2) :
    ∀ (xs : List X) (b : Board) (p : Page), ¬ Fits p.timeline.now (removals (xs.map g)) →
      ∃ e, (xs.foldlM f b).run p = .error e
  | [], b, p, h => absurd (fun x hx => by simp [removals] at hx) h
  | x :: xs, b, p, h => by
    rw [List.foldlM_cons, hf]
    by_cases hx : p.timeline.now + (g x).2 ≤ wordLimit
    · rw [run_bind_of_ok (by rw [removeLater_run, if_pos hx])]
      refine removeLaters_error g f hf xs _ _ fun hrest => h fun y hy => ?_
      simp only [removals, List.map_cons, List.mem_cons] at hy
      rcases hy with rfl | hy
      · exact hx
      · exact hrest y (by simpa [removals] using hy)
    · refine ⟨⟨p.timeline.now, (g x).2⟩, ?_⟩
      rw [StateT.run_bind, removeLater_run, if_neg hx]
      rfl

/-- A batch goes through the messages with their positions, which is their `zipIdx`. -/
theorem batch_removals (s : Settings) (ms : List Nat) :
    removals (((List.range ms.length).zip ms).map fun x => (x.2, s.removalDelay x.1)) =
      ms.zipIdx.map fun x => (s.removalDelay x.2, .detach x.1) := by
  apply List.ext_getElem <;> simp [removals]

/-- **A batch books the `j`-th message after the `j`-th removal delay**, when all fall due
within a word; the board keeps the new keys after its own. -/
theorem scheduleBatch_ok {b : Board} {p : Page} (hfit : Fits p.timeline.now (batchRemovals p)) :
    (b.scheduleBatch).run p =
      .ok (((p.doc.elementsByClass p.settings.messageClass).length,
          ⟨b.timers ++ (p.timeline.booked (batchRemovals p)).map (·.key)⟩),
        { p with timeline := p.timeline.bookAll (batchRemovals p) }) := by
  have hL := batch_removals p.settings (p.doc.elementsByClass p.settings.messageClass)
  rw [Board.scheduleBatch, run_bind_of_ok (run_settings p), run_bind_of_ok (run_doc p)]
  rw [batchRemovals, ← hL] at hfit ⊢
  rw [run_bind_of_ok (removeLaters_ok (fun (x : Nat × Nat) => (x.2, p.settings.removalDelay x.1)) _
    ?hf _ _ _ hfit)]
  · rfl
  · intro b x
    rfl

theorem scheduleBatch_error {b : Board} {p : Page} (hover : ¬ Fits p.timeline.now (batchRemovals p)) :
    ∃ e, (b.scheduleBatch).run p = .error e := by
  have hL := batch_removals p.settings (p.doc.elementsByClass p.settings.messageClass)
  rw [Board.scheduleBatch, run_bind_of_ok (run_settings p), run_bind_of_ok (run_doc p)]
  rw [batchRemovals, ← hL] at hover
  obtain ⟨e, he⟩ := removeLaters_error (fun (x : Nat × Nat) => (x.2, p.settings.removalDelay x.1)) _
    (fun b x => rfl) _ b p hover
  exact ⟨e, by rw [StateT.run_bind, he]; rfl⟩

/-- A page without a message region keeps its fragment and its errors to itself. -/
theorem replaceRegion_absent {b : Board} {p : Page} {html : String}
    (hr : p.doc.elementById p.settings.messageRegionId = none) :
    (b.replaceRegion html).run p = .ok ((false, b), p) := by
  rw [Board.replaceRegion, run_bind_of_ok (run_settings p), run_bind_of_ok (run_doc p)]
  simp only [hr]
  rfl

theorem pushError_absent {b : Board} {p : Page} {text : String}
    (hr : p.doc.elementById p.settings.messageRegionId = none) :
    (b.pushError text).run p = .ok ((false, b), p) := by
  rw [Board.pushError, run_bind_of_ok (run_settings p), run_bind_of_ok (run_doc p)]
  simp only [hr]
  rfl

/-- **A fragment fills the region, and each message then in it is booked after the
saved-message delay**, when all fall due within a word. -/
theorem replaceRegion_ok {b : Board} {p : Page} {html : String} {r : Nat}
    (hr : p.doc.elementById p.settings.messageRegionId = some r)
    (hfit : Fits p.timeline.now (regionRemovals p.settings (p.doc.setInnerHtml r html) r)) :
    (b.replaceRegion html).run p =
      .ok ((true, ⟨b.timers ++ (p.timeline.booked
          (regionRemovals p.settings (p.doc.setInnerHtml r html) r)).map (·.key)⟩),
        { p with
          doc := p.doc.setInnerHtml r html
          timeline :=
            p.timeline.bookAll (regionRemovals p.settings (p.doc.setInnerHtml r html) r) }) := by
  rw [Board.replaceRegion, run_bind_of_ok (run_settings p), run_bind_of_ok (run_doc p)]
  simp only [hr]
  rw [run_bind_of_ok (run_onDoc p _), run_bind_of_ok (run_doc _)]
  dsimp only
  rw [regionRemovals_eq] at hfit ⊢
  rw [run_bind_of_ok (removeLaters_ok (fun m => (m, p.settings.savedMessageDelayMs)) _ ?hf _ _
    { p with doc := p.doc.setInnerHtml r html } hfit)]
  · rfl
  · intro b x
    rfl

theorem replaceRegion_error {b : Board} {p : Page} {html : String} {r : Nat}
    (hr : p.doc.elementById p.settings.messageRegionId = some r)
    (hover : ¬ Fits p.timeline.now (regionRemovals p.settings (p.doc.setInnerHtml r html) r)) :
    ∃ e, (b.replaceRegion html).run p = .error e := by
  rw [Board.replaceRegion, run_bind_of_ok (run_settings p), run_bind_of_ok (run_doc p)]
  simp only [hr]
  rw [run_bind_of_ok (run_onDoc p _), run_bind_of_ok (run_doc _)]
  dsimp only
  rw [regionRemovals_eq] at hover
  obtain ⟨e, he⟩ := removeLaters_error (fun m => (m, p.settings.savedMessageDelayMs)) _
    (fun b x => rfl) _ b { p with doc := p.doc.setInnerHtml r html } hover
  exact ⟨e, by rw [StateT.run_bind, he]; rfl⟩

/-- The element an error is written into: the next node of the document. -/
def errorNode (p : Page) : Nat := (p.doc.createElement "div").1

/-- **An error is appended to the region as a new element, booked after the saved-message
delay**, when it falls due within a word. -/
theorem pushError_ok {b : Board} {p : Page} {text : String} {r : Nat}
    (hr : p.doc.elementById p.settings.messageRegionId = some r)
    (hfit : p.timeline.now + p.settings.savedMessageDelayMs ≤ wordLimit) :
    (b.pushError text).run p =
      .ok ((true, ⟨b.timers ++ [⟨p.timeline.now + p.settings.savedMessageDelayMs,
          p.timeline.nextSeq⟩]⟩),
        { p with
          doc := appendError p.settings p.doc text
          timeline := (p.timeline.schedule p.settings.savedMessageDelayMs
            (.detach (errorNode p))).2 }) := by
  rw [Board.pushError, run_bind_of_ok (run_settings p), run_bind_of_ok (run_doc p)]
  simp only [hr]
  rw [run_bind_of_ok (run_withDoc p _), run_bind_of_ok (run_onDoc _ _),
    run_bind_of_ok (by rw [removeLater_run, if_pos hfit])]
  simp [appendError, hr, errorNode]

theorem pushError_error {b : Board} {p : Page} {text : String} {r : Nat}
    (hr : p.doc.elementById p.settings.messageRegionId = some r)
    (hover : ¬ p.timeline.now + p.settings.savedMessageDelayMs ≤ wordLimit) :
    ∃ e, (b.pushError text).run p = .error e := by
  rw [Board.pushError, run_bind_of_ok (run_settings p), run_bind_of_ok (run_doc p)]
  simp only [hr]
  rw [run_bind_of_ok (run_withDoc p _), run_bind_of_ok (run_onDoc _ _), StateT.run_bind,
    removeLater_run, if_neg hover]
  exact ⟨_, rfl⟩

/-- Cancelling takes the board's timers off the timeline and leaves the board empty. -/
theorem cancel_run (b : Board) (p : Page) :
    b.cancel.run p = .ok (⟨[]⟩, { p with timeline := p.timeline.cancelAll b.timers }) := rfl

/-! ## What a board action leaves on the timeline -/

/-- Removals read off any list, each with its own delay and node, only detach. -/
theorem detaching_map {β : Type} (L : List β) (delay node : β → Nat) :
    Detaching (L.map fun x => (delay x, .detach (node x))) := by
  intro y hy
  obtain ⟨x, -, rfl⟩ := List.mem_map.mp hy
  exact ⟨node x, rfl⟩

theorem batchRemovals_detaching (p : Page) : Detaching (batchRemovals p) :=
  detaching_map (p.doc.elementsByClass p.settings.messageClass).zipIdx
    (fun x => p.settings.removalDelay x.2) (·.1)

theorem regionRemovals_detaching (s : Settings) (d : Document Reaction) (r : Nat) :
    Detaching (regionRemovals s d r) :=
  detaching_map _ (fun _ => s.savedMessageDelayMs) id

/-- A batch that goes through books its removals. -/
theorem scheduleBatch_books {b : Board} {p q : Page} {r : Nat × Board}
    (h : b.scheduleBatch.run p = .ok (r, q)) :
    q.timeline = p.timeline.bookAll (batchRemovals p) := by
  by_cases hfit : Fits p.timeline.now (batchRemovals p)
  · rw [scheduleBatch_ok hfit] at h
    rw [← (Prod.mk.inj (Except.ok.inj h)).2]
  · obtain ⟨e, he⟩ := scheduleBatch_error (b := b) hfit
    rw [he] at h
    cases h

/-- A fragment that goes through books the removals of the messages then in the region. -/
theorem replaceRegion_books {b : Board} {html : String} {p q : Page} {r : Bool × Board}
    (h : (b.replaceRegion html).run p = .ok (r, q)) :
    ∃ L, Detaching L ∧ q.timeline = p.timeline.bookAll L := by
  cases hr : p.doc.elementById p.settings.messageRegionId with
  | none =>
    rw [replaceRegion_absent hr] at h
    rw [← (Prod.mk.inj (Except.ok.inj h)).2]
    exact ⟨[], (fun _ hy => nomatch hy), rfl⟩
  | some region =>
    refine ⟨_, regionRemovals_detaching p.settings (p.doc.setInnerHtml region html) region, ?_⟩
    by_cases hfit :
        Fits p.timeline.now (regionRemovals p.settings (p.doc.setInnerHtml region html) region)
    · rw [replaceRegion_ok hr hfit] at h
      rw [← (Prod.mk.inj (Except.ok.inj h)).2]
    · obtain ⟨e, he⟩ := replaceRegion_error (b := b) hr hfit
      rw [he] at h
      cases h

/-- An error that goes through books the removal of its element. -/
theorem pushError_books {b : Board} {text : String} {p q : Page} {r : Bool × Board}
    (h : (b.pushError text).run p = .ok (r, q)) :
    ∃ L, Detaching L ∧ q.timeline = p.timeline.bookAll L := by
  cases hr : p.doc.elementById p.settings.messageRegionId with
  | none =>
    rw [pushError_absent hr] at h
    rw [← (Prod.mk.inj (Except.ok.inj h)).2]
    exact ⟨[], (fun _ hy => nomatch hy), rfl⟩
  | some region =>
    refine ⟨[(p.settings.savedMessageDelayMs, .detach (errorNode p))],
      fun y hy => ⟨errorNode p, by rw [List.mem_singleton.mp hy]⟩, ?_⟩
    by_cases hfit : p.timeline.now + p.settings.savedMessageDelayMs ≤ wordLimit
    · rw [pushError_ok hr hfit] at h
      rw [← (Prod.mk.inj (Except.ok.inj h)).2]
      rfl
    · obtain ⟨e, he⟩ := @pushError_error b p text region hr hfit
      rw [he] at h
      cases h

/-! ## Runs of board actions -/

/-- Runs a board action on the `i`-th board of the page and keeps the board it leaves; a page
without that board stays as it is. -/
def onBoardAt {α : Type} (i : Nat) (f : Board → Act (α × Board)) : Act Unit := do
  match (← get).boards[i]? with
  | none => pure ()
  | some b =>
    let (_, b') ← f b
    modify fun p => { p with boards := p.boards.set i b' }

theorem onBoardAt_ok {α : Type} {i : Nat} {f : Board → Act (α × Board)} {p q : Page}
    (h : (onBoardAt i f).run p = .ok ((), q)) :
    (p.boards[i]? = none ∧ q = p) ∨
      ∃ b a b' q', p.boards[i]? = some b ∧ (f b).run p = .ok ((a, b'), q') ∧
        q = { q' with boards := q'.boards.set i b' } := by
  unfold onBoardAt at h
  rw [run_bind_of_ok (StateT.run_get p)] at h
  cases hb : p.boards[i]? with
  | none =>
    rw [hb] at h
    exact .inl ⟨rfl, (Prod.mk.inj (Except.ok.inj h)).2.symm⟩
  | some b =>
    rw [hb] at h
    obtain ⟨⟨a, b'⟩, q', hf, h⟩ := run_bind_eq_ok h
    exact .inr ⟨b, a, b', q', rfl, hf, (Prod.mk.inj (Except.ok.inj h)).2.symm⟩

theorem onBoardAt_run {α : Type} {i : Nat} {f : Board → Act (α × Board)} {p q : Page} {b b' : Board}
    {a : α} (hb : p.boards[i]? = some b) (hf : (f b).run p = .ok ((a, b'), q)) :
    (onBoardAt i f).run p = .ok ((), { q with boards := q.boards.set i b' }) := by
  unfold onBoardAt
  rw [run_bind_of_ok (StateT.run_get p), hb]
  dsimp only
  rw [run_bind_of_ok hf]
  rfl

/-- What a page's message boards, its document and its clock do. -/
inductive Posting where
  /-- The `i`-th board schedules the messages of the page, staggered. -/
  | batch (i : Nat)
  /-- The `i`-th board fills the message region with a fragment from the server. -/
  | region (i : Nat) (html : String)
  /-- The `i`-th board appends an error message to the region. -/
  | error (i : Nat) (text : String)
  /-- The `i`-th board cancels its removals. -/
  | cancel (i : Nat)
  /-- Another board is added. -/
  | newBoard
  /-- The document changes by hand: a message removed early, a region rewritten. -/
  | edit (f : Document Reaction → Document Reaction)
  /-- Time passes. -/
  | advance (ms : Nat)

/-- Carries out a posting on a page. -/
def Posting.perform : Posting → Act Unit
  | .batch i => onBoardAt i Board.scheduleBatch
  | .region i html => onBoardAt i (·.replaceRegion html)
  | .error i text => onBoardAt i (·.pushError text)
  | .cancel i => onBoardAt i fun b => do return ((), ← b.cancel)
  | .newBoard => modify fun p => { p with boards := p.boards ++ [⟨[]⟩] }
  | .edit f => onDoc f
  | .advance ms => Ui.advance ms

/-- The pages that postings reach from a fresh page, one posting that goes through at a time. -/
inductive Posted : Page → Prop
  | start (d : Document Reaction) (s : Settings) (answers : List Answer) (clip : List Bool) :
      Posted (Page.start d s answers clip)
  | step {p q : Page} (op : Posting) : Posted p → op.perform.run p = .ok ((), q) → Posted q

/-! ## What every run keeps -/

/-- A board action that books only detaching removals keeps the timeline timed, on whichever
board it runs. -/
theorem Timed.onBoardAt {α : Type} {p q : Page} (h : Timed p.timeline) {i : Nat}
    {f : Board → Act (α × Board)}
    (hf : ∀ b r q', (f b).run p = .ok (r, q') → ∃ L, Detaching L ∧ q'.timeline = p.timeline.bookAll L)
    (hq : (onBoardAt i f).run p = .ok ((), q)) : Timed q.timeline := by
  rcases onBoardAt_ok hq with ⟨-, rfl⟩ | ⟨b, a, b', q', -, hrun, rfl⟩
  · exact h
  · obtain ⟨L, hL, ht⟩ := hf b (a, b') q' hrun
    show Timed q'.timeline
    rw [ht]
    exact h.bookAll hL

/-- One posting keeps the timeline timed. -/
theorem Timed.perform {p q : Page} (h : Timed p.timeline) {op : Posting}
    (hq : op.perform.run p = .ok ((), q)) : Timed q.timeline := by
  cases op with
  | batch i =>
    exact h.onBoardAt (fun b r q' hr =>
      ⟨_, batchRemovals_detaching p, scheduleBatch_books hr⟩) hq
  | region i html => exact h.onBoardAt (fun b r q' hr => replaceRegion_books hr) hq
  | error i text => exact h.onBoardAt (fun b r q' hr => pushError_books hr) hq
  | cancel i =>
    rcases onBoardAt_ok hq with ⟨-, rfl⟩ | ⟨b, a, b', q', -, hrun, rfl⟩
    · exact h
    · rw [run_bind_of_ok (cancel_run b p)] at hrun
      obtain ⟨-, rfl⟩ := Prod.mk.inj (Except.ok.inj hrun)
      exact h.cancelAll b.timers
  | newBoard =>
    obtain ⟨-, rfl⟩ := Prod.mk.inj (Except.ok.inj hq)
    exact h
  | edit f =>
    obtain ⟨-, rfl⟩ := Prod.mk.inj (Except.ok.inj hq)
    exact h
  | advance ms => exact h.advance hq

/-- Every page postings reach has a timed timeline. -/
theorem Posted.timed {p : Page} (hp : Posted p) : Timed p.timeline := by
  induction hp with
  | start d s answers clip => exact Timed.empty
  | step op _ hq ih => exact ih.perform hq

/-! ## The order and the room of a batch -/

/-- The delays of a batch never decrease along the document. -/
theorem batchRemovals_mono (p : Page) : (batchRemovals p).Pairwise fun x y => x.1 ≤ y.1 := by
  rw [List.pairwise_iff_getElem]
  intro i j hi hj hij
  simp only [batchRemovals, List.getElem_map, List.getElem_zipIdx]
  exact p.settings.removalDelay_mono (by omega)

/-- A batch fits while the clock stays a 32-bit word below the largest 64-bit word. -/
theorem batchRemovals_fit {p : Page} (h : p.timeline.now + Json.word32Limit ≤ wordLimit) :
    Fits p.timeline.now (batchRemovals p) := by
  intro y hy
  obtain ⟨x, -, rfl⟩ := List.mem_map.mp hy
  have := p.settings.removalDelay_le x.2
  dsimp only
  omega

/-- A removal whose message has already left its parent changes nothing. -/
theorem detach_orphan {p : Page} {m : Nat} (h : (p.doc.node m).parent = none) :
    (Chore.detach m).perform p = p := by
  simp [Chore.perform, Document.remove, Document.detach, h]

/-! ## Messages leave on time -/

/-- What the boards of a page do from it on, message by message. -/
structure OnTime (p : Page) : Prop where
  /-- The removal delay of the `j`-th message of a batch, worked out over the naturals. -/
  delay_eq : ∀ j, p.settings.removalDelay j = min Json.word32Limit
    (p.settings.messageDelayMs + min j Json.word32Limit * p.settings.messageStaggerMs)
  /-- Later messages of a batch leave no earlier. -/
  delay_mono : ∀ j k, j ≤ k → p.settings.removalDelay j ≤ p.settings.removalDelay k
  /-- Every waiting timer detaches a message. -/
  detaches : ∀ x ∈ p.timeline.timers, ∃ m, x.task = .detach m
  /-- A batch books the `j`-th message of the page, in document order, after the `j`-th removal
  delay and under the `j`-th next sequence number, when every removal falls due within a word;
  the board keeps the new keys after its own. -/
  batch : ∀ b : Board, Fits p.timeline.now (batchRemovals p) →
    b.scheduleBatch.run p =
      .ok (((p.doc.elementsByClass p.settings.messageClass).length,
          ⟨b.timers ++ (p.timeline.booked (batchRemovals p)).map (·.key)⟩),
        { p with timeline := p.timeline.bookAll (batchRemovals p) })
  /-- Otherwise the batch fails. -/
  batch_overflow : ∀ b : Board, ¬ Fits p.timeline.now (batchRemovals p) →
    ∃ e, b.scheduleBatch.run p = .error e
  /-- A batch fits while the clock stays a 32-bit word below the largest 64-bit word. -/
  batch_room : p.timeline.now + Json.word32Limit ≤ wordLimit →
    Fits p.timeline.now (batchRemovals p)
  /-- The keys of a batch increase in document order. -/
  batch_order : ((p.timeline.booked (batchRemovals p)).map (·.key)).Pairwise
    fun a b => a.before b = true
  /-- A fragment fills the region, and each message then in the region is booked after the
  saved-message delay, when every removal falls due within a word. -/
  region : ∀ (b : Board) (html : String) (r : Nat),
    p.doc.elementById p.settings.messageRegionId = some r →
    Fits p.timeline.now (regionRemovals p.settings (p.doc.setInnerHtml r html) r) →
    (b.replaceRegion html).run p =
      .ok ((true, ⟨b.timers ++ (p.timeline.booked
          (regionRemovals p.settings (p.doc.setInnerHtml r html) r)).map (·.key)⟩),
        { p with
          doc := p.doc.setInnerHtml r html
          timeline := p.timeline.bookAll (regionRemovals p.settings (p.doc.setInnerHtml r html) r) })
  /-- Otherwise the fragment fails. -/
  region_overflow : ∀ (b : Board) (html : String) (r : Nat),
    p.doc.elementById p.settings.messageRegionId = some r →
    ¬ Fits p.timeline.now (regionRemovals p.settings (p.doc.setInnerHtml r html) r) →
    ∃ e, (b.replaceRegion html).run p = .error e
  /-- An error is appended to the region as a new element, booked after the saved-message
  delay, when it falls due within a word. -/
  error : ∀ (b : Board) (text : String) (r : Nat),
    p.doc.elementById p.settings.messageRegionId = some r →
    p.timeline.now + p.settings.savedMessageDelayMs ≤ wordLimit →
    (b.pushError text).run p =
      .ok ((true, ⟨b.timers ++ [⟨p.timeline.now + p.settings.savedMessageDelayMs,
          p.timeline.nextSeq⟩]⟩),
        { p with
          doc := appendError p.settings p.doc text
          timeline := (p.timeline.schedule p.settings.savedMessageDelayMs
            (.detach (errorNode p))).2 })
  /-- Otherwise the error fails. -/
  error_overflow : ∀ (b : Board) (text : String) (r : Nat),
    p.doc.elementById p.settings.messageRegionId = some r →
    ¬ p.timeline.now + p.settings.savedMessageDelayMs ≤ wordLimit →
    ∃ e, (b.pushError text).run p = .error e
  /-- Without a message region, a fragment or an error changes nothing. -/
  absent : p.doc.elementById p.settings.messageRegionId = none → ∀ (b : Board) (html : String),
    (b.replaceRegion html).run p = .ok ((false, b), p) ∧
      (b.pushError html).run p = .ok ((false, b), p)
  /-- Cancelling takes exactly the board's timers off the timeline and changes nothing else. -/
  cancel : ∀ b : Board, b.cancel.run p =
    .ok (⟨[]⟩, { p with timeline :=
      { p.timeline with timers := p.timeline.timers.filter fun x => x.key ∉ b.timers } })
  /-- An advance by `ms` goes through. After the last timer run, it runs in key order, each with
  the clock at its due time, exactly the timers due by the old clock plus `ms` (capped at the
  largest word), while the others wait; it schedules nothing; and the page after it is the page
  before with the removals of the timers that ran carried out in order, under the new
  timeline. -/
  advance : ∀ ms, ∃ last E q, (Ui.advance ms).run p = .ok ((), q) ∧
    Advanced Page.timeline (p.timeline.target ms) last p E q ∧ Event.born E = [] ∧
    q = { Chore.performAll (Event.ranTimers E) p with timeline := q.timeline }
  /-- A removal whose message has already left its parent changes nothing. -/
  orphan : ∀ (m : Nat) (q : Page), (q.doc.node m).parent = none → (Chore.detach m).perform q = q

/-- **Messages leave on time.** On every page that board actions, edits of the document and
advances reach from a fresh page, the boards book each message after its delay, from the clock
and in document order, and fail exactly when a due time passes the largest word; every waiting
timer detaches a message; and each advance runs, in key order and with the clock at each due
time, exactly the waiting timers due by its target, carrying out their removals and changing
nothing else. A cancelled timer no longer waits, so no advance runs it. -/
theorem messages_leave_on_time {p : Page} (hp : Posted p) : OnTime p where
  delay_eq := p.settings.removalDelay_eq
  delay_mono _ _ := p.settings.removalDelay_mono
  detaches := hp.timed.detaches
  batch _ := scheduleBatch_ok
  batch_overflow _ := scheduleBatch_error
  batch_room := batchRemovals_fit
  batch_order := booked_ordered p.timeline (batchRemovals_mono p)
  region _ _ _ := replaceRegion_ok
  region_overflow _ _ _ := replaceRegion_error
  error _ _ _ := pushError_ok
  error_overflow _ _ _ := pushError_error
  absent hr _ _ := ⟨replaceRegion_absent hr, pushError_absent hr⟩
  cancel b := by rw [cancel_run, cancelAll_eq]
  advance := hp.timed.advance_runs
  orphan _ _ := detach_orphan

/-- A page over one message, with the default settings, through a batch on its board and an
advance to the message's removal: both go through, the batch books one removal, the advance runs
it and leaves no timer waiting, and the page reached keeps every promise. -/
theorem messages_leave_on_time_batched :
    let p₀ := Page.start (Document.withBody "<div class=\"system-message\">a</div>") {} [] []
    ∃ p₁ p₂, (Posting.batch 0).perform.run p₀ = .ok ((), p₁) ∧ p₁.timeline.timers.length = 1 ∧
      (Posting.advance 3000).perform.run p₁ = .ok ((), p₂) ∧ p₂.timeline.timers = [] ∧
      Posted p₂ ∧ OnTime p₂ := by
  intro p₀
  have hp₀ : Posted p₀ := .start _ _ _ _
  have h₀ := messages_leave_on_time hp₀
  obtain ⟨hroom, hone, hdue⟩ : p₀.timeline.now + Json.word32Limit ≤ wordLimit ∧
      (p₀.timeline.bookAll (batchRemovals p₀)).timers.length = 1 ∧
      ∀ x ∈ (p₀.timeline.bookAll (batchRemovals p₀)).timers,
        x.key.due ≤ (p₀.timeline.bookAll (batchRemovals p₀)).target 3000 := by
    decide +kernel
  -- the batch books the one message on the page's only board
  have h₁ := onBoardAt_run (i := 0) rfl (h₀.batch ⟨[]⟩ (h₀.batch_room hroom))
  have hp₁ : Posted _ := .step (.batch 0) hp₀ h₁
  -- the advance reaches the removal's due time and runs it
  obtain ⟨last, E, p₂, h₂, hadv, hborn, -⟩ := (messages_leave_on_time hp₁).advance 3000
  have hp₂ : Posted p₂ := .step (.advance 3000) hp₁ h₂
  exact ⟨_, p₂, h₁, hone, h₂, hadv.timers_eq_nil hborn hdue, hp₂, messages_leave_on_time hp₂⟩

/-- After an advance by the largest word the clock has saturated, and the batch of the one
message of the page cannot be booked: the whole run fails. -/
theorem batch_after_saturated_advance_overflows :
    ((Page.load "<div class=\"system-message\">a</div>" {} 768 [] [] []).runSteps
      [.ok (.advance wordLimit), .ok (.scheduleBatch (.page .last))]).map (fun _ => ()) =
      .error ⟨wordLimit, 3000⟩ := by
  decide +kernel

end Ui

end PageEditor
