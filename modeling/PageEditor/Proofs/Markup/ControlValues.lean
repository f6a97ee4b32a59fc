import PageEditor.Proofs.Markup.Reachable
import PageEditor.Proofs.Markup.Classes
/-!
# PageEditor.Proofs.Markup.ControlValues

Two readings of a form control, and setting a select's value.

The document reads a control's value on its own (`value`) and again when it lists a form's
controls (`formControls`), through separate code. The two agree on every control in the form,
position by position, but one kind: a checkbox or radio button without a `value` attribute is
listed with the value `on`, while `value` reads it as empty (`formControls_values`,
`checkbox_value_differs`). For a select both readings come to the value of the first selected
option, since a selection is always taken from the front of the options that pass a test
(`selectedOptions_take_filter`, `find?_contains_take_filter`).

Setting a select's value marks each of its options in turn (`markOption`): an option with that
value becomes selected and any other does not, and no option's value changes on the way
(`selected_foldl_markOption`, `optionValue_foldl_markOption`). What is read back is
`select_setValue_laws`: the selected options are the options with the value for a multiple
select and the first of them for a single one, with the first option standing in when none has
the value; the value read back is the value set when some option has it; the form lists each
selected option once; and setting a select to its own value leaves its value as it was.
-/

namespace PageEditor.Form

/-- The value a control's state reports: the value of a text, checkbox, radio or file control,
and for a select the value of its first selected option, or the empty text when none is. -/
def ControlState.reading : ControlState → String
  | .text v | .checkbox v _ | .radio v _ | .file v => v
  | .select options _ => ((options.find? (·.selected)).map (·.value)).getD ""

end PageEditor.Form

namespace PageEditor.Markup

namespace Node

variable {σ : Type}

theorem attribute?_setAttribute_of_ne (n : Node σ) {name key : String} (value : String)
    (h : name ≠ key) : (n.setAttribute name value).attribute? key = n.attribute? key := by
  simp only [attribute?, setAttribute, Document.find_setEntry value h]

theorem attribute?_removeAttribute_self (n : Node σ) (name : String) :
    (n.removeAttribute name).attribute? name = none := by
  simp [attribute?, removeAttribute, List.find?_filter]

theorem attribute?_removeAttribute_of_ne (n : Node σ) {name key : String} (h : name ≠ key) :
    (n.removeAttribute name).attribute? key = n.attribute? key := by
  simp only [attribute?, removeAttribute, List.find?_filter]
  congr 2
  funext kv
  by_cases hk : kv.1 = key
  · simp [hk, Ne.symm h]
  · simp [hk]

end Node

namespace Document

variable {σ : Type} {d e : Document σ}

/-! ## Selections taken from the front -/

/-- A member failing the test is in no selection taken from the members passing it. -/
theorem contains_take_filter_of_neg {p : Nat → Bool} {x : Nat} (hx : ¬ p x = true)
    (l : List Nat) (k : Nat) : ((l.filter p).take k).contains x = false := by
  simpa using fun h => hx (List.mem_filter.mp (List.mem_of_mem_take h)).2

/-- In a list, the first member of a selection taken from the front of the members passing a
test is the selection's head. -/
theorem find?_contains_take_filter (p : Nat → Bool) :
    ∀ (l : List Nat) (k : Nat), l.find? (fun x => ((l.filter p).take k).contains x) =
      ((l.filter p).take k).head?
  | [], _ => by simp
  | x :: xs, k => by
    by_cases hx : p x
    · cases k with
      | zero => simp
      | succ k => simp [hx]
    · -- `x` fails the test, so it is in no selection and the search goes on past it
      simp only [List.filter_cons, hx, Bool.false_eq_true, ↓reduceIte, List.find?_cons,
        contains_take_filter_of_neg hx]
      exact find?_contains_take_filter p xs k

/-- In a list without repeats, the members that lie in a selection taken from the front of the
members passing a test are the selection, in order. -/
theorem filter_contains_take_filter (p : Nat → Bool) :
    ∀ {l : List Nat}, l.Nodup → ∀ k, l.filter (fun x => ((l.filter p).take k).contains x) =
      (l.filter p).take k
  | [], _, _ => by simp
  | x :: xs, hl, k => by
    obtain ⟨hx, hxs⟩ := List.nodup_cons.mp hl
    by_cases hpx : p x
    · cases k with
      | zero => simp
      | succ k =>
        -- past `x`, membership in the selection is membership in its tail
        have htail : xs.filter (fun y => (x :: (xs.filter p).take k).contains y) =
            xs.filter (fun y => ((xs.filter p).take k).contains y) :=
          List.filter_congr fun y hy => by
            have hyx : y ≠ x := fun h => hx (h ▸ hy)
            simp [hyx]
        rw [List.filter_cons_of_pos hpx, List.take_succ_cons, List.filter_cons_of_pos (by simp),
          htail, filter_contains_take_filter p hxs k]
    · simp only [List.filter_cons, hpx, Bool.false_eq_true, ↓reduceIte,
        contains_take_filter_of_neg hpx]
      exact filter_contains_take_filter p hxs k

/-- A select's selection is taken from the front of its options that pass a test: the marked
ones, or all of them when a single select has none marked. -/
theorem selectedOptions_take_filter (d : Document σ) (s : Nat) :
    ∃ p k, d.selectedOptions s = ((d.options s).filter p).take k := by
  unfold selectedOptions
  simp only
  split
  · exact ⟨_, _, (List.take_length).symm⟩
  · split
    · exact ⟨fun _ => true, 1, by rw [List.filter_true]⟩
    · exact ⟨_, 1, rfl⟩

/-- The first option the selection holds is the first selected one. -/
theorem find?_selectedOptions (d : Document σ) (s : Nat) :
    (d.options s).find? (fun o => (d.selectedOptions s).contains o) =
      (d.selectedOptions s).head? := by
  obtain ⟨p, k, h⟩ := selectedOptions_take_filter d s
  rw [h]
  exact find?_contains_take_filter p _ k

/-! ## Two readings of a control -/

/-- Whether an element is a form control: an input, a textarea or a select. -/
def isControl (d : Document σ) (i : Nat) : Bool :=
  ["input", "textarea", "select"].contains (d.node i).tag

/-- A checkbox or radio button without a `value` attribute, which the form lists as `on`. -/
def reportsOn (d : Document σ) (i : Nat) : Bool :=
  (d.node i).tag == "input" &&
    ["checkbox", "radio"].contains ((d.attribute? i "type").getD "text").toLower &&
    (d.attribute? i "value").isNone

theorem value_input {i : Nat} (h : (d.node i).tag = "input") :
    d.value i = (d.attribute? i "value").getD "" := by
  simp [value, h]

theorem value_textarea {i : Nat} (h : (d.node i).tag = "textarea") :
    d.value i = (d.attribute? i "value").getD (d.textContent i) := by
  simp [value, h]

theorem value_select {i : Nat} (h : (d.node i).tag = "select") :
    d.value i = ((d.selectedOptions i).head?.map d.optionValue).getD "" := by
  simp [value, h]

/-- A control's state reads as its value, but for a checkbox or radio button without a value,
which reads as `on`. -/
theorem reading_controlState {i : Nat} {st : Form.ControlState} (h : d.controlState i = some st) :
    st.reading = if d.reportsOn i then "on" else d.value i := by
  unfold controlState at h
  dsimp only at h
  split at h
  · next htag =>
    rw [value_input htag]
    split at h <;> (obtain rfl := Option.some.inj h) <;>
      cases hv : (d.node i).attribute? "value" <;>
        simp_all [reportsOn, attribute?, Form.ControlState.reading]
  · next htag =>
    obtain rfl := Option.some.inj h
    simp [reportsOn, htag, value_textarea htag, Form.ControlState.reading, attribute?]
  · next htag =>
    obtain rfl := Option.some.inj h
    have hon : d.reportsOn i = false := by simp [reportsOn, htag]
    -- the first option marked in the listing is the head of the selection
    rw [hon, if_neg Bool.false_ne_true, value_select htag, Form.ControlState.reading,
      List.find?_map]
    have hsel : ((fun x : Form.SelectOption => x.selected) ∘ fun o =>
        (⟨d.optionValue o, d.textContent o, (d.selectedOptions i).contains o⟩ : Form.SelectOption)) =
        fun o => (d.selectedOptions i).contains o := rfl
    rw [hsel, find?_selectedOptions, Option.map_map]
    rfl
  · cases h

/-- Exactly the controls have a state. -/
theorem isSome_controlState (d : Document σ) (i : Nat) :
    (d.controlState i).isSome = d.isControl i := by
  unfold controlState isControl
  dsimp only
  split
  · next htag => split <;> simp [htag]
  · next htag => simp [htag]
  · next htag => simp [htag]
  · next h₁ h₂ h₃ => simp_all

/-- **The form's controls report the values `value` reads.** Position by position, the value
each control of a form reports is the value of its element, but for a checkbox or radio button
without a `value` attribute, which reports `on` where its value is empty. -/
theorem formControls_values (d : Document σ) (form : Nat) :
    (d.formControls form).map (·.state.reading) =
      ((d.descendants form).filter d.isControl).map
        (fun e => if d.reportsOn e then "on" else d.value e) ∧
    ∀ e, d.reportsOn e = true → d.value e = "" := by
  refine ⟨?_, fun e he => ?_⟩
  · unfold formControls
    -- one element at a time: an element has a state exactly when it is a control
    induction d.descendants form with
    | nil => rfl
    | cons i rest ih =>
      cases hc : d.controlState i with
      | none =>
        have hi : d.isControl i = false := by rw [← isSome_controlState, hc]; rfl
        simp [hc, hi, ih]
      | some st =>
        have hi : d.isControl i = true := by rw [← isSome_controlState, hc]; rfl
        simp [hc, hi, ih, reading_controlState hc]
  · simp only [reportsOn, Bool.and_eq_true, beq_iff_eq, Option.isNone_iff_eq_none] at he
    rw [value_input he.1.1, he.2]
    rfl

/-- A checkbox without a value: `value` reads it as empty, while the form lists it as `on`. -/
theorem checkbox_value_differs :
    let d : Document Unit := withBody "<form id=\"f\"><input id=\"c\" type=\"checkbox\"></form>"
    d.value 3 = "" ∧ (d.formControls 2).map (·.state.reading) = ["on"] := by
  decide +kernel

/-! ## Setting a select's value -/

/-- One step of setting a select's value: an option with the value is marked selected, and any
other option is unmarked. -/
def markOption (v : String) (e : Document σ) (o : Nat) : Document σ :=
  if e.optionValue o == v then e.setAttribute o "selected" "" else e.removeAttribute o "selected"

/-- Setting a select's value marks its options one by one. -/
theorem setValue_select {s : Nat} (hs : (d.node s).tag = "select") (v : String) :
    d.setValue s v = (d.options s).foldl (markOption v) d := by
  rw [setValue, if_neg (by simp [hs])]
  rfl

theorem cosmetic_markOption (v : String) (e : Document σ) (o : Nat) :
    Cosmetic e (markOption v e o) := by
  unfold markOption
  split
  · exact cosmetic_setAttribute _ _ _ (by decide)
  · exact cosmetic_removeAttribute _ _ (by decide)

/-- Marking touches no attribute but `selected`. -/
theorem attribute?_markOption_of_ne {key : String} (hk : key ≠ "selected") (v : String)
    (e : Document σ) (o j : Nat) : (markOption v e o).attribute? j key = e.attribute? j key := by
  unfold markOption attribute?
  split <;> (simp only [setAttribute, removeAttribute, node_modify]; split) <;>
    simp [Node.attribute?_setAttribute_of_ne _ _ (Ne.symm hk),
      Node.attribute?_removeAttribute_of_ne _ (Ne.symm hk)]

/-- Marking keeps every option's value. -/
theorem optionValue_markOption (v : String) (e : Document σ) (o j : Nat) :
    (markOption v e o).optionValue j = e.optionValue j := by
  rw [optionValue, optionValue, attribute?_markOption_of_ne (by decide),
    (cosmetic_markOption v e o).textContent]

/-- Marking sets `selected` on the option it marks, by the option's value. -/
theorem selected_markOption (v : String) (e : Document σ) {o : Nat} (ho : o < e.nodes.size)
    (j : Nat) : (markOption v e o).attribute? j "selected" =
      if j = o then (if e.optionValue o == v then some "" else none)
      else e.attribute? j "selected" := by
  unfold markOption attribute?
  by_cases hj : j = o
  · subst hj
    split <;> simp [setAttribute, removeAttribute, node_modify_self _ _ ho,
      Node.attribute?_setAttribute_self, Node.attribute?_removeAttribute_self, *]
  · split <;> simp [setAttribute, removeAttribute, node_modify_of_ne _ _ (Ne.symm hj)]

section Marking

variable (v : String)

theorem cosmetic_foldl_markOption : ∀ (os : List Nat) (e : Document σ),
    Cosmetic e (os.foldl (markOption v) e)
  | [], e => Cosmetic.refl e
  | o :: os, e => (cosmetic_markOption v e o).trans (cosmetic_foldl_markOption os _)

theorem attribute?_foldl_markOption_of_ne {key : String} (hk : key ≠ "selected") (j : Nat) :
    ∀ (os : List Nat) (e : Document σ),
      (os.foldl (markOption v) e).attribute? j key = e.attribute? j key
  | [], _ => rfl
  | o :: os, e => by
    rw [List.foldl_cons, attribute?_foldl_markOption_of_ne hk j os,
      attribute?_markOption_of_ne hk]

theorem optionValue_foldl_markOption (j : Nat) : ∀ (os : List Nat) (e : Document σ),
    (os.foldl (markOption v) e).optionValue j = e.optionValue j
  | [], _ => rfl
  | o :: os, e => by
    rw [List.foldl_cons, optionValue_foldl_markOption j os, optionValue_markOption]

/-- After marking a list of options, an option of the list is selected exactly when it has the
value; the others are as they were. -/
theorem selected_foldl_markOption (j : Nat) : ∀ (os : List Nat) (e : Document σ),
    (∀ o ∈ os, o < e.nodes.size) →
    (os.foldl (markOption v) e).attribute? j "selected" =
      if j ∈ os then (if e.optionValue j == v then some "" else none)
      else e.attribute? j "selected"
  | [], _, _ => rfl
  | o :: os, e, hos => by
    have hsize : ∀ x ∈ os, x < (markOption v e o).nodes.size := fun x hx => by
      rw [(cosmetic_markOption v e o).size]
      exact hos x (List.mem_cons_of_mem o hx)
    rw [List.foldl_cons, selected_foldl_markOption j os _ hsize, optionValue_markOption,
      selected_markOption v e (hos o List.mem_cons_self)]
    -- an option listed twice is marked twice alike
    by_cases hj : j ∈ os
    · simp [hj]
    · by_cases hjo : j = o
      · subst hjo
        simp
      · simp [hj, hjo]

end Marking

/-! ## What a select reads back -/

/-- The options of a select exist: a node past the arena is a text, not an option. -/
theorem lt_size_of_mem_options {s o : Nat} (h : o ∈ d.options s) : o < d.nodes.size := by
  by_contra hge
  have htag := (List.mem_filter.mp h).2
  have hdefault : (default : Node σ).tag = textTag := rfl
  rw [node_of_size_le (Nat.le_of_not_lt hge), hdefault] at htag
  exact absurd htag (by decide)

theorem Cosmetic.options {d' : Document σ} (h : Cosmetic d d') (s : Nat) :
    d'.options s = d.options s := by
  unfold Document.options
  rw [h.descendants]
  exact List.filter_congr fun i _ => by rw [(h.alike i).1]

/-- The selection holds options. -/
theorem mem_options_of_mem_selectedOptions {s o : Nat} (h : o ∈ d.selectedOptions s) :
    o ∈ d.options s := by
  obtain ⟨p, k, hk⟩ := selectedOptions_take_filter d s
  rw [hk] at h
  exact (List.mem_filter.mp (List.mem_of_mem_take h)).1

/-- A single select selects nothing only when it has no options. -/
theorem options_eq_nil_of_selectedOptions {s : Nat}
    (hm : (d.attribute? s "multiple").isSome = false) (h : d.selectedOptions s = []) :
    d.options s = [] := by
  unfold selectedOptions at h
  simp only [hm, Bool.false_eq_true, ↓reduceIte] at h
  split at h
  · exact List.take_eq_nil_iff.mp h |>.resolve_left (by decide)
  · next hne =>
    -- a marked option would stay selected
    rcases List.take_eq_nil_iff.mp h with h | h
    · cases h
    · simp [h] at hne

/-- In a select whose options do not repeat, the listing marks each selected option once, in
order. -/
theorem filter_contains_selectedOptions {s : Nat} (h : (d.options s).Nodup) :
    (d.options s).filter (fun o => (d.selectedOptions s).contains o) = d.selectedOptions s := by
  obtain ⟨p, k, hk⟩ := selectedOptions_take_filter d s
  rw [hk]
  exact filter_contains_take_filter p h k

section SelectValue

variable {s : Nat} (hs : (d.node s).tag = "select") (v : String)
include hs

/-- After setting a select's value, its selection is the options with the value for a multiple
select; for a single one the first of them, or the first option when none has the value. -/
theorem selectedOptions_setValue :
    (d.setValue s v).selectedOptions s =
      if (d.attribute? s "multiple").isSome then (d.options s).filter (d.optionValue · == v)
      else if ((d.options s).filter (d.optionValue · == v)).isEmpty then (d.options s).take 1
      else ((d.options s).filter (d.optionValue · == v)).take 1 := by
  rw [setValue_select hs]
  have hc := cosmetic_foldl_markOption v (d.options s) d
  -- the marked options are those with the value
  have hmarked : (d.options s).filter (fun o =>
      (((d.options s).foldl (markOption v) d).attribute? o "selected").isSome) =
      (d.options s).filter (d.optionValue · == v) :=
    List.filter_congr fun o ho => by
      rw [selected_foldl_markOption v o _ d (fun x hx => lt_size_of_mem_options hx), if_pos ho]
      split <;> simp_all
  unfold selectedOptions
  simp only [hc.options, hmarked,
    attribute?_foldl_markOption_of_ne v (show "multiple" ≠ "selected" by decide)]

/-- Setting a select's value keeps every option's value. -/
theorem optionValue_setValue (o : Nat) : (d.setValue s v).optionValue o = d.optionValue o := by
  rw [setValue_select hs, optionValue_foldl_markOption]

/-- After setting a select's value, it reads as the value set when some option has it; else
as nothing when it is multiple, and as its first option's value when it is single. -/
theorem value_setValue :
    (d.setValue s v).value s =
      if ((d.options s).filter (d.optionValue · == v)).isEmpty then
        (if (d.attribute? s "multiple").isSome then ""
        else ((d.options s).head?.map d.optionValue).getD "")
      else v := by
  have hc := cosmetic_setValue d s v
  have hov : (d.setValue s v).optionValue = d.optionValue := funext (optionValue_setValue hs v)
  rw [value_select (by rw [(hc.alike s).1, hs]), selectedOptions_setValue hs v, hov]
  obtain ⟨M, hM⟩ : ∃ M, (d.options s).filter (d.optionValue · == v) = M := ⟨_, rfl⟩
  rw [hM]
  cases M with
  | nil => by_cases hmul : (d.attribute? s "multiple").isSome <;> simp [hmul, List.head?_take]
  | cons m rest =>
    -- the first option with the value reads as the value
    have hm : d.optionValue m = v := by
      have hmem : m ∈ (d.options s).filter (d.optionValue · == v) := hM ▸ List.mem_cons_self
      simpa using (List.mem_filter.mp hmem).2
    by_cases hmul : (d.attribute? s "multiple").isSome <;> simp [hmul, hm]

/-- After setting a select's value, the form lists its options with the values they had, each
marked by whether it is now selected. -/
theorem controlState_setValue :
    (d.setValue s v).controlState s = some (.select ((d.options s).map fun o =>
      ⟨d.optionValue o, d.textContent o, ((d.setValue s v).selectedOptions s).contains o⟩)
      (d.attribute? s "multiple").isSome) := by
  have hc := cosmetic_setValue d s v
  have htag : ((d.setValue s v).node s).tag = "select" := by rw [(hc.alike s).1, hs]
  have hov : (d.setValue s v).optionValue = d.optionValue := funext (optionValue_setValue hs v)
  have hmul :
      ((d.setValue s v).node s).attribute? "multiple" = (d.node s).attribute? "multiple" := by
    rw [setValue_select hs]
    exact attribute?_foldl_markOption_of_ne v (by decide) s _ d
  unfold controlState
  simp only [htag, hc.options, hov, hc.textContent, hmul]
  rfl

end SelectValue

/-- **Setting a select's value and reading it back.** After `setValue s v` on a select `s` of a
forest: the selection is the options with value `v` for a multiple select, and the first of them
for a single one, whose first option stands in when no option has `v`; the select reads as `v`
when some option has it, and otherwise as nothing when it is multiple and as its first option's
value (nothing without options) when it is single; the form lists the options with the values
they had, marking exactly the selected ones, each once and in order. Setting a select to its own
value leaves that value as it was. -/
theorem select_setValue_laws {d : Document σ} (hf : Forest d) {s : Nat}
    (hs : (d.node s).tag = "select") (v : String) :
    let matching := (d.options s).filter (d.optionValue · == v)
    let multiple := (d.attribute? s "multiple").isSome
    let chosen := if multiple then matching
      else if matching.isEmpty then (d.options s).take 1 else matching.take 1
    (d.setValue s v).selectedOptions s = chosen ∧
    (d.setValue s v).value s = (if matching.isEmpty then
        (if multiple then "" else ((d.options s).head?.map d.optionValue).getD "") else v) ∧
    (d.setValue s v).controlState s = some (.select ((d.options s).map fun o =>
        ⟨d.optionValue o, d.textContent o, chosen.contains o⟩) multiple) ∧
    (d.options s).filter (chosen.contains ·) = chosen ∧
    (d.setValue s (d.value s)).value s = d.value s := by
  intro matching multiple chosen
  have hsel : (d.setValue s v).selectedOptions s = chosen := selectedOptions_setValue hs v
  have hnodup : (d.options s).Nodup := (hf.descendants_nodup s).filter _
  refine ⟨hsel, value_setValue hs v, hsel ▸ controlState_setValue hs v, ?_, ?_⟩
  · -- the options are those before, and they do not repeat
    have hc := cosmetic_setValue d s v
    rw [← hsel, ← hc.options s]
    exact filter_contains_selectedOptions (hc.options s ▸ hnodup)
  · -- the select's own value is the value of a selected option, or nothing
    rw [value_setValue hs, value_select hs]
    cases hhead : (d.selectedOptions s).head? with
    | some m =>
      have hm := mem_options_of_mem_selectedOptions (List.mem_of_mem_head? hhead)
      have hne : ((d.options s).filter (d.optionValue · == d.optionValue m)).isEmpty = false := by
        simpa using ⟨m, hm, rfl⟩
      simp [hne]
    | none =>
      by_cases hmul : (d.attribute? s "multiple").isSome
      · simp [hmul]
      · have hopts := options_eq_nil_of_selectedOptions (Bool.eq_false_iff.mpr hmul)
          (List.head?_eq_none_iff.mp hhead)
        simp [hopts]

/-- A single select with two options of value `b`, one by its attribute and one by its text:
setting `b` selects the first of them, and the select reads as `b`. -/
theorem select_setValue_laws_twice :
    let d : Document Unit := withBody
      "<select id=\"s\"><option>a</option><option value=\"b\">B</option><option>b</option></select>"
    Forest d ∧ (d.node 2).tag = "select" ∧
      (d.setValue 2 "b").selectedOptions 2 = [5] ∧ (d.setValue 2 "b").value 2 = "b" := by
  intro d
  have hf : Forest d := (Reachable.withBody _).forest
  have hs : (d.node 2).tag = "select" := by decide +kernel
  obtain ⟨hsel, hval, -⟩ := select_setValue_laws hf hs "b"
  refine ⟨hf, hs, ?_⟩
  rw [hsel, hval]
  decide +kernel

end Document

end PageEditor.Markup
