import Mathlib.Data.List.Basic
import Mathlib.Data.List.Induction
import Mathlib.Data.List.Nodup
import PageEditor.Form.Snapshot
import PageEditor.Form.Body
/-!
# PageEditor.Proofs.Form.Fields

The snapshot of a list of controls read field by field, and the body a native submission sends
beside it.

The snapshot is built by one pass in which each contributing control sets the value of its name.
Read name by name, that pass is:

1. the names are those of the contributing controls, each once, in the order of its first
   control (`names_ofControls`);
2. the value of a name is a left fold over the controls with that name, each control giving a
   value from the one before it (`FieldValue.after`): a radio button that is not checked keeps
   the value, every other control replaces it (`get?_ofControls`);
3. the pairs list the values field by field (`Snapshot.pairs_eq`);
4. `insert` keeps the place of a name that is present and appends one that is not
   (`Snapshot.names_insert`, `Snapshot.get?_insert`).

When the contributing controls have distinct names the snapshot has one field per control
(`fields_ofControls_of_nodup`). A native body then sends the snapshot's pairs, unless one of the
controls falls under a documented difference: a file input, an unchecked checkbox or radio
button, a single select with nothing selected, or a multiple select whose selected option has
an empty value and so sends its label in the snapshot (`Control.fullySet`).
-/

namespace PageEditor.Form

/-- The names of the contributing controls in control order, repeats kept. -/
def contributingNames (cs : List Control) : List String :=
  (cs.filter (·.contributes)).map (·.name)

/-- The value a control gives its name, from the value the name had before it, if any. -/
def FieldValue.after (before : Option FieldValue) : ControlState → FieldValue
  | .text v | .file v => .text v
  | .checkbox v checked => .text (if checked then v else "")
  | .radio v checked => if checked then .text v else before.getD (.text "")
  | .select options true => .multiple ((selectedOptions options).map (·.submitted))
  | .select options false => .selected (((selectedOptions options).head?.map (·.value)).getD "")

/-- The value of a name: the contributing controls with that name, folded in control order. -/
def valueOf (cs : List Control) (name : String) : Option FieldValue :=
  (cs.filter fun c => c.contributes && c.name == name).foldl
    (fun before c => some (FieldValue.after before c.state)) none

/-! ## Looking a name up -/

namespace Snapshot

theorem get?_eq_none_iff {s : Snapshot} {name : String} : s.get? name = none ↔ name ∉ s.names := by
  simp only [get?, names, Option.map_eq_none_iff, List.find?_eq_none, List.mem_map, beq_iff_eq]
  constructor
  · rintro h ⟨p, hp, rfl⟩
    exact h p hp rfl
  · exact fun h p hp hpn => h ⟨p, hp, hpn⟩

theorem get?_isSome_iff {s : Snapshot} {name : String} : (s.get? name).isSome ↔ name ∈ s.names := by
  rw [Option.isSome_iff_ne_none, Ne, get?_eq_none_iff, Classical.not_not]

/-- A name that is present keeps its place; a new one goes at the end. -/
theorem names_insert (s : Snapshot) (name : String) (v : FieldValue) :
    (s.insert name v).names = if name ∈ s.names then s.names else s.names ++ [name] := by
  by_cases h : name ∈ s.names
  · rw [insert, dif_pos h, if_pos h]
    exact names_replaceValue name v s.fields
  · rw [insert, dif_neg h, if_neg h]
    simp [names]

/-- Rewriting values in place leaves the first entry of each name where it was. -/
theorem find?_replaceValue (name m : String) (v : FieldValue) (fs : List (String × FieldValue)) :
    (replaceValue name v fs).find? (·.1 == m) =
      (fs.find? (·.1 == m)).map fun p => if p.1 = name then (p.1, v) else p := by
  induction fs with
  | nil => rfl
  | cons p fs ih =>
    obtain ⟨n, w⟩ := p
    by_cases hn : n = name <;> by_cases hm : n = m <;> simp_all [replaceValue]

/-- After `insert` the name has the new value and every other name its old one. -/
theorem get?_insert (s : Snapshot) (name : String) (v : FieldValue) (m : String) :
    (s.insert name v).get? m = if name = m then some v else s.get? m := by
  by_cases h : name ∈ s.names
  · rw [insert, dif_pos h]
    simp only [get?, find?_replaceValue, Option.map_map]
    cases hp : s.fields.find? (·.1 == m) with
    | none =>
      -- a present name is found, so the name looked up is another one
      have hm : name ≠ m := by
        rintro rfl
        exact get?_eq_none_iff.mp (by simp [get?, hp]) h
      simp [hm]
    | some p =>
      have hpm : p.1 = m := by simpa using List.find?_some hp
      by_cases hm : name = m <;> simp [hpm, hm, Ne.symm]
  · rw [insert, dif_neg h]
    have hnone : s.fields.find? (·.1 == name) = none := by
      simpa [get?] using get?_eq_none_iff.mpr h
    by_cases hm : name = m
    · subst hm
      simp [get?, hnone]
    · cases hp : s.fields.find? (·.1 == m) <;> simp [get?, hp, hm]

/-- Setting a name that is not present appends its field. -/
theorem insert_fields_of_not_mem {s : Snapshot} {name : String} (h : name ∉ s.names)
    (v : FieldValue) : (s.insert name v).fields = s.fields ++ [(name, v)] := by
  simp [Snapshot.insert, h]

/-- Two snapshots with the same fields are the same. -/
theorem ext_fields {s t : Snapshot} (h : s.fields = t.fields) : s = t := by
  cases s
  cases t
  cases h
  rfl

/-- Setting a name to the value it has changes nothing. -/
theorem insert_get? {s : Snapshot} {name : String} {v : FieldValue} (h : s.get? name = some v) :
    s.insert name v = s := by
  have hmem : name ∈ s.names := get?_isSome_iff.mp (by simp [h])
  obtain ⟨p, hp, rfl⟩ : ∃ p, s.fields.find? (·.1 == name) = some p ∧ p.2 = v := by
    simpa [get?] using h
  have hpn : p.1 = name := by simpa using List.find?_some hp
  have hpmem : p ∈ s.fields := List.mem_of_find?_eq_some hp
  rw [insert, dif_pos hmem]
  apply ext_fields
  conv_rhs => rw [← List.map_id s.fields]
  refine List.map_congr_left fun q hq => ?_
  obtain ⟨n, w⟩ := q
  -- names are distinct, so the entry found is the only one with this name
  by_cases hn : n = name
  · obtain rfl : (n, w) = p := List.inj_on_of_nodup_map s.distinct hq hpmem (hn.trans hpn.symm)
    simp [hn]
  · simp [hn]

/-- The pairs of a snapshot, name by name: each name with every text of its value. -/
theorem pairs_eq (s : Snapshot) :
    s.pairs = s.names.flatMap fun n => (((s.get? n).map FieldValue.values).getD []).map (n, ·) := by
  obtain ⟨fields, distinct⟩ := s
  simp only [pairs, names, get?]
  induction fields with
  | nil => rfl
  | cons kv fields ih =>
    obtain ⟨k, v⟩ := kv
    obtain ⟨hk, hd⟩ := List.nodup_cons.mp distinct
    -- the names after the first differ from it, so their lookup skips the first field
    have hrest : ∀ n ∈ fields.map (·.1),
        ((((((k, v) :: fields).find? (·.1 == n)).map (·.2)).map FieldValue.values).getD []).map
            (n, ·) =
          ((((fields.find? (·.1 == n)).map (·.2)).map FieldValue.values).getD []).map (n, ·) := by
      intro n hn
      have hkn : k ≠ n := fun hkn => hk (hkn ▸ hn)
      simp [hkn]
    rw [List.map_cons, List.flatMap_cons, List.flatMap_cons, List.flatMap_congr hrest, ← ih hd]
    simp

end Snapshot

/-! ## One control -/

/-- One control sets its name to the value it gives from the name's current value; a control
that does not contribute changes nothing. -/
theorem record_eq (s : Snapshot) (c : Control) :
    s.record c =
      if c.contributes then s.insert c.name (FieldValue.after (s.get? c.name) c.state) else s := by
  obtain ⟨name, disabled, state⟩ := c
  by_cases hc : (⟨name, disabled, state⟩ : Control).contributes
  · rw [if_pos hc]
    cases state with
    | radio v checked =>
      cases checked
      · -- an unchecked radio button keeps a value that is there and sets the empty text otherwise
        by_cases hp : name ∈ s.names
        · obtain ⟨w, hw⟩ := Option.isSome_iff_exists.mp (Snapshot.get?_isSome_iff.mpr hp)
          simp [Snapshot.record, hc, hp, hw, FieldValue.after, Snapshot.insert_get? hw]
        · simp [Snapshot.record, hc, hp, FieldValue.after, Snapshot.get?_eq_none_iff.mpr hp]
      · simp [Snapshot.record, hc, FieldValue.after]
    | select options multiple => cases multiple <;> simp [Snapshot.record, hc, FieldValue.after]
    | _ => simp [Snapshot.record, hc, FieldValue.after]
  · simp [Snapshot.record, hc]

/-- What one control does to the snapshot, name by name: its own name gets the value it gives
from the one before, every other name keeps its value. -/
theorem get?_record (s : Snapshot) (c : Control) (m : String) :
    (s.record c).get? m =
      if c.contributes ∧ c.name = m then some (FieldValue.after (s.get? m) c.state)
      else s.get? m := by
  rw [record_eq]
  by_cases hc : c.contributes
  · by_cases hm : c.name = m
    · subst hm
      simp [hc, Snapshot.get?_insert]
    · simp [hc, hm, Snapshot.get?_insert]
  · simp [hc]

/-- A control adds its name at the end when it contributes and the name is new, and changes no
name otherwise. -/
theorem names_record (s : Snapshot) (c : Control) :
    (s.record c).names =
      if c.contributes ∧ c.name ∉ s.names then s.names ++ [c.name] else s.names := by
  rw [record_eq]
  by_cases hc : c.contributes
  · by_cases hp : c.name ∈ s.names <;> simp [hc, hp, Snapshot.names_insert]
  · simp [hc]

/-- A contributing control whose name is new appends the value it gives from nothing. -/
theorem record_fields_of_not_mem {s : Snapshot} {c : Control} (hc : c.contributes)
    (h : c.name ∉ s.names) :
    (s.record c).fields = s.fields ++ [(c.name, FieldValue.after none c.state)] := by
  rw [record_eq, if_pos hc, Snapshot.get?_eq_none_iff.mpr h, Snapshot.insert_fields_of_not_mem h]

/-! ## A list of controls -/

theorem ofControls_append (cs : List Control) (c : Control) :
    Snapshot.ofControls (cs ++ [c]) = (Snapshot.ofControls cs).record c := by
  simp [Snapshot.ofControls]

theorem contributingNames_append (cs : List Control) (c : Control) :
    contributingNames (cs ++ [c]) =
      contributingNames cs ++ if c.contributes then [c.name] else [] := by
  by_cases hc : c.contributes <;> simp [contributingNames, hc]

theorem valueOf_append (cs : List Control) (c : Control) (name : String) :
    valueOf (cs ++ [c]) name =
      if c.contributes ∧ c.name = name then some (FieldValue.after (valueOf cs name) c.state)
      else valueOf cs name := by
  by_cases h : c.contributes ∧ c.name = name <;> simp_all [valueOf]

/-- The names of the snapshot are those of the contributing controls, each once, in the order
of its first control. -/
theorem names_ofControls (cs : List Control) :
    (Snapshot.ofControls cs).names = (contributingNames cs).eraseDups := by
  induction cs using List.reverseRecOn with
  | nil => rfl
  | append_singleton cs c ih =>
    rw [ofControls_append, names_record, contributingNames_append, List.eraseDups_append, ← ih]
    by_cases hc : c.contributes
    · by_cases hp : c.name ∈ (Snapshot.ofControls cs).names
      · have : c.name ∈ contributingNames cs := by rwa [ih, List.mem_eraseDups] at hp
        simp [hc, hp, List.removeAll, this]
      · have : c.name ∉ contributingNames cs := by rwa [ih, List.mem_eraseDups] at hp
        simp [hc, hp, List.removeAll, this, List.eraseDups_cons]
    · simp [hc]

/-- The value of each name is the fold of the controls with that name. -/
theorem get?_ofControls (cs : List Control) (name : String) :
    (Snapshot.ofControls cs).get? name = valueOf cs name := by
  induction cs using List.reverseRecOn with
  | nil => rfl
  | append_singleton cs c ih => rw [ofControls_append, get?_record, valueOf_append, ih]

/-- **The snapshot of a list of controls, field by field.** Its names are those of the
contributing controls, each once, in the order of its first control; the value of each name is
the fold of the controls with that name; its pairs list each name with every text of its value,
field by field; and `insert` afterwards replaces the value of a present name in place and
appends a new one. -/
theorem ofControls_by_name (cs : List Control) :
    (Snapshot.ofControls cs).names = (contributingNames cs).eraseDups ∧
    (∀ name, (Snapshot.ofControls cs).get? name = valueOf cs name) ∧
    (Snapshot.ofControls cs).pairs = (contributingNames cs).eraseDups.flatMap
      (fun n => (((valueOf cs n).map FieldValue.values).getD []).map (n, ·)) ∧
    ∀ name v, ((Snapshot.ofControls cs).insert name v).names =
        (if name ∈ (Snapshot.ofControls cs).names then (Snapshot.ofControls cs).names
          else (Snapshot.ofControls cs).names ++ [name]) ∧
      ∀ m, ((Snapshot.ofControls cs).insert name v).get? m =
        if name = m then some v else (Snapshot.ofControls cs).get? m := by
  refine ⟨names_ofControls cs, get?_ofControls cs, ?_, fun name v =>
    ⟨Snapshot.names_insert _ name v, Snapshot.get?_insert _ name v⟩⟩
  rw [Snapshot.pairs_eq, names_ofControls]
  simp only [get?_ofControls]

example : (Snapshot.ofControls [⟨"title", false, .text "Home"⟩, ⟨"layout", false, .radio "wide" false⟩,
    ⟨"layout", false, .radio "narrow" true⟩, ⟨"slug", false, .text "home"⟩]).pairs =
    [("title", "Home"), ("layout", "narrow"), ("slug", "home")] := by decide

/-! ## The native body beside the snapshot -/

/-- Whether no documented difference between the native body and the snapshot touches a
control: it is no file input, a checkbox or radio button is checked, a single select has a
selected option, and no selected option of a multiple select has an empty value. -/
def Control.fullySet (c : Control) : Bool :=
  match c.state with
  | .text _ => true
  | .file _ => false
  | .checkbox _ checked | .radio _ checked => checked
  | .select options false => !(selectedOptions options).isEmpty
  | .select options true => (selectedOptions options).all (!·.value.isEmpty)

/-- With distinct names every contributing control has a field of its own, in control order. -/
theorem fields_ofControls_of_nodup {cs : List Control} (h : (contributingNames cs).Nodup) :
    (Snapshot.ofControls cs).fields =
      (cs.filter (·.contributes)).map fun c => (c.name, FieldValue.after none c.state) := by
  induction cs using List.reverseRecOn with
  | nil => rfl
  | append_singleton cs c ih =>
    rw [contributingNames_append] at h
    have hcs := ih (h.sublist (List.sublist_append_left _ _))
    rw [ofControls_append]
    by_cases hc : c.contributes
    · -- the control's name is not among the earlier ones, so its field goes at the end
      have hnew : c.name ∉ (Snapshot.ofControls cs).names := by
        rw [names_ofControls, List.mem_eraseDups]
        intro hmem
        simp only [hc, if_true] at h
        exact (List.nodup_append.mp h).2.2 _ hmem _ (List.mem_singleton_self _) rfl
      rw [record_fields_of_not_mem hc hnew, hcs]
      simp [hc]
    · rw [record_eq, if_neg hc, hcs]
      simp [hc]

theorem submitted_of_not_contributes {c : Control} (hc : c.contributes = false) :
    c.submitted = [] := by
  simp [Control.submitted, hc]

/-- A contributing control that is fully set sends natively the pairs of the field it gives. -/
theorem submitted_of_fullySet {c : Control} (hc : c.contributes) (hs : c.fullySet) :
    c.submitted = (FieldValue.after none c.state).values.map (c.name, ·) := by
  obtain ⟨name, disabled, state⟩ := c
  cases state with
  | text v => simp [Control.submitted, hc, FieldValue.after, FieldValue.values]
  | file v => simp [Control.fullySet] at hs
  | checkbox v checked =>
    simp_all [Control.fullySet, Control.submitted, FieldValue.after, FieldValue.values]
  | radio v checked =>
    simp_all [Control.fullySet, Control.submitted, FieldValue.after, FieldValue.values]
  | select options multiple =>
    cases multiple
    · -- a single select sends its first selected option, and there is one
      obtain ⟨o, os, hos⟩ : ∃ o os, selectedOptions options = o :: os := by
        cases h : selectedOptions options with
        | nil => simp [Control.fullySet, h] at hs
        | cons o os => exact ⟨o, os, rfl⟩
      simp [Control.submitted, hc, FieldValue.after, FieldValue.values, hos]
    · -- a multiple select sends the values, which are here what the options submit
      have hvalues : (selectedOptions options).map (·.submitted) =
          (selectedOptions options).map (·.value) := by
        refine List.map_congr_left fun o ho => ?_
        have : o.value.isEmpty = false := by
          simpa [Control.fullySet] using List.all_eq_true.mp hs o ho
        simp [SelectOption.submitted, this]
      simp [Control.submitted, hc, FieldValue.after, FieldValue.values, hvalues]

/-- Controls that do not contribute send nothing natively. -/
theorem flatMap_submitted (cs : List Control) :
    cs.flatMap Control.submitted = (cs.filter (·.contributes)).flatMap Control.submitted := by
  induction cs with
  | nil => rfl
  | cons c cs ih =>
    by_cases hc : c.contributes
    · simp [hc, ih]
    · simp [hc, ih, submitted_of_not_contributes]

/-- **A native body sends the snapshot's pairs when no documented difference applies.** When the
contributing controls have distinct names and are all fully set, the entries of the body are the
pairs of the snapshot, in the same order. -/
theorem body_entries_eq_pairs (cs : List Control) (hnames : (contributingNames cs).Nodup)
    (hset : ∀ c ∈ cs, c.contributes → c.fullySet) :
    (Body.ofControls cs).entries = (Snapshot.ofControls cs).pairs := by
  rw [Body.ofControls, flatMap_submitted, Snapshot.pairs, fields_ofControls_of_nodup hnames,
    List.flatMap_map]
  refine List.flatMap_congr fun c hc => ?_
  obtain ⟨hmem, hcon⟩ := List.mem_filter.mp hc
  exact submitted_of_fullySet hcon (hset c hmem hcon)

/-- A form with a control of each kind that a native body sends as the snapshot does, beside a
disabled file input and a text without a name. -/
def fullySetForm : List Control :=
  [⟨"title", false, .text "Home"⟩,
    ⟨"enabled", false, .checkbox "1" true⟩,
    ⟨"layout", false, .radio "narrow" true⟩,
    ⟨"robots", false, .select [⟨"", "Default", true⟩, ⟨"noindex", "No index", false⟩] false⟩,
    ⟨"tags", false, .select [⟨"news", "News", true⟩, ⟨"blog", "Blog", false⟩,
      ⟨"misc", "Misc", true⟩] true⟩,
    ⟨"image", true, .file "a.png"⟩,
    ⟨"", false, .text "ignored"⟩]

theorem body_entries_eq_pairs_fullySetForm :
    (contributingNames fullySetForm).Nodup ∧
      (∀ c ∈ fullySetForm, c.contributes → c.fullySet) ∧
      (Body.ofControls fullySetForm).entries = (Snapshot.ofControls fullySetForm).pairs :=
  ⟨by decide, by decide, body_entries_eq_pairs fullySetForm (by decide) (by decide)⟩

end PageEditor.Form
