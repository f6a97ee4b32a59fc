import PageEditor.Save.Request
/-!
# PageEditor.Proofs.Save.Marker

Where the background marker lands when the save's url is read as a URL.

A reader cuts a URL reference into three parts before anything else (RFC 3986, appendix B):
the fragment after the first `#`, then, in what comes before it, the query after the first `?`,
and the path (with scheme and authority) before that. The fields of a query are its
`&`-separated pieces; its parameters are the fields but for a last empty one, which a final `&`
or an empty query leaves (`parameters`).

The marker is chosen from the action as a text: `?` when no `?` occurs in it, nothing when it
ends in `?` or `&`, `&` otherwise, then `ajax=1` (`toList_backgroundMarker`). So the action is a
prefix of the url, and for an action without `#` whose query does not end in `?` the url has the
action's path, no fragment, and the action's parameters followed by `ajax=1` as its fields
(`marker_url_parts`). An action with a `#` gets the marker at the end of its fragment; its query
is left as it was (`fragment_takes_marker`).
-/

namespace PageEditor.Save

/-! ## Reading a URL -/

/-- Cuts a text at the first occurrence of a character: what comes before it, and what comes
after it when it occurs. -/
def cutAt (c : Char) : List Char → List Char × Option (List Char)
  | [] => ([], none)
  | x :: xs =>
    if x = c then ([], some xs)
    else
      let r := cutAt c xs
      (x :: r.1, r.2)

/-- A URL reference cut into the parts a reader takes apart first. -/
structure UrlParts where
  /-- Scheme, authority and path: everything before the query and the fragment. -/
  path : List Char
  /-- What follows the first `?` that comes before any `#`. -/
  query : Option (List Char)
  /-- What follows the first `#`. -/
  fragment : Option (List Char)
  deriving DecidableEq, Repr

/-- The parts of a URL reference given as characters. -/
def UrlParts.ofChars (u : List Char) : UrlParts :=
  let (beforeFragment, fragment) := cutAt '#' u
  let (path, query) := cutAt '?' beforeFragment
  ⟨path, query, fragment⟩

/-- The parts of a URL reference. -/
def UrlParts.read (u : String) : UrlParts := ofChars u.toList

/-- The parameters of a query: its `&`-separated fields, but for the empty field that a final
`&`, or an empty query, leaves at the end. -/
def parameters (q : List Char) : List (List Char) :=
  let fields := q.splitOn '&'
  if fields.getLast? = some [] then fields.dropLast else fields

/-- `u` is `a` with `ajax=1` added as its query's last parameter: `a` is a prefix of `u`, and
read as URLs the two have one path and one fragment, while the fields of `u`'s query are the
parameters of `a`'s query (none when it has none) followed by `ajax=1`, so that no empty field
is added. -/
def MarksQuery (a u : String) : Prop :=
  a.toList <+: u.toList ∧
  (UrlParts.read u).path = (UrlParts.read a).path ∧
  (UrlParts.read u).fragment = (UrlParts.read a).fragment ∧
  (UrlParts.read u).query.map (·.splitOn '&') =
    some (parameters ((UrlParts.read a).query.getD []) ++ ["ajax=1".toList])

/-! ## Cutting -/

theorem cutAt_append_of_not_mem {c : Char} {l : List Char} (h : c ∉ l) (t : List Char) :
    cutAt c (l ++ t) = (l ++ (cutAt c t).1, (cutAt c t).2) := by
  induction l with
  | nil => rfl
  | cons x xs ih =>
    have hx : x ≠ c := fun hx => h (hx ▸ List.mem_cons_self)
    simp [cutAt, hx, ih (fun hm => h (List.mem_cons_of_mem x hm))]

theorem cutAt_of_not_mem {c : Char} {l : List Char} (h : c ∉ l) : cutAt c l = (l, none) := by
  simpa [cutAt] using cutAt_append_of_not_mem h []

theorem cutAt_append_of_mem {c : Char} {l : List Char} (h : c ∈ l) (t : List Char) :
    cutAt c (l ++ t) = ((cutAt c l).1, (cutAt c l).2.map (· ++ t)) := by
  induction l with
  | nil => cases h
  | cons x xs ih =>
    by_cases hx : x = c
    · simp [cutAt, hx]
    · have hxs : c ∈ xs := (List.mem_cons.mp h).resolve_left (Ne.symm hx)
      simp [cutAt, hx, ih hxs]

/-- Cutting at the first `c` of a text that has one. -/
theorem cutAt_split {c : Char} {p : List Char} (hp : c ∉ p) (q : List Char) :
    cutAt c (p ++ c :: q) = (p, some q) := by
  rw [cutAt_append_of_not_mem hp]
  simp [cutAt]

/-- A text holding `c` is cut at its first `c`. -/
theorem exists_cut {c : Char} :
    ∀ {l : List Char}, c ∈ l → ∃ p q, c ∉ p ∧ l = p ++ c :: q
  | [], h => absurd h List.not_mem_nil
  | x :: xs, h => by
    by_cases hx : x = c
    · exact ⟨[], xs, List.not_mem_nil, by rw [hx]; rfl⟩
    · obtain ⟨p, q, hp, rfl⟩ := exists_cut ((List.mem_cons.mp h).resolve_left (Ne.symm hx))
      exact ⟨x :: p, q, by simp [hp, Ne.symm hx], rfl⟩

/-! ## The parts of a marked URL -/

/-- Text added after a `#` extends the fragment and nothing else. -/
theorem ofChars_append_of_fragment {a : List Char} (ha : '#' ∈ a) (s : List Char) :
    UrlParts.ofChars (a ++ s) =
      { UrlParts.ofChars a with fragment := (UrlParts.ofChars a).fragment.map (· ++ s) } := by
  simp [UrlParts.ofChars, cutAt_append_of_mem ha]

/-- Without `#` and `?`, a text is all path. -/
theorem ofChars_of_path {p : List Char} (hf : '#' ∉ p) (hq : '?' ∉ p) :
    UrlParts.ofChars p = ⟨p, none, none⟩ := by
  simp [UrlParts.ofChars, cutAt_of_not_mem hf, cutAt_of_not_mem hq]

/-- Without `#`, a text with a `?` is the path before its first `?` and the query after it. -/
theorem ofChars_of_query {p q : List Char} (hp : '?' ∉ p) (hf : '#' ∉ p ++ '?' :: q) :
    UrlParts.ofChars (p ++ '?' :: q) = ⟨p, some q, none⟩ := by
  simp [UrlParts.ofChars, cutAt_of_not_mem hf, cutAt_split hp]

/-! ## Fields of a query -/

/-- `ajax=1` holds no `&`. -/
theorem splitOn_marker : "ajax=1".toList.splitOn '&' = ["ajax=1".toList] :=
  List.splitOn_eq_singleton (by decide)

/-- A field added after `&` comes after the query's fields. -/
theorem splitOn_append_marker (q : List Char) :
    (q ++ '&' :: "ajax=1".toList).splitOn '&' = q.splitOn '&' ++ ["ajax=1".toList] := by
  rw [List.splitOn_append_cons_self, splitOn_marker]

/-- A text that ends in a character other than `&` ends its last field with it. -/
theorem getLast?_splitOn_snoc {x : Char} (hx : x ≠ '&') : ∀ p : List Char,
    ∃ w, ((p ++ [x]).splitOn '&').getLast? = some (w ++ [x])
  | [] => ⟨[], by rw [List.splitOn_eq_singleton (by simpa using hx.symm)]; rfl⟩
  | y :: p => by
    obtain ⟨w, hw⟩ := getLast?_splitOn_snoc hx p
    rw [List.cons_append, List.splitOn_cons_eq_if_modifyHead]
    split
    · exact ⟨w, by rw [List.getLast?_cons, hw]; rfl⟩
    -- `y` joins the first field, which is the last one only when there is one field
    · match h : (p ++ [x]).splitOn '&', hw with
      | [l], hw => exact ⟨y :: w, by simp_all⟩
      | l :: l' :: ls, hw => exact ⟨w, by simp_all [List.getLast?_cons]⟩

/-- A query that does not end in `&` and is not empty has its fields as parameters. -/
theorem parameters_of_open {q : List Char} (hne : q ≠ []) (hq : q.getLast? ≠ some '&') :
    parameters q = q.splitOn '&' := by
  obtain ⟨p, x, rfl⟩ : ∃ p x, q = p ++ [x] :=
    ⟨q.dropLast, q.getLast hne, (List.dropLast_concat_getLast hne).symm⟩
  have hx : x ≠ '&' := fun h => hq (by simp [h])
  obtain ⟨w, hw⟩ := getLast?_splitOn_snoc hx p
  simp [parameters, hw]

/-- A query that is empty or ends in `&` takes `ajax=1` as its last field without a
separator. -/
theorem splitOn_append_of_closed {q : List Char} (hq : q = [] ∨ q.getLast? = some '&') :
    (q ++ "ajax=1".toList).splitOn '&' = parameters q ++ ["ajax=1".toList] := by
  rcases hq with rfl | hq
  · exact splitOn_marker
  · obtain ⟨p, rfl⟩ := List.getLast?_eq_some_iff.mp hq
    have hfields : (p ++ ['&']).splitOn '&' = p.splitOn '&' ++ [[]] := by
      rw [List.splitOn_append_cons_self]
      rfl
    rw [List.append_assoc, List.singleton_append, splitOn_append_marker, parameters, hfields]
    simp

/-! ## The marker -/

/-- A text ends in a one-character text when its last character is that character. -/
theorem endsWith_singleton_iff (a : String) (c : Char) :
    a.endsWith (String.singleton c) = true ↔ a.toList.getLast? = some c := by
  rw [String.endsWith_eq_endsWith_toSlice, String.Slice.endsWith_string_iff]
  simp [List.singleton_suffix_iff_getLast?_eq_some]

/-- The url is the action, a separator and `ajax=1`: `?` when the action has no `?`, nothing
when it ends in `?` or `&`, and `&` otherwise. -/
theorem toList_backgroundMarker (a : String) :
    (backgroundMarker a).toList = a.toList ++
      ((if '?' ∈ a.toList then
          if a.toList.getLast? = some '?' ∨ a.toList.getLast? = some '&' then [] else ['&']
        else ['?']) ++ "ajax=1".toList) := by
  have hendQ : a.endsWith "?" = true ↔ a.toList.getLast? = some '?' :=
    endsWith_singleton_iff a '?'
  have hendA : a.endsWith "&" = true ↔ a.toList.getLast? = some '&' :=
    endsWith_singleton_iff a '&'
  simp only [backgroundMarker, String.toList_append, String.contains_char_eq]
  by_cases hq : '?' ∈ a.toList
  · by_cases he : a.toList.getLast? = some '?' ∨ a.toList.getLast? = some '&'
    · have hends : (a.endsWith "?" || a.endsWith "&") = true := by
        rcases he with he | he
        · rw [hendQ.mpr he, Bool.true_or]
        · rw [hendA.mpr he, Bool.or_true]
      simp [hq, he, hends]
    · have hends : (a.endsWith "?" || a.endsWith "&") = false := by
        rw [Bool.or_eq_false_iff]
        exact ⟨Bool.eq_false_iff.mpr fun h => he (.inl (hendQ.mp h)),
          Bool.eq_false_iff.mpr fun h => he (.inr (hendA.mp h))⟩
      simp [hq, he, hends]
  · simp [hq]

/-- An action `p?q` whose query does not end in `?` ends in `?` or `&` exactly when its query
is empty or ends in `&`. -/
theorem ends_iff_closed {p q : List Char} (hq : q.getLast? ≠ some '?') :
    ((p ++ '?' :: q).getLast? = some '?' ∨ (p ++ '?' :: q).getLast? = some '&') ↔
      (q = [] ∨ q.getLast? = some '&') := by
  rw [List.getLast?_append, List.getLast?_cons]
  cases h : q.getLast? with
  | none => simp_all
  | some x =>
    have hne : q ≠ [] := by rintro rfl; cases h
    simp_all

/-- **The url of a background save, read as a URL.** The action is a prefix of it. An action
without `#` whose query does not end in `?` gets `ajax=1` as its query's last parameter, with
path and fragment unchanged and no empty parameter added; an action with a `#` gets the marker
at the end of its fragment, with path and query unchanged. -/
theorem marker_url_parts (a : String) (method : Option String) (body : Form.Body) :
    a.toList <+: (Request.make a method body).url.toList ∧
    ('#' ∉ a.toList → (∀ q, (UrlParts.read a).query = some q → q.getLast? ≠ some '?') →
      MarksQuery a (Request.make a method body).url) ∧
    ('#' ∈ a.toList → ∃ s, "ajax=1".toList <:+ s ∧
      UrlParts.read (Request.make a method body).url =
        { UrlParts.read a with fragment := (UrlParts.read a).fragment.map (· ++ s) }) := by
  have hu := toList_backgroundMarker a
  have hmarker : '#' ∉ "ajax=1".toList := by decide
  simp only [MarksQuery, Request.make, UrlParts.read, hu]
  refine ⟨List.prefix_append _ _, fun hf hq => ⟨List.prefix_append _ _, ?_⟩,
    fun hf => ⟨_, List.suffix_append _ _, ofChars_append_of_fragment hf _⟩⟩
  by_cases hquery : '?' ∈ a.toList
  · -- the action is `p?q`: the marker goes after `q`, with or without `&`
    obtain ⟨p, q, hp, ha⟩ := exists_cut hquery
    rw [ha] at hf hq ⊢
    rw [ofChars_of_query hp hf] at hq ⊢
    have hq' := hq q rfl
    have hf' : '#' ∉ q := fun h => hf (List.mem_append_right _ (List.mem_cons_of_mem _ h))
    rw [if_pos (by simp), List.append_assoc, List.cons_append, ofChars_of_query hp (by simp_all)]
    refine ⟨rfl, rfl, ?_⟩
    simp only [Option.map_some, Option.getD_some, Option.some.injEq]
    by_cases hclosed : q = [] ∨ q.getLast? = some '&'
    · rw [if_pos ((ends_iff_closed hq').mpr hclosed), List.nil_append,
        splitOn_append_of_closed hclosed]
    · rw [if_neg (mt (ends_iff_closed hq').mp hclosed), List.singleton_append,
        splitOn_append_marker, parameters_of_open (fun h => hclosed (.inl h))
          (fun h => hclosed (.inr h))]
  · -- no query yet: `?ajax=1` opens one
    rw [if_neg hquery, ofChars_of_path hf hquery, List.singleton_append,
      ofChars_of_query hquery (by simp_all)]
    exact ⟨rfl, rfl, by rw [Option.map_some, splitOn_marker]; rfl⟩

/-- The action of the editor's own test, with a query: `&ajax=1` is its last parameter. -/
theorem marker_url_parts_edit :
    '#' ∉ "/admin/page?edit=home.html".toList ∧
      MarksQuery "/admin/page?edit=home.html"
        (Request.make "/admin/page?edit=home.html" none Form.Body.empty).url := by
  have hread :
      (UrlParts.read "/admin/page?edit=home.html").query = some "edit=home.html".toList := by
    decide
  refine ⟨by decide, (marker_url_parts _ _ _).2.1 (by decide) fun q hq => ?_⟩
  rw [hread, Option.some.injEq] at hq
  subst hq
  decide

/-- An action with a fragment gets the marker inside the fragment: `/admin/page#top` becomes
`/admin/page#top?ajax=1`, whose query is missing and whose fragment has changed. -/
theorem fragment_takes_marker :
    UrlParts.read (Request.make "/admin/page#top" none Form.Body.empty).url =
        ⟨"/admin/page".toList, none, some "top?ajax=1".toList⟩ ∧
      ¬ MarksQuery "/admin/page#top" (Request.make "/admin/page#top" none Form.Body.empty).url := by
  have hread : UrlParts.read (Request.make "/admin/page#top" none Form.Body.empty).url =
      ⟨"/admin/page".toList, none, some "top?ajax=1".toList⟩ := by
    rw [UrlParts.read, Request.make, toList_backgroundMarker]
    decide
  refine ⟨hread, fun h => ?_⟩
  have hfragment := h.2.2.1
  rw [hread] at hfragment
  revert hfragment
  decide

end PageEditor.Save
