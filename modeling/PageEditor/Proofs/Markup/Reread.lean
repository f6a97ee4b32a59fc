import PageEditor.Proofs.Markup.Trees
/-!
# PageEditor.Proofs.Markup.Reread

Reading back what was written.

Reading the markup of printable trees, with no two texts side by side, into a node adds exactly
those trees below it, node for node (`readInto_markupAll`): an opening tag is found up to its
first `>` outside quotes and read back into its tag and attributes, a text runs to the next `<`,
the text of `script`, `style` and `textarea` runs to its closing tag, and a closing tag closes
the element just opened. So setting the inside of a node to that markup gives back the trees
(`setInnerHtml_markupAll`), and setting the inside of any node to the inside markup of a node
whose trees are printable gives back those trees with the texts side by side merged
(`reread_printable`).

Without printability this fails: the markup `<</x>/b>` is read as the texts `<` and `/b>`, which
are written back as the closing tag `</b>`, and that reads as nothing (`reread_loses_texts`).
-/

namespace PageEditor.Markup

open PageEditor.Markup.Tree

/-! ## Characters -/

/-- Lowercasing makes no `<` of another character. -/
theorem toLower_eq_lt {c : Char} (h : c.toLower = '<') : c = '<' := by
  rcases Document.toLower_eq_self_or_lower c with hs | hr
  · exact hs.symm.trans h
  · rw [h] at hr
    exact absurd hr (by decide)

/-- A list lowercased character by character is itself when every character is lowercase. -/
theorem toLower_ofList {l : List Char} (h : ∀ c ∈ l, c.toLower = c) :
    (String.ofList l).toLower = String.ofList l := by
  apply String.toList_inj.mp
  change (String.map Char.toLower (String.ofList l)).toList = _
  rw [String.toList_map, String.toList_ofList]
  exact List.map_congr_left h |>.trans (List.map_id l)

theorem dropWhile_of_head {p : Char → Bool} {l : List Char}
    (h : ∀ c, l.head? = some c → p c = false) : l.dropWhile p = l := by
  cases l with
  | nil => rfl
  | cons c l => exact List.dropWhile_cons_of_neg (by simp [h c rfl])

/-- A text that starts and ends with a non-blank character is its own trim. -/
theorem trim_ofList {l : List Char} (h₁ : ∀ c, l.head? = some c → Text.isBlank c = false)
    (h₂ : ∀ c, l.getLast? = some c → Text.isBlank c = false) :
    Text.trim (String.ofList l) = String.ofList l := by
  have h₂' : ∀ c, l.reverse.head? = some c → Text.isBlank c = false := by
    simpa [List.head?_reverse] using h₂
  simp only [Text.trim, Text.trimEnd, Text.trimStart, Text.dropBlank, String.toList_ofList,
    dropWhile_of_head h₁, dropWhile_of_head h₂', List.reverse_reverse]

/-! ## Scanning an opening tag -/

/-- Characters that neither quote nor end a tag are taken as they come. -/
theorem scanTag_plain : ∀ (l acc r : List Char), (∀ c ∈ l, c ≠ '"' ∧ c ≠ '\'' ∧ c ≠ '>') →
    scanTag none acc (l ++ r) = scanTag none (l.reverse ++ acc) r
  | [], _, _, _ => rfl
  | c :: l, acc, r, h => by
    obtain ⟨h₁, h₂, h₃⟩ := h c (List.mem_cons_self ..)
    rw [List.cons_append, scanTag]
    simp only [h₁, h₂, h₃, decide_false, Bool.or_self, Bool.false_eq_true, ↓reduceIte]
    rw [scanTag_plain l (c :: acc) r fun x hx => h x (List.mem_cons_of_mem _ hx)]
    simp

/-- Inside double quotes everything up to the closing quote is taken. -/
theorem scanTag_quoted : ∀ (v acc r : List Char), '"' ∉ v →
    scanTag (some '"') acc (v ++ '"' :: r) = scanTag none ('"' :: v.reverse ++ acc) r
  | [], acc, r, _ => by simp [scanTag]
  | c :: v, acc, r, h => by
    have hc : c ≠ '"' := fun e => h (e ▸ List.mem_cons_self ..)
    rw [List.cons_append, scanTag]
    simp only [hc, ↓reduceIte]
    rw [scanTag_quoted v (c :: acc) r fun hv => h (List.mem_cons_of_mem _ hv)]
    simp

theorem nameChar_plain {c : Char} (h : nameChar c = true) : c ≠ '"' ∧ c ≠ '\'' ∧ c ≠ '>' := by
  simp only [nameChar, Bool.and_eq_true, bne_iff_ne, ne_eq] at h
  exact ⟨h.1.1.2, h.1.2, h.1.1.1.2⟩

theorem tagChar_plain {c : Char} (h : tagChar c = true) : c ≠ '"' ∧ c ≠ '\'' ∧ c ≠ '>' := by
  simp only [tagChar, Bool.and_eq_true, bne_iff_ne, ne_eq] at h
  exact ⟨h.1.1.2, h.1.2, h.1.1.1.1.1.2⟩

/-- Written attributes are taken whole: names hold no quote, values sit in double quotes. -/
theorem scanTag_attrs : ∀ (attrs : List (String × String)) (acc r : List Char),
    attrs.all attrOk = true →
    scanTag none acc (attrMarkup attrs ++ r) = scanTag none ((attrMarkup attrs).reverse ++ acc) r
  | [], _, _, _ => rfl
  | (k, v) :: rest, acc, r, h => by
    simp only [List.all_cons, Bool.and_eq_true] at h
    obtain ⟨hkv, hrest⟩ := h
    simp only [attrOk, Bool.not_eq_true', List.all_eq_true, Bool.and_eq_true,
      List.isEmpty_eq_false_iff, List.contains_eq_mem, decide_eq_false_iff_not] at hkv
    obtain ⟨⟨-, hk⟩, hv⟩ := hkv
    have hplain : ∀ c ∈ ' ' :: k.toList ++ ['='], c ≠ '"' ∧ c ≠ '\'' ∧ c ≠ '>' := by
      intro c hc
      simp only [List.cons_append, List.mem_cons, List.mem_append, List.not_mem_nil,
        or_false] at hc
      rcases hc with rfl | hc | rfl
      · decide
      · exact nameChar_plain (hk c hc)
      · decide
    have hsplit : attrMarkup ((k, v) :: rest) ++ r =
        (' ' :: k.toList ++ ['=']) ++ '"' :: (v.toList ++ '"' :: (attrMarkup rest ++ r)) := by
      simp [attrMarkup]
    rw [hsplit, scanTag_plain _ _ _ hplain, scanTag, if_pos (by decide), scanTag_quoted _ _ _ hv,
      scanTag_attrs rest _ r hrest]
    congr 1
    simp [attrMarkup]

/-- An opening tag as elements are written is scanned up to its `>`. -/
theorem scanTag_opening {tag : String} {attrs : List (String × String)} (htag : tagOk tag = true)
    (hattrs : attrs.all attrOk = true) (r : List Char) :
    scanTag none [] (tag.toList ++ attrMarkup attrs ++ '>' :: r) =
      some (tag.toList ++ attrMarkup attrs, r) := by
  have hplain : ∀ c ∈ tag.toList, c ≠ '"' ∧ c ≠ '\'' ∧ c ≠ '>' := by
    intro c hc
    unfold tagOk at htag
    split at htag
    · rename_i x xs hxs
      rw [hxs] at hc
      exact tagChar_plain (List.all_eq_true.mp (Bool.and_eq_true _ _ ▸ htag).2 c hc)
    · cases htag
  rw [List.append_assoc, scanTag_plain _ _ _ hplain, scanTag_attrs _ _ _ hattrs, scanTag]
  simp

/-! ## Reading an opening tag back -/

theorem tagChar_spec {c : Char} (h : tagChar c = true) :
    Text.isBlank c = false ∧ c ≠ '>' ∧ c ≠ '/' ∧ c ≠ '<' ∧ c.toLower = c := by
  simp only [tagChar, Bool.and_eq_true, bne_iff_ne, ne_eq, Bool.not_eq_true', beq_iff_eq] at h
  exact ⟨h.1.1.1.1.1.1, h.1.1.1.1.1.2, h.1.1.1.1.2, h.1.1.1.2, h.2⟩

/-- A printable tag: an ASCII letter, then tag characters. -/
theorem tagOk_spec {tag : String} (h : tagOk tag = true) :
    ∃ c cs, tag.toList = c :: cs ∧ isAsciiLetter c = true ∧ ∀ x ∈ tag.toList, tagChar x = true := by
  unfold tagOk at h
  split at h
  · rename_i c cs hcs
    simp only [Bool.and_eq_true, List.all_eq_true] at h
    exact ⟨c, cs, hcs, h.1, hcs ▸ h.2⟩
  · cases h

theorem attrMarkup_getLast? : ∀ {attrs : List (String × String)}, attrs ≠ [] →
    (attrMarkup attrs).getLast? = some '"'
  | [kv], _ => by
    rw [show attrMarkup [kv] = (' ' :: kv.1.toList ++ '=' :: '"' :: kv.2.toList) ++ ['"'] by
      simp [attrMarkup], List.getLast?_concat]
  | kv :: kv' :: rest, _ => by
    rw [show attrMarkup (kv :: kv' :: rest) = _ ++ attrMarkup (kv' :: rest) from rfl,
      List.getLast?_append, attrMarkup_getLast? (List.cons_ne_nil _ _)]
    rfl

/-- The inside of a written opening tag ends with a quote or a tag character. -/
theorem inside_getLast? {tag : String} {attrs : List (String × String)} (htag : tagOk tag = true)
    {c : Char} (h : (tag.toList ++ attrMarkup attrs).getLast? = some c) :
    Text.isBlank c = false ∧ c ≠ '/' := by
  cases attrs with
  | nil =>
    obtain ⟨-, -, -, -, hall⟩ := tagOk_spec htag
    have hc : tagChar c = true := hall c (List.mem_of_getLast? (by simpa [attrMarkup] using h))
    exact ⟨(tagChar_spec hc).1, (tagChar_spec hc).2.2.1⟩
  | cons kv rest =>
    rw [List.getLast?_append, attrMarkup_getLast? (List.cons_ne_nil _ _)] at h
    obtain rfl := Option.some.inj h
    exact ⟨by decide, by decide⟩

theorem attrMarkup_takeWhile (attrs : List (String × String)) :
    (attrMarkup attrs).takeWhile (!Text.isBlank ·) = [] ∧
      (attrMarkup attrs).dropWhile (!Text.isBlank ·) = attrMarkup attrs := by
  cases attrs with
  | nil => exact ⟨rfl, rfl⟩
  | cons kv rest =>
    have h : attrMarkup (kv :: rest) = ' ' :: (attrMarkup (kv :: rest)).tail := rfl
    rw [h]
    exact ⟨List.takeWhile_cons_of_neg (by decide), List.dropWhile_cons_of_neg (by decide)⟩

theorem valueAfter_quoted {v more : List Char} (hv : '"' ∉ v) :
    valueAfter ('=' :: '"' :: (v ++ '"' :: more)) = (v, more) := by
  have hne : ∀ c ∈ v, (c != '"') = true := fun c hc => by
    simp only [bne_iff_ne, ne_eq]
    rintro rfl
    exact hv hc
  simp only [valueAfter, Text.dropBlank]
  rw [List.dropWhile_cons_of_neg (by decide)]
  simp only [decide_true, Bool.true_or, ↓reduceIte, List.takeWhile_append_of_pos hne,
    List.dropWhile_append_of_pos hne]
  simp

theorem isNameChar_of_nameChar {c : Char} (h : nameChar c = true) : isNameChar c = true := by
  simp only [nameChar, Bool.and_eq_true] at h
  simp only [isNameChar, Bool.and_eq_true]
  exact h.1.1.1.1

/-- An attribute is read from a word that starts with a non-blank character. -/
theorem attributesOf_word {l : List Char} {c : Char} (hc : l.head? = some c)
    (hb : Text.isBlank c = false) :
    attributesOf l =
      (if (String.ofList (l.takeWhile isNameChar)).toLower.isEmpty then []
        else [((String.ofList (l.takeWhile isNameChar)).toLower,
          String.ofList (valueAfter (Text.dropBlank (l.dropWhile isNameChar))).1)]) ++
        attributesOf (attributeRest l) := by
  cases l with
  | nil => cases hc
  | cons c' tl =>
    obtain rfl := Option.some.inj hc
    rw [attributesOf.eq_2, dif_neg (by simp [hb])]

/-- Written attributes read back as themselves. -/
theorem attributesOf_attrMarkup : ∀ attrs : List (String × String), attrs.all attrOk = true →
    attributesOf (attrMarkup attrs) = attrs
  | [], _ => by rw [attrMarkup, List.flatMap_nil, attributesOf]
  | (k, v) :: rest, h => by
    simp only [List.all_cons, Bool.and_eq_true] at h
    obtain ⟨hkv, hrest⟩ := h
    simp only [attrOk, Bool.not_eq_true', List.all_eq_true, Bool.and_eq_true,
      List.isEmpty_eq_false_iff, List.contains_eq_mem, decide_eq_false_iff_not] at hkv
    obtain ⟨⟨hne, hk⟩, hv⟩ := hkv
    obtain ⟨c, cs, hcs⟩ := List.exists_cons_of_ne_nil hne
    have hc : nameChar c = true := hk c (hcs ▸ List.mem_cons_self ..)
    have hname : ∀ x ∈ k.toList, isNameChar x = true := fun x hx => isNameChar_of_nameChar (hk x hx)
    have hsplit : attrMarkup ((k, v) :: rest) =
        ' ' :: (k.toList ++ '=' :: '"' :: (v.toList ++ '"' :: attrMarkup rest)) := by
      simp [attrMarkup]
    have hdrop : (k.toList ++ '=' :: '"' :: (v.toList ++ '"' :: attrMarkup rest)).dropWhile
        isNameChar = '=' :: '"' :: (v.toList ++ '"' :: attrMarkup rest) := by
      rw [List.dropWhile_append_of_pos hname]
      exact List.dropWhile_cons_of_neg (by decide)
    have htake : (k.toList ++ '=' :: '"' :: (v.toList ++ '"' :: attrMarkup rest)).takeWhile
        isNameChar = k.toList := by
      rw [List.takeWhile_append_of_pos hname, List.takeWhile_cons_of_neg (by decide),
        List.append_nil]
    have hkey : (String.ofList k.toList).toLower = k := by
      rw [toLower_ofList fun x hx => ?_, String.ofList_toList]
      simp only [nameChar, Bool.and_eq_true, beq_iff_eq] at hk
      exact (hk x hx).2
    have hblank : Text.isBlank c = false := by
      simp only [nameChar, Bool.and_eq_true, Bool.not_eq_true'] at hc
      exact hc.1.1.1.1.1
    rw [hsplit, attributesOf.eq_2, dif_pos (by decide), attributesOf_word (by simp [hcs]) hblank,
      htake, hkey]
    have hval : valueAfter (Text.dropBlank ('=' :: '"' :: (v.toList ++ '"' :: attrMarkup rest))) =
        (v.toList, attrMarkup rest) := by
      rw [Text.dropBlank, List.dropWhile_cons_of_neg (by decide)]
      exact valueAfter_quoted hv
    have hrestEq : attributeRest (k.toList ++ '=' :: '"' :: (v.toList ++ '"' :: attrMarkup rest)) =
        attrMarkup rest := by
      rw [attributeRest, hdrop, hval]
    rw [hdrop, hval, hrestEq, attributesOf_attrMarkup rest hrest, String.ofList_toList]
    have hkne : k.isEmpty = false := by
      rw [String.isEmpty_eq_false_iff]
      rintro rfl
      exact hne rfl
    simp [hkne]

/-- A tag's inside that does not end with `/` does not close itself, and keeps its end. -/
theorem endsWith_slash {l : List Char} (h : ∀ c, l.getLast? = some c → c ≠ '/') :
    (String.ofList l).endsWith "/" = false := by
  rw [Bool.eq_false_iff]
  intro he
  rw [← String.endsWith_toSlice, String.Slice.endsWith_string_iff] at he
  simp only [String.reduceToList, String.copy_toSlice, String.toList_ofList] at he
  exact h '/' (List.singleton_suffix_iff_getLast?_eq_some.mp he) rfl

theorem stripSlashes_ofList {l : List Char} (h : ∀ c, l.getLast? = some c → c ≠ '/') :
    Document.stripSlashes (String.ofList l) = String.ofList l := by
  rw [Document.stripSlashes, String.toList_ofList, dropWhile_of_head fun c hc => ?_,
    List.reverse_reverse]
  rw [List.head?_reverse] at hc
  simpa using h c hc

/-- The inside of a written opening tag reads as that tag, not closing itself. -/
theorem inside_reads {tag : String} {attrs : List (String × String)} (htag : tagOk tag = true)
    (hattrs : attrs.all attrOk = true) :
    (Text.trim (String.ofList (tag.toList ++ attrMarkup attrs))).endsWith "/" = false ∧
      parseTag (Document.stripSlashes (Text.trim (String.ofList (tag.toList ++ attrMarkup attrs)))) =
        (tag, attrs) := by
  obtain ⟨c, cs, hcs, -, hall⟩ := tagOk_spec htag
  have hhead : ∀ x, (tag.toList ++ attrMarkup attrs).head? = some x → Text.isBlank x = false := by
    intro x hx
    rw [hcs, List.cons_append, List.head?_cons, Option.some.injEq] at hx
    subst hx
    exact (tagChar_spec (hall _ (by rw [hcs]; exact List.mem_cons_self ..))).1
  have hlast : ∀ x, (tag.toList ++ attrMarkup attrs).getLast? = some x →
      Text.isBlank x = false ∧ x ≠ '/' := fun _ hx => inside_getLast? htag hx
  have htrim := trim_ofList hhead fun x hx => (hlast x hx).1
  have hslash : ∀ x, (tag.toList ++ attrMarkup attrs).getLast? = some x → x ≠ '/' :=
    fun x hx => (hlast x hx).2
  rw [htrim]
  refine ⟨endsWith_slash hslash, ?_⟩
  have hname : ∀ x ∈ tag.toList, (!Text.isBlank x) = true := fun x hx => by
    simp [(tagChar_spec (hall x hx)).1]
  rw [stripSlashes_ofList hslash, parseTag, htrim, String.toList_ofList,
    List.takeWhile_append_of_pos hname, List.dropWhile_append_of_pos hname,
    (attrMarkup_takeWhile attrs).1, (attrMarkup_takeWhile attrs).2, List.append_nil,
    toLower_ofList fun x hx => (tagChar_spec (hall x hx)).2.2.2.2, String.ofList_toList,
    attributesOf_attrMarkup attrs hattrs]

/-- Where a written raw-text element's text ends: at its closing tag, whatever the case of
the text before it. -/
theorem findSub_first {pt w : List Char} : ∀ {u : List Char}, '<' ∉ u →
    findSub ('<' :: pt) (u ++ '<' :: pt ++ w) = some u.length
  | [], _ => by
    have hpre : ('<' :: pt).isPrefixOf ('<' :: (pt ++ w)) = true :=
      List.isPrefixOf_iff_prefix.mpr (List.prefix_append ('<' :: pt) w)
    rw [List.nil_append, List.cons_append, findSub.eq_2, if_pos hpre]
    rfl
  | x :: u, hu => by
    have hx : x ≠ '<' := fun h => hu (h ▸ List.mem_cons_self ..)
    simp only [List.cons_append]
    rw [findSub.eq_2, if_neg (by simp [List.isPrefixOf, Ne.symm hx]),
      findSub_first fun h => hu (List.mem_cons_of_mem _ h)]
    rfl

theorem findSub_closing {tag : String} (htag : tagOk tag = true) {u rest : List Char}
    (hu : '<' ∉ u) :
    findSub ("</" ++ tag).toList ((u ++ ('<' :: '/' :: tag.toList ++ '>' :: rest)).map Char.toLower) =
      some u.length := by
  obtain ⟨-, -, -, -, hall⟩ := tagOk_spec htag
  have hlow : tag.toList.map Char.toLower = tag.toList :=
    (List.map_congr_left fun x hx => (tagChar_spec (hall x hx)).2.2.2.2).trans (List.map_id _)
  have hu' : '<' ∉ u.map Char.toLower := by
    rw [List.mem_map]
    rintro ⟨x, hx, hlt⟩
    exact hu (toLower_eq_lt hlt ▸ hx)
  have hpat : ("</" ++ tag).toList = '<' :: ('/' :: tag.toList) := by
    simp [String.toList_append]
  have hmap : (u ++ ('<' :: '/' :: tag.toList ++ '>' :: rest)).map Char.toLower =
      u.map Char.toLower ++ '<' :: ('/' :: tag.toList) ++ ('>' :: rest).map Char.toLower := by
    simp only [List.map_append, List.map_cons, hlow, List.append_assoc, List.cons_append]
    rfl
  rw [hpat, hmap, findSub_first hu', List.length_map]

theorem textOk_spec {s : String} (h : textOk s = true) : s.toList ≠ [] ∧ '<' ∉ s.toList := by
  simpa [textOk] using h

/-- The children of a printable raw-text element with no texts side by side: none, or one text. -/
theorem rawKids {cs : List Tree} (htext : cs.all isText = true) (hp : printableAll cs = true)
    (ht : tidyAll? cs = true) : cs = [] ∨ ∃ s, cs = [.text s] ∧ textOk s = true := by
  match cs, htext, hp, ht with
  | [], _, _, _ => exact .inl rfl
  | [.text s], _, hp, _ =>
    simp only [printableAll, printable, Bool.and_true] at hp
    exact .inr ⟨s, rfl, hp⟩
  | [.element ..], htext, _, _ => simp [isText] at htext
  | t :: u :: us, htext, _, ht =>
    simp only [List.all_cons, Bool.and_eq_true] at htext
    simp [tidyAll?, htext.1, htext.2.1] at ht

/-- What no texts side by side asks of the first tree and the rest. -/
theorem tidyAll?_cons {t : Tree} {ts : List Tree} (h : tidyAll? (t :: ts) = true) :
    t.tidy? = true ∧ tidyAll? ts = true ∧ (t.isText = true → ∀ u ∈ ts.head?, u.isText = false) := by
  cases ts with
  | nil => exact ⟨by simpa [tidyAll?] using h, rfl, fun _ _ hu => by simp at hu⟩
  | cons u us =>
    simp only [tidyAll?, Bool.and_eq_true, Bool.not_eq_true'] at h
    obtain ⟨⟨hnot, ht⟩, hts⟩ := h
    refine ⟨ht, hts, fun htext v hv => ?_⟩
    obtain rfl := Option.some.inj hv
    simpa [htext] using hnot

/-- Markup that starts with a tree other than a text starts with a tag. -/
theorem head_markupAll {ts : List Tree} {rest : List Char}
    (hts : ∀ u ∈ ts.head?, u.isText = false) (hr : ∀ c, rest.head? = some c → c = '<') :
    ∀ c, (markupAll ts ++ rest).head? = some c → c = '<' := by
  match ts, hts with
  | [], _ => exact hr
  | .text _ :: _, hts => simp [isText] at hts
  | .element tag attrs cs :: us, _ =>
    intro c hc
    simp only [markupAll, markup] at hc
    split at hc <;>
      simp only [List.cons_append, List.append_assoc, List.head?_cons, Option.some.injEq] at hc <;>
      exact hc.symm

/-! ## Reading markup step by step -/

namespace Document

variable {σ : Type} {d : Document σ}

/-- A closing tag closes the element just opened, when it has that tag. -/
theorem readInto_close {tag : String} (htag : tagOk tag = true) {id cur : Nat} {os : List Nat}
    (hid : (d.node id).tag = tag) (r : List Char) :
    d.readInto (id :: cur :: os) ('<' :: '/' :: tag.toList ++ '>' :: r) =
      d.readInto (cur :: os) r := by
  obtain ⟨-, -, -, -, hall⟩ := tagOk_spec htag
  have hplain : ∀ x ∈ tag.toList, (x != '>') = true := fun x hx => by
    simp [(tagChar_spec (hall x hx)).2.1]
  have hsplit : splitAtClose (tag.toList ++ '>' :: r) = (tag.toList, r) := by
    simp only [splitAtClose, List.takeWhile_append_of_pos hplain, List.dropWhile_append_of_pos hplain]
    simp
  have hname : (Text.trim (String.ofList tag.toList)).toLower = tag := by
    obtain ⟨c, cs, hcs, -, -⟩ := tagOk_spec htag
    rw [trim_ofList (fun x hx => ?_) (fun x hx => (tagChar_spec (hall x (List.mem_of_getLast? hx))).1),
      toLower_ofList fun x hx => (tagChar_spec (hall x hx)).2.2.2.2, String.ofList_toList]
    exact (tagChar_spec (hall x (List.mem_of_head? hx))).1
  rw [List.cons_append, List.cons_append, readInto.eq_2, hsplit, hname, closeOpen,
    List.findIdx?_cons, if_pos (by simp [hid])]
  simp

/-- Text without `<` up to the next tag. -/
theorem textRun_text {u r : List Char} (hne : u ≠ []) (hu : '<' ∉ u)
    (hr : ∀ c, r.head? = some c → c = '<') : textRun (u ++ r) = (u, r) := by
  have hplain : ∀ x ∈ u, (x != '<') = true := fun x hx => by
    simp only [bne_iff_ne, ne_eq]
    rintro rfl
    exact hu hx
  obtain ⟨c, u', rfl⟩ := List.exists_cons_of_ne_nil hne
  have hc : c ≠ '<' := fun h => hu (h ▸ List.mem_cons_self ..)
  have hstop : r.takeWhile (· != '<') = [] ∧ r.dropWhile (· != '<') = r := by
    cases r with
    | nil => exact ⟨rfl, rfl⟩
    | cons x r' =>
      obtain rfl := hr x rfl
      exact ⟨List.takeWhile_cons_of_neg (by decide), List.dropWhile_cons_of_neg (by decide)⟩
  rw [List.cons_append, textRun.eq_2 _ (fun tl h => hc (List.cons.inj h).1), ← List.cons_append,
    List.takeWhile_append_of_pos hplain, List.dropWhile_append_of_pos hplain, hstop.1, hstop.2,
    List.append_nil]

/-- A text is read as a text node below the current element. -/
theorem readInto_text {s : String} (hs : textOk s = true) {cur : Nat} {os : List Nat}
    {r : List Char} (hr : ∀ c, r.head? = some c → c = '<') :
    d.readInto (cur :: os) (s.toList ++ r) = (d.sprout (textNode s) cur).readInto (cur :: os) r := by
  obtain ⟨hne, hlt⟩ := textOk_spec hs
  obtain ⟨c, u, hcu⟩ := List.exists_cons_of_ne_nil hne
  have hc : c ≠ '<' := fun h => hlt (hcu ▸ h ▸ List.mem_cons_self ..)
  have hrun := textRun_text hne hlt hr
  rw [hcu, List.cons_append] at hrun ⊢
  rw [readInto.eq_5 _ _ _ _ (fun _ h _ => hc h) (fun _ h _ => hc h) (fun _ _ h _ => hc h), hrun]
  simp only [String.ofList_toList, ← hcu]
  rfl

/-- An opening tag is read as a fresh element below the current one. The text of a raw-text
element runs to its closing tag; a void element is not opened; any other element is. -/
theorem readInto_tag {c : Char} {tl inside r : List Char} {tag : String}
    {attrs : List (String × String)} {cur : Nat} {os : List Nat} (hc : isAsciiLetter c = true)
    (hscan : scanTag none [] (c :: tl) = some (inside, r))
    (hself : (Text.trim (String.ofList inside)).endsWith "/" = false)
    (hparse : parseTag (stripSlashes (Text.trim (String.ofList inside))) = (tag, attrs)) :
    d.readInto (cur :: os) ('<' :: c :: tl) =
      if rawTextTags.contains tag then
        let bodyEnd := (findSub ("</" ++ tag).toList (r.map Char.toLower)).getD r.length
        (if bodyEnd = 0 then d.sprout (elementNode tag attrs) cur
          else (d.sprout (elementNode tag attrs) cur).sprout
            (textNode (String.ofList (r.take bodyEnd))) d.nodes.size).readInto
          (d.nodes.size :: cur :: os) (r.drop bodyEnd)
      else if voidTags.contains tag then
        (d.sprout (elementNode tag attrs) cur).readInto (cur :: os) r
      else (d.sprout (elementNode tag attrs) cur).readInto (d.nodes.size :: cur :: os) r := by
  have hslash : c ≠ '/' := fun h => by subst h; revert hc; decide
  have hbang : c ≠ '!' := fun h => by subst h; revert hc; decide
  rw [readInto.eq_4 _ _ _ _ hslash (fun _ h _ => hbang h)]
  split
  next inside' r' heq =>
    rw [if_pos hc, hscan] at heq
    obtain ⟨rfl, rfl⟩ := Prod.mk.inj (Option.some.inj heq)
    dsimp only
    rw [hparse, hself]
    -- the reader's three kinds of element, against the three branches above
    cases rawTextTags.contains tag <;> cases voidTags.contains tag <;>
      simp only [Bool.false_eq_true, ↓reduceIte, Bool.not_false, Bool.not_true, Bool.and_true,
        Bool.and_false] <;> rfl
  next heq =>
    rw [if_pos hc, hscan] at heq
    cases heq

/-- A written opening tag, read. -/
theorem readInto_open {tag : String} {attrs : List (String × String)} (htag : tagOk tag = true)
    (hattrs : attrs.all attrOk = true) {cur : Nat} {os : List Nat} (r : List Char) :
    d.readInto (cur :: os) ('<' :: (tag.toList ++ attrMarkup attrs ++ '>' :: r)) =
      if rawTextTags.contains tag then
        let bodyEnd := (findSub ("</" ++ tag).toList (r.map Char.toLower)).getD r.length
        (if bodyEnd = 0 then d.sprout (elementNode tag attrs) cur
          else (d.sprout (elementNode tag attrs) cur).sprout
            (textNode (String.ofList (r.take bodyEnd))) d.nodes.size).readInto
          (d.nodes.size :: cur :: os) (r.drop bodyEnd)
      else if voidTags.contains tag then
        (d.sprout (elementNode tag attrs) cur).readInto (cur :: os) r
      else (d.sprout (elementNode tag attrs) cur).readInto (d.nodes.size :: cur :: os) r := by
  obtain ⟨c, cs, hcs, hletter, -⟩ := tagOk_spec htag
  have hlist :
      tag.toList ++ attrMarkup attrs ++ '>' :: r = c :: (cs ++ attrMarkup attrs ++ '>' :: r) := by
    rw [hcs]
    rfl
  have hscan := scanTag_opening htag hattrs r
  rw [hlist] at hscan
  rw [hlist, readInto_tag hletter hscan (inside_reads htag hattrs).1 (inside_reads htag hattrs).2]

theorem tag_sprout_self {n : Node σ} (hn : Bare n) {p : Nat} (hp : p < d.nodes.size) :
    ((d.sprout n p).node d.nodes.size).tag = n.tag := by
  rw [sprout_node_self d hn hp]

theorem void_not_raw {tag : String} (hv : voidTags.contains tag = true) :
    rawTextTags.contains tag = false := by
  cases hr : rawTextTags.contains tag
  · rfl
  · simp only [rawTextTags, List.contains_eq_mem, List.mem_cons, List.not_mem_nil, or_false,
      decide_eq_true_eq] at hr
    rcases hr with rfl | rfl | rfl <;> revert hv <;> decide

/-- A written raw-text element, read: its one text, if any, runs to its closing tag. -/
theorem readInto_raw {tag : String} {attrs : List (String × String)} (htag : tagOk tag = true)
    (hattrs : attrs.all attrOk = true) (hraw : rawTextTags.contains tag = true) {cur : Nat}
    (hcur : cur < d.nodes.size) {os : List Nat} {cs : List Tree}
    (hkids : cs = [] ∨ ∃ s, cs = [.text s] ∧ textOk s = true) (rest : List Char) :
    d.readInto (cur :: os) ('<' :: (tag.toList ++ attrMarkup attrs ++ '>' ::
        (markupAll cs ++ ('<' :: '/' :: tag.toList ++ '>' :: rest)))) =
      ((d.sprout (elementNode tag attrs) cur).buildAll d.nodes.size cs).readInto (cur :: os) rest := by
  have hid : ((d.sprout (elementNode tag attrs) cur).node d.nodes.size).tag = tag :=
    tag_sprout_self (bare_elementNode tag attrs) hcur
  have hsize : d.nodes.size < (d.sprout (elementNode tag attrs : Node σ) cur).nodes.size := by simp
  have hu : '<' ∉ markupAll cs := by
    rcases hkids with rfl | ⟨s, rfl, hs⟩
    · exact List.not_mem_nil
    · simpa [markupAll, markup] using (textOk_spec hs).2
  rw [readInto_open htag hattrs, if_pos hraw]
  dsimp only
  rw [findSub_closing htag hu, Option.getD_some]
  rcases hkids with rfl | ⟨s, rfl, hs⟩
  · -- no text: the closing tag follows at once
    simp only [markupAll, List.nil_append, List.length_nil, ↓reduceIte, List.drop_zero]
    rw [readInto_close htag hid]
    rfl
  · have hne : (markupAll [.text s]).length ≠ 0 := by
      simpa [markupAll, markup] using (textOk_spec hs).1
    rw [if_neg hne, List.take_left', List.drop_left', readInto_close htag
      (by rw [(keeps_sprout _ (bare_textNode _) _).tag _ hsize, hid])]
    · simp [markupAll, markup]
      rfl
    · rfl
    · rfl

mutual
/-- Reading the markup of a printable tree with no texts side by side builds that tree below
the current element. A text must be followed by a tag or by nothing. -/
theorem readInto_markup (d : Document σ) {cur : Nat} (hcur : cur < d.nodes.size) (os : List Nat)
    (rest : List Char) :
    ∀ t : Tree, t.printable = true → t.tidy? = true →
      (t.isText = true → ∀ c, rest.head? = some c → c = '<') →
      d.readInto (cur :: os) (markup t ++ rest) = (d.build cur t).readInto (cur :: os) rest
  | .text s, hp, _, hr => readInto_text hp (hr rfl)
  | .element tag attrs cs, hp, ht, _ => by
    obtain ⟨htag, hvoid, hkids⟩ := Tree.printable_element hp
    have hattrs : attrs.all attrOk = true := by
      simp only [printable, Bool.and_eq_true] at hp
      exact hp.1.2
    have hsize : d.nodes.size < (d.sprout (elementNode tag attrs : Node σ) cur).nodes.size := by simp
    cases hv : voidTags.contains tag
    · have hm : markup (.element tag attrs cs) ++ rest = '<' :: (tag.toList ++ attrMarkup attrs ++
          '>' :: (markupAll cs ++ ('<' :: '/' :: tag.toList ++ '>' :: rest))) := by
        rw [markup, if_neg (by rw [hv]; decide)]
        simp only [List.cons_append, List.append_assoc, List.nil_append]
      have hb : d.build cur (.element tag attrs cs) =
          (d.sprout (elementNode tag attrs) cur).buildAll d.nodes.size cs := by
        rw [build, if_neg (by rw [hv]; decide)]
      rw [hm, hb]
      cases hraw : rawTextTags.contains tag
      · -- an element that is opened: its children, then its closing tag
        have hid : ((d.sprout (elementNode tag attrs) cur).node d.nodes.size).tag = tag :=
          tag_sprout_self (bare_elementNode tag attrs) hcur
        rw [readInto_open htag hattrs]
        simp only [hraw, hv, Bool.false_eq_true, ↓reduceIte]
        have hlt : ∀ c, ('<' :: '/' :: tag.toList ++ '>' :: rest).head? = some c → c = '<' :=
          fun c hc => by
            rw [List.cons_append, List.head?_cons] at hc
            exact (Option.some.inj hc).symm
        rw [readInto_markupAll _ hsize _ _ hlt cs (hkids hv) ht,
          readInto_close htag (by rw [(keeps_buildAll _ _ cs).tag _ hsize, hid])]
      · have htext : cs.all isText = true := by
          simp only [printable, hv, hraw, Bool.false_eq_true, ↓reduceIte, Bool.and_eq_true] at hp
          exact hp.2.1
        exact readInto_raw htag hattrs hraw hcur (rawKids htext (hkids hv) ht) rest
    · -- a void element is not opened
      obtain rfl := hvoid hv
      have hm : markup (.element tag attrs []) ++ rest =
          '<' :: (tag.toList ++ attrMarkup attrs ++ '>' :: rest) := by
        rw [markup, if_pos hv]
        simp only [List.cons_append, List.append_assoc, List.nil_append]
      rw [hm, readInto_open htag hattrs, build, if_pos hv]
      simp only [void_not_raw hv, hv, Bool.false_eq_true, ↓reduceIte]

/-- Reading the markup of printable trees with no texts side by side builds those trees below
the current element. -/
theorem readInto_markupAll (d : Document σ) {cur : Nat} (hcur : cur < d.nodes.size)
    (os : List Nat) (rest : List Char) (hr : ∀ c, rest.head? = some c → c = '<') :
    ∀ F : List Tree, printableAll F = true → tidyAll? F = true →
      d.readInto (cur :: os) (markupAll F ++ rest) = (d.buildAll cur F).readInto (cur :: os) rest
  | [], _, _ => rfl
  | t :: ts, hp, ht => by
    simp only [printableAll, Bool.and_eq_true] at hp
    obtain ⟨ht₁, ht₂, hnext⟩ := tidyAll?_cons ht
    have hcur' : cur < (d.build cur t).nodes.size :=
      Nat.lt_of_lt_of_le hcur (keeps_build d cur t).size_le
    rw [markupAll, List.append_assoc,
      readInto_markup d hcur os _ t hp.1 ht₁ fun htext => head_markupAll (hnext htext) hr, buildAll]
    exact readInto_markupAll (d.build cur t) hcur' os rest hr ts hp.2 ht₂
end

/-! ## Setting the inside of a node -/

/-- Setting the inside of a node to the markup of printable trees with no texts side by side
puts exactly those trees below it. -/
theorem setInnerHtml_markupAll (hg : Grown d) {x : Nat} (hx : x < d.nodes.size) {F : List Tree}
    (hp : printableAll F = true) (ht : tidyAll? F = true) :
    (d.setInnerHtml x (String.ofList (markupAll F))).forest x = F := by
  have hx' : x < (d.clearChildren x).nodes.size := by simpa using hx
  obtain ⟨R, hR⟩ := buildAll_built (hg.clearChildren x) hx' F hp
  have hread : d.setInnerHtml x (String.ofList (markupAll F)) = (d.clearChildren x).buildAll x F := by
    have h := readInto_markupAll (d.clearChildren x) hx' [] [] (fun _ h => nomatch h) F hp ht
    rw [List.append_nil] at h
    rw [setInnerHtml, String.toList_ofList, h, readInto.eq_1]
  -- the cleared node's children are exactly the roots of the built trees
  have hkids : (((d.clearChildren x).buildAll x F).node x).children = R := by
    rw [hR.parent]
    simp [children_clearChildren]
  rw [hread, forest, hkids]
  exact hR.reads _ (by omega)

/-- Setting the inside of any node to the inside markup of a node whose trees are printable gives
it those trees, with the texts that stood side by side merged. -/
theorem reread_printable {d' : Document σ} (hg : Grown d') {x' : Nat} (hx' : x' < d'.nodes.size)
    {x : Nat} (hp : printableAll (d.forest x) = true) :
    (d'.setInnerHtml x' (d.innerHtml x)).forest x' = tidyAll (d.forest x) := by
  have hmarkup : d.innerHtml x = String.ofList (markupAll (tidyAll (d.forest x))) := by
    rw [markupAll_tidyAll, ← innerHtml_toList, String.ofList_toList]
  rw [hmarkup, setInnerHtml_markupAll hg hx' (printableAll_tidyAll _ hp) (tidyAll?_tidyAll _)]

/-- A paragraph with an attribute, read back into an empty body. -/
theorem reread_printable_paragraph :
    Grown (withBody "" : Document Unit) ∧ body < (withBody "" : Document Unit).nodes.size ∧
      printableAll ((withBody "<p a=\"1\">hi</p>" : Document Unit).forest body) = true ∧
      ((withBody "" : Document Unit).setInnerHtml body
          ((withBody "<p a=\"1\">hi</p>" : Document Unit).innerHtml body)).forest body =
        tidyAll ((withBody "<p a=\"1\">hi</p>" : Document Unit).forest body) :=
  have hg := (@withBody_grows Unit "").2
  have hx : body < (withBody "" : Document Unit).nodes.size :=
    Nat.lt_of_lt_of_le (by decide) (@withBody_grows Unit "").1.size_le
  have hp : printableAll ((withBody "<p a=\"1\">hi</p>" : Document Unit).forest body) = true := by
    decide +kernel
  ⟨hg, hx, hp, reread_printable hg hx hp⟩

/-- Without printability the trees are not read back: `<</x>/b>` is read as the texts `<` and
`/b>`, which are written as the closing tag `</b>`, and that is read as nothing. -/
theorem reread_loses_texts :
    (withBody "<</x>/b>" : Document Unit).forest body = [.text "<", .text "/b>"] ∧
      (withBody "<</x>/b>" : Document Unit).innerHtml body = "</b>" ∧
      ((withBody "" : Document Unit).setInnerHtml body
        ((withBody "<</x>/b>" : Document Unit).innerHtml body)).forest body = [] := by
  decide +kernel

end Document

end PageEditor.Markup
