import PageEditor.Markup.Document
/-!
# PageEditor.Markup.Fragment

A forgiving reader of markup fragments, used to set the inside of an element.

The text is read from the front, one token at a time, into the element being filled:

1. `</name ...>` closes the nearest open element with that (trimmed, lowercased) name, together
   with everything opened inside it; the element being filled is never closed, and a closing tag
   that matches nothing is dropped. A closing tag without `>` runs to the end.
2. `<!-- ... -->` is dropped; without its end it drops the rest of the text.
3. `<` and an ASCII letter start a tag, which runs to the first `>` outside single or double
   quotes. The tag name and attribute names are lowercased; a value is quoted, or runs to the
   next blank; attributes without a value are empty; every attribute is kept, repeats included.
   A trailing `/` closes the element at once, void elements never open, and `script`, `style`
   and `textarea` hold everything up to the first `</name` in any case as one text node. A tag
   without its `>` is text.
4. Anything else is text up to the next `<`; a `<` that starts no token is text too.

Every step takes at least one character, so reading ends.
-/

namespace PageEditor.Markup

/-! ## Runs of characters -/

theorem length_dropWhile_le (p : Char → Bool) (l : List Char) :
    (l.dropWhile p).length ≤ l.length :=
  (List.dropWhile_sublist p).length_le

/-- The characters before the first `>`, and those after it (none when there is no `>`). -/
def splitAtClose (l : List Char) : List Char × List Char :=
  (l.takeWhile (· != '>'), (l.dropWhile (· != '>')).drop 1)

theorem splitAtClose_rest_le (l : List Char) : (splitAtClose l).2.length ≤ l.length := by
  simp only [splitAtClose, List.length_drop]
  have := length_dropWhile_le (· != '>') l
  omega

/-- The position of the first occurrence of a pattern. -/
def findSub (pat : List Char) : List Char → Option Nat
  | [] => if pat.isEmpty then some 0 else none
  | c :: rest => if pat.isPrefixOf (c :: rest) then some 0 else (findSub pat rest).map (· + 1)

/-- What follows the first `-->`, or nothing when there is none. -/
def skipComment (l : List Char) : List Char :=
  match findSub ['-', '-', '>'] l with
  | some k => l.drop (k + 3)
  | none => []

theorem skipComment_le (l : List Char) : (skipComment l).length ≤ l.length := by
  unfold skipComment
  split <;> simp

/-- Text up to the next `<`, a leading `<` included, and what follows it. -/
def textRun : List Char → List Char × List Char
  | '<' :: tl => ('<' :: tl.takeWhile (· != '<'), tl.dropWhile (· != '<'))
  | l => (l.takeWhile (· != '<'), l.dropWhile (· != '<'))

theorem textRun_shorter : ∀ (l : List Char), l ≠ [] → (textRun l).2.length < l.length
  | [], h => absurd rfl h
  | c :: tl, _ => by
    by_cases hc : c = '<'
    · subst hc
      simp only [textRun, List.length_cons]
      have := length_dropWhile_le (· != '<') tl
      omega
    · have : textRun (c :: tl) = ((c :: tl).takeWhile (· != '<'), (c :: tl).dropWhile (· != '<')) := by
        simp [textRun, hc]
      rw [this]
      simp only [List.dropWhile, List.length_cons]
      have hne : (c != '<') = true := by simp [hc]
      rw [hne]
      have := length_dropWhile_le (· != '<') tl
      simp only
      omega

/-- The inside of a tag up to the first `>` outside quotes, and what follows that `>`. A quote
opens with `"` or `'` and closes with the same character. -/
def scanTag (quote : Option Char) (acc : List Char) : List Char → Option (List Char × List Char)
  | [] => none
  | c :: rest =>
    match quote with
    | some q => scanTag (if c = q then none else some q) (c :: acc) rest
    | none =>
      if c = '"' || c = '\'' then scanTag (some c) (c :: acc) rest
      else if c = '>' then some (acc.reverse, rest)
      else scanTag none (c :: acc) rest

theorem scanTag_shorter : ∀ (quote : Option Char) (acc l inside after : List Char),
    scanTag quote acc l = some (inside, after) → after.length < l.length
  | _, _, [], _, _, h => by simp [scanTag] at h
  | quote, acc, c :: rest, inside, after, h => by
    simp only [List.length_cons]
    cases quote with
    | some q =>
      simp only [scanTag] at h
      have := scanTag_shorter _ _ rest inside after h
      omega
    | none =>
      simp only [scanTag] at h
      split at h
      · have := scanTag_shorter _ _ rest inside after h; omega
      · split at h
        · simp only [Option.some.injEq, Prod.mk.injEq] at h
          rw [← h.2]; omega
        · have := scanTag_shorter _ _ rest inside after h; omega

/-! ## Tags and attributes -/

/-- Whether a character is an ASCII letter. -/
def isAsciiLetter (c : Char) : Bool := ('a' ≤ c && c ≤ 'z') || ('A' ≤ c && c ≤ 'Z')

/-- The value after an attribute name: after `=` and blanks, a quoted value runs to its closing
quote, and an unquoted one to the next blank; without `=` the value is empty. Answers the value
and what follows it. -/
def valueAfter : List Char → List Char × List Char
  | '=' :: after =>
    match Text.dropBlank after with
    | q :: body =>
      if q = '"' || q = '\'' then (body.takeWhile (· != q), (body.dropWhile (· != q)).drop 1)
      else ((q :: body).takeWhile (!Text.isBlank ·), (q :: body).dropWhile (!Text.isBlank ·))
    | [] => ([], [])
  | other => ([], other)

theorem valueAfter_eq_shorter (after : List Char) :
    (valueAfter ('=' :: after)).2.length ≤ after.length := by
  have hb : (Text.dropBlank after).length ≤ after.length := length_dropWhile_le _ _
  simp only [valueAfter]
  split
  · rename_i q body hq
    rw [hq] at hb
    split
    · simp only [List.length_drop, List.length_cons] at hb ⊢
      have := length_dropWhile_le (· != q) body
      omega
    · have := length_dropWhile_le (!Text.isBlank ·) (q :: body)
      simp only at this ⊢
      omega
  · simp

theorem valueAfter_le (l : List Char) : (valueAfter l).2.length ≤ l.length := by
  match l with
  | '=' :: after => have := valueAfter_eq_shorter after; simp only [List.length_cons]; omega
  | [] => simp [valueAfter]
  | c :: tl =>
    by_cases hc : c = '='
    · subst hc; have := valueAfter_eq_shorter tl; simp only [List.length_cons]; omega
    · have : valueAfter (c :: tl) = ([], c :: tl) := by
        unfold valueAfter; split
        · rename_i h; simp at h; exact absurd h.1 hc
        · rfl
      exact Nat.le_of_eq (by rw [this])

/-- Characters that may stand in an attribute name. -/
def isNameChar (x : Char) : Bool := !Text.isBlank x && x != '='

/-- What follows one attribute that starts with a non-blank character. -/
def attributeRest (l : List Char) : List Char :=
  (valueAfter (Text.dropBlank (l.dropWhile isNameChar))).2

theorem attributeRest_shorter (c : Char) (tl : List Char) (hc : Text.isBlank c = false) :
    (attributeRest (c :: tl)).length < (c :: tl).length := by
  unfold attributeRest
  by_cases hk : isNameChar c = true
  · simp only [List.dropWhile, hk, List.length_cons]
    have h1 := length_dropWhile_le isNameChar tl
    have h2 := length_dropWhile_le Text.isBlank (tl.dropWhile isNameChar)
    have h3 := valueAfter_le (Text.dropBlank (tl.dropWhile isNameChar))
    simp only [Text.dropBlank] at h3 ⊢
    omega
  · have he : c = '=' := by
      simp [isNameChar, hc] at hk; exact hk
    subst he
    have hd : List.dropWhile isNameChar ('=' :: tl) = '=' :: tl := by
      simp [List.dropWhile, isNameChar]
    have hb : Text.dropBlank ('=' :: tl) = '=' :: tl := by
      simp [Text.dropBlank, List.dropWhile, hc]
    rw [hd, hb]
    have := valueAfter_eq_shorter tl
    simp only [List.length_cons]
    omega

/-- The attributes of a tag after its name: `name`, `name=value`, `name="value"` or
`name='value'`, separated by blanks. A name is lowercased; an empty name is dropped. -/
def attributesOf (l : List Char) : List (String × String) :=
  match l with
  | [] => []
  | c :: tl =>
    if h : Text.isBlank c then attributesOf tl
    else
      let key := (String.ofList ((c :: tl).takeWhile isNameChar)).toLower
      let value := (valueAfter (Text.dropBlank ((c :: tl).dropWhile isNameChar))).1
      have : (attributeRest (c :: tl)).length < (c :: tl).length :=
        attributeRest_shorter c tl (Bool.eq_false_iff.mpr h)
      (if key.isEmpty then [] else [(key, String.ofList value)]) ++ attributesOf (attributeRest (c :: tl))
termination_by l.length
decreasing_by all_goals (simp only [List.length_cons] at *; omega)

/-- The tag name and attributes of the inside of a tag. -/
def parseTag (inner : String) : String × List (String × String) :=
  let cs := (Text.trim inner).toList
  let name := cs.takeWhile (!Text.isBlank ·)
  (String.ofList name |>.toLower, attributesOf (cs.dropWhile (!Text.isBlank ·)))

/-! ## Reading a fragment -/

namespace Document

variable {σ : Type}

/-- The open elements after a closing tag with this name: the nearest open element with the
name is closed with everything inside it, unless it is the element being filled. -/
def closeOpen (d : Document σ) (tag : String) (opened : List Nat) : List Nat :=
  match opened.findIdx? fun i => (d.node i).tag == tag with
  | some k => if k + 1 < opened.length then opened.drop (k + 1) else opened
  | none => opened

/-- A tag's inside without blanks around it and without trailing slashes. -/
def stripSlashes (inner : String) : String :=
  String.ofList (inner.toList.reverse.dropWhile (· == '/')).reverse

/-- A closing tag leaves less to read. -/
theorem closeTag_shorter (after : List Char) :
    (splitAtClose after).2.length < ('<' :: '/' :: after).length := by
  have := splitAtClose_rest_le after
  simp only [List.length_cons]
  omega

/-- A comment leaves less to read. -/
theorem comment_shorter (after : List Char) :
    (skipComment after).length < ('<' :: '!' :: '-' :: '-' :: after).length := by
  have := skipComment_le after
  simp only [List.length_cons]
  omega

/-- An opening tag leaves less to read. -/
theorem openTag_shorter {c : Char} {tl inside after : List Char}
    (h : (if isAsciiLetter c then scanTag none [] (c :: tl) else none) = some (inside, after)) :
    after.length < ('<' :: c :: tl).length := by
  have hc : isAsciiLetter c = true := by
    by_cases hc : isAsciiLetter c = true
    · exact hc
    · simp [hc] at h
  have hs : scanTag none [] (c :: tl) = some (inside, after) := by simpa [hc] using h
  have := scanTag_shorter none [] (c :: tl) inside after hs
  simp only [List.length_cons] at this ⊢
  omega

/-- Dropping from a list keeps it below a bound. -/
theorem drop_shorter {l : List Char} {n : Nat} (k : Nat) (h : l.length < n) :
    (l.drop k).length < n := by
  simp only [List.length_drop]
  omega

/-- Reads the rest of a fragment into the tree. `opened` lists the open elements, innermost
first; the last one is the element being filled, which is never closed. -/
def readInto (opened : List Nat) (rest : List Char) (d : Document σ) : Document σ :=
  let current := opened.headD body
  match rest with
  | [] => d
  | '<' :: '/' :: after =>
    let tag := (Text.trim (String.ofList (splitAtClose after).1)).toLower
    have := closeTag_shorter after
    readInto (d.closeOpen tag opened) (splitAtClose after).2 d
  | '<' :: '!' :: '-' :: '-' :: after =>
    have := comment_shorter after
    readInto opened (skipComment after) d
  | '<' :: c :: tl =>
    match h : (if isAsciiLetter c then scanTag none [] (c :: tl) else none) with
    | some (inside, after) =>
      have hlt := openTag_shorter h
      let inner := Text.trim (String.ofList inside)
      let selfClosing := inner.endsWith "/"
      let (tag, attrs) := parseTag (stripSlashes inner)
      let (id, d) := d.alloc { Node.blank tag with attributes := attrs }
      let d := d.append current id
      if rawTextTags.contains tag then
        let bodyEnd := (findSub ("</" ++ tag).toList (after.map Char.toLower)).getD after.length
        let d := if bodyEnd = 0 then d
          else
            let (t, d) := d.createText (String.ofList (after.take bodyEnd))
            d.append id t
        have := drop_shorter bodyEnd hlt
        readInto (id :: opened) (after.drop bodyEnd) d
      else if !selfClosing && !voidTags.contains tag then readInto (id :: opened) after d
      else readInto opened after d
    | none =>
      have := textRun_shorter ('<' :: c :: tl) (List.cons_ne_nil _ _)
      let (t, d) := d.createText (String.ofList (textRun ('<' :: c :: tl)).1)
      readInto opened (textRun ('<' :: c :: tl)).2 (d.append current t)
  | c :: tl =>
    have := textRun_shorter (c :: tl) (List.cons_ne_nil _ _)
    let (t, d) := d.createText (String.ofList (textRun (c :: tl)).1)
    readInto opened (textRun (c :: tl)).2 (d.append current t)
termination_by rest.length
decreasing_by
  all_goals simp_wf
  all_goals first
    | omega
    | (simp only [List.length_cons] at *; omega)

/-- Replaces the children of a node by the tree a fragment describes. -/
def setInnerHtml (d : Document σ) (i : Nat) (html : String) : Document σ :=
  (d.clearChildren i).readInto [i] html.toList

/-- A document whose body holds a fragment. -/
def withBody (html : String) : Document σ :=
  (empty : Document σ).setInnerHtml body html

end Document

end PageEditor.Markup
