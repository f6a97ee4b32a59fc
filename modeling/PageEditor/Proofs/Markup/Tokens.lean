import Mathlib
import PageEditor.Proofs.Markup.Forest
import PageEditor.Proofs.Markup.Trees
/-!
# PageEditor.Proofs.Markup.Tokens

Reading a fragment one turn at a time.

Each turn of the reader's loop takes a nonempty piece off the front of the text and reads the
tokens it holds: a closing tag, a comment, a text run, or a start tag together with the text of a
raw-text element that follows it. `nextTokens` is one turn, `turns` the whole loop, and
`tokens` the tokens of all turns in order.

The reader is the fold of `readToken` over the tokens (`readInto_eq_tokens`), and the pieces of
the turns put back together are the text (`flatMap_turns`). So the loop makes one turn per
piece, at most one per character, and every cut lies between two characters; cuts found in the
lowercased copy that ends a raw text lie at the same bytes of the text itself, as lowercasing
keeps the size of every character (`utf8Size_toLower`).
-/

namespace PageEditor.Markup

/-- A token of a fragment. -/
inductive Token where
  /-- A closing tag, with its trimmed, lowercased name. -/
  | close (name : String)
  /-- A comment. -/
  | comment
  /-- A start tag: the lowercased name, the attributes in order, and whether it ends in `/`. -/
  | start (tag : String) (attrs : List (String × String)) (selfClosing : Bool)
  /-- A run of text, or the text of a raw-text element. -/
  | text (s : String)
  deriving DecidableEq, Repr

/-- Whether an element stays open after its start tag: a raw-text element always, a void element
never, any other unless its tag ends in `/`. -/
def opensAfter (tag : String) (selfClosing : Bool) : Bool :=
  rawTextTags.contains tag || (!selfClosing && !voidTags.contains tag)

/-- One turn of the reader: the tokens at the front of the text, and what is left after them. -/
def nextTokens : List Char → Option (List Token × List Char)
  | [] => none
  | '<' :: '/' :: after =>
    some ([.close (Text.trim (String.ofList (splitAtClose after).1)).toLower],
      (splitAtClose after).2)
  | '<' :: '!' :: '-' :: '-' :: after => some ([.comment], skipComment after)
  | '<' :: c :: tl =>
    match (if isAsciiLetter c then scanTag none [] (c :: tl) else none) with
    | some (inside, after) =>
      let inner := Text.trim (String.ofList inside)
      let tag := (parseTag (Document.stripSlashes inner)).1
      let start := Token.start tag (parseTag (Document.stripSlashes inner)).2 (inner.endsWith "/")
      if rawTextTags.contains tag then
        let bodyEnd := (findSub ("</" ++ tag).toList (after.map Char.toLower)).getD after.length
        some (start :: (if bodyEnd = 0 then [] else [.text (String.ofList (after.take bodyEnd))]),
          after.drop bodyEnd)
      else some ([start], after)
    | none =>
      some ([.text (String.ofList (textRun ('<' :: c :: tl)).1)], (textRun ('<' :: c :: tl)).2)
  | c :: tl => some ([.text (String.ofList (textRun (c :: tl)).1)], (textRun (c :: tl)).2)


theorem nextTokens_eq_none {l : List Char} : nextTokens l = none ↔ l = [] := by
  fun_cases nextTokens l <;> simp

/-! ## What a turn leaves -/

theorem splitAtClose_suffix (l : List Char) : (splitAtClose l).2 <:+ l :=
  (List.drop_suffix 1 _).trans (List.dropWhile_suffix _)

theorem skipComment_suffix (l : List Char) : skipComment l <:+ l := by
  unfold skipComment
  split
  · exact List.drop_suffix _ _
  · exact List.nil_suffix

theorem textRun_suffix (l : List Char) : (textRun l).2 <:+ l := by
  unfold textRun
  split
  · exact (List.dropWhile_suffix _).trans (List.suffix_cons _ _)
  · exact List.dropWhile_suffix _

/-- A tag scan takes the characters up to the `>` it stops at, one by one and in order. -/
theorem scanTag_eq_some : ∀ (q : Option Char) (acc l inside after : List Char),
    scanTag q acc l = some (inside, after) →
      ∃ u, l = u ++ '>' :: after ∧ inside = acc.reverse ++ u
  | _, _, [], _, _, h => by simp [scanTag] at h
  | q, acc, c :: rest, inside, after, h => by
    have step : ∀ q', scanTag q' (c :: acc) rest = some (inside, after) →
        ∃ u, c :: rest = u ++ '>' :: after ∧ inside = acc.reverse ++ u := by
      intro q' h'
      obtain ⟨u, hu, hi⟩ := scanTag_eq_some q' (c :: acc) rest inside after h'
      exact ⟨c :: u, by rw [hu]; rfl, by rw [hi]; simp⟩
    cases q with
    | some q' => exact step _ h
    | none =>
      simp only [scanTag] at h
      split at h
      · exact step _ h
      · split at h
        · next hc =>
          obtain ⟨rfl, rfl⟩ := Prod.mk.inj (Option.some.inj h)
          exact ⟨[], by rw [hc]; rfl, by simp⟩
        · exact step _ h

theorem scanTag_suffix (q : Option Char) (acc l inside after : List Char)
    (h : scanTag q acc l = some (inside, after)) : after <:+ l := by
  obtain ⟨u, rfl, -⟩ := scanTag_eq_some q acc l inside after h
  exact (List.suffix_cons '>' after).trans (List.suffix_append u _)

/-- A start tag leaves a tail of the text. -/
theorem openTag_suffix {c : Char} {tl inside after : List Char}
    (h : (if isAsciiLetter c then scanTag none [] (c :: tl) else none) = some (inside, after)) :
    after <:+ '<' :: c :: tl := by
  split at h
  · exact (scanTag_suffix _ _ _ _ _ h).trans (List.suffix_cons _ _)
  · cases h

/-- A turn leaves a tail of the text. -/
theorem nextTokens_suffix {l r : List Char} {ts : List Token} (h : nextTokens l = some (ts, r)) :
    r <:+ l := by
  revert h
  fun_cases nextTokens l with
  | case1 => exact fun h => nomatch h
  | case2 after =>
    intro h
    obtain ⟨-, rfl⟩ := Prod.mk.inj (Option.some.inj h)
    exact (splitAtClose_suffix after).trans ((List.suffix_cons _ _).trans (List.suffix_cons _ _))
  | case3 after =>
    intro h
    obtain ⟨-, rfl⟩ := Prod.mk.inj (Option.some.inj h)
    exact (skipComment_suffix after).trans (List.suffix_append [_, _, _, _] _)
  | case4 c tl _ _ inside after hscan =>
    intro h
    obtain ⟨-, rfl⟩ := Prod.mk.inj (Option.some.inj h)
    exact (List.drop_suffix _ _).trans (openTag_suffix hscan)
  | case5 c tl _ _ inside after hscan =>
    intro h
    obtain ⟨-, rfl⟩ := Prod.mk.inj (Option.some.inj h)
    exact openTag_suffix hscan
  | case6 c tl => exact fun h => (Prod.mk.inj (Option.some.inj h)).2 ▸ textRun_suffix _
  | case7 c tl => exact fun h => (Prod.mk.inj (Option.some.inj h)).2 ▸ textRun_suffix _

/-- A turn takes at least one character. -/
theorem nextTokens_shorter {l r : List Char} {ts : List Token} (h : nextTokens l = some (ts, r)) :
    r.length < l.length := by
  revert h
  fun_cases nextTokens l with
  | case1 => exact fun h => nomatch h
  | case2 after =>
    exact fun h => (Prod.mk.inj (Option.some.inj h)).2 ▸ Document.closeTag_shorter after
  | case3 after =>
    exact fun h => (Prod.mk.inj (Option.some.inj h)).2 ▸ Document.comment_shorter after
  | case4 c tl _ _ inside after hscan =>
    exact fun h => (Prod.mk.inj (Option.some.inj h)).2 ▸
      Document.drop_shorter _ (Document.openTag_shorter hscan)
  | case5 c tl _ _ inside after hscan =>
    exact fun h => (Prod.mk.inj (Option.some.inj h)).2 ▸ Document.openTag_shorter hscan
  | case6 c tl =>
    exact fun h => (Prod.mk.inj (Option.some.inj h)).2 ▸ textRun_shorter _ (List.cons_ne_nil _ _)
  | case7 c tl =>
    exact fun h => (Prod.mk.inj (Option.some.inj h)).2 ▸ textRun_shorter _ (List.cons_ne_nil _ _)

/-! ## The turns of the loop -/

/-- The turns of the reader over a text: the tokens each reads and the characters it takes. -/
def turns (l : List Char) : List (List Token × List Char) :=
  match h : nextTokens l with
  | none => []
  | some (ts, r) =>
    have := nextTokens_shorter h
    (ts, l.take (l.length - r.length)) :: turns r
termination_by l.length

/-- The tokens of a text, in order. -/
def tokens (l : List Char) : List Token := (turns l).flatMap Prod.fst

theorem take_append_of_suffix {l r : List Char} (h : r <:+ l) :
    l.take (l.length - r.length) ++ r = l := by
  obtain ⟨u, rfl⟩ := h
  simp

/-- The pieces of the turns, put back together, are the text. -/
theorem flatMap_turns (l : List Char) : (turns l).flatMap Prod.snd = l := by
  fun_induction turns l with
  | case1 l h => exact (nextTokens_eq_none.mp h).symm
  | case2 l ts r h _ ih =>
    rw [List.flatMap_cons, ih]
    exact take_append_of_suffix (nextTokens_suffix h)

/-- Every turn takes a character or more. -/
theorem piece_ne_nil {l : List Char} : ∀ t ∈ turns l, t.2 ≠ [] := by
  fun_induction turns l with
  | case1 l h => exact fun t ht => nomatch ht
  | case2 l ts r h _ ih =>
    intro t ht
    rcases List.mem_cons.mp ht with rfl | ht
    · have := nextTokens_shorter h
      intro hnil
      have hlen := congrArg List.length hnil
      simp only [List.length_take, List.length_nil] at hlen
      omega
    · exact ih t ht

/-- Whether a token is a start tag naming a text node. -/
def Token.namesText : Token → Bool
  | .start tag _ _ => tag == textTag
  | _ => false

/-- A start tag scanned from the text does not name a text node. -/
theorem nextTokens_namesText {l r : List Char} {ts : List Token}
    (h : nextTokens l = some (ts, r)) : ∀ t ∈ ts, t.namesText = false := by
  revert h
  fun_cases nextTokens l
  case case1 => exact fun h => nomatch h
  case case4 c tl _ _ inside after hscan inner tag start hraw bodyEnd =>
    intro h t ht
    obtain ⟨rfl, -⟩ := Prod.mk.inj (Option.some.inj h)
    split at hscan
    · next hc =>
      rcases List.mem_cons.mp ht with rfl | ht
      · exact Document.opened_tag_ne_text hc hscan rfl
      · split at ht
        · cases ht
        · rw [List.mem_singleton.mp ht]
          rfl
    · cases hscan
  case case5 c tl _ _ inside after hscan inner tag start hraw =>
    intro h t ht
    obtain ⟨rfl, -⟩ := Prod.mk.inj (Option.some.inj h)
    split at hscan
    · next hc =>
      rw [List.mem_singleton.mp ht]
      exact Document.opened_tag_ne_text hc hscan rfl
    · cases hscan
  -- closing tags, comments and texts are no start tags
  all_goals
    intro h t ht
    obtain ⟨rfl, -⟩ := Prod.mk.inj (Option.some.inj h)
    rw [List.mem_singleton.mp ht]
    rfl

/-- No start tag of a text names a text node. -/
theorem tokens_namesText (l : List Char) : ∀ t ∈ tokens l, t.namesText = false := by
  unfold tokens
  fun_induction turns l with
  | case1 => exact fun t ht => nomatch ht
  | case2 l ts r h _ ih =>
    intro t ht
    rcases List.mem_append.mp (List.flatMap_cons ▸ ht) with ht | ht
    · exact nextTokens_namesText h t ht
    · exact ih t ht

namespace Document

variable {σ : Type}

/-- Reads one token into the document; `st.1` lists the open elements, innermost first. -/
def readToken (st : List Nat × Document σ) : Token → List Nat × Document σ
  | .close name => (st.2.closeOpen name st.1, st.2)
  | .comment => st
  | .start tag attrs selfClosing =>
    (if opensAfter tag selfClosing then st.2.nodes.size :: st.1 else st.1,
      st.2.sprout (elementNode tag attrs) (st.1.headD body))
  | .text s => (st.1, st.2.sprout (textNode s) (st.1.headD body))

/-- One turn of the reader reads its tokens. -/
theorem readInto_next {rest r : List Char} {ts : List Token} (h : nextTokens rest = some (ts, r))
    (opened : List Nat) (d : Document σ) :
    d.readInto opened rest =
      (ts.foldl readToken (opened, d)).2.readInto (ts.foldl readToken (opened, d)).1 r := by
  revert h
  fun_cases nextTokens rest with
  | case1 => exact fun h => nomatch h
  | case2 after =>
    intro h
    obtain ⟨rfl, rfl⟩ := Prod.mk.inj (Option.some.inj h)
    rw [readInto.eq_2]
    rfl
  | case3 after =>
    intro h
    obtain ⟨rfl, rfl⟩ := Prod.mk.inj (Option.some.inj h)
    rw [readInto.eq_3]
    rfl
  | case4 c tl hslash hbang inside after hscan inner tag start hraw bodyEnd =>
    intro h
    obtain ⟨rfl, rfl⟩ := Prod.mk.inj (Option.some.inj h)
    rw [readInto.eq_4 _ _ _ _ hslash hbang]
    split
    next inside' after' heq =>
      rw [hscan] at heq
      obtain ⟨rfl, rfl⟩ := Prod.mk.inj (Option.some.inj heq)
      rcases hp : parseTag (stripSlashes inner) with ⟨tg, attrs⟩
      simp only [start, bodyEnd, tag, inner, hp] at hraw ⊢
      simp only [hraw, ↓reduceIte]
      -- the raw text, if any, is the second token of the turn
      split
      · next hb =>
        simp only [hb, ↓reduceIte, List.foldl, readToken, opensAfter, hraw, Bool.true_or]
        rfl
      · simp only [↓reduceIte, List.foldl, readToken, opensAfter, hraw, Bool.true_or]
        rfl
    next heq =>
      rw [hscan] at heq
      cases heq
  | case5 c tl hslash hbang inside after hscan inner tag start hraw =>
    intro h
    obtain ⟨rfl, rfl⟩ := Prod.mk.inj (Option.some.inj h)
    rw [readInto.eq_4 _ _ _ _ hslash hbang]
    split
    next inside' after' heq =>
      rw [hscan] at heq
      obtain ⟨rfl, rfl⟩ := Prod.mk.inj (Option.some.inj heq)
      rcases hp : parseTag (stripSlashes inner) with ⟨tg, attrs⟩
      simp only [start, tag, inner, hp, Bool.not_eq_true] at hraw ⊢
      simp only [hraw, Bool.false_eq_true, ↓reduceIte, List.foldl, readToken, opensAfter,
        Bool.false_or]
      split <;> rfl
    next heq =>
      rw [hscan] at heq
      cases heq
  | case6 c tl hslash hbang hscan =>
    intro h
    obtain ⟨rfl, rfl⟩ := Prod.mk.inj (Option.some.inj h)
    rw [readInto.eq_4 _ _ _ _ hslash hbang]
    split
    next inside' after' heq =>
      rw [hscan] at heq
      cases heq
    next heq => rfl
  | case7 c tl h1 h2 h3 =>
    intro h
    obtain ⟨rfl, rfl⟩ := Prod.mk.inj (Option.some.inj h)
    rw [readInto.eq_5 _ _ _ _ h1 h2 h3]
    rfl

/-- The reader makes its turns one after another. -/
theorem readInto_eq_turns (opened : List Nat) (d : Document σ) (l : List Char) :
    d.readInto opened l = ((turns l).foldl (fun st t => t.1.foldl readToken st) (opened, d)).2 := by
  fun_induction turns l generalizing opened d with
  | case1 l h =>
    rw [nextTokens_eq_none.mp h, readInto.eq_1]
    rfl
  | case2 l ts r h _ ih => rw [readInto_next h, ih, List.foldl_cons]

/-- **Reading a text reads its tokens**, one after another. -/
theorem readInto_eq_tokens (opened : List Nat) (d : Document σ) (l : List Char) :
    d.readInto opened l = ((tokens l).foldl readToken (opened, d)).2 := by
  rw [readInto_eq_turns, tokens, List.foldl_flatMap]

end Document

/-! ## Every turn makes progress -/

/-- The loop makes at most one turn per character. -/
theorem length_turns_le (l : List Char) : (turns l).length ≤ l.length := by
  fun_induction turns l with
  | case1 => exact Nat.zero_le _
  | case2 l ts r h _ ih =>
    have := nextTokens_shorter h
    rw [List.length_cons]
    omega

/-- Lowercasing keeps the size of every character: only ASCII letters change, into ASCII
letters. -/
theorem utf8Size_toLower (c : Char) : c.toLower.utf8Size = c.utf8Size := by
  unfold Char.toLower
  split
  · next h =>
    obtain ⟨h₁, h₂⟩ := h
    have hZ : ('Z' : Char).val.toNat = 90 := rfl
    have hshift : ('a'.val - 'A'.val).toNat = 32 := by decide
    rw [Char.utf8Size_eq_one_iff.mpr ?_, Char.utf8Size_eq_one_iff.mpr ?_]
    · simp only [UInt32.le_iff_toNat_le] at h₂ ⊢
      exact Nat.le_trans h₂ (by decide)
    · simp only [UInt32.le_iff_toNat_le] at h₂ ⊢
      rw [UInt32.toNat_add, hshift]
      simp only [UInt32.reduceToNat]
      omega
  · rfl

theorem utf8Len_map_toLower (l : List Char) :
    String.utf8Len (l.map Char.toLower) = String.utf8Len l := by
  induction l with
  | nil => rfl
  | cons c l ih =>
    rw [List.map_cons, String.utf8Len_cons, String.utf8Len_cons, ih, utf8Size_toLower]

/-- **The reader ends, taking the text piece by piece.** For every text: the loop makes one turn
after another, each taking a piece of whole characters, at least one byte, off the front, and
the pieces make up the text, so there are at most as many turns as characters. A tag scan takes
one character per step up to its `>`; each turn of the attribute loop takes at least one
character; and a place found in a lowercased copy is the same byte in the original, since
lowercasing keeps the size of every character. -/
theorem reader_takes_pieces {σ : Type} (s : String) :
    (∀ (opened : List Nat) (d : Document σ), d.readInto opened s.toList =
      ((turns s.toList).foldl (fun st t => t.1.foldl Document.readToken st) (opened, d)).2) ∧
    (turns s.toList).flatMap Prod.snd = s.toList ∧ (turns s.toList).length ≤ s.length ∧
    (∀ t ∈ turns s.toList, 0 < (String.ofList t.2).utf8ByteSize) ∧
    (∀ (q : Option Char) (acc l inside after : List Char),
      scanTag q acc l = some (inside, after) →
        ∃ u, l = u ++ '>' :: after ∧ inside = acc.reverse ++ u) ∧
    (∀ c tl, Text.isBlank c = false → (attributeRest (c :: tl)).length < (c :: tl).length) ∧
    ∀ (l : List Char) (k : Nat), (String.ofList ((l.map Char.toLower).take k)).utf8ByteSize =
      (String.ofList (l.take k)).utf8ByteSize := by
  refine ⟨fun opened d => Document.readInto_eq_turns opened d _, flatMap_turns _,
    String.length_toList ▸ length_turns_le s.toList, fun t ht => ?_, scanTag_eq_some,
    attributeRest_shorter, fun l k => ?_⟩
  · rw [String.utf8ByteSize_ofList, Nat.pos_iff_ne_zero, ne_eq, String.utf8Len_eq_zero]
    exact piece_ne_nil t ht
  · rw [String.utf8ByteSize_ofList, String.utf8ByteSize_ofList, ← List.map_take,
      utf8Len_map_toLower]

end PageEditor.Markup
