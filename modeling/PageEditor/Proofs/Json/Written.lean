import PageEditor.Json.Typed
import Mathlib
/-!
# PageEditor.Proofs.Json.Written

The reader takes back what the writer wrote.

`Reads x l a r` says that the reading step `x`, started on the characters `l` at any byte index,
answers `a` and leaves `r`. Steps compose (`Reads.bind`), and a whole text is read when the
value's step leaves nothing (`readAll_reads`).

The layers follow the writer:

* *characters*: every character written between quotes, escaped or not, reads back as itself
  (`stringBody_escapeChar`); a control character written as `\u00` and two hex digits reads
  back through the hex escape (`escape_written`);
* *strings*: the escaped characters and the closing quote read back as the string
  (`string_reads`), so a written string is read as that string (`value_reads_string`);
* *arrays of strings*: the comma-separated items read back one by one (`items_reads`), and the
  array closes (`value_reads_strings`);
* *objects*: a body that reads the members up to the closing brace reads the whole object as a
  map (`Reads.mapValue`).
-/

namespace PageEditor.Json

variable {α β : Type}

/-! ## Reading steps -/

/-- The step `x`, started on `l` at any byte index, answers `a` and leaves `r`. -/
def Reads (x : Scan α) (l : List Char) (a : α) (r : List Char) : Prop :=
  ∀ i, ∃ j, x.run.run ⟨l, i⟩ = (.ok a, ⟨r, j⟩)

theorem Reads.run_bind {x : Scan α} {l m : List Char} {a : α} (hx : Reads x l a m)
    (f : α → Scan β) (i : Nat) : ∃ j, (x >>= f).run.run ⟨l, i⟩ = (f a).run.run ⟨m, j⟩ := by
  obtain ⟨j, hj⟩ := hx i
  refine ⟨j, ?_⟩
  simp only [ExceptT.run_bind, StateT.run_bind, hj]
  rfl

theorem Reads.bind {x : Scan α} {f : α → Scan β} {l m r : List Char} {a : α} {b : β}
    (hx : Reads x l a m) (hf : Reads (f a) m b r) : Reads (x >>= f) l b r := by
  intro i
  obtain ⟨j, hj⟩ := hx i
  obtain ⟨k, hk⟩ := hf j
  refine ⟨k, ?_⟩
  simp only [ExceptT.run_bind, StateT.run_bind, hj]
  exact hk

theorem Reads.seq {x : Scan Unit} {y : Scan β} {l m r : List Char} {b : β}
    (hx : Reads x l () m) (hy : Reads y m b r) : Reads (x *> y) l b r := by
  simpa only [seqRight_eq_bind] using hx.bind hy

theorem Reads.map {x : Scan α} {l r : List Char} {a : α} (f : α → β) (hx : Reads x l a r) :
    Reads (f <$> x) l (f a) r := by
  rw [map_eq_pure_bind]
  exact hx.bind fun i => ⟨i, rfl⟩

theorem reads_pure (a : α) (l : List Char) : Reads (pure a : Scan α) l a l :=
  fun i => ⟨i, rfl⟩

/-- A step that succeeds never calls its handler. -/
theorem Reads.tryCatch {x : Scan α} {l r : List Char} {a : α} (hx : Reads x l a r)
    (handle : Error → Scan α) : Reads (tryCatch x handle) l a r := by
  intro i
  obtain ⟨j, hj⟩ := hx i
  refine ⟨j, ?_⟩
  change (ExceptT.tryCatch x handle).run.run _ = _
  simp only [ExceptT.tryCatch, ExceptT.run_mk, StateT.run_bind]
  erw [hj]
  rfl

theorem Reads.placed {x : Scan α} {l r : List Char} {a : α} (hx : Reads x l a r) :
    Reads (Json.placed x) l a r :=
  hx.tryCatch _

theorem Reads.observe {x : Scan α} {l r : List Char} {a : α} (hx : Reads x l a r) :
    Reads (Json.observe x) l (.ok a) r :=
  (hx.map Except.ok).tryCatch _

theorem run_get (c : Cursor) : StateT.run (ExceptT.run (get : Scan Cursor)) c = pure (.ok c, c) :=
  rfl

theorem lift_run (f : List Char → Nat → Except Error (α × Cursor)) (c : Cursor) :
    (lift f).run.run c = match f c.rest c.index with
      | .error e => (.error e, c)
      | .ok (a, c') => (.ok a, c') := by
  cases hf : f c.rest c.index with
  | error e =>
    simp only [lift, ExceptT.run_bind, StateT.run_bind, run_get, pure_bind, hf]
    rfl
  | ok p =>
    simp only [lift, ExceptT.run_bind, StateT.run_bind, run_get, pure_bind, hf]
    rfl

theorem Reads.lift {f : List Char → Nat → Except Error (α × Cursor)} {l r : List Char} {a : α}
    (h : ∀ i, ∃ j, f l i = .ok (a, ⟨r, j⟩)) : Reads (Json.lift f) l a r := by
  intro i
  obtain ⟨j, hj⟩ := h i
  exact ⟨j, by rw [lift_run]; simp only [hj]⟩

theorem blank_run (c : Cursor) : blank.run.run c = (.ok c.skipBlank.rest.head?, c.skipBlank) :=
  rfl

/-- Before a character that is not blank, `blank` looks at it and takes nothing. -/
theorem blank_reads {c : Char} (hc : isJsonBlank c = false) (l : List Char) :
    Reads blank (c :: l) (some c) (c :: l) := by
  intro i
  refine ⟨i, ?_⟩
  rw [blank_run, Cursor.skipBlank, if_neg (by simp [hc])]
  rfl

theorem blank_reads_nil : Reads blank [] none [] := by
  intro i
  refine ⟨i, ?_⟩
  rw [blank_run, Cursor.skipBlank]
  rfl

theorem bump_reads (c : Char) (l : List Char) : Reads bump (c :: l) () l :=
  fun i => ⟨i + c.utf8Size, rfl⟩

/-- A whole text is read when the reader leaves nothing. -/
theorem readAll_reads {text : String} {reader : Nat → Scan α} {a : α}
    (h : Reads (reader (2 * text.toList.length + 2)) text.toList a []) :
    readAll text reader = .ok a := by
  unfold readAll
  dsimp only
  obtain ⟨j, hj⟩ := h.run_bind _ 0
  rw [hj]
  obtain ⟨k, hk⟩ := blank_reads_nil.run_bind _ j
  rw [hk]
  rfl

/-! ## Strings -/

theorem hexValue_hexDigit : ∀ k < 16, hexValue (hexDigit k) = some k := by decide

/-- The four digits written for a control character read back as its code. -/
theorem hexQuad_control {n : Nat} (hn : n < 0x20) (r : List Char) (i : Nat) :
    ∃ h, hexQuad ('0' :: '0' :: hexDigit (n / 16) :: hexDigit (n % 16) :: r) i =
      .ok (n, ⟨r, h⟩) := by
  refine ⟨by simp only [List.length_cons]; omega, ?_⟩
  rw [hexQuad, hexValue_hexDigit (n / 16) (by omega), hexValue_hexDigit (n % 16) (by omega)]
  have h0 : hexValue '0' = some 0 := rfl
  simp only [h0]
  congr
  omega

theorem unicodeEscape_control {n : Nat} (hn : n < 0x20) (r : List Char) (i : Nat) :
    ∃ h, unicodeEscape ('0' :: '0' :: hexDigit (n / 16) :: hexDigit (n % 16) :: r) i =
      .ok (Char.ofNat n, ⟨r, h⟩, i + 4) := by
  obtain ⟨h, hq⟩ := hexQuad_control hn r i
  refine ⟨h, ?_⟩
  rw [unicodeEscape, hq]
  -- a code below U+0020 is no surrogate
  have h1 : (0xDC00 ≤ n && n ≤ 0xDFFF) = false := by simp; omega
  have h2 : (n < 0xD800 || 0xDBFF < n) = true := by simp; omega
  simp only [bind, Except.bind, h1, h2]
  rfl

/-- What follows the backslash of an escaped character reads back as the character. -/
theorem escape_written {c : Char} {e : List Char} (h : escapeChar c = '\\' :: e)
    (rest : List Char) (i : Nat) : ∃ j hr, escape (e ++ rest) i = .ok (c, ⟨rest, hr⟩, j) := by
  unfold escapeChar at h
  split at h
  · rename_i hc
    obtain rfl := (List.cons.inj h).2
    subst hc
    exact ⟨i + 1, by simp, rfl⟩
  split at h
  · rename_i hc
    obtain rfl := (List.cons.inj h).2
    subst hc
    exact ⟨i + 1, by simp, rfl⟩
  split at h
  · rename_i _ _ hlt
    have hc : c = Char.ofNat c.toNat := (Char.ofNat_toNat c).symm
    split at h
    all_goals obtain rfl := (List.cons.inj h).2
    case h_6 =>
      -- any other control character is written as a `\u` escape of its code
      obtain ⟨hr, hu⟩ := unicodeEscape_control hlt rest (i + 1)
      refine ⟨i + 1 + 4, by simp only [List.cons_append, List.nil_append, List.length_cons]; omega,
        ?_⟩
      show escape ('u' :: ('0' :: '0' :: hexDigit (c.toNat / 16) :: hexDigit (c.toNat % 16) ::
        rest)) i = _
      rw [escape, if_pos rfl]
      simp only [bind, Except.bind, hu]
      rw [← hc]
    all_goals
      rename_i hn
      exact ⟨i + 1, by simp, by rw [hc, hn]; rfl⟩
  · cases h
    contradiction

/-- A character is written as itself, or escaped behind a backslash. -/
theorem escapeChar_plain_or (c : Char) :
    (escapeChar c = [c] ∧ c ≠ '"' ∧ c ≠ '\\' ∧ ¬ c.toNat < 0x20) ∨
      ∃ e, escapeChar c = '\\' :: e := by
  unfold escapeChar
  split
  · exact .inr ⟨_, rfl⟩
  split
  · exact .inr ⟨_, rfl⟩
  split
  · refine .inr ?_
    split <;> exact ⟨_, rfl⟩
  · rename_i hq hb hl
    exact .inl ⟨rfl, hq, hb, hl⟩

theorem stringBody_escapeChar (c : Char) (acc rest : List Char) (i : Nat) :
    ∃ j, stringBody acc (escapeChar c ++ rest) i = stringBody (c :: acc) rest j := by
  rcases escapeChar_plain_or c with ⟨h, hq, hb, hl⟩ | ⟨e, h⟩
  · rw [h, List.singleton_append, stringBody, if_neg hq, if_neg hb, if_neg hl]
    exact ⟨_, rfl⟩
  · obtain ⟨j, hr, he⟩ := escape_written h rest (i + 1)
    rw [h, List.cons_append, stringBody, if_neg (by decide), if_pos rfl, he]
    exact ⟨j, rfl⟩

/-- The escaped characters of a string and its closing quote read back as the string. -/
theorem stringBody_quoted (s acc rest : List Char) (i : Nat) :
    ∃ j, stringBody acc (s.flatMap escapeChar ++ '"' :: rest) i =
      .ok (String.ofList (acc.reverse ++ s), ⟨rest, j⟩) := by
  induction s generalizing acc i with
  | nil =>
    refine ⟨i + 1, ?_⟩
    rw [List.flatMap_nil, List.nil_append, stringBody, if_pos rfl, List.append_nil]
  | cons c s ih =>
    obtain ⟨j, hj⟩ := stringBody_escapeChar c acc (s.flatMap escapeChar ++ '"' :: rest) i
    obtain ⟨k, hk⟩ := ih (c :: acc) j
    refine ⟨k, ?_⟩
    rw [List.flatMap_cons, List.append_assoc, hj, hk, List.reverse_cons, List.append_assoc,
      List.singleton_append]

/-- After its opening quote, a written string reads back. -/
theorem string_reads (s : String) (rest : List Char) :
    Reads string (s.toList.flatMap escapeChar ++ '"' :: rest) s rest :=
  Reads.lift fun i => by
    obtain ⟨j, hj⟩ := stringBody_quoted s.toList [] rest i
    rw [List.reverse_nil, List.nil_append, String.ofList_toList] at hj
    exact ⟨j, hj⟩

/-! ## Values -/

/-- Items separated by commas. -/
def sepBy : List (List Char) → List Char
  | [] => []
  | x :: xs => x ++ xs.flatMap (',' :: ·)

theorem length_le_sepBy : ∀ {xs : List (List Char)}, (∀ x ∈ xs, x ≠ []) →
    xs.length ≤ (sepBy xs).length
  | [], _ => Nat.zero_le _
  | x :: xs, h => by
    have hx : 1 ≤ x.length := List.length_pos_iff.mpr (h x (by simp))
    have hrest : ∀ ys : List (List Char), ys.length ≤ (ys.flatMap (',' :: ·)).length := by
      intro ys
      induction ys with
      | nil => simp
      | cons y ys ih => simp only [List.flatMap_cons, List.length_append, List.length_cons]; omega
    have := hrest xs
    simp only [sepBy, List.length_cons, List.length_append]
    omega

@[simp] theorem quote_toList (s : String) : (quote s).toList = quoteChars s.toList := by
  simp [quote]

theorem writeItems_toList : ∀ items : List Value,
    (writeItems items).toList = sepBy (items.map fun v => v.write.toList)
  | [] => by simp [writeItems, sepBy]
  | [v] => by simp [writeItems, sepBy]
  | v :: w :: rest => by
    have h := writeItems_toList (w :: rest)
    simp only [writeItems, String.toList_append] at h ⊢
    simp [h, sepBy]

theorem writeMembers_toList : ∀ members : List (String × Value),
    (writeMembers members).toList =
      sepBy (members.map fun kv => quoteChars kv.1.toList ++ ':' :: kv.2.write.toList)
  | [] => by simp [writeMembers, sepBy]
  | [(k, v)] => by simp [writeMembers, sepBy]
  | (k, v) :: kv :: rest => by
    have h := writeMembers_toList (kv :: rest)
    simp only [writeMembers, String.toList_append] at h ⊢
    simp [h, sepBy]

theorem quoteChars_append (l r : List Char) :
    quoteChars l ++ r = '"' :: (l.flatMap escapeChar ++ '"' :: r) := by
  simp [quoteChars]

/-- A written string reads back as that string. -/
theorem value_reads_string (fuel depth : Nat) (s : String) (r : List Char) :
    Reads (value (fuel + 1) depth) (quoteChars s.toList ++ r) (.string s) r := by
  rw [value, quoteChars_append]
  apply Reads.placed
  refine (blank_reads (by decide) _).bind ?_
  show Reads (bump >>= fun _ => string >>= fun s => pure (Value.string s)) _ _ _
  exact (bump_reads _ _).bind ((string_reads s r).bind (reads_pure _ _))

theorem nextItem_end (first : Bool) (r : List Char) :
    Reads (nextItem first) (']' :: r) false (']' :: r) := by
  rw [nextItem]
  exact (blank_reads (by decide) _).bind (reads_pure _ _)

theorem nextItem_first_quote (r : List Char) :
    Reads (nextItem true) ('"' :: r) true ('"' :: r) := by
  rw [nextItem]
  exact (blank_reads (by decide) _).bind (reads_pure _ _)

theorem nextItem_comma_quote (r : List Char) :
    Reads (nextItem false) (',' :: '"' :: r) true ('"' :: r) := by
  rw [nextItem]
  refine (blank_reads (by decide) _).bind ?_
  show Reads (bump >>= fun _ => blank >>= fun c => _) _ _ _
  exact (bump_reads _ _).bind ((blank_reads (by decide) _).bind (reads_pure _ _))

/-- The items after the first, each behind a comma, read back in order. -/
theorem items_reads (depth : Nat) : ∀ (vs : List String) (acc : List Value) (fuel : Nat)
    (r : List Char), vs.length < fuel →
    Reads (items fuel depth false acc)
      (vs.flatMap (fun v => ',' :: quoteChars v.toList) ++ ']' :: r)
      (acc.reverse ++ vs.map .string) (']' :: r)
  | [], acc, fuel + 1, r, _ => by
    rw [items]
    refine (nextItem_end false r).bind ?_
    simpa using reads_pure acc.reverse (']' :: r)
  | v :: vs, acc, fuel + 1, r, h => by
    obtain ⟨f, rfl⟩ : ∃ f, fuel = f + 1 := ⟨fuel - 1, by simp at h; omega⟩
    rw [items]
    have hv := value_reads_string f depth v
      (vs.flatMap (fun v => ',' :: quoteChars v.toList) ++ ']' :: r)
    have hrest := items_reads depth vs (.string v :: acc) (f + 1) r (by simp at h; omega)
    rw [quoteChars_append] at hv
    simp only [List.flatMap_cons, List.append_assoc, quoteChars_append, List.cons_append,
      List.reverse_cons, List.map_cons] at hrest ⊢
    refine (nextItem_comma_quote _).bind ?_
    exact hv.bind (by simpa using hrest)

/-- The written items of an array read back in order. -/
theorem items_reads_first (depth : Nat) (vs : List String) {fuel : Nat} (r : List Char)
    (h : vs.length < fuel) :
    Reads (items fuel depth true []) (sepBy (vs.map fun v => quoteChars v.toList) ++ ']' :: r)
      (vs.map .string) (']' :: r) := by
  obtain ⟨f, rfl⟩ : ∃ f, fuel = f + 1 := ⟨fuel - 1, by omega⟩
  rw [items]
  cases vs with
  | nil =>
    refine (nextItem_end true r).bind ?_
    simpa using reads_pure ([] : List Value) (']' :: r)
  | cons v vs =>
    obtain ⟨g, rfl⟩ : ∃ g, f = g + 1 := ⟨f - 1, by simp at h; omega⟩
    have hv := value_reads_string g depth v
      (vs.flatMap (fun v => ',' :: quoteChars v.toList) ++ ']' :: r)
    have hrest := items_reads depth vs [.string v] (g + 1) r (by simp at h; omega)
    rw [quoteChars_append] at hv
    simp only [List.map_cons, sepBy, List.flatMap_map, List.append_assoc, quoteChars_append,
      List.cons_append] at hrest ⊢
    refine (nextItem_first_quote _).bind ?_
    exact hv.bind (by simpa using hrest)

theorem closeArray_reads (r : List Char) : Reads closeArray (']' :: r) () r := by
  rw [closeArray]
  exact (blank_reads (by decide) _).bind (bump_reads _ _)

theorem firstFailure_ok (a : α) : firstFailure (.ok a) (.ok ()) = pure a := rfl

/-- A written array of strings reads back as that array. -/
theorem value_reads_strings {fuel depth : Nat} (vs : List String) (r : List Char)
    (hd : depth ≠ 0) (h : vs.length + 1 < fuel) :
    Reads (value fuel depth) ('[' :: (sepBy (vs.map fun v => quoteChars v.toList) ++ ']' :: r))
      (.array (vs.map .string)) r := by
  obtain ⟨f, rfl⟩ : ∃ f, fuel = f + 1 := ⟨fuel - 1, by omega⟩
  rw [value]
  apply Reads.placed
  refine (blank_reads (by decide) _).bind ?_
  show Reads (if depth = 0 then _ else _) _ _ _
  rw [if_neg hd]
  refine (bump_reads _ _).bind ?_
  refine ((items_reads_first (depth - 1) vs r (by omega)).observe).bind ?_
  refine ((closeArray_reads r).observe).bind ?_
  rw [firstFailure_ok]
  exact (reads_pure _ _).bind (reads_pure _ _)

theorem closeObject_reads (r : List Char) : Reads closeObject ('\x7d' :: r) () r := by
  rw [closeObject]
  exact (blank_reads (by decide) _).bind (bump_reads _ _)

/-- An object whose members read to the closing brace reads as a map. -/
theorem Reads.mapValue {body : Scan α} {l r : List Char} {a : α} (expected : String)
    (hb : Reads body l a ('\x7d' :: r)) :
    Reads (Json.mapValue expected body) ('\x7b' :: l) a r := by
  rw [Json.mapValue]
  apply Reads.placed
  refine (blank_reads (by decide) _).bind ?_
  show Reads (bracketed body closeObject) _ _ _
  rw [bracketed]
  refine (bump_reads _ _).bind (hb.observe.bind ((closeObject_reads r).observe.bind ?_))
  rw [firstFailure_ok]
  exact reads_pure _ _

end PageEditor.Json
