import PageEditor.Form.Snapshot.Reader
import PageEditor.Proofs.Json.Written
import PageEditor.Proofs.Form.Fields
/-!
# PageEditor.Proofs.Form.SnapshotJson

A snapshot read back from its JSON text.

The text of a snapshot is an object with one member per field, in field order. A text field and
a selected field are both written as a plain string, and a string is read as a text field, so
JSON keeps every field but not the mark of a selected value: `FieldValue.plain` turns a selected
value into a text and keeps all else.

Main statement (`read_write_eq_plain`): for every JSON library with the laws of `Serde.Lawful`,
reading the text of any snapshot succeeds and gives the same fields in the same order with the
same texts, each value as `plain` makes it. The laws are what the untagged format and the JSON
text promise: a field is written as its content alone and read by trying the variants in the
order they are declared, a string is read from a string and never from an array, and the text of
a snapshot is read back member by member, in order, with its escapes undone.

The JSON layer of this library has those laws (`jsonSerde_lawful`): its reader takes the text of
any snapshot, whose names and texts may hold quotes, backslashes, control characters and any other
character, back to the snapshot as JSON keeps it (`read_text_eq_plain`). A snapshot with a selected
field therefore does not read back as itself (`read_write_selected_ne`).
-/
namespace PageEditor.Form

open Json

/-- A field value as its JSON text keeps it: a selected value becomes a text. -/
def FieldValue.plain : FieldValue → FieldValue
  | .selected s => .text s
  | v => v

/-- A snapshot as its JSON text keeps it: every selected value becomes a text. -/
def Snapshot.plain (s : Snapshot) : Snapshot :=
  ⟨s.fields.map fun p => (p.1, p.2.plain), by
    simpa only [List.map_map, Function.comp_def] using s.distinct⟩

/-- A field with the value JSON keeps of it. -/
def plainField (kv : String × FieldValue) : String × FieldValue := (kv.1, kv.2.plain)

theorem plain_fields (s : Snapshot) : s.plain.fields = s.fields.map plainField := rfl

/-! ## Over any JSON library with the laws -/

/-- A JSON library as the round trip of a snapshot goes through it. `J` is its type of JSON
values, with strings (`str`) and arrays (`arr`); `encode` gives the JSON value of a field;
`string?`, `strings?` and `field?` read a string, a list of strings and a field from a JSON
value; `write` and `read` take a snapshot to its text and back. -/
structure Serde (J : Type) where
  str : String → J
  arr : List J → J
  encode : FieldValue → J
  string? : J → Option String
  strings? : J → Option (List String)
  field? : J → Option FieldValue
  write : Snapshot → String
  read : String → Option Snapshot

/-- What the round trip assumes of a JSON library. -/
structure Serde.Lawful {J : Type} (j : Serde J) : Prop where
  /-- An untagged field is written as its content alone. -/
  encode_text : ∀ s, j.encode (.text s) = j.str s
  encode_selected : ∀ s, j.encode (.selected s) = j.str s
  encode_multiple : ∀ l, j.encode (.multiple l) = j.arr (l.map j.str)
  /-- A string is read from a string and never from an array. -/
  string?_str : ∀ s, j.string? (j.str s) = some s
  string?_arr : ∀ l, j.string? (j.arr l) = none
  /-- A list of strings is read from an array of strings. -/
  strings?_arr : ∀ l, j.strings? (j.arr (l.map j.str)) = some l
  /-- An untagged field is read by trying the variants in the order they are declared. -/
  field?_untagged : ∀ v, j.field? v =
    (((j.string? v).map .text <|> (j.string? v).map .selected) <|> (j.strings? v).map .multiple)
  /-- The text of a snapshot is read back member by member, in order, each name as it was and
  each value from what was written for it: escapes are undone and the map keeps its order. -/
  read_write : ∀ s : Snapshot, j.read (j.write s) =
    s.fields.foldlM (fun acc kv => (j.field? (j.encode kv.2)).map (acc.insert kv.1))
      Snapshot.empty

/-- A written field reads back as JSON keeps it: a text or selected value is written as a
string, the first variant tried, text, takes it; a multiple value is written as an array, which
no string variant takes and the multiple variant does. -/
theorem Serde.Lawful.field?_encode {J : Type} {j : Serde J} (hj : j.Lawful) (v : FieldValue) :
    j.field? (j.encode v) = some v.plain := by
  rw [hj.field?_untagged]
  cases v with
  | text s => rw [hj.encode_text, hj.string?_str]; rfl
  | selected s => rw [hj.encode_selected, hj.string?_str]; rfl
  | multiple l => rw [hj.encode_multiple, hj.string?_arr, hj.strings?_arr]; rfl

/-- Inserting fields whose names are new and distinct, each with the value JSON keeps of it,
adds them at the end in order. -/
theorem foldlM_insert_plain : ∀ (fs : List (String × FieldValue)) (acc : Snapshot),
    (acc.names ++ fs.map (·.1)).Nodup →
    ∃ s', fs.foldlM (fun acc kv => some (acc.insert kv.1 kv.2.plain)) acc = some s' ∧
      s'.fields = acc.fields ++ fs.map plainField
  | [], acc, _ => ⟨acc, rfl, by simp⟩
  | kv :: fs, acc, hd => by
    have hk : kv.1 ∉ acc.names := by
      simp only [List.map_cons] at hd
      exact fun h => (List.nodup_append.mp hd).2.2 _ h _ (by simp) rfl
    have hins := Snapshot.insert_fields_of_not_mem (v := kv.2.plain) hk
    obtain ⟨s', hs', hfields⟩ := foldlM_insert_plain fs (acc.insert kv.1 kv.2.plain)
      (by simpa [Snapshot.names, hins] using hd)
    refine ⟨s', by rw [List.foldlM_cons]; exact hs', ?_⟩
    rw [hfields, hins]
    simp [plainField]

/-- Reading the members of a snapshot with any reader that gives each value as JSON keeps it
gives the snapshot as JSON keeps it. -/
theorem foldlM_field_eq_plain (f : FieldValue → Option FieldValue)
    (hf : ∀ v, f v = some v.plain) (s : Snapshot) :
    s.fields.foldlM (fun acc kv => (f kv.2).map (acc.insert kv.1)) Snapshot.empty =
      some s.plain := by
  simp only [hf, Option.map_some]
  obtain ⟨s', hs', hfields⟩ := foldlM_insert_plain s.fields Snapshot.empty s.distinct
  rw [hs']
  exact congrArg some (Snapshot.ext_fields (by rw [hfields, plain_fields]; simp [Snapshot.empty]))

/-- **Reading the JSON text of a snapshot gives it back as JSON keeps it**, with every JSON
library that has the laws. Every field comes back, in order, under its name, with its texts; a
text or multiple field comes back as it was, a selected value as a text. -/
theorem read_write_eq_plain {J : Type} (j : Serde J) (hj : j.Lawful) (s : Snapshot) :
    j.read (j.write s) = some s.plain := by
  rw [hj.read_write]
  exact foldlM_field_eq_plain (fun v => j.field? (j.encode v)) hj.field?_encode s

/-! ## The written text -/

/-- The text of one member: the quoted name, a colon and the value. -/
def memberText (kv : String × FieldValue) : List Char :=
  quoteChars kv.1.toList ++ ':' :: kv.2.toJson.write.toList

theorem write_toList (s : Snapshot) :
    s.write.toList = '\x7b' :: (sepBy (s.fields.map memberText) ++ ['\x7d']) := by
  simp [Snapshot.write, Snapshot.toJson, Value.write, writeMembers_toList, List.map_map,
    Function.comp_def]
  rfl

theorem toJson_write_toList (v : FieldValue) :
    v.toJson.write.toList = match v with
      | .text s | .selected s => quoteChars s.toList
      | .multiple vs => '[' :: (sepBy (vs.map fun v => quoteChars v.toList) ++ [']']) := by
  cases v <;> simp [FieldValue.toJson, Value.write, Value.strings, writeItems_toList, List.map_map,
    Function.comp_def]

theorem mapM_stringOf?_strings (vs : List String) : (vs.map Value.string).mapM stringOf? = some vs := by
  induction vs with
  | nil => rfl
  | cons v vs ih => simp [List.mapM_cons, ih, stringOf?]

theorem ofJson?_toJson (v : FieldValue) : FieldValue.ofJson? v.toJson = some v.plain := by
  cases v with
  | text s => rfl
  | selected s => rfl
  | multiple vs =>
    show ((vs.map Value.string).mapM stringOf?).map FieldValue.multiple = _
    rw [mapM_stringOf?_strings]
    rfl

/-! ## Reading a value -/

/-- A field value reads back as the JSON value it was written from. -/
theorem value_reads_field (v : FieldValue) (r : List Char) {fuel depth : Nat} (hd : depth ≠ 0)
    (h : v.toJson.write.toList.length < fuel) :
    Reads (value fuel depth) (v.toJson.write.toList ++ r) v.toJson r := by
  rw [toJson_write_toList] at h ⊢
  cases v with
  | text s =>
    obtain ⟨f, rfl⟩ : ∃ f, fuel = f + 1 := ⟨fuel - 1, by omega⟩
    exact value_reads_string f depth s r
  | selected s =>
    obtain ⟨f, rfl⟩ : ∃ f, fuel = f + 1 := ⟨fuel - 1, by omega⟩
    exact value_reads_string f depth s r
  | multiple vs =>
    -- each item is at least its two quotes, so the fuel covers the items and the brackets
    have hlen := @length_le_sepBy (vs.map fun v => quoteChars v.toList) (by simp [quoteChars])
    simp only [List.length_cons, List.length_append, List.length_map] at h hlen
    have hv := @value_reads_strings fuel depth vs r hd (by omega)
    simpa [FieldValue.toJson, Value.strings] using hv

/-! ## Reading the members -/

theorem nextKey_end (first : Bool) (r : List Char) :
    Reads (nextKey first) ('\x7d' :: r) none ('\x7d' :: r) := by
  rw [nextKey]
  exact ((blank_reads (by decide) _).bind (reads_pure _ _)).bind (reads_pure _ _)

theorem nextKey_first (k : String) (r : List Char) :
    Reads (nextKey true) (quoteChars k.toList ++ r) (some k) r := by
  rw [nextKey, quoteChars_append]
  refine (blank_reads (by decide) _).bind ?_
  show Reads (bump >>= fun _ => string >>= fun k => pure (some k)) _ _ _
  exact (bump_reads _ _).bind ((string_reads k r).bind (reads_pure _ _))

theorem nextKey_comma (k : String) (r : List Char) :
    Reads (nextKey false) (',' :: (quoteChars k.toList ++ r)) (some k) r := by
  rw [nextKey, quoteChars_append]
  refine (blank_reads (by decide) _).bind ?_
  show Reads (bump >>= _) _ _ _
  refine (bump_reads _ _).bind ((blank_reads (by decide) _).bind ?_)
  show Reads (bump >>= fun _ => string >>= fun k => pure (some k)) _ _ _
  exact (bump_reads _ _).bind ((string_reads k r).bind (reads_pure _ _))

theorem colon_reads (r : List Char) : Reads colon (':' :: r) () r := by
  rw [colon]
  exact (blank_reads (by decide) _).bind (bump_reads _ _)

/-- One member: its key, a colon and its value, then the members after it. -/
theorem snapshotMembers_member {s s' : Snapshot} {first : Bool} {fuel : Nat} {k : String}
    {v : FieldValue} {l m r : List Char}
    (hk : Reads (nextKey first) l (some k) (':' :: (v.toJson.write.toList ++ m)))
    (hfuel : v.toJson.write.toList.length < fuel)
    (hrest : Reads (snapshotMembers (s.insert k v.plain) false fuel) m s' r) :
    Reads (snapshotMembers s first (fuel + 1)) l s' r := by
  rw [snapshotMembers]
  refine hk.bind ((colon_reads _).bind ?_)
  refine (value_reads_field v m (by decide) hfuel).bind ?_
  simp only [ofJson?_toJson]
  exact hrest

/-- The members after the first, each behind a comma, are set one by one at the end. -/
theorem snapshotMembers_reads (r : List Char) : ∀ (fs : List (String × FieldValue)) (s : Snapshot)
    (fuel : Nat), (s.names ++ fs.map (·.1)).Nodup →
    (fs.flatMap fun kv => ',' :: memberText kv).length < fuel →
    ∃ s', s'.fields = s.fields ++ fs.map plainField ∧
      Reads (snapshotMembers s false fuel)
        ((fs.flatMap fun kv => ',' :: memberText kv) ++ '\x7d' :: r)
        s' ('\x7d' :: r)
  | [], s, fuel + 1, _, _ => by
    refine ⟨s, by simp, ?_⟩
    rw [snapshotMembers]
    exact (nextKey_end false r).bind (reads_pure _ _)
  | kv :: fs, s, fuel + 1, hd, hlen => by
    have hk : kv.1 ∉ s.names := by
      simp only [List.map_cons] at hd
      exact fun h => (List.nodup_append.mp hd).2.2 _ h _ (by simp) rfl
    have hnames : (s.insert kv.1 kv.2.plain).names = s.names ++ [kv.1] := by
      simp [Snapshot.names, Snapshot.insert_fields_of_not_mem hk]
    have hmem : (memberText kv).length =
        (kv.1.toList.flatMap escapeChar).length + 3 + kv.2.toJson.write.toList.length := by
      simp [memberText, quoteChars]
      omega
    simp only [List.flatMap_cons, List.length_append, List.length_cons, hmem] at hlen
    obtain ⟨s', hs', hread⟩ := snapshotMembers_reads r fs (s.insert kv.1 kv.2.plain) fuel
      (by rw [hnames]; simpa using hd) (by omega)
    refine ⟨s', by rw [hs', Snapshot.insert_fields_of_not_mem hk]; simp [plainField], ?_⟩
    refine snapshotMembers_member ?_ (by omega) hread
    simpa [memberText, List.append_assoc] using nextKey_comma kv.1
      (':' :: (kv.2.toJson.write.toList ++
        ((fs.flatMap fun kv => ',' :: memberText kv) ++ '\x7d' :: r)))

/-- The members of an object, the first without a comma, are set in order. -/
theorem snapshotMembers_reads_first (r : List Char) (fs : List (String × FieldValue))
    (hd : (fs.map (·.1)).Nodup) {fuel : Nat} (hlen : (sepBy (fs.map memberText)).length < fuel) :
    ∃ s', s'.fields = fs.map plainField ∧
      Reads (snapshotMembers Snapshot.empty true fuel) (sepBy (fs.map memberText) ++ '\x7d' :: r)
        s' ('\x7d' :: r) := by
  obtain ⟨f, rfl⟩ : ∃ f, fuel = f + 1 := ⟨fuel - 1, by omega⟩
  cases fs with
  | nil =>
    refine ⟨Snapshot.empty, rfl, ?_⟩
    rw [snapshotMembers]
    exact (nextKey_end true r).bind (reads_pure _ _)
  | cons kv fs =>
    have hk : kv.1 ∉ Snapshot.empty.names := by simp [Snapshot.names, Snapshot.empty]
    have hmem : (memberText kv).length =
        (kv.1.toList.flatMap escapeChar).length + 3 + kv.2.toJson.write.toList.length := by
      simp [memberText, quoteChars]
      omega
    simp only [List.map_cons, sepBy, List.flatMap_map, List.length_append, hmem] at hlen ⊢
    have hins : (Snapshot.empty.insert kv.1 kv.2.plain).fields = [(kv.1, kv.2.plain)] := by
      rw [Snapshot.insert_fields_of_not_mem hk]
      rfl
    obtain ⟨s', hs', hread⟩ := snapshotMembers_reads r fs (Snapshot.empty.insert kv.1 kv.2.plain) f
      (by rw [Snapshot.names, hins]; simpa using hd) (by omega)
    refine ⟨s', by rw [hs', Snapshot.insert_fields_of_not_mem hk]; simp [plainField, Snapshot.empty],
      ?_⟩
    refine snapshotMembers_member ?_ (by omega) hread
    simpa [memberText, List.append_assoc] using nextKey_first kv.1
      (':' :: (kv.2.toJson.write.toList ++
        ((fs.flatMap fun kv => ',' :: memberText kv) ++ '\x7d' :: r)))

/-- The reader takes the text of a snapshot back to the snapshot as JSON keeps it. -/
theorem snapshot_reads (s : Snapshot) :
    Reads (mapValue "a map" (snapshotMembers Snapshot.empty true (2 * s.write.toList.length + 2)))
      s.write.toList s.plain [] := by
  have hlen : (sepBy (s.fields.map memberText)).length < 2 * s.write.toList.length + 2 := by
    rw [write_toList]
    simp only [List.length_cons, List.length_append]
    omega
  obtain ⟨s', hs', hread⟩ := snapshotMembers_reads_first [] s.fields s.distinct hlen
  have hs : s' = s.plain := Snapshot.ext_fields (by rw [hs']; rfl)
  rw [← hs]
  have h := hread.mapValue "a map"
  rwa [← write_toList] at h

/-- The reader of this library takes the text of a snapshot back to the snapshot as JSON keeps
it. -/
theorem read_text_eq_plain (s : Snapshot) : Snapshot.read s.write = .ok s.plain := by
  rw [Snapshot.read, readAll_reads (snapshot_reads s)]

/-! ## The JSON layer of this library -/

/-- A list of strings read from a JSON array of strings. -/
def stringsOf? : Json.Value → Option (List String)
  | .array items => items.mapM stringOf?
  | _ => none

/-- The JSON layer of this library, as a `Serde`. -/
def jsonSerde : Serde Json.Value where
  str := .string
  arr := .array
  encode := FieldValue.toJson
  string? := stringOf?
  strings? := stringsOf?
  field? := FieldValue.ofJson?
  write := Snapshot.write
  read text := (Snapshot.read text).toOption

/-- The JSON layer of this library has the laws the round trip assumes. -/
theorem jsonSerde_lawful : jsonSerde.Lawful where
  encode_text _ := rfl
  encode_selected _ := rfl
  encode_multiple _ := rfl
  string?_str _ := rfl
  string?_arr _ := rfl
  strings?_arr := mapM_stringOf?_strings
  field?_untagged v := by
    cases v <;> rfl
  read_write s := by
    show (Snapshot.read s.write).toOption =
      s.fields.foldlM (fun acc kv => (FieldValue.ofJson? kv.2.toJson).map (acc.insert kv.1))
        Snapshot.empty
    rw [read_text_eq_plain, foldlM_field_eq_plain _ ofJson?_toJson s]
    rfl

/-- A snapshot of one selected field. -/
def selectedSnapshot : Snapshot := ⟨[("a", .selected "x")], by decide⟩

/-- The JSON layer of this library has the laws, and reads a snapshot with a selected field back
with a text field. -/
theorem read_write_eq_plain_json :
    jsonSerde.Lawful ∧
      jsonSerde.read (jsonSerde.write selectedSnapshot) = some selectedSnapshot.plain :=
  ⟨jsonSerde_lawful, read_write_eq_plain jsonSerde jsonSerde_lawful selectedSnapshot⟩

/-- The text of a snapshot with a selected field reads back with a text field instead. -/
theorem read_write_selected_ne : Snapshot.read selectedSnapshot.write ≠ .ok selectedSnapshot := by
  rw [read_text_eq_plain]
  intro h
  have := congrArg (fun s => s.fields) (Except.ok.inj h)
  simp [Snapshot.plain, selectedSnapshot, FieldValue.plain] at this

end PageEditor.Form
