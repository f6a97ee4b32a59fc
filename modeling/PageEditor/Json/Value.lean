import PageEditor.Decimal.Shortest
/-!
# PageEditor.Json.Value

JSON values as the editor reads and writes them, and the compact writer.

1. A number keeps the class it was read as: a natural below `2^64`, a negative integer
   at or above `-2^63`, or a double.
2. An object keeps its members in the order they were written, duplicates included.
3. The writer puts no blank anywhere. In a string it escapes the quote and the backslash,
   writes backspace, tab, newline, form feed and carriage return by their letters, and any other
   character below U+0020 as `\u00` with two lowercase hex digits; everything else, DEL and
   non-ASCII text included, is written as it is.
-/

namespace PageEditor.Json

/-- A JSON number in the class the reader gave it. -/
inductive Number where
  | natural (n : Nat)
  | negative (n : Int)
  | double (x : Float)

/-- A JSON value; object members stay in input order. -/
inductive Value where
  | null
  | bool (b : Bool)
  | number (n : Number)
  | string (s : String)
  | array (items : List Value)
  | object (members : List (String × Value))

/-! ## Strings -/

/-- The lowercase hex digit of a value below sixteen. -/
def hexDigit (n : Nat) : Char :=
  if n < 10 then Char.ofNat (48 + n) else Char.ofNat (87 + n)

/-- How one character of a string is written between the quotes. -/
def escapeChar (c : Char) : List Char :=
  if c = '"' then ['\\', '"']
  else if c = '\\' then ['\\', '\\']
  else if c.toNat < 0x20 then
    match c.toNat with
    | 0x08 => ['\\', 'b']
    | 0x09 => ['\\', 't']
    | 0x0A => ['\\', 'n']
    | 0x0C => ['\\', 'f']
    | 0x0D => ['\\', 'r']
    | n => ['\\', 'u', '0', '0', hexDigit (n / 16), hexDigit (n % 16)]
  else [c]

/-- The characters of a quoted string. -/
def quoteChars (s : List Char) : List Char :=
  '"' :: s.flatMap escapeChar ++ ['"']

/-- A string written as a JSON string literal. -/
def quote (s : String) : String :=
  String.ofList (quoteChars s.toList)

/-! ## Values -/

/-- How a value writes a double: a tie goes to the even digit, positions from `-4` to `16` are
written without an exponent and a whole number there ends in `.0`, and a positive exponent has
no sign. -/
def Number.notation : Decimal.Notation := ⟨.even, some (-5, 16), true, false⟩

/-- A number's text: integers in decimal, a double in the notation of values. -/
def Number.write : Number → String
  | .natural n => toString n
  | .negative n => toString n
  | .double x => Number.notation.write x

mutual
/-- The compact text of a value. -/
def Value.write : Value → String
  | .null => "null"
  | .bool b => if b then "true" else "false"
  | .number n => n.write
  | .string s => quote s
  | .array items => "[" ++ writeItems items ++ "]"
  | .object members => "\x7b" ++ writeMembers members ++ "\x7d"

/-- Array items separated by commas. -/
def writeItems : List Value → String
  | [] => ""
  | [v] => v.write
  | v :: rest => v.write ++ "," ++ writeItems rest

/-- Object members as `"key":value`, separated by commas. -/
def writeMembers : List (String × Value) → String
  | [] => ""
  | [(k, v)] => quote k ++ ":" ++ v.write
  | (k, v) :: rest => quote k ++ ":" ++ v.write ++ "," ++ writeMembers rest
end

/-! ## Building and reading values -/

/-- A natural as a JSON number. -/
def Value.nat (n : Nat) : Value := .number (.natural n)

/-- A list of strings as a JSON array. -/
def Value.strings (xs : List String) : Value := .array (xs.map .string)

/-- An optional string, `null` when absent. -/
def Value.optString : Option String → Value
  | some s => .string s
  | none => .null

/-- The member with this key; of repeated keys the last one wins, as a map read from the text
keeps it. -/
def Value.field? (v : Value) (key : String) : Option Value :=
  match v with
  | .object members => (members.reverse.find? (·.1 == key)).map (·.2)
  | _ => none

end PageEditor.Json
