import PageEditor.Json.Reader
/-!
# PageEditor.Json.Typed

Reading JSON straight into typed values, with the errors a typed reader gives.

A typed read looks at the first character of the value. When it is not what the type wants,
the whole value of the other kind is read first, so that the error can describe it (`null`, a
boolean, an integer, a floating point number, a string, a sequence or a map), and the error
then points at the index reached. Errors about meaning are placed where the value ends.
-/

namespace PageEditor.Json

/-- What a number is, as an error describes it. -/
def Number.found : Number → Found
  | .natural n => .unsigned n
  | .negative n => .signed n
  | .double x => .double x

/-- Fails because the value here is of another kind than `expected`; the value is read first
so that it can be described. -/
def refuseKind (expected : String) : Scan α := placed do
  match ← peek with
  | some 'n' => bump; ident ['u', 'l', 'l']; failUnplaced (.invalidType .unit expected)
  | some 't' => bump; ident ['r', 'u', 'e']; failUnplaced (.invalidType (.bool true) expected)
  | some 'f' => bump; ident ['a', 'l', 's', 'e']; failUnplaced (.invalidType (.bool false) expected)
  | some '-' => bump; let n ← number false; failUnplaced (.invalidType n.found expected)
  | some '"' => bump; let s ← string; failUnplaced (.invalidType (.str s) expected)
  | some '[' => failUnplaced (.invalidType .seq expected)
  | some '\x7b' => failUnplaced (.invalidType .map expected)
  | some c =>
    if isDigit c then do let n ← number true; failUnplaced (.invalidType n.found expected)
    else failAhead .expectedValue
  | none => failAhead .expectedValue

/-- A string value. -/
def stringValue : Scan String := placed do
  match ← blank with
  | none => failAhead .eofValue
  | some '"' => bump; string
  | some _ => refuseKind "a string"

/-- The largest 32-bit word. -/
def word32Limit : Nat := Nat.pow 2 32 - 1

/-- A number as a 32-bit word: a natural up to `2^32 - 1`; a larger natural or a negative
integer is the wrong value, a double the wrong kind. -/
def Number.toWord32 : Number → Except Fault Nat
  | .natural n => if n ≤ word32Limit then .ok n else .error (.invalidValue (.unsigned n) "u32")
  | .negative n => .error (.invalidValue (.signed n) "u32")
  | .double x => .error (.invalidType (.double x) "u32")

/-- A 32-bit word value. -/
def word32Value : Scan Nat := placed do
  let n ← match ← blank with
    | none => failAhead .eofValue
    | some '-' => do bump; number false
    | some c => if isDigit c then number true else refuseKind "u32"
  match n.toWord32 with
  | .ok w => pure w
  | .error f => failUnplaced f

/-- A value read by one of two bodies, after its opening bracket or brace: the closing check
runs even after the body failed, and the first failure wins. -/
def bracketed (body : Scan α) (close : Scan Unit) : Scan α := do
  bump
  let b ← observe body
  let c ← observe close
  firstFailure b c

/-- A structure, written either as an array of its fields in order or as an object. -/
def structValue (expected : String) (ofArray ofObject : Scan α) : Scan α := placed do
  match ← blank with
  | none => failAhead .eofValue
  | some '[' => bracketed ofArray closeArray
  | some '\x7b' => bracketed ofObject closeObject
  | some _ => refuseKind expected

/-- A map, written as an object. -/
def mapValue (expected : String) (ofObject : Scan α) : Scan α := placed do
  match ← blank with
  | none => failAhead .eofValue
  | some '\x7b' => bracketed ofObject closeObject
  | some _ => refuseKind expected

end PageEditor.Json
