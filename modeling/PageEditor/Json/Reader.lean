import PageEditor.Json.Value
import PageEditor.Text.Printable
/-!
# PageEditor.Json.Reader

A strict JSON reader that reports where it stopped, byte for byte.

The reader walks the remaining characters of the text together with the number of bytes already
read. Every failure names a fault and the byte index it points at:

1. a fault found at the character being looked at points one byte past it, or at the end of
   the text when nothing is left;
2. a fault found after something was taken points at the byte index reached;
3. a fault about meaning rather than syntax (a value of the wrong kind, a repeated field) is
   raised without a place and gets one where the enclosing value ends, after any closing
   bracket that follows.

The index becomes a line and a column when the error is shown: lines count from one, columns
count the bytes since the last newline.

Numbers are read as the editor's own configuration reader reads them: a natural below `2^64`
stays a natural, a negative integer at or above `-2^63` stays an integer, and everything else
becomes a double built from at most nineteen or twenty significant digits scaled by one power
of ten.
-/

namespace PageEditor.Json

/-! ## Faults and errors -/

/-- The syntax faults of the reader. -/
inductive SyntaxFault where
  | eofList
  | eofObject
  | eofString
  | eofValue
  | expectedColon
  | expectedListCommaOrEnd
  | expectedObjectCommaOrEnd
  | expectedIdent
  | expectedValue
  | invalidEscape
  | invalidNumber
  | numberOutOfRange
  | controlCharacter
  | keyMustBeString
  | loneSurrogate
  | trailingComma
  | trailingCharacters
  | unexpectedEndOfHexEscape
  | recursionLimit
  deriving Repr, DecidableEq

/-- The fixed text of a syntax fault. -/
def SyntaxFault.message : SyntaxFault → String
  | .eofList => "EOF while parsing a list"
  | .eofObject => "EOF while parsing an object"
  | .eofString => "EOF while parsing a string"
  | .eofValue => "EOF while parsing a value"
  | .expectedColon => "expected `:`"
  | .expectedListCommaOrEnd => "expected `,` or `]`"
  | .expectedObjectCommaOrEnd => "expected `,` or `\x7d`"
  | .expectedIdent => "expected ident"
  | .expectedValue => "expected value"
  | .invalidEscape => "invalid escape"
  | .invalidNumber => "invalid number"
  | .numberOutOfRange => "number out of range"
  | .controlCharacter => "control character (\\u0000-\\u001F) found while parsing a string"
  | .keyMustBeString => "key must be a string"
  | .loneSurrogate => "lone leading surrogate in hex escape"
  | .trailingComma => "trailing comma"
  | .trailingCharacters => "trailing characters"
  | .unexpectedEndOfHexEscape => "unexpected end of hex escape"
  | .recursionLimit => "recursion limit exceeded"

/-- What was found where something else was expected. -/
inductive Found where
  | bool (b : Bool)
  | unsigned (n : Nat)
  | signed (n : Int)
  | double (x : Float)
  | str (s : String)
  | unit
  | seq
  | map

/-- How a character is shown inside a quoted string of an error: quotes, backslashes, NUL and
the common controls by their letters, other characters that are not printable or that extend a
grapheme as a braced hex code, and all else as itself. -/
def showChar (c : Char) : List Char :=
  match c with
  | '"' => ['\\', '"']
  | '\\' => ['\\', '\\']
  | '\t' => ['\\', 't']
  | '\r' => ['\\', 'r']
  | '\n' => ['\\', 'n']
  | c =>
    if c.toNat == 0 then ['\\', '0']
    else if Text.shownAsCode c then ['\\', 'u', '\x7b'] ++ Nat.toDigits 16 c.toNat ++ ['\x7d']
    else [c]

/-- A string as an error message quotes it. -/
def showString (s : String) : String :=
  String.ofList ('"' :: s.toList.flatMap showChar ++ ['"'])

/-- How error messages write a double: a tie goes to the even digit, positions from `-4` to `16`
are written without an exponent and a whole number there ends in `.0`, and a positive exponent
has a plus sign. -/
def errorNotation : Decimal.Notation := ⟨.even, some (-5, 16), true, true⟩

/-- The description of what was found, as error messages give it. -/
def Found.describe : Found → String
  | .bool b => "boolean `" ++ (if b then "true" else "false") ++ "`"
  | .unsigned n => "integer `" ++ toString n ++ "`"
  | .signed n => "integer `" ++ toString n ++ "`"
  | .double x => "floating point `" ++ errorNotation.write x ++ "`"
  | .str s => "string " ++ showString s
  | .unit => "null"
  | .seq => "sequence"
  | .map => "map"

/-- Why reading failed. -/
inductive Fault where
  | malformed (f : SyntaxFault)
  | invalidType (found : Found) (expected : String)
  | invalidValue (found : Found) (expected : String)
  | duplicateField (name : String)
  | custom (text : String)

/-- The text of a fault, without its place. -/
def Fault.message : Fault → String
  | .malformed f => f.message
  | .invalidType u e => "invalid type: " ++ u.describe ++ ", expected " ++ e
  | .invalidValue u e => "invalid value: " ++ u.describe ++ ", expected " ++ e
  | .duplicateField n => "duplicate field `" ++ n ++ "`"
  | .custom t => t

/-- A fault and the byte index it points at, once that is known. -/
structure Error where
  fault : Fault
  index : Option Nat

/-- The line and column of a byte index: lines count from one, the column counts the bytes
since the last newline. -/
def lineColumn (text : String) (index : Nat) : Nat × Nat :=
  (text.toUTF8.toList.take index).foldl
    (fun (acc : Nat × Nat) (b : UInt8) => if b == 10 then (acc.1 + 1, 0) else (acc.1, acc.2 + 1)) (1, 0)

/-- The message of an error over the text it was read from. -/
def Error.render (e : Error) (text : String) : String :=
  match e.index with
  | none => e.fault.message
  | some i =>
    let (line, col) := lineColumn text i
    e.fault.message ++ " at line " ++ toString line ++ " column " ++ toString col

/-! ## The cursor and the reading monad -/

/-- What is left of the text, and how many bytes were read before it. -/
structure Cursor where
  rest : List Char
  index : Nat

/-- The index one byte past the character being looked at, or the end of the text. -/
def Cursor.ahead (c : Cursor) : Nat :=
  if c.rest.isEmpty then c.index else c.index + 1

/-- The JSON blanks: space, newline, tab and carriage return. -/
def isJsonBlank (c : Char) : Bool :=
  c == ' ' || c == '\n' || c == '\t' || c == '\r'

/-- Skips JSON blanks. -/
def Cursor.skipBlank : Cursor → Cursor
  | ⟨[], i⟩ => ⟨[], i⟩
  | ⟨c :: rest, i⟩ => if isJsonBlank c then Cursor.skipBlank ⟨rest, i + 1⟩ else ⟨c :: rest, i⟩

/-- Takes one character. -/
def Cursor.next : Cursor → Cursor
  | ⟨[], i⟩ => ⟨[], i⟩
  | ⟨c :: rest, i⟩ => ⟨rest, i + c.utf8Size⟩

/-- Reading that may fail, keeping the cursor where it stopped either way. -/
abbrev Scan := ExceptT Error (StateM Cursor)

/-- The character being looked at. -/
def peek : Scan (Option Char) := do
  return (← get).rest.head?

/-- Takes the character being looked at. -/
def bump : Scan Unit := modify Cursor.next

/-- Skips blanks and looks at what follows. -/
def blank : Scan (Option Char) := do
  modify Cursor.skipBlank
  peek

/-- Fails at the byte index reached. -/
def failHere (f : SyntaxFault) : Scan α := do
  throw ⟨.malformed f, some (← get).index⟩

/-- Fails one byte past the character being looked at. -/
def failAhead (f : SyntaxFault) : Scan α := do
  throw ⟨.malformed f, some (← get).ahead⟩

/-- Fails at a given byte index. -/
def failAt (f : SyntaxFault) (i : Nat) : Scan α :=
  throw ⟨.malformed f, some i⟩

/-- Fails without a place; the enclosing value gives it one. -/
def failUnplaced (f : Fault) : Scan α :=
  throw ⟨f, none⟩

/-- Gives an unplaced failure the byte index reached when it arrives here. -/
def placed (x : Scan α) : Scan α :=
  tryCatch x fun e => do
    match e.index with
    | some _ => throw e
    | none => throw { e with index := some (← get).index }

/-- Runs a step and hands back its outcome without stopping. -/
def observe (x : Scan α) : Scan (Except Error α) :=
  tryCatch (Except.ok <$> x) fun e => pure (.error e)

/-- Of a body and the closing check that runs after it either way, the first failure wins. -/
def firstFailure (body : Except Error α) (close : Except Error Unit) : Scan α :=
  match body, close with
  | .error e, _ => throw e
  | .ok _, .error e => throw e
  | .ok a, .ok () => pure a

/-! ## Strings -/

/-- The value of an ASCII hex digit. -/
def hexValue (c : Char) : Option Nat :=
  if '0' ≤ c && c ≤ '9' then some (c.toNat - 48)
  else if 'a' ≤ c && c ≤ 'f' then some (c.toNat - 87)
  else if 'A' ≤ c && c ≤ 'F' then some (c.toNat - 55)
  else none

/-- The number of bytes of a list of characters. -/
def byteCount (cs : List Char) : Nat :=
  (cs.map Char.utf8Size).foldr (· + ·) 0

/-- Four hex digits at byte index `i`: their value and what follows. A window of four bytes is
looked at, so fewer than four bytes left is the end of the string, and anything else in the
window is a bad escape pointing past it. -/
def hexQuad (l : List Char) (i : Nat) :
    Except Error (Nat × { r : List Char // r.length ≤ l.length }) :=
  match l with
  | a :: b :: c :: d :: r =>
    match hexValue a, hexValue b, hexValue c, hexValue d with
    | some w, some x, some y, some z =>
      .ok (((w * 16 + x) * 16 + y) * 16 + z, ⟨r, by simp; omega⟩)
    | _, _, _, _ => .error ⟨.malformed .invalidEscape, some (i + 4)⟩
  | _ =>
    if byteCount l < 4 then .error ⟨.malformed .eofString, some (i + byteCount l)⟩
    else .error ⟨.malformed .invalidEscape, some (i + 4)⟩

/-- The character of a code point outside the surrogates. -/
def codeChar (n : Nat) : Char := Char.ofNat n

/-- A `\u` escape whose four digits start at byte index `i`: the character it stands for, what
follows it, and the byte index after it. A leading surrogate must be followed at once by a
`\u` escape of a trailing one; a trailing surrogate alone is refused. -/
def unicodeEscape (l : List Char) (i : Nat) :
    Except Error (Char × { r : List Char // r.length ≤ l.length } × Nat) := do
  let (n, ⟨r, hr⟩) ← hexQuad l i
  let j := i + 4
  if 0xDC00 ≤ n && n ≤ 0xDFFF then
    .error ⟨.malformed .loneSurrogate, some j⟩
  else if n < 0xD800 || 0xDBFF < n then
    .ok (codeChar n, ⟨r, hr⟩, j)
  else
    match r, hr with
    | [], _ => .error ⟨.malformed .eofString, some j⟩
    | ['\\'], _ => .error ⟨.malformed .eofString, some (j + 1)⟩
    | '\\' :: 'u' :: r'', hr => do
      let (m, ⟨s, hs⟩) ← hexQuad r'' (j + 2)
      if m < 0xDC00 || 0xDFFF < m then
        .error ⟨.malformed .loneSurrogate, some (j + 6)⟩
      else
        .ok (codeChar (0x10000 + (n - 0xD800) * 0x400 + (m - 0xDC00)),
          ⟨s, by simp at hr hs ⊢; omega⟩, j + 6)
    | '\\' :: _ :: _, _ => .error ⟨.malformed .unexpectedEndOfHexEscape, some (j + 2)⟩
    | _ :: _, _ => .error ⟨.malformed .unexpectedEndOfHexEscape, some (j + 1)⟩

/-- The character a one-letter escape stands for. -/
def simpleEscape (e : Char) : Option Char :=
  match e with
  | '"' => some '"'
  | '\\' => some '\\'
  | '/' => some '/'
  | 'b' => some '\x08'
  | 'f' => some '\x0c'
  | 'n' => some '\n'
  | 'r' => some '\r'
  | 't' => some '\t'
  | _ => none

/-- The escape after a backslash, whose letter starts at byte index `i`. -/
def escape (l : List Char) (i : Nat) :
    Except Error (Char × { r : List Char // r.length < l.length } × Nat) :=
  match l with
  | [] => .error ⟨.malformed .eofString, some i⟩
  | e :: r =>
    if e = 'u' then do
      let (c, ⟨r', h⟩, j) ← unicodeEscape r (i + 1)
      .ok (c, ⟨r', by simp; omega⟩, j)
    else
      match simpleEscape e with
      | some c => .ok (c, ⟨r, by simp⟩, i + 1)
      | none => .error ⟨.malformed .invalidEscape, some (i + 1)⟩

/-- The body of a string after its opening quote, decoded; the characters read so far are kept
reversed in `acc`. A raw control character is refused, pointing past it. -/
def stringBody (acc : List Char) (l : List Char) (i : Nat) :
    Except Error (String × Cursor) :=
  match l with
  | [] => .error ⟨.malformed .eofString, some i⟩
  | c :: rest =>
    if c = '"' then .ok (String.ofList acc.reverse, ⟨rest, i + 1⟩)
    else if c = '\\' then
      match escape rest (i + 1) with
      | .error e => .error e
      | .ok (d, ⟨r, _⟩, j) => stringBody (d :: acc) r j
    else if c.toNat < 0x20 then .error ⟨.malformed .controlCharacter, some (i + 1)⟩
    else stringBody (c :: acc) rest (i + c.utf8Size)
termination_by l.length
decreasing_by all_goals simp_wf <;> omega

/-- Runs a pure reader on the cursor. -/
def lift (f : List Char → Nat → Except Error (α × Cursor)) : Scan α := do
  let c ← get
  match f c.rest c.index with
  | .error e => throw e
  | .ok (a, c') => set c'; pure a

/-- A string whose opening quote was just taken. -/
def string : Scan String :=
  lift (stringBody [])

/-- Skips the escape after a backslash without decoding it: only the four digits of a `\u`
escape are checked. -/
def skipEscape (l : List Char) (i : Nat) :
    Except Error ({ r : List Char // r.length < l.length } × Nat) :=
  match l with
  | [] => .error ⟨.malformed .eofString, some i⟩
  | e :: r =>
    if e = 'u' then do
      let (_, ⟨r', h⟩) ← hexQuad r (i + 1)
      .ok (⟨r', by simp; omega⟩, i + 5)
    else if e = '"' || e = '\\' || e = '/' || e = 'b' || e = 'f' || e = 'n' || e = 'r' || e = 't' then
      .ok (⟨r, by simp⟩, i + 1)
    else .error ⟨.malformed .invalidEscape, some (i + 1)⟩

/-- Skips the body of a string. A raw control character is refused, pointing at it. -/
def skipStringBody (l : List Char) (i : Nat) : Except Error (Unit × Cursor) :=
  match l with
  | [] => .error ⟨.malformed .eofString, some i⟩
  | c :: rest =>
    if c = '"' then .ok ((), ⟨rest, i + 1⟩)
    else if c = '\\' then
      match skipEscape rest (i + 1) with
      | .error e => .error e
      | .ok (⟨r, _⟩, j) => skipStringBody r j
    else if c.toNat < 0x20 then .error ⟨.malformed .controlCharacter, some i⟩
    else skipStringBody rest (i + c.utf8Size)
termination_by l.length
decreasing_by all_goals simp_wf <;> omega

/-! ## Literals -/

/-- The rest of a literal whose first letter was just taken. A wrong character is refused
pointing past it; the end of the text is the end of a value. -/
def ident : List Char → Scan Unit
  | [] => pure ()
  | x :: xs => do
    match ← peek with
    | none => failHere .eofValue
    | some c =>
      if c = x then do bump; ident xs
      else do failAt .expectedIdent ((← get).index + 1)

/-! ## Numbers -/

/-- The largest natural that a reader keeps as a natural. -/
def naturalLimit : Nat := Nat.pow 2 64 - 1

/-- The largest exponent a reader accumulates, `2^31 - 1`, before treating the exponent as
overflowing. -/
def exponentLimit : Int := 2147483647

/-- Clamps to the range of a signed 32-bit exponent. -/
def clampExponent (e : Int) : Int :=
  max (-2147483648) (min exponentLimit e)

/-- The double nearest to a natural, ties to even. -/
def nearestDouble (n : Nat) : Float :=
  if n < Nat.pow 2 53 then n.toUInt64.toFloat
  else
    let shift := Nat.log2 n - 52
    let q := n / Nat.pow 2 shift
    let r := n % Nat.pow 2 shift
    let half := Nat.pow 2 (shift - 1)
    let q := if r > half || (r == half && q % 2 == 1) then q + 1 else q
    q.toUInt64.toFloat.scaleB shift

/-- The double nearest to `10^k`, as the scaling table holds it. -/
def powerOfTen (k : Nat) : Float :=
  nearestDouble (Nat.pow 10 k)

/-- A number as a double: integers go to the nearest double. -/
def Number.toFloat : Number → Float
  | .natural n => nearestDouble n
  | .negative n => -(nearestDouble n.natAbs)
  | .double x => x

/-- Scales a significand by a power of ten: one multiplication or division by a table power,
going down by `10^308` at a time while the exponent is below the table. A result that
overflows to infinity is out of range. -/
def scaleDecimal (f : Float) (e : Int) : Option Float :=
  if h : e < -308 then
    if f == 0 then some f else scaleDecimal (f / powerOfTen 308) (e + 308)
  else if 0 ≤ e then
    if e > 308 then (if f == 0 then some f else none)
    else
      let g := f * powerOfTen e.toNat
      if g.isInf then none else some g
  else some (f / powerOfTen (-e).toNat)
termination_by (-e).toNat
decreasing_by omega

/-- The double of `±significand * 10^e`, or out of range at byte index `i`. -/
def fromParts (positive : Bool) (significand : Nat) (e : Int) (i : Nat) : Except Error Float :=
  match scaleDecimal significand.toUInt64.toFloat e with
  | some f => .ok (if positive then f else -f)
  | none => .error ⟨.malformed .numberOutOfRange, some i⟩

/-- Whether a character is an ASCII digit. -/
def isDigit (c : Char) : Bool := '0' ≤ c && c ≤ '9'

/-- The value of an ASCII digit. -/
def digitValue (c : Char) : Nat := c.toNat - 48

/-- Skips a run of digits. -/
def skipDigits : List Char → Nat → List Char × Nat
  | [], i => ([], i)
  | c :: rest, i => if isDigit c then skipDigits rest (i + 1) else (c :: rest, i)

/-- Ends an exponent: the double of `±significand * 10^(start ± exp)`, at byte index `j`. -/
def exponentFinish (positive : Bool) (significand : Nat) (start : Int) (sign : Bool) (exp : Int)
    (r : List Char) (j : Nat) : Except Error (Float × Cursor) := do
  let e := clampExponent (if sign then start + exp else start - exp)
  let f ← fromParts positive significand e j
  .ok (f, ⟨r, j⟩)

/-- The digits of an exponent after its first one. An exponent too large for 32 bits makes any
nonzero significand out of range when positive, and the value zero when negative. -/
def exponentDigits (positive : Bool) (significand : Nat) (start : Int) (sign : Bool) (exp : Int) :
    List Char → Nat → Except Error (Float × Cursor)
  | d :: more, j =>
    if isDigit d then
      let exp' := exp * 10 + digitValue d
      if exp' > exponentLimit then
        if significand != 0 && sign then .error ⟨.malformed .numberOutOfRange, some (j + 1)⟩
        else
          let (r, k) := skipDigits more (j + 1)
          .ok ((if positive then 0.0 else -0.0), ⟨r, k⟩)
      else exponentDigits positive significand start sign exp' more (j + 1)
    else exponentFinish positive significand start sign exp (d :: more) j
  | [], j => exponentFinish positive significand start sign exp [] j

/-- The exponent after `e` or `E`, whose letter is at byte index `i`: an optional sign and at
least one digit. -/
def exponentPart (positive : Bool) (significand : Nat) (start : Int) (l : List Char) (i : Nat) :
    Except Error (Float × Cursor) :=
  let (sign, l, i) : Bool × List Char × Nat :=
    match l with
    | '+' :: r => (true, r, i + 2)
    | '-' :: r => (false, r, i + 2)
    | r => (true, r, i + 1)
  match l with
  | [] => .error ⟨.malformed .eofValue, some i⟩
  | c :: rest =>
    if !isDigit c then .error ⟨.malformed .invalidNumber, some (i + 1)⟩
    else exponentDigits positive significand start sign (digitValue c) rest (i + 1)

/-- Fraction digits after the point, which is at byte index `i`. Digits are taken into the
significand while it stays below `2^64`; later ones are skipped. At least one digit must follow
the point. -/
def fractionPart (positive : Bool) (significand : Nat) (start : Int) (l : List Char) (i : Nat) :
    Except Error (Float × Cursor) :=
  let rec run (sig : Nat) (taken : Nat) : List Char → Nat → Except Error (Float × Cursor)
    | d :: more, j =>
      if isDigit d then
        let sig' := sig * 10 + digitValue d
        if sig' > naturalLimit then
          let (r, k) := skipDigits (d :: more) j
          tail sig (start - taken) r k
        else run sig' (taken + 1) more (j + 1)
      else close sig taken (d :: more) j
    | [], j => close sig taken [] j
  run significand 0 l (i + 1)
where
  tail (sig : Nat) (e : Int) (r : List Char) (j : Nat) : Except Error (Float × Cursor) :=
    match r with
    | c :: rest =>
      if c = 'e' || c = 'E' then exponentPart positive sig e rest j
      else do let f ← fromParts positive sig e j; .ok (f, ⟨c :: rest, j⟩)
    | [] => do let f ← fromParts positive sig e j; .ok (f, ⟨[], j⟩)
  close (sig : Nat) (taken : Nat) (r : List Char) (j : Nat) : Except Error (Float × Cursor) :=
    if taken = 0 then
      match r with
      | [] => .error ⟨.malformed .eofValue, some j⟩
      | _ :: _ => .error ⟨.malformed .invalidNumber, some (j + 1)⟩
    else tail sig (clampExponent (start - taken)) r j

/-- What follows the integer digits of a number that still fits: a fraction, an exponent, or
the end of the number. A negative zero and a negative value below `-2^63` become doubles. -/
def numberTail (positive : Bool) (significand : Nat) (l : List Char) (i : Nat) :
    Except Error (Number × Cursor) :=
  match l with
  | '.' :: rest => do
    let (f, c) ← fractionPart positive significand 0 rest i
    .ok (.double f, c)
  | c :: rest =>
    if c = 'e' || c = 'E' then do
      let (f, c) ← exponentPart positive significand 0 rest i
      .ok (.double f, c)
    else .ok (integer, ⟨c :: rest, i⟩)
  | [] => .ok (integer, ⟨[], i⟩)
where
  integer : Number :=
    if positive then .natural significand
    else if significand = 0 || significand > Nat.pow 2 63 then
      .double (-(significand.toUInt64.toFloat))
    else .negative (-(significand : Int))

/-- Integer digits past the first twenty that fit: each one raises the exponent. -/
def longInteger (positive : Bool) (significand : Nat) (l : List Char) (i : Nat) :
    Except Error (Float × Cursor) :=
  let rec run (extra : Nat) : List Char → Nat → Except Error (Float × Cursor)
    | d :: more, j =>
      if isDigit d then run (extra + 1) more (j + 1)
      else if d = '.' then fractionPart positive significand extra more j
      else if d = 'e' || d = 'E' then exponentPart positive significand extra more j
      else do let f ← fromParts positive significand extra j; .ok (f, ⟨d :: more, j⟩)
    | [], j => do let f ← fromParts positive significand extra j; .ok (f, ⟨[], j⟩)
  run 0 l i

/-- A number whose sign, if any, was just taken; `i` is the byte index of its first digit. A
leading zero may not be followed by another digit. -/
def numberBody (positive : Bool) (l : List Char) (i : Nat) : Except Error (Number × Cursor) :=
  match l with
  | [] => .error ⟨.malformed .eofValue, some i⟩
  | '0' :: rest =>
    match rest with
    | d :: _ => if isDigit d then .error ⟨.malformed .invalidNumber, some (i + 2)⟩
                else numberTail positive 0 rest (i + 1)
    | [] => numberTail positive 0 rest (i + 1)
  | c :: rest =>
    if !isDigit c then .error ⟨.malformed .invalidNumber, some (i + 1)⟩
    else
      let rec run (sig : Nat) : List Char → Nat → Except Error (Number × Cursor)
        | d :: more, j =>
          if isDigit d then
            let sig' := sig * 10 + digitValue d
            if sig' > naturalLimit then do
              let (f, c) ← longInteger positive sig (d :: more) j
              .ok (.double f, c)
            else run sig' more (j + 1)
          else numberTail positive sig (d :: more) j
        | [], j => numberTail positive sig [] j
      run (digitValue c) rest (i + 1)

/-- A number whose sign, if any, was just taken. -/
def number (positive : Bool) : Scan Number :=
  lift (numberBody positive)

/-- Skips the digits of a number, checking its shape only. -/
def skipNumberBody (l : List Char) (i : Nat) : Except Error (Unit × Cursor) :=
  match l with
  | [] => .error ⟨.malformed .invalidNumber, some i⟩
  | c :: rest =>
    if c = '0' then
      match rest with
      | d :: _ => if isDigit d then .error ⟨.malformed .invalidNumber, some (i + 2)⟩ else afterInt rest (i + 1)
      | [] => afterInt rest (i + 1)
    else if isDigit c then
      let (r, j) := skipDigits rest (i + 1)
      afterInt r j
    else .error ⟨.malformed .invalidNumber, some (i + 1)⟩
where
  afterExp (l : List Char) (i : Nat) : Except Error (Unit × Cursor) :=
    let (l, i) : List Char × Nat :=
      match l with
      | '+' :: r => (r, i + 2)
      | '-' :: r => (r, i + 2)
      | r => (r, i + 1)
    match l with
    | d :: r =>
      if isDigit d then let (r', j) := skipDigits r (i + 1); .ok ((), ⟨r', j⟩)
      else .error ⟨.malformed .invalidNumber, some (i + 1)⟩
    | [] => .error ⟨.malformed .invalidNumber, some i⟩
  afterInt (l : List Char) (i : Nat) : Except Error (Unit × Cursor) :=
    match l with
    | '.' :: r =>
      match r with
      | d :: more =>
        if isDigit d then
          let (r', j) := skipDigits more (i + 2)
          match r' with
          | e :: r'' => if e = 'e' || e = 'E' then afterExp r'' j else .ok ((), ⟨r', j⟩)
          | [] => .ok ((), ⟨[], j⟩)
        else .error ⟨.malformed .invalidNumber, some (i + 2)⟩
      | [] => .error ⟨.malformed .invalidNumber, some (i + 1)⟩
    | e :: r => if e = 'e' || e = 'E' then afterExp r i else .ok ((), ⟨e :: r, i⟩)
    | [] => .ok ((), ⟨[], i⟩)

/-! ## Arrays and objects -/

/-- The check after the items of an array: its closing bracket, with a trailing comma or
anything else refused. -/
def closeArray : Scan Unit := do
  match ← blank with
  | some ']' => bump
  | some ',' =>
    bump
    match ← blank with
    | some ']' => failAhead .trailingComma
    | _ => failAhead .trailingCharacters
  | some _ => failAhead .trailingCharacters
  | none => failAhead .eofList

/-- The check after the members of an object: its closing brace. -/
def closeObject : Scan Unit := do
  match ← blank with
  | some '\x7d' => bump
  | some ',' => failAhead .trailingComma
  | some _ => failAhead .trailingCharacters
  | none => failAhead .eofObject

/-- Looks for the next item of an array: `false` at its end, `true` when an item starts here.
Items after the first need a comma before them. -/
def nextItem (first : Bool) : Scan Bool := do
  match ← blank with
  | some ']' => pure false
  | some ',' =>
    if first then pure true
    else
      bump
      match ← blank with
      | some ']' => failAhead .trailingComma
      | some _ => pure true
      | none => failAhead .eofValue
  | some _ => if first then pure true else failAhead .expectedListCommaOrEnd
  | none => failAhead .eofList

/-- Looks for the next key of an object: `none` at its end, or the key. Keys after the first
need a comma before them. -/
def nextKey (first : Bool) : Scan (Option String) := do
  let found ← do
    match ← blank with
    | some '\x7d' => pure none
    | some ',' =>
      if first then pure (some ',')
      else
        bump
        match ← blank with
        | some c => pure (some c)
        | none => failAhead .eofValue
    | some c => if first then pure (some c) else failAhead .expectedObjectCommaOrEnd
    | none => failAhead .eofObject
  match found with
  | none => pure none
  | some '"' => bump; return some (← string)
  | some '\x7d' => failAhead .trailingComma
  | some _ => failAhead .keyMustBeString

/-- The colon between a key and its value. -/
def colon : Scan Unit := do
  match ← blank with
  | some ':' => bump
  | some _ => failAhead .expectedColon
  | none => failAhead .eofObject

/-- The deepest nesting of arrays and objects that is read, counting the outermost. -/
def depthLimit : Nat := 127

mutual
/-- A value of any kind. `fuel` bounds the steps and always exceeds twice the characters left,
since every second step reads a character; `depth` is how many more arrays or objects may open. -/
def value : Nat → Nat → Scan Value
  | 0, _ => failHere .eofValue
  | fuel + 1, depth => placed do
    match ← blank with
    | none => failAhead .eofValue
    | some 'n' => bump; ident ['u', 'l', 'l']; pure .null
    | some 't' => bump; ident ['r', 'u', 'e']; pure (.bool true)
    | some 'f' => bump; ident ['a', 'l', 's', 'e']; pure (.bool false)
    | some '-' => bump; return .number (← number false)
    | some '"' => bump; return .string (← string)
    | some '[' =>
      if depth = 0 then failAhead .recursionLimit
      else
        bump
        let body ← observe (items fuel (depth - 1) true [])
        let close ← observe closeArray
        return .array (← firstFailure body close)
    | some '\x7b' =>
      if depth = 0 then failAhead .recursionLimit
      else
        bump
        let body ← observe (members fuel (depth - 1) true [])
        let close ← observe closeObject
        return .object (← firstFailure body close)
    | some c =>
      if isDigit c then return .number (← number true)
      else failAhead .expectedValue

/-- The items of an array, kept reversed in `acc`. -/
def items : Nat → Nat → Bool → List Value → Scan (List Value)
  | 0, _, _, _ => failHere .eofList
  | fuel + 1, depth, first, acc => do
    if ← nextItem first then
      let v ← value fuel depth
      items fuel depth false (v :: acc)
    else pure acc.reverse

/-- The members of an object, kept reversed in `acc`. -/
def members : Nat → Nat → Bool → List (String × Value) → Scan (List (String × Value))
  | 0, _, _, _ => failHere .eofObject
  | fuel + 1, depth, first, acc => do
    match ← nextKey first with
    | none => pure acc.reverse
    | some k =>
      colon
      let v ← value fuel depth
      members fuel depth false ((k, v) :: acc)
end

/-- Skips a value, checking its syntax only. Nesting is not limited, a comma before a closing
bracket is met as a missing value, and before a closing brace as a missing key. -/
def skipValue : Nat → Scan Unit
  | 0 => failHere .eofValue
  | fuel + 1 => do
    match ← blank with
    | none => failAhead .eofValue
    | some 'n' => bump; ident ['u', 'l', 'l']
    | some 't' => bump; ident ['r', 'u', 'e']
    | some 'f' => bump; ident ['a', 'l', 's', 'e']
    | some '-' => bump; lift skipNumberBody
    | some '"' => bump; lift skipStringBody
    | some '[' =>
      bump
      match ← blank with
      | some ']' => bump
      | some _ => skipItems fuel
      | none => failAhead .eofList
    | some '\x7b' =>
      bump
      match ← blank with
      | some '\x7d' => bump
      | some _ => skipMembers fuel
      | none => failAhead .eofObject
    | some c =>
      if isDigit c then lift skipNumberBody else failAhead .expectedValue
where
  /-- Items from the first one on, through the closing bracket. -/
  skipItems : Nat → Scan Unit
    | 0 => failHere .eofList
    | fuel + 1 => do
      skipValue fuel
      match ← blank with
      | some ',' => bump; skipItems fuel
      | some ']' => bump
      | some _ => failAhead .expectedListCommaOrEnd
      | none => failAhead .eofList
  /-- Members from the first key on, through the closing brace. -/
  skipMembers : Nat → Scan Unit
    | 0 => failHere .eofObject
    | fuel + 1 => do
      match ← blank with
      | some '"' => bump; lift skipStringBody
      | some _ => failAhead .keyMustBeString
      | none => failAhead .eofObject
      match ← blank with
      | some ':' => bump
      | some _ => failAhead .expectedColon
      | none => failAhead .eofObject
      skipValue fuel
      match ← blank with
      | some ',' => bump; skipMembers fuel
      | some '\x7d' => bump
      | some _ => failAhead .expectedObjectCommaOrEnd
      | none => failAhead .eofObject

/-! ## Whole texts -/

/-- Reads a whole text with a reader given enough fuel for it, more than two steps for each
character: after the value only blanks may follow. -/
def readAll (text : String) (reader : Nat → Scan α) : Except Error α :=
  let chars := text.toList
  let whole : Scan α := do
    let a ← reader (2 * chars.length + 2)
    match ← blank with
    | some _ => failAhead .trailingCharacters
    | none => pure a
  (whole.run.run ⟨chars, 0⟩).1

/-- Reads a whole text as one JSON value. -/
def parse (text : String) : Except Error Value :=
  readAll text (fun fuel => value fuel depthLimit)

end PageEditor.Json
