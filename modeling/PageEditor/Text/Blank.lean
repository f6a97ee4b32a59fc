/-!
# PageEditor.Text.Blank

Blank characters and the trimming and splitting built on them.

A blank is a character with the Unicode `White_Space` property: the ASCII controls from tab to
carriage return, the space, next line, no-break space, ogham space mark, the spaces from en quad
to hair space, the line and paragraph separators, the narrow no-break space, the medium
mathematical space and the ideographic space. Markup attributes, class lists, request methods
and configuration texts are all trimmed and split on this set.
-/

namespace PageEditor.Text

/-- Whether a character has the Unicode `White_Space` property. -/
def isBlank (c : Char) : Bool :=
  let n := c.toNat
  (0x09 ≤ n && n ≤ 0x0D) || n == 0x20 || n == 0x85 || n == 0xA0 || n == 0x1680 ||
  (0x2000 ≤ n && n ≤ 0x200A) || n == 0x2028 || n == 0x2029 || n == 0x202F || n == 0x205F ||
  n == 0x3000

/-- Drops the blanks at the front. -/
def dropBlank (cs : List Char) : List Char :=
  cs.dropWhile isBlank

/-- A text without its leading blanks. -/
def trimStart (s : String) : String :=
  String.ofList (dropBlank s.toList)

/-- A text without its trailing blanks. -/
def trimEnd (s : String) : String :=
  String.ofList (dropBlank s.toList.reverse).reverse

/-- A text without blanks at either end. -/
def trim (s : String) : String :=
  trimEnd (trimStart s)

/-- The maximal runs of non-blank characters, in order; no run is empty. -/
def words (cs : List Char) : List String :=
  let rec go (cur : List Char) : List Char → List String
    | [] => if cur.isEmpty then [] else [String.ofList cur.reverse]
    | c :: rest =>
      if isBlank c then
        (if cur.isEmpty then go [] rest else String.ofList cur.reverse :: go [] rest)
      else go (c :: cur) rest
  go [] cs

/-- The words of a text, split at runs of blanks. -/
def splitBlank (s : String) : List String :=
  words s.toList

end PageEditor.Text
