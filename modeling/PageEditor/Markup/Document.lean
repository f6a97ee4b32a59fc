import PageEditor.Text.Blank
/-!
# PageEditor.Markup.Document

An element tree held in an arena: every node, attached or not, has an index, and a node records
its parent and its children both ways.

1. The root is the `html` element at index `0`; its one child `body` is at index `1`.
2. A node is an element with a lowercase tag, its attributes in the order they were first set,
   its inline style, and listeners by event kind; or a text node with tag `#text`.
3. Moving a node first takes it out of its old parent; a detached node keeps its subtree and can
   be attached again.
4. Document order is pre-order: a node, then each child's subtree in turn. `descendants` lists
   the elements below a node in that order, skipping text.
5. Elements are written as `<tag a="v">children</tag>` with attributes in stored order and
   nothing escaped; `br hr img input link meta` are void and get neither children nor a
   closing tag; text is written as it is.

Walks over the tree are bounded by the number of nodes, which no walk in a tree can exceed.
-/

namespace PageEditor.Markup

/-- The kinds of event a listener waits for. -/
inductive EventKind where
  | click
  | input
  | change
  | submit
  deriving Repr, DecidableEq

/-- The name of an event kind. -/
def EventKind.name : EventKind → String
  | .click => "click"
  | .input => "input"
  | .change => "change"
  | .submit => "submit"

/-- The tag of text nodes. -/
def textTag : String := "#text"

/-- Elements that never have children. -/
def voidTags : List String := ["br", "hr", "img", "input", "link", "meta"]

/-- Elements whose content is raw text up to their closing tag. -/
def rawTextTags : List String := ["script", "style", "textarea"]

/-- Replaces the value of the first pair with this key, or appends the pair when no pair has
the key. -/
def setEntry (kvs : List (String × String)) (key value : String) : List (String × String) :=
  match kvs with
  | [] => [(key, value)]
  | (k, v) :: rest => if k == key then (k, value) :: rest else (k, v) :: setEntry rest key value

/-- A node of the tree, with listeners of type `σ`. -/
structure Node (σ : Type) where
  tag : String
  attributes : List (String × String)
  text : String
  style : List (String × String)
  parent : Option Nat
  children : List Nat
  listeners : List (EventKind × σ)

namespace Node

variable {σ : Type}

/-- A detached node with this tag and nothing else. -/
def blank (tag : String) : Node σ := ⟨tag, [], "", [], none, [], []⟩

instance : Inhabited (Node σ) := ⟨blank textTag⟩

/-- Whether this is a text node. -/
def isText (n : Node σ) : Bool := n.tag == textTag

/-- The first attribute with this name. -/
def attribute? (n : Node σ) (name : String) : Option String :=
  (n.attributes.find? (·.1 == name)).map (·.2)

/-- Sets an attribute: the first one with this name changes its value, and when there is none
the attribute goes at the end. Later attributes with the same name stay as they are. -/
def setAttribute (n : Node σ) (name value : String) : Node σ :=
  { n with attributes := setEntry n.attributes name value }

/-- Removes every attribute with this name. -/
def removeAttribute (n : Node σ) (name : String) : Node σ :=
  { n with attributes := n.attributes.filter (·.1 != name) }

/-- Whether the class attribute lists this class among its blank-separated words. -/
def hasClass (n : Node σ) (cls : String) : Bool :=
  match n.attribute? "class" with
  | some classes => (Text.splitBlank classes).contains cls
  | none => false

end Node

/-- An arena of nodes, the class heights layout reports, the viewport height, and the node
whose text was last selected. -/
structure Document (σ : Type) where
  nodes : Array (Node σ)
  classHeights : List (String × Float)
  viewport : Float
  selection : Option Nat

namespace Document

variable {σ : Type}

/-- The index of the root `html` element. -/
def root : Nat := 0

/-- The index of `body`. -/
def body : Nat := 1

/-- A document with an empty body and a viewport 768 pixels high. -/
def empty : Document σ :=
  ⟨#[{ Node.blank "html" with children := [1] }, { Node.blank "body" with parent := some 0 }],
    [], 768.0, none⟩

/-- The node at an index. -/
def node (d : Document σ) (i : Nat) : Node σ := d.nodes.getD i default

/-- Changes the node at an index. -/
def modify (d : Document σ) (i : Nat) (f : Node σ → Node σ) : Document σ :=
  { d with nodes := d.nodes.modify i f }

/-- Adds a node; answers its index. -/
def alloc (d : Document σ) (n : Node σ) : Nat × Document σ :=
  (d.nodes.size, { d with nodes := d.nodes.push n })

/-- Adds a detached element; the tag is lowercased. -/
def createElement (d : Document σ) (tag : String) : Nat × Document σ :=
  d.alloc (Node.blank tag.toLower)

/-- Adds a detached text node. -/
def createText (d : Document σ) (text : String) : Nat × Document σ :=
  d.alloc { Node.blank textTag with text := text }

/-! ## Moving nodes -/

/-- Takes a node out of its parent; answers whether it had one. -/
def detach (d : Document σ) (i : Nat) : Bool × Document σ :=
  match (d.node i).parent with
  | none => (false, d)
  | some p =>
    let d := d.modify p fun n => { n with children := n.children.filter (· != i) }
    (true, d.modify i fun n => { n with parent := none })

/-- Makes a node the last child of a parent. -/
def append (d : Document σ) (parent child : Nat) : Document σ :=
  let d := (d.detach child).2
  let d := d.modify parent fun n => { n with children := n.children ++ [child] }
  d.modify child fun n => { n with parent := some parent }

/-- Puts a node among a parent's children just before a reference child, or last when the
reference is not a child. -/
def insertBefore (d : Document σ) (parent child reference : Nat) : Document σ :=
  let d := (d.detach child).2
  let siblings := (d.node parent).children
  let pos := (siblings.findIdx? (· == reference)).getD siblings.length
  let d := d.modify parent fun n => { n with children := n.children.insertIdx pos child }
  d.modify child fun n => { n with parent := some parent }

/-- Detaches every child of a node. -/
def clearChildren (d : Document σ) (i : Nat) : Document σ :=
  let kids := (d.node i).children
  let d := d.modify i fun n => { n with children := [] }
  kids.foldl (fun d k => d.modify k fun n => { n with parent := none }) d

/-- Detaches a node from its parent; answers whether it had one. -/
def remove (d : Document σ) (i : Nat) : Bool × Document σ := d.detach i

/-! ## Walking the tree -/

/-- A node and its ancestors, nearest first. -/
def path (d : Document σ) (i : Nat) : List Nat :=
  let rec up : Nat → Nat → List Nat
    | 0, _ => []
    | fuel + 1, j =>
      match (d.node j).parent with
      | some p => j :: up fuel p
      | none => [j]
  up (d.nodes.size + 1) i

/-- Whether a node hangs below the root, or is it. -/
def isConnected (d : Document σ) (i : Nat) : Bool :=
  (d.path i).contains root

/-- The elements below a node in document order, text skipped: a worklist that takes the
first node, keeps it unless it is text, and puts its children in front of the rest. -/
def descendants (d : Document σ) (r : Nat) : List Nat :=
  let rec go : Nat → List Nat → List Nat
    | 0, _ => []
    | _, [] => []
    | fuel + 1, i :: rest =>
      let n := d.node i
      if n.isText then go fuel rest else i :: go fuel (n.children ++ rest)
  go (d.nodes.size + 1) (d.node r).children

/-- The concatenated text of a node's text nodes in document order. -/
def textContent (d : Document σ) (i : Nat) : String :=
  let rec walk : Nat → Nat → String
    | 0, _ => ""
    | fuel + 1, j =>
      let n := d.node j
      if n.isText then n.text else String.join (n.children.map (walk fuel))
  walk (d.nodes.size + 1) i

/-- The markup of a node and its subtree. -/
def outerHtml (d : Document σ) (i : Nat) : String :=
  let rec write : Nat → Nat → String
    | 0, _ => ""
    | fuel + 1, j =>
      let n := d.node j
      if n.isText then n.text
      else
        let attrs := String.join (n.attributes.map fun (k, v) => " " ++ k ++ "=\"" ++ v ++ "\"")
        let opening := "<" ++ n.tag ++ attrs ++ ">"
        if voidTags.contains n.tag then opening
        else opening ++ String.join (n.children.map (write fuel)) ++ "</" ++ n.tag ++ ">"
  write (d.nodes.size + 1) i

/-- The element children of a node, text skipped. -/
def elementChildren (d : Document σ) (i : Nat) : List Nat :=
  (d.node i).children.filter fun k => !(d.node k).isText

/-! ## Finding elements -/

/-- The first attached element with this id, in document order. -/
def elementById (d : Document σ) (id : String) : Option Nat :=
  (d.descendants root).find? fun i => (d.node i).attribute? "id" == some id

/-- The elements below a node carrying a class, in document order. -/
def elementsByClassWithin (d : Document σ) (r : Nat) (cls : String) : List Nat :=
  (d.descendants r).filter fun i => (d.node i).hasClass cls

/-- The attached elements carrying a class, in document order. -/
def elementsByClass (d : Document σ) (cls : String) : List Nat :=
  d.elementsByClassWithin root cls

/-! ## Attributes, classes, text and style -/

/-- An attribute of a node. -/
def attribute? (d : Document σ) (i : Nat) (name : String) : Option String :=
  (d.node i).attribute? name

/-- Sets an attribute of a node. -/
def setAttribute (d : Document σ) (i : Nat) (name value : String) : Document σ :=
  d.modify i (·.setAttribute name value)

/-- Removes an attribute of a node. -/
def removeAttribute (d : Document σ) (i : Nat) (name : String) : Document σ :=
  d.modify i (·.removeAttribute name)

/-- The class attribute of a node, empty when absent. -/
def className (d : Document σ) (i : Nat) : String :=
  (d.attribute? i "class").getD ""

/-- Sets the class attribute. -/
def setClassName (d : Document σ) (i : Nat) (cls : String) : Document σ :=
  d.setAttribute i "class" cls

/-- Whether a node carries a class. -/
def hasClass (d : Document σ) (i : Nat) (cls : String) : Bool :=
  (d.node i).hasClass cls

/-- Adds a class unless the node carries it already; the class attribute is the old one and the
new class, separated by a space and trimmed. -/
def addClass (d : Document σ) (i : Nat) (cls : String) : Document σ :=
  if d.hasClass i cls then d
  else d.setClassName i (Text.trim (d.className i ++ " " ++ cls))

/-- Replaces a node's children by one text node, or by none for the empty text. -/
def setText (d : Document σ) (i : Nat) (text : String) : Document σ :=
  let d := d.clearChildren i
  if text.isEmpty then d
  else
    let (t, d) := d.createText text
    d.append i t

/-- Sets a style property. -/
def setStyle (d : Document σ) (i : Nat) (property value : String) : Document σ :=
  d.modify i fun n => { n with style := setEntry n.style property value }

/-- A style property of a node. -/
def style? (d : Document σ) (i : Nat) (property : String) : Option String :=
  ((d.node i).style.find? (·.1 == property)).map (·.2)

/-- The height layout gives a node: that of the first listed class it carries, and zero when
it carries none or is not attached. -/
def offsetHeight (d : Document σ) (i : Nat) : Float :=
  if !d.isConnected i then 0.0
  else ((d.classHeights.find? fun (c, _) => d.hasClass i c).map (·.2)).getD 0.0

/-- Remembers the node whose text was selected. -/
def selectText (d : Document σ) (i : Nat) : Document σ :=
  { d with selection := some i }

/-! ## Listeners -/

/-- Adds a listener to a node, after those it has. -/
def listen (d : Document σ) (i : Nat) (kind : EventKind) (l : σ) : Document σ :=
  d.modify i fun n => { n with listeners := n.listeners ++ [(kind, l)] }

/-- A node's listeners for an event kind, in the order they were added. -/
def listenersOf (d : Document σ) (i : Nat) (kind : EventKind) : List σ :=
  ((d.node i).listeners.filter (·.1 == kind)).map (·.2)

end Document

end PageEditor.Markup
