import PageEditor.Page.Basic
/-!
# PageEditor.Page.Target

How a step names what it acts on, and why it may be refused.

A step names a node by a target (the body, the first element with an id, the `i`-th attached
element with a class, or a node held earlier) and a component by its position among the live
components of its kind, the last one by default. A target that names no node, or a component
that is not there, refuses the step and leaves the page as it was. A step that could not be read
is refused as well, with the reason.
-/

namespace PageEditor.Ui

/-- A node a step acts on. -/
inductive Target where
  | body
  | id (id : String)
  | cls (cls : String) (index : Nat)
  | handle (index : Nat)
  deriving Repr, DecidableEq

/-- How a refused step names its target. -/
def Target.describe : Target → String
  | .body => "body"
  | .id s => "#" ++ s
  | .cls c i => "." ++ c ++ "[" ++ toString i ++ "]"
  | .handle k => "handle " ++ toString k

/-- The node a target names on a page, if any. -/
def Target.resolve (p : Page) : Target → Option Nat
  | .body => some Markup.Document.body
  | .id s => p.doc.elementById s
  | .cls c i => (p.doc.elementsByClass c)[i]?
  | .handle k => p.handles[k]?

/-- Why a step is refused. -/
inductive Refusal where
  /-- The step could not be read. -/
  | badInput (reason : String)
  /-- A target names no node. -/
  | noTarget (what : String)
  /-- A component the step needs is not there. -/
  | noComponent (what : String)
  deriving Repr, DecidableEq

/-- The kind of a refusal, as answers name it. -/
def Refusal.kind : Refusal → String
  | .badInput _ => "BadInput"
  | .noTarget _ => "NoTarget"
  | .noComponent _ => "NoComponent"

/-- The text of a refusal. -/
def Refusal.message : Refusal → String
  | .badInput r => r
  | .noTarget w => w
  | .noComponent w => w

/-- Steps: page actions that may be refused. -/
abbrev StepAct (α : Type) := ExceptT Refusal Act α

/-- Answers a value, or refuses when there is none. -/
def required {α : Type} (o : Option α) (r : Refusal) : StepAct α :=
  match o with
  | some a => pure a
  | none => throw r

/-- The node a target names, or a refusal. -/
def node (t : Target) : StepAct Nat := do
  required (t.resolve (← get)) (.noTarget t.describe)

/-- Which instance of a kind of component a step uses. -/
inductive Pick where
  /-- The last live one, which is the default. -/
  | last
  /-- The live one at a position. -/
  | nth (i : Nat)
  /-- A position that could not be read, which names none. -/
  | nowhere
  deriving Repr, DecidableEq

/-- The instance a pick names among the live ones. -/
def Pick.get? {α : Type} (xs : List α) : Pick → Option α
  | .last => xs.getLast?
  | .nth i => xs[i]?
  | .nowhere => none

/-- The position a pick names among `n` live instances. -/
def Pick.index? (n : Nat) : Pick → Option Nat
  | .last => if n = 0 then none else some (n - 1)
  | .nth i => if i < n then some i else none
  | .nowhere => none

/-- Picks a component of a kind, or refuses. -/
def pick {α : Type} (xs : List α) (p : Pick) (what : String) : StepAct α :=
  required (p.get? xs) (.noComponent what)

/-- Holds a node for later steps; answers its handle. -/
def keepHandle (n : Nat) : Act Nat := do
  let p ← get
  set { p with handles := p.handles ++ [n] }
  pure p.handles.length

end PageEditor.Ui
