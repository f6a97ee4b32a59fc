import PageEditor.Form.Body
import PageEditor.Text.Blank
/-!
# PageEditor.Save.Request

The request a background save sends.

The server tells a background save from a navigational one by the query parameter `ajax=1`.
It is added to the form's action as one more query parameter: after `?` when the action has no
query yet, directly when the query is empty or already ends with `&`, and after `&` otherwise.
The method is the form's method without surrounding blanks and in ASCII lowercase, `post` when
it is missing or blank.
-/

namespace PageEditor.Save

/-- The action with the background marker added as a query parameter. -/
def backgroundMarker (action : String) : String :=
  let separator :=
    if action.contains '?' then
      if action.endsWith "?" || action.endsWith "&" then "" else "&"
    else "?"
  action ++ separator ++ "ajax=1"

/-- A background save: where it goes, by which method, and the body it carries. -/
structure Request where
  url : String
  method : String
  body : Form.Body
  deriving Repr, DecidableEq

/-- The method a save uses: trimmed, `post` when missing or blank, ASCII lowercase. -/
def saveMethod (method : Option String) : String :=
  let m := (method.map Text.trim).getD ""
  (if m.isEmpty then "post" else m).toLower

/-- The request for a form with this action, method and body. -/
def Request.make (action : String) (method : Option String) (body : Form.Body) : Request :=
  ⟨backgroundMarker action, saveMethod method, body⟩

end PageEditor.Save
