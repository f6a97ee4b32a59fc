/-!
# PageEditor.EditorMode

The mode of the code editor for a file extension or block mode key: HTML is edited as mixed
HTML, Markdown, XML and CSS as themselves, JavaScript and JSON as JavaScript, and anything else
as plain text, which is no mode at all.
-/

namespace PageEditor

/-- The code editor mode for a key, `none` for plain text. -/
def editorMode (key : String) : Option String :=
  match key with
  | "html" => some "htmlmixed"
  | "md" => some "markdown"
  | "xml" => some "xml"
  | "css" => some "css"
  | "js" | "json" => some "javascript"
  | _ => none

end PageEditor
