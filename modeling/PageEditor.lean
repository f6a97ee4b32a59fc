import PageEditor.Decimal.Shortest
import PageEditor.Json.Value
import PageEditor.Json.Reader
import PageEditor.Json.Typed
import PageEditor.Text.Blank
import PageEditor.Text.Printable
import PageEditor.Form.Control
import PageEditor.Form.Snapshot
import PageEditor.Form.Snapshot.Reader
import PageEditor.Form.Body
import PageEditor.Save.Request
import PageEditor.Save.Session
import PageEditor.EditorMode
import PageEditor.Settings
import PageEditor.Timeline
import PageEditor.Timeline.Script
import PageEditor.Markup.Document
import PageEditor.Markup.Fragment
import PageEditor.Markup.Controls
import PageEditor.Page.Basic
import PageEditor.Page.Board
import PageEditor.Page.Coordinator
import PageEditor.Page.Overlay
import PageEditor.Page.Copy
import PageEditor.Page.Block
import PageEditor.Page.Events
import PageEditor.Page.Target
import PageEditor.Page.Step
import PageEditor.Proofs.Markup.Growth
import PageEditor.Proofs.Page.Actions
import PageEditor.Proofs.Page.Clock
import PageEditor.Proofs.Page.Messages
import PageEditor.Proofs.Page.Copying
import PageEditor.Proofs.Coordinator.Activity
import PageEditor.Proofs.Coordinator.Submits
import PageEditor.Proofs.Coordinator.Unsaved
import PageEditor.Proofs.Timeline.Firing
import PageEditor.Proofs.Timeline.History
import PageEditor.Proofs.Timeline.Scripts
import PageEditor.Proofs.Timeline.Overflow
import PageEditor.Proofs.Json.Written
import PageEditor.Proofs.Form.Fields
import PageEditor.Proofs.Form.SnapshotJson
import PageEditor.Proofs.Markup.Trees
import PageEditor.Proofs.Markup.Reread
import PageEditor.Proofs.Markup.Forest
import PageEditor.Proofs.Markup.Reachable
import PageEditor.Proofs.Markup.Attached
import PageEditor.Proofs.Markup.Siblings
import PageEditor.Proofs.Markup.Tokens
import PageEditor.Proofs.Markup.ControlValues
import PageEditor.Proofs.Markup.Fragments
import PageEditor.Proofs.Overlay.Layers
import PageEditor.Proofs.Overlay.Opening
import PageEditor.Proofs.Overlay.Stack
import PageEditor.Proofs.Save.Marker
import PageEditor.Proofs.Page.Bubbling
import PageEditor.Proofs.Markup.Order
import PageEditor.Proofs.Page.Retention
import PageEditor.Proofs.Page.Reaching
import PageEditor.Proofs.Page.Dropping
import PageEditor.Proofs.Page.Following
