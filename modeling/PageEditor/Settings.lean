import PageEditor.Json.Typed
import PageEditor.Text.Blank
/-!
# PageEditor.Settings

The element ids, class names, delays and notices the editor components use, and how a page
overrides them.

1. A blank override keeps every default.
2. Otherwise the override is a JSON object naming any of the settings, or an array giving them
   in declaration order; a setting left out keeps its default, an unknown name is ignored, and a
   name given twice is refused.
3. Texts must be strings and delays naturals below `2^32`.

A board of messages removes its `i`-th message after `message_delay_ms` plus `i` times
`message_stagger_ms`, capped at the largest 32-bit word.
-/

namespace PageEditor

/-- The settings of the editor components. Delays are in milliseconds and below `2^32`. -/
structure Settings where
  formId : String := "edit_page"
  newResourceAttribute : String := "data-new"
  warningId : String := "warning_message"
  messageRegionId : String := "system-messages"
  messageClass : String := "system-message"
  reloadClass : String := "i-reload"
  copyClass : String := "clipboard"
  copiedClass : String := "copied"
  overlayTag : String := "to-close"
  backdropClass : String := "overlay"
  modalClass : String := "modal"
  loaderClass : String := "loader"
  closeTag : String := "close-modal-event"
  modalActiveClass : String := "modal-active"
  messageDelayMs : Nat := 3000
  messageStaggerMs : Nat := 3000
  savedMessageDelayMs : Nat := 3000
  copiedIndicatorMs : Nat := 1000
  modalActivationMs : Nat := 10
  modalMarginPx : Nat := 20
  unsavedNotice : String := "There are unsaved changes."
  copiedNotice : String := "Copied!"
  copyFailedNotice : String := "Copy failed!"
  saveFailedNotice : String := "The page could not be saved."
  deriving Repr, DecidableEq

namespace Settings

/-- Addition of 32-bit words that stops at the largest word. -/
def saturatingAdd32 (a b : Nat) : Nat := min (a + b) Json.word32Limit

/-- Multiplication of 32-bit words that stops at the largest word. -/
def saturatingMul32 (a b : Nat) : Nat := min (a * b) Json.word32Limit

/-- The delay before the `i`-th message of a batch leaves: the index as a 32-bit word (the
largest word when it does not fit) times the stagger, added to the delay, each operation
stopping at the largest word. -/
def removalDelay (s : Settings) (i : Nat) : Nat :=
  let index := if i ≤ Json.word32Limit then i else Json.word32Limit
  saturatingAdd32 s.messageDelayMs (saturatingMul32 index s.messageStaggerMs)

/-! ## One setting at a time -/

/-- A setting's value: a text or a delay. -/
inductive Entry where
  | text (s : String)
  | word (n : Nat)

/-- The names of the settings in declaration order, and whether each is a delay. -/
def fields : List (String × Bool) :=
  [("form_id", false), ("new_resource_attribute", false), ("warning_id", false),
   ("message_region_id", false), ("message_class", false), ("reload_class", false),
   ("copy_class", false), ("copied_class", false), ("overlay_tag", false),
   ("backdrop_class", false), ("modal_class", false), ("loader_class", false),
   ("close_tag", false), ("modal_active_class", false), ("message_delay_ms", true),
   ("message_stagger_ms", true), ("saved_message_delay_ms", true),
   ("copied_indicator_ms", true), ("modal_activation_ms", true), ("modal_margin_px", true),
   ("unsaved_notice", false), ("copied_notice", false), ("copy_failed_notice", false),
   ("save_failed_notice", false)]

/-- Sets one setting by its name; an entry of the wrong kind leaves the settings as they are. -/
def set (s : Settings) (name : String) (e : Entry) : Settings :=
  match name, e with
  | "form_id", .text v => { s with formId := v }
  | "new_resource_attribute", .text v => { s with newResourceAttribute := v }
  | "warning_id", .text v => { s with warningId := v }
  | "message_region_id", .text v => { s with messageRegionId := v }
  | "message_class", .text v => { s with messageClass := v }
  | "reload_class", .text v => { s with reloadClass := v }
  | "copy_class", .text v => { s with copyClass := v }
  | "copied_class", .text v => { s with copiedClass := v }
  | "overlay_tag", .text v => { s with overlayTag := v }
  | "backdrop_class", .text v => { s with backdropClass := v }
  | "modal_class", .text v => { s with modalClass := v }
  | "loader_class", .text v => { s with loaderClass := v }
  | "close_tag", .text v => { s with closeTag := v }
  | "modal_active_class", .text v => { s with modalActiveClass := v }
  | "message_delay_ms", .word v => { s with messageDelayMs := v }
  | "message_stagger_ms", .word v => { s with messageStaggerMs := v }
  | "saved_message_delay_ms", .word v => { s with savedMessageDelayMs := v }
  | "copied_indicator_ms", .word v => { s with copiedIndicatorMs := v }
  | "modal_activation_ms", .word v => { s with modalActivationMs := v }
  | "modal_margin_px", .word v => { s with modalMarginPx := v }
  | "unsaved_notice", .text v => { s with unsavedNotice := v }
  | "copied_notice", .text v => { s with copiedNotice := v }
  | "copy_failed_notice", .text v => { s with copyFailedNotice := v }
  | "save_failed_notice", .text v => { s with saveFailedNotice := v }
  | _, _ => s

/-! ## Reading an override -/

open Json in
/-- The value of one setting. -/
def entryValue (isWord : Bool) : Scan Entry :=
  if isWord then Entry.word <$> word32Value else Entry.text <$> stringValue

open Json in
/-- Settings given as an array, in declaration order; an early end keeps the defaults of the
rest. -/
def ofArray : Scan Settings :=
  let rec go (s : Settings) (first : Bool) : List (String × Bool) → Scan Settings
    | [] => pure s
    | (name, isWord) :: rest => do
      if ← nextItem first then
        let e ← entryValue isWord
        go (s.set name e) false rest
      else go s first rest
  go {} true fields

open Json in
/-- Settings given as an object. A name seen before is refused as soon as it is read, an
unknown name has its value skipped. -/
def ofObject : Nat → Scan Settings :=
  let rec go (s : Settings) (seen : List String) (first : Bool) : Nat → Scan Settings
    | 0 => failHere .eofObject
    | fuel + 1 => do
      match ← nextKey first with
      | none => pure s
      | some key =>
        match fields.find? (·.1 == key) with
        | some (name, isWord) =>
          if seen.contains name then failUnplaced (.duplicateField name)
          else
            colon
            let e ← entryValue isWord
            go (s.set name e) (name :: seen) false fuel
        | none =>
          colon
          skipValue fuel
          go s seen false fuel
  go {} [] true

/-- Why an override was refused: the reader's error, shown over the override's text. -/
structure Refusal where
  message : String
  deriving Repr, DecidableEq

/-- The settings a page's override gives. -/
def ofOverride (raw : String) : Except Refusal Settings :=
  if (Text.trim raw).isEmpty then .ok {}
  else
    match Json.readAll raw (fun fuel => Json.structValue "struct UiConfig" ofArray (ofObject fuel)) with
    | .ok s => .ok s
    | .error e => .error ⟨"Invalid configuration: " ++ e.render raw⟩

end Settings

end PageEditor
