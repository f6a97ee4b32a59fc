/-!
# PageEditor.Save.Session

The editing session of one form: whether it holds unsaved edits, and how its next submit
travels.

1. A session is clean until the first edit and dirty from then on; only an acknowledged save
   makes it clean again.
2. A form for a new resource, or one whose reload-field changed, submits by navigating, because
   the page must be rebuilt by the server.
3. Otherwise a submit starts a background save, unless one is already outstanding, in which case
   it is suppressed.
4. A finished save, acknowledged or failed, is no longer outstanding.
-/

namespace PageEditor.Save

/-- How the next submit reaches the server. -/
inductive Transport where
  | navigational
  | background
  deriving Repr, DecidableEq

/-- What a submit does. -/
inductive Decision where
  | navigate
  | background
  | suppressed
  deriving Repr, DecidableEq

/-- The state of an editing session. -/
structure Session where
  dirty : Bool
  newResource : Bool
  reloadRequired : Bool
  inFlight : Bool
  deriving Repr, DecidableEq

/-- A clean session with nothing outstanding. -/
def Session.start (newResource : Bool) : Session :=
  ⟨false, newResource, false, false⟩

/-- How the next submit travels. -/
def Session.transport (s : Session) : Transport :=
  if s.newResource || s.reloadRequired then .navigational else .background

/-- Records an edit; answers whether this edit turned a clean session dirty. -/
def Session.recordEdit (s : Session) : Bool × Session :=
  if s.dirty then (false, s) else (true, { s with dirty := true })

/-- Records that a field needing a page rebuild has changed. -/
def Session.requireReload (s : Session) : Session :=
  { s with reloadRequired := true }

/-- Decides a submit, marking a background save outstanding when one starts. -/
def Session.beginSubmit (s : Session) : Decision × Session :=
  match s.transport with
  | .navigational => (.navigate, s)
  | .background => if s.inFlight then (.suppressed, s) else (.background, { s with inFlight := true })

/-- The server acknowledged the save: nothing is outstanding and the session is clean. -/
def Session.acknowledge (s : Session) : Session :=
  { s with inFlight := false, dirty := false }

/-- The save failed: nothing is outstanding, and the edits stay unsaved. -/
def Session.fail (s : Session) : Session :=
  { s with inFlight := false }

/-- One event of a session's life. -/
inductive SessionEvent where
  | edit
  | reload
  | submit
  | acknowledge
  | fail
  deriving Repr, DecidableEq

/-- What an event answers. -/
inductive SessionReply where
  | nothing
  | turnedDirty (b : Bool)
  | decided (d : Decision)
  deriving Repr, DecidableEq

/-- Applies one event to a session. -/
def Session.apply (s : Session) : SessionEvent → SessionReply × Session
  | .edit => let (b, s') := s.recordEdit; (.turnedDirty b, s')
  | .reload => (.nothing, s.requireReload)
  | .submit => let (d, s') := s.beginSubmit; (.decided d, s')
  | .acknowledge => (.nothing, s.acknowledge)
  | .fail => (.nothing, s.fail)

/-- Applies events in order, answering the reply and session after each. -/
def Session.trace (s : Session) : List SessionEvent → List (SessionReply × Session)
  | [] => []
  | e :: rest => let (r, s') := s.apply e; (r, s') :: s'.trace rest

end PageEditor.Save
