import TermLink.Edge.Settings
import TermLink.Http.Upgrade
import TermLink.SessionInfo

/-!
# The entrance of an edge

Gates come in by one path. Where a secret is set, a gate that does not present it is turned away
before anything else is looked at.
-/

namespace TermLink.Edge

/-- Whether a request presents the secret, if one is set. -/
def admits (secret : Option String) (hs : Headers) : Bool :=
  match secret with
  | none => true
  | some s => hs.text? SessionInfo.secretField = some s

/-- The paths of an edge. -/
inductive Route where
  | health
  | session
  deriving DecidableEq, Repr

/-- The route at a path. -/
def Route.ofPath? (path : String) : Option Route :=
  if path = "/health" then some .health else if path = "/ws" then some .session else none

/-- The response to a gate that does not present the secret. -/
def unauthorized : Http.Response := { status := 401 }

/-- Answers a request on a connection that cannot carry a session. -/
def handle (secret : Option String) (r : Http.Request) : Http.Response :=
  match Route.ofPath? r.path with
  | none => Http.notFound
  | some route =>
    if !Http.Access.get.admits r.method then Http.notAllowed .get
    else
      let response : Http.Response :=
        match route with
        | .health => { status := 200, content := .text Http.plainText "OK" }
        | .session =>
          if admits secret r.headers then (Http.upgradeRefusal r).response else unauthorized
      if r.method = "HEAD" then response.bodiless else response

end TermLink.Edge
