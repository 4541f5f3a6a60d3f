import TermLink.Host.Api
import TermLink.Host.Stream

/-!
# Stations

A station is a host together with the streams that were ever opened to it. Its events are all that
can happen to a host: requests, frames, what the process and its pseudo-terminal do, and single
steps of the streams.
-/

namespace TermLink.Host

/-- A host and its streams, by the order in which they were opened. -/
structure Station where
  host : Host
  streams : List Stream := []
  deriving Repr

/-- What can happen at a station. Streams are named by their place. -/
inductive Station.Event where
  | request (r : Http.Request)
  | openStream
  | frame (stream : Nat) (bytes : Bytes)
  | hangUp (stream : Nat)
  /-- The writer of a stream sends one message. -/
  | send (stream : Nat)
  /-- The reader of a stream ends if it must. -/
  | notice (stream : Nat)
  /-- The writer of a stream ends if it must. -/
  | stop (stream : Nat)
  | print (chunk : Bytes)
  | exit (code : Int32)
  /-- The operations on the pseudo-terminal fail from now on, or no longer. -/
  | fault (fault : Option Pty.Fault)
  deriving DecidableEq, Repr

namespace Station

/-- Lets one stream do something. -/
def onStream (st : Station) (k : Nat) (f : Stream → Host → Host × Stream) : Station :=
  match st.streams[k]? with
  | some s =>
    let (host, s) := f s st.host
    ⟨host, st.streams.set k s⟩
  | none => st

/-- The station after a request, and the response. -/
def request (st : Station) (env : Environment) (metrics : Bool) (r : Http.Request) :
    Station × Http.Response :=
  let (host, response) := st.host.handle env metrics r
  ({ st with host }, response)

/-- The station after an event. -/
def step (st : Station) (env : Environment) : Event → Station
  | .request r => (st.request env true r).1
  | .openStream =>
    let (host, s) := Stream.opened st.host
    ⟨host, st.streams ++ [s]⟩
  | .frame k bytes => st.onStream k fun s h => s.receive h env bytes
  | .hangUp k => st.onStream k Stream.hangUp
  | .send k => st.onStream k Stream.sendNext
  | .notice k => st.onStream k Stream.notice
  | .stop k => st.onStream k Stream.stopWriting
  | .print chunk => { st with host := st.host.publish chunk }
  | .exit code => { st with host := st.host.recordExit code }
  | .fault fault => { st with host := st.host.setFault fault }

/-- The station after events in order. -/
def run (env : Environment) (st : Station) (events : List Event) : Station :=
  events.foldl (fun st e => st.step env e) st

/-- Lets every stream do all it can, in order. -/
def settle (st : Station) : Station :=
  (List.range st.streams.length).foldl (fun st k => st.onStream k Stream.settle) st

end Station
end TermLink.Host
