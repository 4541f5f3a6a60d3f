import TermLink.Proofs.Gate.Streaming
import TermLink.Proofs.Session.Leg

/-!
# A session from the client to the terminal and back

A gate, an edge in stream mode and a host with the frames that are on their way between them, under
any order of single steps. Every hop keeps the order of what it carries, and the stream of the
session subscribes to the terminal at most once.
-/

namespace TermLink

/-- A session that streams, with all that carries it. -/
structure Link where
  gate : Gate.Streaming
  leg : Leg
  /-- The number of the gate's frames that have arrived at the edge. -/
  risen : Nat := 0
  /-- The number of the edge's frames that have arrived at the gate. -/
  fallen : Nat := 0
  /-- The messages that the gate has put on the screen, oldest first. -/
  shown : List Message := []

namespace Link

/-- What can happen to a session. -/
inductive Event where
  /-- The client or a duty of the gate acts. -/
  | gate (e : Gate.Streaming.Event)
  /-- The oldest frame on its way from the gate to the edge arrives. -/
  | rise
  /-- The oldest frame on its way from the edge to the gate arrives. -/
  | fall
  /-- Something happens between the edge and the terminal. -/
  | leg (e : Leg.Event)

/-- What the client types in an event. -/
def Event.typed : Event → Bytes
  | .gate (.input chunk) => chunk
  | _ => []

/-- What the terminal prints in an event. -/
def Event.printed : Event → Bytes
  | .leg e => e.printed
  | _ => []

/-- The code that an event reports. -/
def Event.code? : Event → Option Int32
  | .leg e => e.code?
  | _ => none

/-- The frames that a gate has sent. -/
def framesOf (g : Gate.Streaming) : List Frame := Frame.ofSender g.sent (!g.runs .writer)

/-- The session after an event. Frames reach the gate and the edge only in order. -/
def step (l : Link) : Event → Link
  | .gate (.receive _) => l
  | .gate e => { l with gate := l.gate.step e }
  | .rise =>
    match (framesOf l.gate)[l.risen]? with
    | some f => { l with leg := l.leg.step (.fromGate f), risen := l.risen + 1 }
    | none => l
  | .fall =>
    match l.leg.pipe.toGate[l.fallen]? with
    | some f =>
      { l with
        gate := l.gate.step (.receive f)
        fallen := l.fallen + 1
        shown := l.shown ++ (l.gate.shows? f).toList }
    | none => l
  | .leg (.fromGate _) => l
  | .leg e => { l with leg := l.leg.step e }

/-- The session after events in order. -/
def run (l : Link) (events : List Event) : Link := events.foldl step l

/-- A session whose dial was opened, and whose edge has opened a stream of a host. -/
def start (backend : Gate.Backend) (dial : Gate.Dial) (info : SessionInfo) (h : Host)
    (screen : Gate.Screen) : Link where
  gate := .ofDial backend dial {} screen
  leg := .opened info h

/-- Whether the stream of the session is subscribed to a terminal. -/
def isAttached (l : Link) : Bool := l.leg.stream.attachment.isSome

/-- How far the leg of a session has come: what its terminal has printed, if it has one, and what
it had printed when an exit was recorded. -/
abbrev Progress := Option (Bytes × Option (Bytes × Int32))

/-- The leg of a session has come so far. -/
def Reaches (l : Leg) : Progress → Prop
  | none => l.stream.Idle l.host
  | some (since, closing) => l.Told since closing

/-- What holds of a session that was begun by the messages `asked` and `first`, on a screen on
which `before` was written, whose client has typed `typed`. -/
structure Inv (l : Link) (asked first : Message) (before typed : Bytes) (p : Progress) : Prop where
  feeds : l.gate.Feeds first typed
  risen_le : l.risen ≤ (framesOf l.gate).length
  up : ∃ rest, asked :: Frame.messages ((framesOf l.gate).take l.risen) =
    Frame.messages l.leg.pipe.toHost ++ rest ∧ (l.leg.pipe.isOpen → rest = [])
  inOrder : l.leg.InOrder
  down : l.leg.PassedDown
  fallen_le : l.fallen ≤ l.leg.pipe.toGate.length
  reads : l.gate.Reads (Frame.messages (l.leg.pipe.toGate.take l.fallen)) l.shown
  written : l.gate.screen.written =
    before ++ l.shown.flatMap fun m => (Gate.shown? m).getD []
  leg : Reaches l.leg p

variable {l : Link} {asked first : Message} {before typed : Bytes} {p : Progress}

/-- What was sent to the host is a beginning of what was sent to the edge. -/
theorem Inv.toHost_prefix (H : l.Inv asked first before typed p) :
    Frame.messages l.leg.pipe.toHost <+: asked :: l.gate.sent := by
  obtain ⟨rest, hrest, -⟩ := H.up
  have risen : Frame.messages ((framesOf l.gate).take l.risen) <+: l.gate.sent := by
    have taken := Frame.messages_prefix (List.take_prefix l.risen (framesOf l.gate))
    rw [framesOf, Frame.messages_ofSender] at taken
    exact taken
  obtain ⟨more, hmore⟩ := risen
  refine ⟨rest ++ more, ?_⟩
  rw [← List.append_assoc, ← hrest, List.cons_append, hmore]

/-- Only the first two messages to the host ask for a terminal. -/
theorem Inv.asksFirst (H : l.Inv asked first before typed p) (hasked : asked.payload = []) :
    Leg.AsksFirst l.leg.pipe.toHost := by
  intro n f size repo hf hm
  obtain ⟨rest, hsent⟩ := H.feeds.begun
  have taken : Frame.messages (l.leg.pipe.toHost.take n) ++ [.init size repo] <+:
      asked :: first :: rest := by
    have arrived := Frame.messages_prefix (List.take_prefix (n + 1) l.leg.pipe.toHost)
    rw [Frame.messages_take_succ hf, hm] at arrived
    rw [← hsent]
    exact arrived.trans H.toHost_prefix
  have later : .init size repo ∉ rest := by
    intro hmem
    have handed : .init size repo ∈ l.gate.handed.tail := by
      simp [Gate.Streaming.handed, hsent, hmem]
    exact H.feeds.kinds _ handed rfl
  cases hx : Frame.messages (l.leg.pipe.toHost.take n) with
  | nil => rfl
  | cons a as =>
    rw [hx] at taken
    obtain ⟨rfl, more⟩ := List.cons_prefix_cons.mp taken
    cases as with
    | nil => simp [hasked]
    | cons b bs =>
      have taken : bs ++ [.init size repo] <+: rest := (List.cons_prefix_cons.mp more).2
      exact absurd (taken.subset (by simp)) later

/-- What the host was typed is a beginning of what the client typed. -/
theorem Inv.payloads_arrivals (H : l.Inv asked first before typed p) (hasked : asked.payload = []) :
    Message.payloads l.leg.arrivals <+: typed := by
  have taken := Frame.messages_prefix (List.take_prefix l.leg.arrived l.leg.pipe.toHost)
  have up := Message.payloads_prefix (taken.trans H.toHost_prefix)
  rw [Message.payloads_cons, hasked, List.nil_append] at up
  have handed : Message.payloads l.gate.sent <+: Message.payloads l.gate.handed :=
    Message.payloads_prefix (List.prefix_append _ _)
  exact (up.trans handed).trans H.feeds.passed

theorem framesOf_step {g next : Gate.Streaming} (h : g.Sends next) :
    framesOf g <+: framesOf next := by
  obtain ⟨more, hsent, hended⟩ := h
  rw [framesOf, framesOf, hsent]
  exact Frame.ofSender_prefix hended

/-- A step of the gate leaves the frames that have risen as they are. -/
theorem Inv.risen_step (H : l.Inv asked first before typed p) {next : Gate.Streaming}
    (hsends : l.gate.Sends next) :
    l.risen ≤ (framesOf next).length
      ∧ (framesOf next).take l.risen = (framesOf l.gate).take l.risen := by
  obtain ⟨more, hmore⟩ := framesOf_step hsends
  rw [← hmore]
  constructor
  · rw [List.length_append]
    exact Nat.le_add_right_of_le H.risen_le
  · exact Leg.take_append H.risen_le more

/-- A step of the leg leaves the frames that have fallen as they are. -/
theorem Inv.fallen_step (H : l.Inv asked first before typed p) (e : Leg.Event) :
    l.fallen ≤ (l.leg.step e).pipe.toGate.length
      ∧ (l.leg.step e).pipe.toGate.take l.fallen = l.leg.pipe.toGate.take l.fallen := by
  obtain ⟨more, hmore⟩ := l.leg.toGate_step e
  rw [hmore]
  constructor
  · rw [List.length_append]
    exact Nat.le_add_right_of_le H.fallen_le
  · exact Leg.take_append H.fallen_le more

theorem Inv.gate (H : l.Inv asked first before typed p) {e : Gate.Streaming.Event}
    (he : ∀ f, e ≠ .receive f) :
    { l with gate := l.gate.step e }.Inv asked first before (typed ++ Event.typed (.gate e)) p := by
  obtain ⟨rest, hrest, hopen⟩ := H.up
  obtain ⟨hle, htake⟩ := H.risen_step (l.gate.sends_step e)
  have beside := l.gate.beside_step he
  constructor
  case feeds =>
    cases e with
    | input chunk => exact H.feeds.input chunk
    | _ => simpa [Event.typed] using H.feeds.step (by simp)
  case risen_le => exact hle
  case up => exact ⟨rest, by rw [htake, hrest], hopen⟩
  case inOrder => exact H.inOrder
  case down => exact H.down
  case fallen_le => exact H.fallen_le
  case reads => exact H.reads.calm beside.exitCode (beside.runs .reader)
  case written => rw [beside.screen, H.written]
  case leg => exact H.leg

theorem Inv.rise (H : l.Inv asked first before typed p) {f : Frame}
    (hf : (framesOf l.gate)[l.risen]? = some f) {q : Progress}
    (hleg : Reaches (l.leg.step (.fromGate f)) q) :
    { l with leg := l.leg.step (.fromGate f), risen := l.risen + 1 }.Inv
      asked first before typed q := by
  obtain ⟨hle, htake⟩ := H.fallen_step (.fromGate f)
  obtain ⟨new, hnew, hmessages⟩ := l.leg.pipe.toHost_fromGate f
  constructor
  case feeds => exact H.feeds
  case risen_le => exact (List.getElem?_eq_some_iff.mp hf).1
  case up =>
    show ∃ rest, asked :: Frame.messages ((framesOf l.gate).take (l.risen + 1)) =
      Frame.messages (l.leg.pipe.fromGate f).toHost ++ rest
        ∧ ((l.leg.pipe.fromGate f).isOpen → rest = [])
    rw [Frame.messages_take_succ hf, hnew, Frame.messages_append]
    exact Edge.Pipe.passed_append H.up hmessages (Edge.Pipe.isOpen_of_fromGate _ _)
  case inOrder => exact H.inOrder.step _
  case down => exact H.down.step (.fromGate f)
  case fallen_le => exact hle
  case reads =>
    rw [htake]
    exact H.reads
  case written => exact H.written
  case leg => exact hleg

theorem Inv.fall (H : l.Inv asked first before typed p) {f : Frame}
    (hf : l.leg.pipe.toGate[l.fallen]? = some f) :
    { l with
      gate := l.gate.step (.receive f)
      fallen := l.fallen + 1
      shown := l.shown ++ (l.gate.shows? f).toList }.Inv asked first before typed p := by
  obtain ⟨rest, hrest, hopen⟩ := H.up
  obtain ⟨hle, htake⟩ := H.risen_step (l.gate.sends_step (.receive f))
  obtain ⟨hreads, hwritten⟩ := H.reads.receive f
  constructor
  case feeds => exact H.feeds.step (e := .receive f) (by simp)
  case risen_le => exact hle
  case up => exact ⟨rest, by rw [htake, hrest], hopen⟩
  case inOrder => exact H.inOrder
  case down => exact H.down
  case fallen_le => exact (List.getElem?_eq_some_iff.mp hf).1
  case reads =>
    rw [Frame.messages_take_succ hf]
    exact hreads
  case written =>
    show (l.gate.receive f).screen.written = _
    rw [hwritten, H.written]
    simp
  case leg => exact H.leg

theorem Inv.legStep (H : l.Inv asked first before typed p) {e : Leg.Event}
    (he : ∀ f, e ≠ .fromGate f) {q : Progress} (hleg : Reaches (l.leg.step e) q) :
    { l with leg := l.leg.step e }.Inv asked first before typed q := by
  obtain ⟨rest, hrest, hopen⟩ := H.up
  obtain ⟨hle, htake⟩ := H.fallen_step e
  obtain ⟨hmessages, hstill⟩ := l.leg.messages_toHost_step he
  constructor
  case feeds => exact H.feeds
  case risen_le => exact H.risen_le
  case up => exact ⟨rest, by rw [hrest, hmessages], fun ho => hopen (hstill ho)⟩
  case inOrder => exact H.inOrder.step e
  case down => exact H.down.step e
  case fallen_le => exact hle
  case reads =>
    rw [htake]
    exact H.reads
  case written => exact H.written
  case leg => exact hleg

/-- A session goes on as it was, as far as its leg has come. -/
theorem Inv.withLeg (H : l.Inv asked first before typed p) {q : Progress}
    (hleg : Reaches l.leg q) : l.Inv asked first before typed q := { H with leg := hleg }

/-- What the leg of a session passes on keeps the order of the whole. -/
theorem Inv.step (H : l.Inv asked first before typed p) (e : Event) {q : Progress}
    (hleg : Reaches (l.step e).leg q) :
    (l.step e).Inv asked first before (typed ++ e.typed) q := by
  cases e with
  | gate e =>
    cases e with
    | receive f =>
      simp only [Event.typed, List.append_nil]
      exact H.withLeg hleg
    | _ => exact (H.gate (by simp)).withLeg hleg
  | rise =>
    simp only [Link.step, Event.typed, List.append_nil] at hleg ⊢
    cases hf : (framesOf l.gate)[l.risen]? with
    | none =>
      rw [hf] at hleg
      exact H.withLeg hleg
    | some f =>
      rw [hf] at hleg
      exact H.rise hf hleg
  | fall =>
    simp only [Link.step, Event.typed, List.append_nil] at hleg ⊢
    cases hf : l.leg.pipe.toGate[l.fallen]? with
    | none =>
      rw [hf] at hleg
      exact H.withLeg hleg
    | some f =>
      rw [hf] at hleg
      exact (H.fall hf).withLeg hleg
  | leg e =>
    simp only [Event.typed, List.append_nil]
    cases e with
    | fromGate f => exact H.withLeg hleg
    | _ => exact H.legStep (by simp) hleg

/-- Where the leg of a session with a terminal has come to after an event. -/
theorem reaches_of_told {since : Bytes} {closing : Option (Bytes × Int32)}
    (H : l.Inv asked first before typed (some (since, closing))) (e : Event) :
    Reaches (l.step e).leg
      (some (since ++ e.printed, closing.or (e.code?.map fun code => (since, code)))) := by
  have told : l.leg.Told since closing := H.leg
  have still : l.leg.Told (since ++ []) (closing.or none) := by simpa using told
  have stepped (e : Leg.Event) := told.step H.inOrder e
  cases e with
  | gate e => cases e <;> exact still
  | rise =>
    simp only [Link.step]
    split
    · exact stepped (.fromGate _)
    · exact still
  | fall =>
    simp only [Link.step]
    split <;> exact still
  | leg e =>
    cases e with
    | fromGate f => exact still
    | _ => exact stepped _

/-- A session without a terminal gets one at the moment when its stream subscribes. -/
theorem reaches_of_idle (H : l.Inv asked first before typed none) (hasked : asked.payload = [])
    (e : Event) :
    Reaches (l.step e).leg none
      ∨ Reaches (l.step e).leg (some ([], none)) ∧ (l.step e).isAttached := by
  have idle : l.leg.stream.Idle l.leg.host := H.leg
  have stepped (e : Leg.Event) := l.leg.step_of_idle idle (H.asksFirst hasked) e
  cases e with
  | gate e => cases e <;> exact .inl idle
  | rise =>
    simp only [Link.step]
    split
    · exact stepped (.fromGate _)
    · exact .inl idle
  | fall =>
    simp only [Link.step]
    split <;> exact .inl idle
  | leg e =>
    cases e with
    | fromGate f => exact .inl idle
    | _ => exact stepped _

/-- What a client types in events. -/
def typedIn (events : List Event) : Bytes := events.flatMap Event.typed

/-- What a terminal prints in events. -/
def printedIn (events : List Event) : Bytes := events.flatMap Event.printed

/-- What a terminal that has printed `since` has printed when an exit is reported, with its code. -/
def closingIn (since : Bytes) : List Event → Option (Bytes × Int32)
  | [] => none
  | e :: rest => (e.code?.map fun code => (since, code)).or (closingIn (since ++ e.printed) rest)

theorem printed_of_code? {e : Event} {code : Int32} (h : e.code? = some code) :
    e = .leg (.exit code) := by
  cases e with
  | leg e =>
    cases e with
    | exit c => simpa [Event.code?, Leg.Event.code?] using h
    | _ => simp [Event.code?, Leg.Event.code?] at h
  | _ => simp [Event.code?] at h

theorem closingIn_eq_some {since all : Bytes} {code : Int32} {events : List Event}
    (h : closingIn since events = some (all, code)) :
    ∃ during after, events = during ++ .leg (.exit code) :: after
      ∧ (∀ c, .leg (.exit c) ∉ during) ∧ all = since ++ printedIn during := by
  induction events generalizing since with
  | nil => cases h
  | cons e rest ih =>
    rw [closingIn] at h
    cases hc : e.code? with
    | some c =>
      rw [hc] at h
      obtain ⟨rfl, rfl⟩ := Prod.mk.inj (Option.some.inj h)
      exact ⟨[], rest, by rw [printed_of_code? hc]; rfl, by simp, by simp [printedIn]⟩
    | none =>
      rw [hc] at h
      obtain ⟨during, after, rfl, hnone, hall⟩ := ih h
      refine ⟨e :: during, after, rfl, ?_, by simp [hall, printedIn]⟩
      intro c hmem
      rcases List.mem_cons.mp hmem with rfl | hmem
      · cases hc
      · exact hnone c hmem

/-- Over a run, a session with a terminal adds to what was printed and types on. -/
theorem Inv.run_told {since : Bytes} {closing : Option (Bytes × Int32)}
    (H : l.Inv asked first before typed (some (since, closing))) (events : List Event) :
    (l.run events).Inv asked first before (typed ++ typedIn events)
      (some (since ++ printedIn events, closing.or (closingIn since events))) := by
  induction events generalizing l typed since closing with
  | nil => simpa [run, typedIn, printedIn, closingIn] using H
  | cons e rest ih =>
    have tail := ih (H.step e (reaches_of_told H e))
    simpa [run, typedIn, printedIn, closingIn, List.append_assoc, Option.or_assoc] using tail

theorem isAttached_of_idle (h : Reaches l.leg none) : l.isAttached = false := by
  rw [isAttached, h.attachment]
  rfl

/-- Over a run, a session without a terminal stays without one, or its stream subscribes at one
event. -/
theorem Inv.run_idle (H : l.Inv asked first before typed none) (hasked : asked.payload = [])
    (events : List Event) :
    (l.run events).Inv asked first before (typed ++ typedIn events) none
      ∨ ∃ early e late, events = early ++ e :: late
        ∧ (l.run early).Inv asked first before (typed ++ typedIn early) none
        ∧ (l.run (early ++ [e])).Inv asked first before (typed ++ typedIn (early ++ [e]))
          (some ([], none))
        ∧ (l.run (early ++ [e])).isAttached := by
  induction events generalizing l typed with
  | nil => exact .inl (by simpa [run, typedIn] using H)
  | cons e rest ih =>
    rcases reaches_of_idle H hasked e with hidle | ⟨htold, hattached⟩
    · rcases ih (H.step e hidle) with hrest | ⟨early, e', late, rfl, hearly, hjoined, hattached⟩
      · exact .inl (by simpa [run, typedIn, List.append_assoc] using hrest)
      · refine .inr ⟨e :: early, e', late, rfl, ?_, ?_, by simpa [run] using hattached⟩
        · simpa [run, typedIn, List.append_assoc] using hearly
        · simpa [run, typedIn, List.append_assoc] using hjoined
    · refine .inr ⟨[], e, rest, rfl, by simpa [run, typedIn] using H, ?_, hattached⟩
      simpa [run, typedIn] using H.step e htold

/-- A session whose connections have just been made. -/
theorem inv_start (backend : Gate.Backend) {dial : Gate.Dial} (info : SessionInfo) {h : Host}
    (hfresh : h.terminal = none) (hfirst : dial.first.payload = []) (screen : Gate.Screen) :
    (start backend dial info h screen).Inv info.request dial.first screen.written [] none where
  feeds := by
    constructor
    case begun => exact ⟨[], rfl⟩
    all_goals simp [start, Gate.Streaming.ofDial, Gate.Streaming.handed, hfirst]
  risen_le := Nat.zero_le _
  up := ⟨[], by simp [start, Leg.opened, Edge.Pipe.start, Edge.HostDial.notice?, Frame.messages],
    fun _ => rfl⟩
  inOrder := Nat.zero_le _
  down := ⟨Nat.zero_le _, [], by simp [start, Leg.opened, Edge.Pipe.start, Edge.HostDial.notice?],
    fun _ => rfl⟩
  fallen_le := Nat.zero_le _
  reads := by
    refine ⟨⟨[], [], ?_, rfl, fun _ => rfl, ?_⟩, fun _ => rfl⟩
    · simp [start, Leg.opened, Edge.Pipe.start, Edge.HostDial.notice?, Frame.messages]
    · simp [start, Gate.Streaming.ofDial]
  written := by simp [start, Gate.Streaming.ofDial]
  leg := by
    have opened := Host.Stream.opened_of_none hfresh
    refine ⟨by simp [start, Leg.opened, opened, hfresh], by simp [start, Leg.opened, opened], ?_⟩
    have held := Mailroom.held_create h.room h.queueDepth (h.room.create h.queueDepth).2
    have none : h.room.held (h.room.create h.queueDepth).2 = [] := by
      simp [Mailroom.held, Mailroom.box?, Mailroom.create]
    simp [start, Leg.opened, opened, Host.Stream.outputs, Host.Stream.queued, held, none]

/-- A stream that has given up its subscription takes no other. -/
theorem isAttached_step {since : Bytes} {closing : Option (Bytes × Int32)}
    (H : l.Inv asked first before typed (some (since, closing))) (ha : l.isAttached = false)
    (e : Event) : (l.step e).isAttached = false := by
  have told : l.leg.Told since closing := H.leg
  have none : l.leg.stream.attachment = none := by simpa [isAttached] using ha
  have stepped (e : Leg.Event) : (l.leg.step e).stream.attachment.isSome = false := by
    simp [told.attachment_step none e]
  cases e with
  | gate e => cases e <;> exact ha
  | rise =>
    simp only [Link.step]
    split
    · exact stepped (.fromGate _)
    · exact ha
  | fall =>
    simp only [Link.step]
    split <;> exact ha
  | leg e =>
    cases e with
    | fromGate f => exact ha
    | _ => exact stepped _

theorem run_append (l : Link) (as bs : List Event) : l.run (as ++ bs) = (l.run as).run bs :=
  List.foldl_append

/-- The stream of a session subscribes at most once. -/
theorem Inv.run_attach (H : l.Inv asked first before typed none) (hasked : asked.payload = [])
    {early : List Event} {e : Event} (hnot : (l.run early).isAttached = false)
    (hjoined : (l.run (early ++ [e])).isAttached) :
    (l.run (early ++ [e])).Inv asked first before (typed ++ typedIn (early ++ [e]))
      (some ([], none)) := by
  have last : l.run (early ++ [e]) = (l.run early).step e := by
    rw [run_append]
    rfl
  have typedLast : typedIn (early ++ [e]) = typedIn early ++ e.typed := by simp [typedIn]
  rw [last] at hjoined
  rw [last, typedLast, ← List.append_assoc]
  rcases H.run_idle hasked early with hidle | ⟨early', e', late, rfl, -, htold, -⟩
  · rcases reaches_of_idle hidle hasked e with hstill | ⟨htold, -⟩
    · rw [isAttached_of_idle hstill] at hjoined
      exact absurd hjoined Bool.false_ne_true
    · exact hidle.step e htold
  · have reached := htold.run_told late
    rw [← run_append, List.append_assoc, List.singleton_append] at reached
    rw [isAttached_step reached hnot e] at hjoined
    exact absurd hjoined Bool.false_ne_true

end Link
end TermLink
