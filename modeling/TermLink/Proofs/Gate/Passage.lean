import TermLink.Proofs.Gate.Client
import TermLink.Proofs.Gate.Lane

/-!
# What reaches the backend

The first message to the backend asks for the terminal. After it comes what the client does, either
way in the order in which it was accepted, and nothing else but pings. The end of the input closes
one way and leaves the other open; a session whose client stays goes on.
-/

namespace TermLink

/-- Whether a message is one that the duties of a session hand over. -/
def Message.isTraffic : Message → Bool
  | .data _ | .resize _ | .ping _ => true
  | _ => false

namespace Gate

namespace Streaming

variable {s next : Streaming} {e : Event} {first : Message}

/-- A session after an event, when all that the duties do upon it is done. -/
def settling (s : Streaming) (e : Event) : Streaming := (s.step e).settle

/-- A session that has sent `first`, and after it only what its duties hand over. -/
def Begun (first : Message) (s : Streaming) : Prop :=
  ∃ rest, s.sent = first :: rest ∧ ∀ m ∈ rest ++ s.outbound, m.isTraffic

theorem Begun.change (H : s.Begun first) (c : s.Change e next) : next.Begun first := by
  obtain ⟨rest, sent, traffic⟩ := H
  have handed {m : Message} (hm : m.isTraffic) :
      ∀ other ∈ rest ++ (s.outbound ++ [m]), other.isTraffic := by
    intro other h
    rw [← List.append_assoc] at h
    rcases List.mem_append.mp h with h | h
    · exact traffic other h
    · obtain rfl := List.mem_singleton.mp h
      exact hm
  cases c with
  | inputPassed | windowPassed | pinged => exact ⟨rest, sent, handed rfl⟩
  | @wrote m waiting _ houtbound =>
    refine ⟨rest ++ [m], congrArg (· ++ [m]) sent, ?_⟩
    rw [houtbound] at traffic
    rw [List.append_assoc]
    exact traffic
  | _ => exact ⟨rest, sent, traffic⟩

theorem Begun.run (H : s.Begun first) (events : List Event) : (s.run events).Begun first := by
  induction events generalizing s with
  | nil => exact H
  | cons e rest ih => exact ih (H.change (s.change_step e))

theorem Rests.settling (H : s.Rests) (e : Event) : (s.settling e).Rests :=
  (H.manned.change (s.change_step e)).rests (H.change (s.change_step e))

/-- A session is over when its client has left and its duties did all they can. -/
theorem Manned.isOver_of_left (H : s.Manned) (h : s.line.connected = false) :
    s.settle.isOver := by
  apply isOver_settle
  rw [turns_succ]
  have manned : (s.turns s.waiting).Manned := by
    rw [turns_eq_run]
    exact H.run _
  have left : (s.turns s.waiting).line.connected = false := by
    rw [turns_eq_run]
    apply (Lane.lawful_windows.follows_step.isOpen_foldl s _).trans
    rw [show Lane.windows.isOpen s.line = false from h, Bool.false_and]
  apply manned.ending_turn _ left
  cases hending : s.ending with
  | true =>
    rw [turns_eq_run]
    exact .inr (ending_run hending _)
  | false => exact .inl (((H.ready hending).turns _).2.trans (Nat.sub_self _))

/-- What duties do by themselves does not end a session whose client stays. -/
theorem Manned.unended_settle (H : s.Manned) (h : s.ending = false)
    (hconnected : s.line.connected) : s.settle.ending = false := by
  rw [settle_eq_ownEvents]
  apply H.unended h hconnected
  · exact fun left => Bool.false_ne_true (isOwn_of_mem_ownEvents left)
  · exact fun failed => Bool.false_ne_true (isOwn_of_mem_ownEvents failed)
  · exact .inr fun f received => Bool.false_ne_true (isOwn_of_mem_ownEvents received)

theorem Manned.not_isOver (H : s.Manned) (h : s.ending = false) : s.isOver = false := by
  have reads : Duty.reader ∈ s.duties := List.contains_iff_mem.mp (H.reader h)
  rw [Streaming.isOver, List.isEmpty_eq_false_iff]
  exact List.ne_nil_of_mem reads

end Streaming

open Streaming (Event settling)

namespace Lane

variable {α : Type} {L : Lane α} {s next : Streaming} {e : Event}

/-- Nothing is lost where a duty is there for whatever waits. -/
theorem Lawful.stock_change (law : L.Lawful) (R : s.Ready) (c : s.Change e next) :
    L.stock next = L.stock s ++ L.taken s e := by
  have move := law.move c
  generalize L.taken s e = new at move ⊢
  cases move with
  | calm hcarried hwaiting => rw [stock, stock, hcarried, hwaiting, List.append_nil]
  | take a _ hcarried hwaiting => rw [stock, stock, hcarried, hwaiting, List.append_assoc]
  | pass a _ hcarried hwaiting =>
    rw [stock, stock, hcarried, hwaiting, List.append_nil, List.append_assoc,
      List.singleton_append]
  | lose a hwriter _ hwaiting =>
    have writes := law.ready R (by simp [hwaiting])
    exact absurd writes (ne_true_of_eq_false hwriter)

theorem Lawful.stock_turning (law : L.Lawful) (R : s.Ready) {events : List Event}
    (h : ∀ e ∈ events, e ∈ Streaming.turnEvents) : L.stock (s.run events) = L.stock s := by
  induction events generalizing s with
  | nil => rfl
  | cons e rest ih =>
    have turns := h e List.mem_cons_self
    have change := s.change_step e
    have none := (law.own (Streaming.isOwn_of_mem_turnEvents turns)).2
    calc
      L.stock ((s.step e).run rest) = L.stock (s.step e) :=
        ih (R.change change turns) fun e he => h e (List.mem_cons_of_mem _ he)
      _ = L.stock s := by rw [law.stock_change R change, taken_of_none none, List.append_nil]

/-- All that waits has been sent when the duties did all they can. -/
theorem Lawful.carried_settle (law : L.Lawful) (H : s.Manned) (R : s.Ready) :
    L.carried s.settle.sent = L.stock s := by
  have idle := (H.rests R).waiting
  have outbound : s.settle.outbound = [] := (Streaming.waiting_eq_zero_iff.mp idle).2.2
  let turning := (List.replicate (s.waiting + 1) Streaming.turnEvents).flatten
  have turns : ∀ e ∈ turning, e ∈ Streaming.turnEvents := by
    intro e he
    obtain ⟨turn, hturn, he⟩ := List.mem_flatten.mp he
    exact List.eq_of_mem_replicate hturn ▸ he
  calc
    L.carried s.settle.sent = L.stock s.settle := by
      rw [stock, Streaming.handed, outbound, law.idle idle, List.append_nil, List.append_nil]
    _ = L.stock (s.turns (s.waiting + 1)) := by
      rw [Streaming.settle_eq]
      rfl
    _ = L.stock (s.run turning) := by rw [Streaming.turns_eq_run]
    _ = L.stock s := law.stock_turning R turns

/-- The duties do not end a way by themselves. -/
theorem Lawful.isOpen_settle (law : L.Lawful) (s : Streaming) :
    L.isOpen s.settle.line = L.isOpen s.line := by
  have own : s.ownEvents.any L.closes = false := by
    rw [List.any_eq_false]
    exact fun e he => ne_true_of_eq_false (law.own (Streaming.isOwn_of_mem_ownEvents he)).1
  calc
    L.isOpen s.settle.line = L.isOpen (s.run s.ownEvents).line := by
      rw [Streaming.settle_eq_ownEvents]
    _ = (L.isOpen s.line && !s.ownEvents.any L.closes) := law.follows_step.isOpen_foldl _ _
    _ = L.isOpen s.line := by rw [own, Bool.not_false, Bool.and_true]

theorem Lawful.follows_settling (law : L.Lawful) : L.Follows settling where
  manned {s} e h := by
    rw [settling, Streaming.settle_eq_ownEvents]
    exact (h.change (s.change_step e)).run _
  told {s} e h := by
    rw [settling, Streaming.settle_eq_ownEvents]
    exact Streaming.ending_run ((s.change_step e).told h) _
  runs {s} e h := by
    rw [settling, Streaming.settle_eq_ownEvents] at h
    exact (s.change_step e).runs L.duty (Streaming.runs_run h)
  isOpen s e := (law.isOpen_settle (s.step e)).trans (law.isOpen (s.change_step e))

/-- In a session at rest all that is accepted in an event is sent upon it. -/
theorem Lawful.carried_settling (law : L.Lawful) (H : s.Rests) (e : Event) :
    L.carried (s.settling e).sent = L.carried s.sent ++ L.taken s e := by
  have change := s.change_step e
  have outbound : s.outbound = [] := (Streaming.waiting_eq_zero_iff.mp H.waiting).2.2
  calc
    L.carried (s.settling e).sent = L.stock (s.step e) :=
      law.carried_settle (H.manned.change change) (H.change change)
    _ = L.stock s ++ L.taken s e := law.stock_change (Streaming.ready_of_idle H.waiting) change
    _ = L.carried s.sent ++ L.taken s e := by
      rw [stock, Streaming.handed, outbound, law.idle H.waiting, List.append_nil, List.append_nil]

theorem Lawful.carried_foldl_settling (law : L.Lawful) (H : s.Rests) (events : List Event) :
    L.carried (events.foldl settling s).sent =
      L.carried s.sent ++ L.accepted settling s events := by
  induction events generalizing s with
  | nil => exact (List.append_nil _).symm
  | cons e rest ih =>
    calc
      L.carried (rest.foldl settling (s.settling e)).sent =
          L.carried (s.settling e).sent ++ L.accepted settling (s.settling e) rest :=
        ih (H.settling e)
      _ = L.carried s.sent ++ L.accepted settling s (e :: rest) := by
        rw [law.carried_settling H, accepted, List.append_assoc]

/-- A way passes on what it takes: whatever the order of events, what was sent is a beginning of
what waited and was accepted, and it is all of that where the duties keep up with the events. -/
structure Passes (L : Lane α) (opened : Streaming) (events : List Event) : Prop where
  /-- What was sent is a beginning of what waited at first and was accepted. -/
  sent : L.carried (opened.run events).sent <+:
    L.waiting opened.line ++ L.accepted Streaming.step opened events
  /-- What was accepted is a beginning of what the client added before it ended the way. -/
  accepted : L.accepted Streaming.step opened events <+: L.added events
  /-- In a session that goes on, all that the client added before it ended the way is accepted, and
  all of it is sent when the duties do what they can. -/
  whole : (opened.run events).ending = false →
    L.carried (opened.run events).settle.sent =
        L.waiting opened.line ++ L.accepted Streaming.step opened events
      ∧ L.accepted Streaming.step opened events =
        if L.isOpen opened.line then L.added events else []
  /-- If the duties do all they can upon each event, then all that is accepted is sent. -/
  settled : L.carried (events.foldl settling opened.settle).sent =
    L.waiting opened.line ++ L.accepted settling opened.settle events
  settled_accepted : L.accepted settling opened.settle events <+: L.added events
  settled_whole : (events.foldl settling opened.settle).ending = false →
    L.accepted settling opened.settle events = if L.isOpen opened.line then L.added events else []

theorem Lawful.passes (law : L.Lawful) {opened : Streaming} (H : opened.Manned)
    (hending : opened.ending = false) (hhanded : L.carried opened.handed = [])
    (events : List Event) : L.Passes opened events := by
  have ready := H.ready hending
  have stock : L.stock opened = L.waiting opened.line := by
    rw [Lane.stock, hhanded, List.nil_append]
  have keeps : L.Keeps opened (L.waiting opened.line) :=
    ⟨hhanded ▸ List.nil_prefix, fun _ => stock⟩
  have kept := keeps.run law events
  have rested := H.rests ready
  constructor
  · refine List.IsPrefix.trans ?_ kept.handed
    rw [carried, carried, Streaming.handed, List.filterMap_append]
    exact List.prefix_append _ _
  · exact law.follows_step.accepted_prefix law opened events
  · intro unended
    have manned := H.run events
    refine ⟨?_, law.follows_step.accepted_eq law H events unended⟩
    rw [law.carried_settle manned (manned.ready unended), kept.whole (.inr unended)]
  · rw [law.carried_foldl_settling rested, law.carried_settle H ready, stock]
  · exact law.follows_settling.accepted_prefix law opened.settle events
  · intro unended
    rw [law.follows_settling.accepted_eq law rested.manned events unended,
      law.isOpen_settle]

/-- A way that has not ended takes one thing more, and sends it. -/
theorem Lawful.carried_settle_step (law : L.Lawful) (H : s.Manned) (h : s.ending = false) {a : α}
    (hopen : L.isOpen s.line) (hadded : L.added? e = some a) (hnext : (s.step e).ending = false) :
    L.carried (s.step e).settle.sent = L.carried s.settle.sent ++ [a] := by
  have change := s.change_step e
  have next := H.change change
  have taken : L.taken s e = [a] := by
    rw [Lane.taken, law.accepts H h, if_pos hopen, hadded]
    rfl
  calc
    L.carried (s.step e).settle.sent = L.stock (s.step e) :=
      law.carried_settle next (next.ready hnext)
    _ = L.stock s ++ L.taken s e := law.stock_change (H.ready h) change
    _ = L.carried s.settle.sent ++ [a] := by rw [law.carried_settle H (H.ready h), taken]

end Lane

namespace Streaming

/-- What a client does reaches the backend in order. The terminal that its dial asks for is asked
for first; what it types and the sizes of its window pass after that, each on its way. Once its
input has ended nothing more is taken as input. The session is over when the client has left;
unless the connection is lost or the backend's frames are read no more, it is not over before, and
sizes and output pass on. -/
theorem passes_in_order {backend : Backend} {r : SessionRequest} {dial : Dial}
    (hdial : r.dial backend = .ok dial) (line : ClientLine) (screen : Screen)
    (events : List Event) :
    let opened := ofDial backend dial line screen
    let last := opened.run events
    Session.start backend r .opened line screen = .streaming dial opened
      ∧ (∃ size rest, r.size = some size ∧ last.sent = .request size r.repo :: rest
          ∧ ∀ m ∈ rest, m.isTraffic)
      ∧ Lane.input.Passes opened events
      ∧ Lane.windows.Passes opened events
      ∧ (.endInput ∈ events →
          last.acceptsInput = false ∧ ∀ chunk, last.step (.input chunk) = last)
      ∧ (.leave ∈ events → last.settle.isOver)
      ∧ (line.connected → .leave ∉ events → .failWrite ∉ events → last.runs .reader →
          last.settle.isOver = false
            ∧ (∀ size, Lane.windows.carried (last.step (.resize size)).settle.sent =
                Lane.windows.carried last.settle.sent ++ [size])
            ∧ (screen.writesLeft = none → ∀ f, f.ending? = none →
                (last.step (.receive f)).screen.written = last.screen.written ++ f.seen)) := by
  intro opened last
  obtain ⟨_, size, -, hsize, -, hfirst⟩ := SessionRequest.dial_eq_ok_iff.mp hdial
  have manned : opened.Manned := manned_ofDial backend dial line screen
  have manned_last : last.Manned := manned.run events
  have unhanded {α : Type} {L : Lane α} (h : L.carried? dial.first = none) :
      L.carried opened.handed = [] := by
    rw [Lane.carried, handed, List.filterMap_append]
    simp [opened, ofDial, h]
  refine ⟨?_, ?_, ?_, ?_, ?_, ?_, ?_⟩
  · rw [Session.start, hdial]
  · have begun : opened.Begun dial.first := ⟨[], rfl, by simp [opened, ofDial]⟩
    obtain ⟨rest, sent, traffic⟩ := begun.run events
    refine ⟨size, rest, hsize, hfirst ▸ sent, ?_⟩
    exact fun m hm => traffic m (List.mem_append_left _ hm)
  · exact Lane.lawful_input.passes manned rfl (unhanded (by rw [hfirst]; rfl)) events
  · exact Lane.lawful_windows.passes manned rfl (unhanded (by rw [hfirst]; rfl)) events
  · intro hended
    have closed : events.any Lane.input.closes := List.any_eq_true.mpr ⟨_, hended, rfl⟩
    have isOpen := Lane.lawful_input.follows_step.isOpen_foldl opened events
    rw [closed, Bool.not_true, Bool.and_false] at isOpen
    have refused : last.acceptsInput = false := by
      rw [acceptsInput, show last.line.typing = false from isOpen, Bool.false_and]
    exact ⟨refused, fun chunk => if_neg (ne_true_of_eq_false refused)⟩
  · intro hleft
    have closed : events.any Lane.windows.closes := List.any_eq_true.mpr ⟨_, hleft, rfl⟩
    have isOpen := Lane.lawful_windows.follows_step.isOpen_foldl opened events
    rw [closed, Bool.not_true, Bool.and_false] at isOpen
    exact manned_last.isOver_of_left isOpen
  · intro hconnected hstays hlink hreads
    have unended : last.ending = false :=
      manned.unended rfl hconnected hstays hlink (.inl hreads)
    have still : events.any Lane.windows.closes = false := by
      rw [List.any_eq_false]
      intro e he hclose
      exact hstays (of_decide_eq_true hclose ▸ he)
    have connected : last.line.connected := by
      apply (Lane.lawful_windows.follows_step.isOpen_foldl opened events).trans
      rw [still, Bool.not_false, Bool.and_true]
      exact hconnected
    refine ⟨?_, ?_, ?_⟩
    · apply Manned.not_isOver
      · rw [settle_eq_ownEvents]
        exact manned_last.run _
      · exact manned_last.unended_settle unended connected
    · intro size
      have goes : (last.run [.resize size]).ending = false :=
        manned_last.unended unended connected (by simp) (by simp) (.inr (by simp))
      exact Lane.lawful_windows.carried_settle_step manned_last unended connected rfl goes
    · intro hroom f hgoes
      obtain ⟨reached, -⟩ := (open_ofDial backend dial hconnected hroom).run hstays
      rw [endingOf, heard_of_notMem hlink, if_pos rfl, Option.or_none] at reached
      cases hending : (framesIn events).findSome? Frame.ending? with
      | some ending =>
        rw [hending] at reached
        have ended : last.Ended ending := reached
        exact absurd hreads (ne_true_of_eq_false ended.reader)
      | none =>
        rw [hending] at reached
        have H : last.Open _ := reached
        have received := H.receive f
        rw [hgoes] at received
        exact received.2

theorem passes_in_order_typed :
    let backend : Backend := { url := "ws://edge/ws" }
    let r : SessionRequest :=
      { fingerprint := some "key", verdict := some .accepted, size := some ⟨80, 24⟩,
        repo := some "octo/widgets" }
    let events : List Event :=
      [.input [104], .resize ⟨100, 40⟩, .endInput, .input [105], .resize ⟨90, 30⟩]
    ∃ dial, r.dial backend = .ok dial ∧
      let last := (ofDial backend dial {} {}).run events
      Lane.input.carried last.settle.sent = [[104]]
        ∧ Lane.windows.carried last.settle.sent = [⟨100, 40⟩, ⟨90, 30⟩]
        ∧ last.acceptsInput = false ∧ last.settle.isOver = false := by
  intro backend r events
  obtain ⟨dial, hdial⟩ : ∃ dial, r.dial backend = .ok dial := ⟨_, rfl⟩
  refine ⟨dial, hdial, ?_⟩
  intro last
  obtain ⟨-, -, input, sizes, ended, -, stays⟩ := passes_in_order hdial {} {} events
  have unended : last.ending = false := rfl
  have reads : last.runs .reader := rfl
  have typed : Lane.input.carried last.settle.sent = [[104]] := (input.whole unended).1
  have sized : Lane.windows.carried last.settle.sent = [⟨100, 40⟩, ⟨90, 30⟩] :=
    (sizes.whole unended).1
  have goesOn := stays rfl (by simp [events]) (by simp [events]) reads
  exact ⟨typed, sized, (ended (by simp [events])).1, goesOn.1⟩

end Streaming

end Gate

end TermLink
