import TermLink.Edge.Poll
import TermLink.Gate.Streaming
import TermLink.Proofs.Host.Malformed

/-!
# Noise

What is no message does not matter: a gate, a host and an edge that meet frames which are no
messages, or lines of output which are none, do all that they would do without them.

## Implementation notes

A host counts such frames, so that two hosts may differ in that count.
-/

namespace TermLink

namespace Gate.Streaming

/-- Whether an event is a frame of the backend that is no message. -/
def Event.isMalformed : Event → Bool
  | .receive f => f.malformed
  | _ => false

/-- The reader drops a frame that is no message. -/
theorem step_of_malformed (s : Streaming) {e : Event} (he : e.isMalformed) : s.step e = s := by
  cases e with
  | receive f =>
    simp only [step, receive]
    cases f with
    | text payload | binary payload =>
      have none : Message.decode? payload = none := Message.decode?_of_malformed he
      simp only [none, ite_self]
    | signal | close => cases he
  | _ => cases he

end Gate.Streaming

namespace Edge

/-- The messages of a body are those of its lines. -/
theorem messagesOf_eq (body : Bytes) : messagesOf body = body.lines.filterMap Message.decode? := by
  have blank {line : Bytes} (hline : line.trimmed = []) : Message.decode? line = none := by
    simp [Message.decode?, Message.decode, hline, Except.toOption]
  rw [messagesOf, Message.decodeLines, List.filterMap_map]
  generalize body.lines = lines
  induction lines with
  | nil => rfl
  | cons line lines ih =>
    by_cases hline : line.trimmed = []
    · rw [List.filter_cons_of_neg (by simpa using hline), List.filterMap_cons, blank hline]
      exact ih
    · rw [List.filter_cons_of_pos (by simpa using hline), List.filterMap_cons, List.filterMap_cons,
        ih]
      rfl

/-- Lines that are no messages do not matter. -/
theorem messagesOf_scattered {body noisy : Bytes}
    (h : Scattered Message.malformed body.lines noisy.lines) :
    messagesOf noisy = messagesOf body := by
  rw [messagesOf_eq, messagesOf_eq]
  exact h.filterMap_eq fun _ hline => Message.decode?_of_malformed hline

/-- Two exchanges that differ in the output at most that a fetch gives: the second may put in lines
that are no messages. -/
structure Like {σ : Type} (ask other : Exchange σ) : Prop where
  same (r : Http.Request) (h : σ) : r ≠ readRequest → other r h = ask r h
  state (h : σ) : (other readRequest h).1 = (ask readRequest h).1
  output (h : σ) : (other readRequest h).2 = (ask readRequest h).2
    ∨ ∃ status body noisy, (ask readRequest h).2 = .ok ⟨status, body⟩
      ∧ (other readRequest h).2 = .ok ⟨status, noisy⟩
      ∧ (Http.Reply.mk status body).isSuccess
      ∧ Scattered Message.malformed body.lines noisy.lines

variable {σ : Type} {ask other : Exchange σ}

theorem Like.fetch (H : Like ask other) (h : σ) : Edge.fetch other h = Edge.fetch ask h := by
  have state := H.state h
  have output := H.output h
  simp only [Edge.fetch]
  generalize other readRequest h = noisyReply at state output
  generalize ask readRequest h = reply at state output
  obtain ⟨next, result⟩ := reply
  obtain ⟨_, noisyResult⟩ := noisyReply
  obtain rfl : _ = next := state
  obtain same | ⟨status, body, noisy, hbody, hnoisy, hsuccess, hlines⟩ := output
  · obtain rfl : noisyResult = result := same
    rfl
  · obtain rfl : result = .ok ⟨status, body⟩ := hbody
    obtain rfl : noisyResult = .ok ⟨status, noisy⟩ := hnoisy
    have success : (Http.Reply.mk status noisy).isSuccess := hsuccess
    simp only [accepted, hsuccess, success, if_true, Except.map, messagesOf_scattered hlines]

theorem Like.submit (H : Like ask other) (h : σ) (m : Message) :
    Edge.submit other h m = Edge.submit ask h m := by
  have write : writeRequest m ≠ readRequest := by simp [writeRequest, readRequest]
  rw [Edge.submit, Edge.submit, H.same _ h write]

namespace Poll

/-- Whether an event is a frame of the gate that is no message. -/
def Event.isMalformed : Event → Bool
  | .receive f => f.malformed
  | _ => false

/-- The listener drops a frame that is no message. -/
theorem step_of_malformed (ask : Exchange σ) (s : σ × Poll) {e : Event} (he : e.isMalformed) :
    step ask s e = s := by
  cases e with
  | receive f =>
    simp only [step, receive]
    cases f with
    | text payload | binary payload =>
      have none : Message.decode? payload = none := Message.decode?_of_malformed he
      simp only [none, ite_self]
    | signal | close => cases he
  | _ => cases he

/-- A step makes the same of both exchanges. -/
theorem step_like (H : Like ask other) (s : σ × Poll) (e : Event) :
    step other s e = step ask s e := by
  cases e with
  | receive f =>
    have same (m : Message) : s.2.act other s.1 m = s.2.act ask s.1 m := by
      cases m <;> simp only [act, submit, H.submit]
    simp only [step, receive, same]
  | fetch => simp only [step, fetch, H.fetch]
  | _ => rfl

theorem run_like (H : Like ask other) (s : σ × Poll) (events : List Event) :
    run other s events = run ask s events := by
  have same : step other = step ask := by
    funext s e
    exact step_like H s e
  rw [run, run, same]

end Poll
end Edge

/-- Frames and lines that are no messages do not matter to a gate that streams, to a host with
whatever streams, to an edge that polls, and to a reader of output. A host only counts them. -/
theorem malformed_invisible :
    (∀ (s : Gate.Streaming) (events noisy : List Gate.Streaming.Event),
        Scattered Gate.Streaming.Event.isMalformed events noisy → s.run noisy = s.run events)
      ∧ (∀ (st : Host.Station) (events noisy : List (Environment × Host.Station.Event)),
        Scattered (fun e => e.2.isMalformed) events noisy →
          (st.play noisy).streams = (st.play events).streams
            ∧ (∃ n, (st.play noisy).host = { (st.play events).host with malformed := n })
            ∧ ∀ (env : Environment) (r : Http.Request), r.path ≠ Host.Route.metrics.path →
              ((st.play noisy).request env true r).2 = ((st.play events).request env true r).2)
      ∧ (∀ {σ : Type} (ask other : Edge.Exchange σ) (s : σ × Edge.Poll)
          (events noisy : List Edge.Poll.Event),
        Edge.Like ask other → Scattered Edge.Poll.Event.isMalformed events noisy →
          Edge.Poll.run other s noisy = Edge.Poll.run ask s events)
      ∧ ∀ body noisy : Bytes, Scattered Message.malformed body.lines noisy.lines →
        Edge.messagesOf noisy = Edge.messagesOf body := by
  refine ⟨?_, ?_, ?_, ?_⟩
  · intro s events noisy H
    exact H.foldl_eq (fun s _ => s.step_of_malformed) s
  · intro st events noisy H
    obtain ⟨hstreams, n, hhost⟩ := Host.Station.like_play (Host.Station.like_refl st) H
    refine ⟨hstreams, ⟨n, hhost⟩, ?_⟩
    intro env r hpath
    have answered (st : Host.Station) :
        (st.request env true r).2 = (st.host.handle env true r).2 := rfl
    rw [answered, answered, hhost, Host.handle_counting _ n env hpath]
    rfl
  · intro σ ask other s events noisy hask H
    rw [Edge.Poll.run_like hask]
    exact H.foldl_eq (fun s _ => Edge.Poll.step_of_malformed ask s) s
  · intro body noisy
    exact Edge.messagesOf_scattered

theorem malformed_invisible_brace :
    let brace : Bytes := [123]
    let data := (Message.data [1]).encode
    let body := (Message.data [1]).encodeLine
    let noisy := brace ++ Bytes.lineFeed :: body
    let s : Gate.Streaming := { line := {}, duties := [.reader], sent := [], screen := {} }
    let env : Environment := { git := fun _ _ => .failed "", spawn := fun _ => .ok 7 }
    let h : Host := { backlogCeiling := 3, queueDepth := 1, workspace := ⟨⟨[47], ""⟩, [], []⟩ }
    let st := (Host.Station.mk h []).step env .openStream
    let p : Edge.Poll := { ticks := true, drainOnPing := false }
    let ask : Edge.Exchange Unit := fun _ _ => ((), .ok ⟨200, body⟩)
    let other : Edge.Exchange Unit := fun r _ =>
      ((), .ok ⟨200, if r = Edge.readRequest then noisy else body⟩)
    Message.malformed brace
      ∧ Scattered Message.malformed body.lines noisy.lines ∧ Edge.Like ask other
      ∧ s.run [.receive (.text brace), .receive (.text data)] = s.run [.receive (.text data)]
      ∧ (st.play [(env, .frame 0 brace), (env, .frame 0 data)]).streams =
        (st.play [(env, .frame 0 data)]).streams
      ∧ Edge.Poll.run other ((), p) [.receive (.text brace), .fetch] =
        Edge.Poll.run ask ((), p) [.fetch]
      ∧ Edge.messagesOf noisy = Edge.messagesOf body := by
  intro brace data body noisy s env h st p ask other
  have malformed : Message.malformed brace := by decide
  have lines : Scattered Message.malformed body.lines noisy.lines := by
    have noisy : noisy.lines = brace :: body.lines := by decide
    rw [noisy]
    exact .insert malformed (.refl _)
  have like : Edge.Like ask other := by
    constructor
    · intro r h hr
      simp only [ask, other, hr, if_false]
    · intro h
      rfl
    · intro h
      exact .inr ⟨200, body, noisy, rfl, rfl, rfl, lines⟩
  have frames : Scattered (fun e : Environment × Host.Station.Event => e.2.isMalformed)
      [(env, .frame 0 data)] [(env, .frame 0 brace), (env, .frame 0 data)] :=
    .insert malformed (.refl _)
  obtain ⟨gate, station, poll, reader⟩ := malformed_invisible
  refine ⟨malformed, lines, like, ?_, ?_, ?_, reader _ _ lines⟩
  · exact gate s _ _ (.insert malformed (.refl _))
  · exact (station st _ _ frames).1
  · exact poll ask other _ _ _ like (.insert malformed (.refl _))

end TermLink
