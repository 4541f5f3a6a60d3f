import TermLink.Proofs.Host.Errand
import TermLink.Proofs.Host.Stream

/-!
# The audience of a host

However streams come and go, the audience of a host's terminal stays sound: its index, its slots and
its vacant slots name the same members. So one who subscribes takes nobody's place. An errand
changes no membership, except that what the terminal tells may have members evicted.
-/

namespace TermLink

namespace Subscribers

/-- Only members fall behind. -/
theorem mem_post (room : Mailroom) (m : Message) (ms : List Subscriber) {i : SubscriberId}
    (hi : i ∈ (post room m ms).2) : ∃ x ∈ ms, x.id = i := by
  induction ms generalizing room with
  | nil => cases hi
  | cons x ms ih =>
    simp only [post] at hi
    split at hi
    · obtain ⟨y, hy, hid⟩ := ih _ hi
      exact ⟨y, List.mem_cons_of_mem _ hy, hid⟩
    · rcases List.mem_cons.mp hi with rfl | hi
      · exact ⟨x, List.mem_cons_self, rfl⟩
      · obtain ⟨y, hy, hid⟩ := ih _ hi
        exact ⟨y, List.mem_cons_of_mem _ hy, hid⟩

/-- Some members were evicted, and nothing else has happened. -/
structure Sheds (s next : Subscribers) : Prop where
  sound : next.Sound
  behind : ∃ ids : List SubscriberId,
    (∀ x, x ∈ next.members ↔ x ∈ s.members ∧ x.id ∉ ids)
      ∧ ∀ i, i ∈ next.evicted ↔ i ∈ ids ∨ i ∈ s.evicted

variable {s : Subscribers}

theorem Sound.sheds (h : s.Sound) : s.Sheds s := ⟨h, [], by simp⟩

theorem Sound.sheds_broadcast (h : s.Sound) (room : Mailroom) (m : Message) :
    s.Sheds (s.broadcast room m).1 := by
  have known : ∀ i ∈ (post room m s.members).2, i ≤ s.lastId := by
    intro i hi
    obtain ⟨x, hx, rfl⟩ := mem_post room m _ hi
    exact h.id_le x hx
  obtain ⟨sound, members⟩ := h.mem_members_foldl_evict _ known
  exact ⟨sound, _, members, mem_evicted_foldl_evict s _⟩

end Subscribers

namespace Host

/-- Those to whom the terminal's output is pushed, who are none where there is no terminal. -/
def audience (h : Host) : Subscribers := (h.terminal.map Terminal.subscribers).getD {}

/-- The members of the audience. -/
def members (h : Host) : List Subscriber := h.audience.members

/-- The audience of the terminal is sound, where there is a terminal. -/
def Sound (h : Host) : Prop := ∀ t, h.terminal = some t → t.subscribers.Sound

variable {h : Host}

theorem audience_of_some {t : Terminal} (ht : h.terminal = some t) :
    h.audience = t.subscribers := by
  rw [audience, ht]
  rfl

theorem sound_iff : h.Sound ↔ h.audience.Sound := by
  cases ht : h.terminal with
  | none =>
    rw [audience, ht]
    exact ⟨fun _ => Subscribers.sound_empty, fun _ u hu => by simp [ht] at hu⟩
  | some t => simp [Sound, ht, audience_of_some ht]

theorem Sound.of_none (hn : h.terminal = none) : h.Sound := by
  intro t ht
  rw [hn] at ht
  cases ht

theorem audience_congr {next : Host}
    (hsame : next.terminal.map Terminal.subscribers = h.terminal.map Terminal.subscribers) :
    next.audience = h.audience := by
  rw [audience, audience, hsame]

/-- Only the audience matters. -/
theorem Sound.of_map {next : Host} (H : h.Sound)
    (hsame : next.terminal.map Terminal.subscribers = h.terminal.map Terminal.subscribers) :
    next.Sound :=
  sound_iff.mpr (audience_congr hsame ▸ sound_iff.mp H)

theorem subscribers_write (m : Message) :
    (h.write m).1.terminal.map Terminal.subscribers = h.terminal.map Terminal.subscribers := by
  cases ht : h.terminal with
  | none => rw [write_of_none ht, ht]
  | some t =>
    have taken : (t.accept m).1.subscribers = t.subscribers := by rw [t.accept_eq]
    rw [write_of_some ht, Option.map_some, Option.map_some, taken]

theorem subscribers_resize (g : Geometry) :
    (h.resize g).1.terminal.map Terminal.subscribers = h.terminal.map Terminal.subscribers := by
  cases ht : h.terminal with
  | none => simp [resize, require, ht]
  | some t =>
    have granted : (t.resize g).1.subscribers = t.subscribers := by rw [t.resize_eq]
    rw [resize_of_some ht, Option.map_some, Option.map_some, granted]

theorem subscribers_read :
    h.read.1.terminal.map Terminal.subscribers = h.terminal.map Terminal.subscribers := by
  cases ht : h.terminal with
  | none => simp [read, require, ht]
  | some t => simp [read, require, ht, Terminal.poll, Terminal.drain]

theorem audience_establish (env : Environment) (g : Geometry) (repo : Option String) :
    (h.establish env g repo).1.audience = h.audience := by
  obtain ⟨t, s, ht, -, heq⟩ | ⟨workspace, e, heq⟩ | ⟨hn, workspace, t, s, hnew, heq⟩ :=
    h.establish_cases env g repo
  · rw [heq, audience_of_some ht]
    rfl
  · rw [heq]
    rfl
  · rw [heq, audience, audience, hn, Option.map_some, hnew.subscribers]
    rfl

theorem audience_write (m : Message) : (h.write m).1.audience = h.audience :=
  audience_congr (subscribers_write m)

/-- Some members of the audience were evicted, and no mailbox was added or taken away. -/
structure Sheds (h next : Host) : Prop where
  audience : h.audience.Sheds next.audience
  length : next.room.boxes.length = h.room.boxes.length

theorem Sheds.of_audience (H : h.audience.Sound) {next : Host}
    (haudience : next.audience = h.audience)
    (hlength : next.room.boxes.length = h.room.boxes.length) : h.Sheds next :=
  ⟨haudience ▸ H.sheds, hlength⟩

theorem room_establish (env : Environment) (g : Geometry) (repo : Option String) :
    (h.establish env g repo).1.room = h.room := by
  obtain ⟨t, s, -, -, heq⟩ | ⟨workspace, e, heq⟩ | ⟨-, workspace, t, s, -, heq⟩ :=
    h.establish_cases env g repo <;> rw [heq]

theorem room_write (m : Message) : (h.write m).1.room = h.room := by
  rw [write]
  split <;> rfl

theorem room_read : h.read.1.room = h.room := by
  rw [read]
  split <;> rfl

theorem room_resize (g : Geometry) : (h.resize g).1.room = h.room := by
  rw [resize]
  split <;> rfl

/-- What is told to the audience by a terminal has at most some of it evicted. -/
theorem sheds_onTerminal (H : h.audience.Sound) {f : Terminal → Mailroom → Terminal × Mailroom}
    (hf : ∀ t room, ((f t room).1.subscribers = t.subscribers ∧ (f t room).2 = room)
      ∨ ∃ m, (f t room).1.subscribers = (t.subscribers.broadcast room m).1
        ∧ (f t room).2 = (t.subscribers.broadcast room m).2.1) :
    h.Sheds (h.onTerminal f) := by
  rw [onTerminal]
  cases ht : h.terminal with
  | none => exact .of_audience H rfl rfl
  | some t =>
    rcases hf t h.room with ⟨hsame, hroom⟩ | ⟨m, htold, hroom⟩
    · apply Sheds.of_audience H
      · rw [audience_of_some ht, ← hsame]
        rfl
      · exact congrArg (fun room => room.boxes.length) hroom
    · constructor
      · have told := H.sheds_broadcast h.room m
        rw [audience_of_some ht, ← htold] at told
        rwa [audience_of_some ht]
      · have kept := Subscribers.length_post h.room m t.subscribers.members
        exact (congrArg (fun room => room.boxes.length) hroom).trans kept

theorem sheds_perform (H : h.audience.Sound) (env : Environment) (a : Errand) :
    h.Sheds (h.perform env a) := by
  have keeps {next : Host} (haudience : next.audience = h.audience) (hroom : next.room = h.room) :
      h.Sheds next := .of_audience H haudience (by rw [hroom])
  cases a with
  | nothing => exact keeps rfl rfl
  | terminal g repo => exact keeps (audience_establish env g repo) (room_establish env g repo)
  | input m => exact keeps (audience_write m) (room_write m)
  | output => exact keeps (audience_congr subscribers_read) room_read
  | exchange m =>
    have written := audience_write (h := h) m
    have room := room_write (h := h) m
    simp only [perform, writeRead]
    split
    · next host heq =>
      rw [heq] at written room
      exact keeps ((audience_congr subscribers_read).trans written) (room_read.trans room)
    · next host e heq =>
      rw [heq] at written room
      exact keeps written room
  | size g => exact keeps (audience_congr (subscribers_resize g)) (room_resize g)
  | print chunk =>
    rw [perform, publish]
    apply sheds_onTerminal H
    intro t room
    rw [Terminal.publish, Terminal.deliver]
    split
    · exact .inl ⟨rfl, rfl⟩
    · exact .inr ⟨_, rfl, rfl⟩
  | exit code =>
    rw [perform, recordExit]
    apply sheds_onTerminal H
    intro t room
    rw [Terminal.recordExit]
    split
    · exact .inl ⟨rfl, rfl⟩
    · exact .inr ⟨_, rfl, rfl⟩
  | fault f =>
    refine keeps (audience_congr ?_) rfl
    rw [perform, setFault, Option.map_map]
    rfl

theorem Sound.perform (H : h.Sound) (env : Environment) (a : Errand) :
    (h.perform env a).Sound :=
  sound_iff.mpr (sheds_perform (sound_iff.mp H) env a).audience.sound

theorem Sound.establish (H : h.Sound) (env : Environment) (g : Geometry) (repo : Option String) :
    (h.establish env g repo).1.Sound := H.perform env (.terminal g repo)

namespace Stream

variable (s : Stream)

theorem sound_attach (H : h.Sound) : (s.attach h).1.Sound := by
  simp only [attach]
  split
  · exact H
  · cases ht : h.terminal with
    | none => simpa [attach?, ht] using H
    | some t =>
      simp only [attach?, ht]
      rintro u ⟨⟩
      exact (H t ht).attach _

theorem sound_opened (H : h.Sound) : (opened h).1.Sound := by
  have created : Sound { h with room := (h.room.create h.queueDepth).1 } := H
  exact sound_attach _ created

theorem sound_endReading (H : h.Sound) : (s.endReading h).1.Sound := by
  simp only [endReading]
  split
  · intro u hu
    obtain ⟨t, ht, rfl⟩ := Option.map_eq_some_iff.mp hu
    exact (H t ht).detach _
  · exact H

theorem sound_establish (H : h.Sound) (env : Environment) (g : Geometry) (repo : Option String) :
    (s.establish h env g repo).1.Sound := by
  have established := H.establish env g repo
  simp only [establish]
  split
  · next host started heq =>
    rw [heq] at established
    apply sound_attach
    split <;> exact established
  · next host e heq =>
    rw [heq] at established
    exact established

theorem sound_input (H : h.Sound) (m : Message) : (s.input h m).1.Sound := by
  have written := (s.sound_attach H).of_map (subscribers_write m)
  simp only [input]
  split
  · next host heq =>
    rw [heq] at written
    exact written
  · next host e heq =>
    rw [heq] at written
    exact written

theorem sound_receive (H : h.Sound) (env : Environment) (frame : Bytes) :
    (s.receive h env frame).1.Sound := by
  simp only [receive]
  split
  · split
    · next m _ =>
      cases m with
      | init g repo => exact s.sound_establish H env g repo
      | data payload => exact s.sound_input H _
      | resize g => exact s.sound_input H _
      | exit code => exact s.sound_endReading H
      | ping | pong | error | status => exact H
    · exact H
  · exact H

theorem sound_hangUp (H : h.Sound) : (s.hangUp h).1.Sound := by
  simp only [hangUp]
  split
  · exact s.sound_endReading H
  · exact H

theorem sound_notice (H : h.Sound) : (s.notice h).1.Sound := by
  simp only [notice]
  split
  · exact s.sound_endReading H
  · exact H

theorem sound_sendNext (H : h.Sound) : (s.sendNext h).1.Sound :=
  H.of_map (congrArg _ (kept_sendNext s h).terminal)

theorem sound_stopWriting (H : h.Sound) : (s.stopWriting h).1.Sound :=
  H.of_map (congrArg _ (kept_stopWriting s h).terminal)

/-- A stream that subscribes changes nothing but the audience, of which nobody is lost, and takes
nothing out of a mailbox. -/
theorem attach_keeps {t : Terminal} (ht : h.terminal = some t) (hsound : t.subscribers.Sound) :
    ∃ u, (s.attach h).1.terminal = some u ∧ u.alone = t.alone
      ∧ t.subscribers.members ⊆ u.subscribers.members
      ∧ u.subscribers.evicted = t.subscribers.evicted
      ∧ ∀ a, h.room.held a <+: (s.attach h).1.room.held a := by
  simp only [attach]
  split
  · exact ⟨t, ht, rfl, List.Subset.refl _, rfl, fun _ => List.prefix_refl _⟩
  · simp only [attach?, ht]
    refine ⟨_, rfl, rfl, ?_, Subscribers.evicted_attach _ _, ?_⟩
    · intro x hx
      exact (hsound.mem_members_attach _ x).mpr (.inr hx)
    · intro a
      cases hc : t.exitCode with
      | none => simp [Terminal.attach, hc]
      | some code => simp [Terminal.attach, hc, Mailroom.held_offer]

end Stream

namespace Station

theorem sound_onStream {st : Station} (H : st.host.Sound) (k : Nat)
    {f : Stream → Host → Host × Stream}
    (hf : ∀ (s : Stream) (h : Host), h.Sound → (f s h).1.Sound) :
    (st.onStream k f).host.Sound := by
  simp only [onStream]
  split
  · exact hf _ _ H
  · exact H

theorem sound_step {st : Station} (H : st.host.Sound) (env : Environment) (e : Event) :
    (st.step env e).host.Sound := by
  cases e with
  | request r =>
    have handled := st.host.handle_fst env true r
    show (st.host.handle env true r).1.Sound
    rw [handled]
    exact H.perform env _
  | openStream => exact Stream.sound_opened H
  | frame k bytes => exact sound_onStream H k fun s _ hs => s.sound_receive hs env bytes
  | hangUp k => exact sound_onStream H k fun s _ hs => s.sound_hangUp hs
  | notice k => exact sound_onStream H k fun s _ hs => s.sound_notice hs
  | send k => exact sound_onStream H k fun s _ hs => s.sound_sendNext hs
  | stop k => exact sound_onStream H k fun s _ hs => s.sound_stopWriting hs
  | print chunk => exact H.perform env (.print chunk)
  | exit code => exact H.perform env (.exit code)
  | fault f => exact H.perform env (.fault f)

end Station

end Host
end TermLink
