import TermLink.Proofs.Gate.Channel

/-!
# The channels of a client

What a client does on one of its channels, and what happens to the session there, is nothing to the
other channels: their sessions come as far as they would have come without it.
-/

namespace TermLink.Gate

namespace Call

theorem isStart_of_mem_heard {typing : Bool} {calls : List Call} {o : Order}
    (ho : o ∈ heard typing calls) : o.isStart = false := by
  induction calls generalizing typing with
  | nil => cases ho
  | cons call rest ih =>
    rcases List.mem_append.mp ho with now | later
    · exact isStart_of_told? (Option.mem_toList.mp now)
    · exact ih later

/-- At most one session is started on a channel that stays open. -/
theorem countP_orders_le (who : String × Verdict) (calls : List Call) :
    (orders who calls).countP Order.isStart ≤ 1 := by
  rcases orders_cases who calls with ⟨-, horders⟩ | ⟨quiet, first, rest, -, -, -, horders⟩
  · simp [horders]
  · have others : (heard true rest).countP Order.isStart = 0 := by
      apply List.countP_eq_zero.mpr
      intro o ho
      simp [isStart_of_mem_heard ho]
    rw [horders, List.countP_cons, others]
    exact Nat.le_refl 1

end Call

namespace Connection

variable {c : Connection} {i : ChannelId} {ch : Channel} {call : Call}

/-- Nothing can be done on a channel that is not open, but to open it. -/
theorem step_of_closed (hch : c.channel? i = none) (call : Call) :
    (c.step i call).order = none ∧ (call ≠ .openChannel → (c.step i call).next = c) := by
  cases call <;> simp [step, hch]

/-- A second session on a channel is refused. -/
theorem step_of_running (hch : c.channel? i = some ch) (hs : ch.started) (hcall : call.starts) :
    c.step i call = { next := c, reply := some .failure } := by
  rw [step_of_channel hch]
  cases call with
  | shell | exec command => simp [onChannel, start, hch, hs]
  | openChannel | terminal | window | data | endOfInput | close => cases hcall

end Connection

namespace Client

/-- What can happen on a channel of a client. -/
inductive Deed where
  /-- The client calls, where `outcome` is what becomes of a dial. -/
  | call (call : Call) (outcome : Dial.Outcome)
  /-- Something happens to the session. -/
  | work (e : Streaming.Event)
  deriving DecidableEq, Repr

/-- The call of a deed. -/
def Deed.call? : Deed → Option Call
  | .call made _ => some made
  | .work _ => none

/-- The calls among deeds. -/
def callsOf (deeds : List (ChannelId × Deed)) : List (ChannelId × Call) :=
  deeds.filterMap fun e => e.2.call?.map fun call => (e.1, call)

@[simp] theorem callsOf_call (i : ChannelId) (call : Call) (outcome : Dial.Outcome)
    (rest : List (ChannelId × Deed)) :
    callsOf ((i, .call call outcome) :: rest) = (i, call) :: callsOf rest := rfl

@[simp] theorem callsOf_work (i : ChannelId) (e : Streaming.Event)
    (rest : List (ChannelId × Deed)) : callsOf ((i, .work e) :: rest) = callsOf rest := rfl

/-- The client after a deed on a channel. -/
def step (backend : Backend) (c : Client) : ChannelId × Deed → Client
  | (i, .call call outcome) => (c.call backend outcome i call).1
  | (i, .work event) => c.onSession i fun s => s.step event

/-- The client after deeds in order. -/
def run (backend : Backend) (c : Client) (deeds : List (ChannelId × Deed)) : Client :=
  deeds.foldl (step backend) c

/-- The client as far as it concerns one channel. -/
def only (c : Client) (i : ChannelId) : Client where
  connection := c.connection.only i
  sessions := c.sessions.filter fun e => e.1 = i

variable (c : Client) (i j : ChannelId) (backend : Backend)

theorem session?_only : (c.only i).session? i = c.session? i := by
  rw [session?, only, lookup_filter fun k => k = i]
  simp [session?]

theorem only_onSession (f : Session → Session) :
    (c.onSession i f).only i = (c.only i).onSession i f := by
  simp only [only, onSession, List.filter_map]
  congr 2
  apply List.filter_congr
  intro e _
  by_cases he : e.1 = i <;> simp [he]

variable {i j} in
theorem only_onSession_of_ne (h : j ≠ i) (f : Session → Session) :
    (c.onSession j f).only i = c.only i := by
  simp only [only, onSession, List.filter_map]
  congr 1
  have names : ∀ e ∈ c.sessions,
      ((fun e : ChannelId × Session => decide (e.1 = i)) ∘
        fun e => if e.1 = j then (j, f e.2) else e) e = decide (e.1 = i) := by
    intro e _
    by_cases he : e.1 = j <;> simp [he]
  rw [List.filter_congr names]
  conv => rhs; rw [← List.map_id (c.sessions.filter fun e => decide (e.1 = i))]
  apply List.map_congr_left
  intro e he
  have hi : e.1 = i := by simpa using (List.mem_filter.mp he).2
  simp [hi, h.symm]

theorem only_obey (outcome : Dial.Outcome) (o : Order) :
    (c.obey backend outcome i o).only i = (c.only i).obey backend outcome i o := by
  cases o with
  | start r => simp [obey, only, List.filter_filter]
  | input | resize | endInput | leave => exact c.only_onSession i _

variable {i j} in
theorem only_obey_of_ne (h : j ≠ i) (outcome : Dial.Outcome) (o : Order) :
    (c.obey backend outcome j o).only i = c.only i := by
  cases o with
  | start r =>
    simp only [obey, only, List.filter_cons, h, decide_false, List.filter_filter]
    congr 1
    apply List.filter_congr
    intro e _
    by_cases he : e.1 = i <;> simp [he, h.symm]
  | input | resize | endInput | leave => exact c.only_onSession_of_ne h _

theorem only_call (outcome : Dial.Outcome) (call : Call) :
    (c.only i).call backend outcome i call =
      ((c.call backend outcome i call).1.only i, (c.call backend outcome i call).2) := by
  have same : (c.only i).connection.step i call = _ := c.connection.only_step i call
  rw [Client.call, Client.call, same]
  dsimp only
  cases (c.connection.step i call).order with
  | none => rfl
  | some o =>
    dsimp only
    rw [only_obey]
    rfl

variable {i j} in
theorem only_call_of_ne (h : j ≠ i) (outcome : Dial.Outcome) (call : Call) :
    (c.call backend outcome j call).1.only i = c.only i := by
  have same := c.connection.only_step_of_ne call h
  rw [Client.call]
  cases (c.connection.step j call).order with
  | none =>
    dsimp only [only]
    rw [same]
  | some o =>
    dsimp only
    rw [only_obey_of_ne _ backend h]
    dsimp only [only]
    rw [same]

theorem only_step (deed : Deed) :
    (c.step backend (i, deed)).only i = (c.only i).step backend (i, deed) := by
  cases deed with
  | call call outcome => exact (congrArg Prod.fst (c.only_call i backend outcome call)).symm
  | work event => exact c.only_onSession i _

variable {i j} in
theorem only_step_of_ne (h : j ≠ i) (deed : Deed) :
    (c.step backend (j, deed)).only i = c.only i := by
  cases deed with
  | call call outcome => exact c.only_call_of_ne backend h outcome call
  | work event => exact c.only_onSession_of_ne h _

/-- Of a run, what concerns a channel is the run of the deeds on it. -/
theorem only_run (deeds : List (ChannelId × Deed)) :
    (c.run backend deeds).only i = (c.only i).run backend (deeds.filter fun e => e.1 = i) := by
  induction deeds generalizing c with
  | nil => rfl
  | cons e rest ih =>
    obtain ⟨j, deed⟩ := e
    rw [run, List.foldl_cons]
    apply (ih _).trans
    by_cases hj : j = i
    · subst hj
      rw [List.filter_cons_of_pos (by simp), only_step]
      rfl
    · rw [List.filter_cons_of_neg (by simpa using hj), c.only_step_of_ne backend hj]

theorem run_append (deeds more : List (ChannelId × Deed)) :
    c.run backend (deeds ++ more) = (c.run backend deeds).run backend more :=
  List.foldl_append

theorem connection_run (deeds : List (ChannelId × Deed)) :
    (c.run backend deeds).connection = (c.connection.run (callsOf deeds)).1 := by
  induction deeds generalizing c with
  | nil => rfl
  | cons e rest ih =>
    obtain ⟨j, deed⟩ := e
    rw [run, List.foldl_cons]
    apply (ih _).trans
    cases deed with
    | call call outcome => rw [step, connection_call]; rfl
    | work event => rfl

theorem callsOf_filter (deeds : List (ChannelId × Deed)) :
    callsOf (deeds.filter fun e => e.1 = i) = (callsOf deeds).filter fun e => e.1 = i := by
  induction deeds with
  | nil => rfl
  | cons e rest ih =>
    obtain ⟨j, deed⟩ := e
    cases deed <;> by_cases hj : j = i <;> simp [hj, ih]

variable {c i} in
/-- On a channel that is not open nothing can be done, but to open it. -/
theorem call_of_closed (hch : c.connection.channel? i = none) (outcome : Dial.Outcome)
    (call : Call) :
    (c.call backend outcome i call).1.sessions = c.sessions
      ∧ (call ≠ .openChannel → (c.call backend outcome i call).1 = c) := by
  obtain ⟨silent, same⟩ := Connection.step_of_closed hch call
  rw [Client.call, silent]
  refine ⟨rfl, fun hcall => ?_⟩
  rw [same hcall]

variable {c i} in
/-- A second session on a channel is refused, and nothing else comes of it. -/
theorem call_of_running {ch : Channel} (hch : c.connection.channel? i = some ch)
    (hs : ch.started) (outcome : Dial.Outcome) {call : Call} (hcall : call.starts) :
    c.call backend outcome i call = (c, some .failure) := by
  rw [Client.call, Connection.step_of_running hch hs hcall]

/-- A channel that was just opened is new, whatever was there before. -/
theorem channel?_run_opening (before : List (ChannelId × Deed)) (outcome : Dial.Outcome) :
    (c.run backend (before ++ [(i, .call .openChannel outcome)])).connection.channel? i =
      some {} := by
  have last : c.run backend (before ++ [(i, .call .openChannel outcome)]) =
      ((c.run backend before).call backend outcome i .openChannel).1 := run_append _ _ _ _
  rw [last, connection_call]
  exact Connection.channel?_of_open _ i

/-- Whatever else goes on, the session of a channel and the orders to it are those of a client that
has only this channel. While the channel is open at most one session is started, with the size last
told on the channel; it is told in order what the client does there, no other one is started, and it
is left when the channel is closed. On a channel that is not open nothing is done. -/
theorem isolated (backend : Backend) (who : String × Verdict) (i : ChannelId)
    (deeds : List (ChannelId × Deed)) :
    let fresh : Client := { connection := { identity := some who } }
    let last := fresh.run backend deeds
    let alone := deeds.filter fun e => e.1 = i
    last.session? i = (fresh.run backend alone).session? i
      ∧ ofChannel i (fresh.connection.run (callsOf deeds)).2 =
        ofChannel i (fresh.connection.run (callsOf alone)).2
      ∧ (Call.leaveOpen (ofChannel i (callsOf deeds)) = false → ∀ outcome call,
        (last.call backend outcome i call).1.sessions = last.sessions
          ∧ (call ≠ .openChannel → (last.call backend outcome i call).1 = last))
      ∧ ∀ before outcome after, deeds = before ++ (i, .call .openChannel outcome) :: after →
        (∀ call ∈ ofChannel i (callsOf after), call.bounds = false) →
          let opened := fresh.run backend (before ++ [(i, .call .openChannel outcome)])
          let calls := ofChannel i (callsOf after)
          let orders := ofChannel i (opened.connection.run (callsOf after)).2
          orders = Call.orders who calls ∧ orders.countP Order.isStart ≤ 1
            ∧ (calls.any Call.starts → ∀ outcome call, call.starts →
              last.call backend outcome i call = (last, some .failure))
            ∧ (last.connection.step i .close).order =
              if calls.any Call.starts then some .leave else none := by
  intro fresh last alone
  refine ⟨?_, ?_, ?_, ?_⟩
  · rw [← session?_only, only_run]
    rfl
  · have orders := fresh.connection.only_run i (callsOf deeds)
    have quiet : fresh.connection.only i = fresh.connection := rfl
    rw [callsOf_filter, ← quiet, orders, quiet]
    simp [ofChannel]
  · intro hclosed outcome call
    have closed : last.connection.channel? i = none := by
      rw [connection_run, ← Option.not_isSome_iff_eq_none,
        Connection.isSome_channel?_run rfl, hclosed]
      exact Bool.false_ne_true
    exact call_of_closed backend closed outcome call
  · rintro before outcome after rfl hbounds opened calls orders
    have split : last = opened.run backend after := by
      rw [← run_append, List.append_assoc, List.singleton_append]
    have hid : opened.connection.identity = some who := by
      rw [connection_run, Connection.identity_run]
    have begun : opened.connection.channel? i = some {} :=
      fresh.channel?_run_opening i backend before outcome
    obtain ⟨⟨ch, hch, hstarted, -⟩, horders⟩ := Connection.run_opened hid begun hbounds
    rw [← connection_run, ← split] at hch
    refine ⟨horders, ?_, ?_, ?_⟩
    · rw [show orders = _ from horders]
      exact Call.countP_orders_le who calls
    · intro hany outcome call hcall
      exact call_of_running backend hch (hstarted.trans hany) outcome hcall
    · rw [Connection.step_of_channel hch, ← hstarted]
      rfl

/-- The client types on one channel while another one is opened, refused a session and closed. -/
theorem isolated_beside_another :
    let backend : Backend := { url := "ws://edge/ws" }
    let who : String × Verdict := ("key", .accepted)
    let after : List (ChannelId × Deed) :=
      [(1, .call .openChannel .opened), (0, .call (.terminal ⟨80, 24⟩) .opened),
        (1, .call .shell .opened), (0, .call .shell .opened), (0, .call (.data [104]) .opened),
        (1, .call .close .opened), (0, .work .forwardInput), (0, .call .endOfInput .opened),
        (0, .call (.data [105]) .opened)]
    let fresh : Client := { connection := { identity := some who } }
    let opened := fresh.run backend [(0, .call .openChannel .opened)]
    let last := fresh.run backend ((0, .call .openChannel .opened) :: after)
    ofChannel 0 (opened.connection.run (callsOf after)).2 =
        [.start
          { fingerprint := some "key", verdict := some .accepted, size := some ⟨80, 24⟩
            repo := none },
          .input [104], .endInput]
      ∧ last.call backend .opened 0 .shell = (last, some .failure)
      ∧ (last.call backend .opened 1 (.data [106])).1 = last := by
  intro backend who after fresh opened last
  obtain ⟨-, -, -, life⟩ := isolated backend who 0 ((0, .call .openChannel .opened) :: after)
  obtain ⟨horders, -, hrefused, -⟩ := life [] .opened after rfl (by decide)
  obtain ⟨-, -, hclosed, -⟩ := isolated backend who 1 ((0, .call .openChannel .opened) :: after)
  refine ⟨?_, hrefused (by decide) .opened .shell rfl, ?_⟩
  · rw [List.nil_append] at horders
    exact horders
  · exact (hclosed (by decide) .opened (.data [106])).2 (by decide)

end Client
end TermLink.Gate
