import TermLink.Proofs.Gate.Client
import TermLink.Proofs.Sequence
import Mathlib.Data.List.Induction

/-!
# Channels

What becomes of a channel depends on the calls that name it and on nothing else. While it is open
there is at most one session on it, which is started with the size last told, and from then on is
told what the client does on the channel.
-/

namespace TermLink.Gate

/-- Whether an order starts a session. -/
def Order.isStart : Order → Bool
  | .start _ => true
  | _ => false

namespace Call

/-- Whether a call opens or closes a channel. -/
def bounds : Call → Bool
  | .openChannel | .close => true
  | _ => false

/-- Whether a channel is open after calls on it. -/
def leaveOpen (calls : List Call) : Bool := (calls.filter bounds).getLast? = some .openChannel

/-- Whether a call asks for a session. -/
def starts : Call → Bool
  | .shell | .exec _ => true
  | _ => false

/-- The repository that a call asks for. -/
def repo? : Call → Option String
  | .exec command => Selector.ofCommand? (Utf8.decodeLossy command)
  | _ => none

/-- The size that a call tells. -/
def size? : Call → Option Geometry
  | .terminal size | .window size => some size
  | _ => none

/-- The size last told. -/
def lastSize (calls : List Call) : Option Geometry := (calls.filterMap size?).getLast?

/-- What a session that runs is told of a call that leaves its channel open. -/
def told? (typing : Bool) : Call → Option Order
  | .data chunk => if typing then some (.input chunk) else none
  | .window size => some (.resize size)
  | .endOfInput => if typing then some .endInput else none
  | _ => none

/-- What a session that runs is told of the calls on its channel. After the end of the input there
is no more input. -/
def heard (typing : Bool) : List Call → List Order
  | [] => []
  | call :: rest => (call.told? typing).toList ++ heard (typing && call ≠ .endOfInput) rest

/-- The orders that come of the calls on a channel since it was opened. -/
def orders (who : String × Verdict) (calls : List Call) : List Order :=
  match calls.dropWhile fun call => !call.starts with
  | [] => []
  | first :: rest =>
    .start
      { fingerprint := some who.1, verdict := some who.2
        size := lastSize (calls.takeWhile fun call => !call.starts), repo := first.repo? }
      :: heard true rest

theorem isStart_of_told? {typing : Bool} {call : Call} {o : Order}
    (h : call.told? typing = some o) : o.isStart = false := by
  cases call with
  | window size =>
    cases h
    rfl
  | data | endOfInput =>
    rw [told?] at h
    split at h <;> cases h
    rfl
  | openChannel | terminal | shell | exec | close => cases h

/-- Either no session is asked for, or the first call for one starts it. -/
theorem orders_cases (who : String × Verdict) (calls : List Call) :
    ((∀ call ∈ calls, call.starts = false) ∧ orders who calls = [])
      ∨ ∃ quiet first rest, calls = quiet ++ first :: rest
        ∧ (∀ call ∈ quiet, call.starts = false) ∧ first.starts
        ∧ orders who calls =
          .start
            { fingerprint := some who.1, verdict := some who.2
              size := lastSize quiet, repo := first.repo? }
            :: heard true rest := by
  have silent : ∀ call ∈ calls.takeWhile fun call => !call.starts, call.starts = false := by
    intro call hcall
    simpa using List.mem_takeWhile_imp hcall
  have split := List.takeWhile_append_dropWhile (p := fun call => !call.starts) (l := calls)
  cases hrest : calls.dropWhile fun call => !call.starts with
  | nil =>
    rw [hrest, List.append_nil] at split
    rw [split] at silent
    exact .inl ⟨silent, by rw [orders, hrest]⟩
  | cons first rest =>
    rw [hrest] at split
    have asks := List.head?_dropWhile_not (fun call => !call.starts) calls
    rw [hrest] at asks
    exact .inr ⟨_, first, rest, split.symm, silent, by simpa using asks, by rw [orders, hrest]⟩

theorem lastSize_cons (call : Call) (rest : List Call) :
    lastSize (call :: rest) = (lastSize rest).or call.size? := by
  rw [lastSize, lastSize, List.filterMap_cons]
  cases call.size? with
  | none => simp
  | some size => simp [List.getLast?_cons]

end Call

/-- What is there for one channel, in order. -/
def ofChannel {α : Type} (i : ChannelId) (entries : List (ChannelId × α)) : List α :=
  (entries.filter fun e => e.1 = i).map Prod.snd

theorem filter_eq_map_ofChannel {α : Type} (i : ChannelId) (entries : List (ChannelId × α)) :
    (entries.filter fun e => e.1 = i) = (ofChannel i entries).map fun a => (i, a) := by
  rw [ofChannel, List.map_map]
  conv => lhs; rw [← List.map_id (entries.filter fun e => e.1 = i)]
  apply List.map_congr_left
  rintro ⟨j, a⟩ he
  simp_all

theorem ofChannel_map {α : Type} (i : ChannelId) (found : List α) :
    ofChannel i (found.map fun a => (i, a)) = found := by
  simp [ofChannel, List.filter_map, Function.comp_def]

namespace Connection

variable (c : Connection) (i j : ChannelId) (ch : Channel) (call : Call)

theorem channel?_put : (c.put i ch).channel? j = if j = i then some ch else c.channel? j := by
  by_cases h : j = i
  · simp [channel?, put, h]
  · have hne : (j == i) = false := beq_false_of_ne h
    rw [channel?, put, drop, List.lookup_cons, hne, lookup_filter fun k => k ≠ i]
    simp [h, channel?]

theorem channel?_drop : (c.drop i).channel? j = if j = i then none else c.channel? j := by
  rw [channel?, drop, lookup_filter fun k => k ≠ i]
  by_cases h : j = i <;> simp [h, channel?]

/-- The connection as far as it concerns one channel. -/
def only : Connection := { c with channels := c.channels.filter fun e => e.1 = i }

theorem channel?_only : (c.only i).channel? i = c.channel? i := by
  rw [channel?, only, lookup_filter fun k => k = i]
  simp [channel?]

theorem only_drop : (c.drop i).only i = (c.only i).drop i := by
  simp [only, drop, List.filter_filter]

theorem only_put : (c.put i ch).only i = (c.only i).put i ch := by
  simp [only, put, drop, List.filter_filter]

variable {i j} in
theorem only_drop_of_ne (h : j ≠ i) : (c.drop j).only i = c.only i := by
  simp only [only, drop, List.filter_filter]
  congr 1
  apply List.filter_congr
  intro e he
  by_cases hi : e.1 = i <;> simp [hi, h.symm]

variable {i j} in
theorem only_put_of_ne (h : j ≠ i) : (c.put j ch).only i = c.only i := by
  have others := c.only_drop_of_ne h
  simp only [only, put, List.filter_cons, h, decide_false] at others ⊢
  exact others

/-- A call leaves the connection as it is, or changes the channel that it names, or removes it. -/
theorem next_step : (c.step i call).next = c
    ∨ (∃ ch, (c.step i call).next = c.put i ch) ∨ (c.step i call).next = c.drop i := by
  cases hch : c.channel? i with
  | none => cases call <;> simp [step, hch]
  | some ch =>
    rw [step_of_channel hch]
    cases call with
    | shell | exec command =>
      simp only [onChannel, start, hch]
      split <;> simp
    | endOfInput =>
      rw [onChannel]
      split <;> simp
    | openChannel | terminal | window | data | close => simp [onChannel]

variable {i j} in
theorem only_step_of_ne (h : j ≠ i) : (c.step j call).next.only i = c.only i := by
  obtain hsame | ⟨ch, hput⟩ | hdrop := c.next_step j call
  · rw [hsame]
  · rw [hput, c.only_put_of_ne ch h]
  · rw [hdrop, c.only_drop_of_ne h]

theorem request_only (repo : Option String) : (c.only i).request ch repo = c.request ch repo := rfl

/-- What comes of a call on a channel is the same where there are no other channels. -/
theorem only_step : (c.only i).step i call =
    { c.step i call with next := (c.step i call).next.only i } := by
  have same := c.channel?_only i
  cases hch : c.channel? i with
  | none =>
    rw [hch] at same
    cases call <;> simp [step, hch, same, only_put]
  | some ch =>
    rw [hch] at same
    rw [step_of_channel same, step_of_channel hch]
    cases call with
    | shell | exec command =>
      simp only [onChannel, start, hch, same]
      split <;> simp [only_put, request_only]
    | endOfInput =>
      simp only [onChannel]
      split <;> simp [only_put]
    | openChannel | terminal | window | data | close => simp [onChannel, only_put, only_drop]

/-- Of a run, what concerns a channel is the run of the calls that name it. -/
theorem only_run (calls : List (ChannelId × Call)) :
    (c.only i).run (calls.filter fun e => e.1 = i) =
      ((c.run calls).1.only i, (c.run calls).2.filter fun e => e.1 = i) := by
  induction calls generalizing c with
  | nil => rfl
  | cons e rest ih =>
    obtain ⟨j, call⟩ := e
    by_cases hj : j = i
    · subst hj
      rw [List.filter_cons_of_pos (by simp), run, only_step]
      dsimp only
      rw [ih, run]
      cases (c.step j call).order <;> simp
    · rw [List.filter_cons_of_neg (by simpa using hj), ← c.only_step_of_ne call hj, ih, run]
      cases (c.step j call).order <;> simp [hj]

theorem run_append (calls more : List (ChannelId × Call)) :
    c.run (calls ++ more) =
      (((c.run calls).1.run more).1, (c.run calls).2 ++ ((c.run calls).1.run more).2) := by
  induction calls generalizing c with
  | nil => rfl
  | cons e rest ih =>
    rw [List.cons_append, run, run]
    dsimp only
    rw [ih, List.append_assoc]

theorem identity_run (calls : List (ChannelId × Call)) : (c.run calls).1.identity = c.identity := by
  induction calls generalizing c with
  | nil => rfl
  | cons e rest ih => exact (ih _).trans (c.identity_step e.1 e.2)

variable {c i ch call}

/-- What a call on an open channel does, unless it opens or closes the channel. -/
theorem step_within (hch : c.channel? i = some ch) (hcall : call.bounds = false) :
    (c.step i call).next.channel? i =
        some
          { size := call.size?.or ch.size, started := ch.started || call.starts
            typing := ch.typing && !(ch.started && call = .endOfInput) }
      ∧ (c.step i call).order =
        if ch.started then call.told? ch.typing
        else if call.starts then some (.start (c.request ch call.repo?)) else none := by
  obtain ⟨size, started, typing⟩ := ch
  rw [step_of_channel hch]
  cases call with
  | openChannel | close => cases hcall
  | terminal size | window size =>
    simp [onChannel, channel?_put, Call.size?, Call.starts, Call.told?]
  | shell | exec command =>
    cases started <;>
      simp [onChannel, start, hch, channel?_put, Call.size?, Call.starts, Call.told?, Call.repo?]
  | data chunk =>
    cases started <;> simp [onChannel, hch, Call.size?, Call.starts, Call.told?]
  | endOfInput =>
    cases started <;> cases typing <;>
      simp [onChannel, hch, channel?_put, Call.size?, Call.starts, Call.told?]

variable {calls : List Call}

/-- Until a session is asked for there is none, and the size last told is kept. -/
theorem run_quiet (hch : c.channel? i = some ch) (hs : ch.started = false)
    (hbounds : ∀ call ∈ calls, call.bounds = false) (hquiet : ∀ call ∈ calls, call.starts = false) :
    (c.run (calls.map fun call => (i, call))).1.channel? i =
        some { ch with size := (Call.lastSize calls).or ch.size }
      ∧ (c.run (calls.map fun call => (i, call))).2 = [] := by
  induction calls generalizing c ch with
  | nil => exact ⟨hch, rfl⟩
  | cons call rest ih =>
    obtain ⟨size, started, typing⟩ := ch
    obtain rfl : started = false := hs
    obtain ⟨kept, silent⟩ := step_within hch (hbounds call (by simp))
    have quiet := hquiet call (by simp)
    simp only [quiet, Bool.false_or, Bool.false_and, Bool.not_false, Bool.and_true] at kept
    simp only [quiet, Bool.false_eq_true, if_false] at silent
    obtain ⟨later, nothing⟩ := ih kept rfl (fun call h => hbounds call (List.mem_cons_of_mem _ h))
      (fun call h => hquiet call (List.mem_cons_of_mem _ h))
    rw [List.map_cons, run]
    dsimp only
    rw [later, nothing, silent, Call.lastSize_cons, Option.or_assoc]
    exact ⟨rfl, rfl⟩

/-- A session that runs is told of the calls on its channel, and no other one is started. -/
theorem run_started (hch : c.channel? i = some ch) (hs : ch.started)
    (hbounds : ∀ call ∈ calls, call.bounds = false) :
    (∃ last, (c.run (calls.map fun call => (i, call))).1.channel? i = some last ∧ last.started)
      ∧ (c.run (calls.map fun call => (i, call))).2 =
        (Call.heard ch.typing calls).map fun o => (i, o) := by
  induction calls generalizing c ch with
  | nil => exact ⟨⟨ch, hch, hs⟩, rfl⟩
  | cons call rest ih =>
    obtain ⟨size, started, typing⟩ := ch
    obtain rfl : started = true := hs
    obtain ⟨kept, told⟩ := step_within hch (hbounds call (by simp))
    obtain ⟨later, orders⟩ := ih kept rfl fun call h => hbounds call (List.mem_cons_of_mem _ h)
    rw [List.map_cons, run]
    dsimp only
    refine ⟨later, ?_⟩
    rw [orders, told, Call.heard]
    cases call.told? typing <;> simp

/-- What comes of the calls on a channel from the moment when it was opened. -/
theorem run_within {who : String × Verdict} (hid : c.identity = some who)
    (hch : c.channel? i = some {}) (hbounds : ∀ call ∈ calls, call.bounds = false) :
    (∃ last, (c.run (calls.map fun call => (i, call))).1.channel? i = some last
        ∧ last.started = calls.any Call.starts
        ∧ (last.started = false → last.size = Call.lastSize calls))
      ∧ (c.run (calls.map fun call => (i, call))).2 =
        (Call.orders who calls).map fun o => (i, o) := by
  rcases Call.orders_cases who calls with
    ⟨quiet, horders⟩ | ⟨before, first, rest, rfl, quiet, hfirst, horders⟩
  · obtain ⟨kept, nothing⟩ := run_quiet hch rfl hbounds quiet
    rw [kept, nothing, horders]
    refine ⟨⟨_, rfl, ?_, fun _ => Option.or_none⟩, rfl⟩
    exact (List.any_eq_false.mpr fun call h => by simp [quiet call h]).symm
  · obtain ⟨kept, nothing⟩ := run_quiet hch rfl
      (fun call h => hbounds call (List.mem_append_left _ h)) quiet
    rw [Option.or_none] at kept
    obtain ⟨begun, order⟩ := step_within kept (hbounds first (by simp))
    rw [hfirst] at begun order
    have within : ∀ call ∈ rest, call.bounds = false := by
      intro call h
      exact hbounds call (by simp [h])
    obtain ⟨⟨last, hlast, running⟩, told⟩ := run_started begun rfl within
    rw [List.map_append, run_append, List.map_cons, run]
    dsimp only
    rw [nothing, order, told, horders]
    refine ⟨⟨last, hlast, ?_, ?_⟩, ?_⟩
    · rw [running, List.any_append, List.any_cons, hfirst, Bool.true_or, Bool.or_true]
    · intro idle
      rw [running] at idle
      cases idle
    · simp [request, hid, identity_run]

/-- From the moment when a channel was opened, the orders to its session come of the calls that name
it. -/
theorem run_opened {who : String × Verdict} (hid : c.identity = some who)
    (hch : c.channel? i = some {}) {calls : List (ChannelId × Call)}
    (hbounds : ∀ call ∈ ofChannel i calls, call.bounds = false) :
    (∃ last, (c.run calls).1.channel? i = some last
        ∧ last.started = (ofChannel i calls).any Call.starts
        ∧ (last.started = false → last.size = Call.lastSize (ofChannel i calls)))
      ∧ ofChannel i (c.run calls).2 = Call.orders who (ofChannel i calls) := by
  have alone := c.only_run i calls
  rw [filter_eq_map_ofChannel, filter_eq_map_ofChannel] at alone
  have hid' : (c.only i).identity = some who := hid
  obtain ⟨last, orders⟩ := run_within hid' ((c.channel?_only i).trans hch) hbounds
  rw [alone] at last orders
  dsimp only at last orders
  rw [channel?_only] at last
  refine ⟨last, ?_⟩
  rw [← ofChannel_map i (ofChannel i (c.run calls).2), orders, ofChannel_map]

theorem channel?_of_open (c : Connection) (i : ChannelId) :
    (c.step i .openChannel).next.channel? i = some {} := by
  cases hch : c.channel? i with
  | none => simp [step, hch, channel?_put]
  | some ch => simp [step_of_channel hch, onChannel, channel?_put]

theorem isSome_channel?_step (c : Connection) (i : ChannelId) (call : Call) :
    ((c.step i call).next.channel? i).isSome =
      if call.bounds then decide (call = .openChannel) else (c.channel? i).isSome := by
  cases hch : c.channel? i with
  | none => cases call <;> simp [step, hch, Call.bounds, channel?_put]
  | some ch =>
    cases hb : call.bounds with
    | false => simp [(step_within hch hb).1]
    | true =>
      rw [step_of_channel hch]
      cases call <;> simp_all [Call.bounds, onChannel, channel?_put, channel?_drop]

/-- A channel that was not open is open just when the last call that opened or closed it opened
it. -/
theorem isSome_channel?_run (hch : c.channel? i = none) (calls : List (ChannelId × Call)) :
    ((c.run calls).1.channel? i).isSome = Call.leaveOpen (ofChannel i calls) := by
  induction calls using List.reverseRecOn with
  | nil =>
    rw [run, hch]
    rfl
  | append_singleton before e ih =>
    obtain ⟨j, call⟩ := e
    rw [run_append, run]
    dsimp only
    by_cases hj : j = i
    · subst hj
      have last : ofChannel j (before ++ [(j, call)]) = ofChannel j before ++ [call] := by
        simp [ofChannel]
      rw [last, run, isSome_channel?_step, Call.leaveOpen, List.filter_append]
      cases hb : call.bounds <;> simp [hb, ih, Call.leaveOpen]
    · have last : ofChannel i (before ++ [(j, call)]) = ofChannel i before := by
        simp [ofChannel, hj]
      have same := (c.run before).1.only_step_of_ne call hj
      rw [last, run, ← ih, ← channel?_only, same, channel?_only]

end Connection
end TermLink.Gate
