import TermLink.Proofs.Frame
import TermLink.Proofs.Host.Basic

/-!
# What a frame asks for

What a gate can ask of a session that has a terminal, in whichever way the session reaches it, and
what the input among it makes of the terminal.
-/

namespace TermLink

/-- Input for a terminal that runs. -/
inductive Input where
  | bytes (payload : Bytes)
  | size (g : Geometry)
  deriving DecidableEq, Repr

/-- The message that carries an input. -/
def Input.message : Input → Message
  | .bytes payload => .data payload
  | .size g => .resize g

/-- What is asked of a session. -/
inductive Deed where
  | nothing
  | input (i : Input)
  | answer (timestamp : Int64)
  | leave
  deriving DecidableEq, Repr

/-- What a message asks of a session that has its terminal. -/
def Message.deed : Message → Deed
  | .data payload => .input (.bytes payload)
  | .resize size => .input (.size size)
  | .init size _ => .input (.size size)
  | .ping timestamp => .answer timestamp
  | .exit _ => .leave
  | .pong _ | .error _ | .status _ => .nothing

/-- What a frame asks of a session that has its terminal. -/
def Frame.deed : Frame → Deed
  | .text payload | .binary payload =>
    match Message.decode? payload with
    | some m => m.deed
    | none => .nothing
  | .signal => .nothing
  | .close => .leave

/-- A pseudo-terminal that was given an input. -/
def Pty.given (p : Pty) : Input → Pty
  | .bytes payload => { p with input := p.input ++ payload }
  | .size g => { p with size := g.resolve }

@[simp] theorem Pty.fault_given (p : Pty) (i : Input) : (p.given i).fault = p.fault := by
  cases i <;> rfl

/-- A terminal that runs takes every input, where no operation on its pseudo-terminal fails. -/
theorem Host.write_input {h : Host} {t : Terminal} (ht : h.terminal = some t)
    (hr : t.running = true) (hf : t.pty.fault = none) (i : Input) :
    h.write i.message = ({ h with terminal := some { t with pty := t.pty.given i } }, .ok ()) := by
  cases i with
  | bytes payload => exact write_data_of_running ht hr hf payload
  | size g => exact write_resize ht hf g

end TermLink
