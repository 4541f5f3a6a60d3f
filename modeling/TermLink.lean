import TermLink.Checkout.Remotes
import TermLink.Edge.Entrance
import TermLink.Edge.Pipe
import TermLink.Edge.Poll
import TermLink.Edge.Reception
import TermLink.Gate.Client
import TermLink.Host.Process
import TermLink.Host.Station
import TermLink.Http.Target
import TermLink.Keyring.Report
import TermLink.Main
import TermLink.Network
import TermLink.Proofs.Audience.Delivery
import TermLink.Proofs.Backlog
import TermLink.Proofs.Checkout.Name
import TermLink.Proofs.Checkout.Origin
import TermLink.Proofs.Checkout.Prepared
import TermLink.Proofs.Fetching
import TermLink.Proofs.Gate.Crowd
import TermLink.Proofs.Gate.Directory
import TermLink.Proofs.Gate.Duty
import TermLink.Proofs.Gate.Isolation
import TermLink.Proofs.Gate.Lane
import TermLink.Proofs.Gate.Lobby
import TermLink.Proofs.Gate.Passage
import TermLink.Proofs.Gate.Sizing
import TermLink.Proofs.Gate.Transcript
import TermLink.Proofs.Host.Audience
import TermLink.Proofs.Host.Closing
import TermLink.Proofs.Host.Fetched
import TermLink.Proofs.Host.Input
import TermLink.Proofs.Host.Malformed
import TermLink.Proofs.Host.Process
import TermLink.Proofs.Host.Refusal
import TermLink.Proofs.Message.Lines
import TermLink.Proofs.Message.Payload
import TermLink.Proofs.Message.Row
import TermLink.Proofs.Message.Written
import TermLink.Proofs.Noise
import TermLink.Proofs.Roster
import TermLink.Proofs.Selector.Basic
import TermLink.Proofs.Selector.Clean
import TermLink.Proofs.Selector.Spelling
import TermLink.Proofs.Session.Modes
import TermLink.Proofs.Session.Secret
import TermLink.Proofs.Session.Shown
import TermLink.Startup
