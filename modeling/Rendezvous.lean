import Rendezvous.Main
import Rendezvous.Network.Inquiry
import Rendezvous.Network.Line
import Rendezvous.Proofs.Wire.Delivery
import Rendezvous.Proofs.Host
import Rendezvous.Proofs.Session.Consistency.Basic
import Rendezvous.Proofs.Session.Consistency.Calls
import Rendezvous.Proofs.Session.Consistency.Runs
import Rendezvous.Proofs.Session.Episode.Reports
import Rendezvous.Proofs.Session.Episode.Runs
import Rendezvous.Proofs.Session.Timing
import Rendezvous.Proofs.Session.Change
import Rendezvous.Proofs.Session.Sound
import Rendezvous.Proofs.Session.Stale
import Rendezvous.Proofs.Session.Copy
import Rendezvous.Proofs.Session.Restart.Above
import Rendezvous.Proofs.Session.Restart.Lift
import Rendezvous.Proofs.Session.Restart.Runs
import Rendezvous.Proofs.Session.Polling.Reading
import Rendezvous.Proofs.Session.Polling.Reports
import Rendezvous.Proofs.Session.Polling.Runs
import Rendezvous.Proofs.Session.Departure.Leaving
import Rendezvous.Proofs.Session.Departure.Steps
import Rendezvous.Proofs.Session.Departure.Runs
import Rendezvous.Proofs.Network.Answers
import Rendezvous.Proofs.Network.Client
import Rendezvous.Proofs.Network.Outcomes
import Rendezvous.Proofs.Session.Record.Exchanges
import Rendezvous.Proofs.Session.Record.LongPoll
import Rendezvous.Proofs.Retry
import Rendezvous.Proofs.Headless
import Rendezvous.Proofs.Session.Endpoint.Runs
import Rendezvous.Proofs.Session.Veil.Runs
import Rendezvous.Proofs.Session.Answering.Basic
import Rendezvous.Proofs.Session.Answering.Delivery
import Rendezvous.Proofs.Session.Answering.SignIn
import Rendezvous.Proofs.Session.Polling.Notices
import Rendezvous.Proofs.Session.Polling.Draining
import Rendezvous.Proofs.Wire.Limit
import Rendezvous.Proofs.Session.Capacity
import Rendezvous.Proofs.Wire.Reader
import Rendezvous.Proofs.Wire.SignIn
import Rendezvous.Proofs.Peer.Lines
import Rendezvous.Proofs.Peer.Directory
import Rendezvous.Proofs.Session.OwnId
import Rendezvous.Proofs.Config.Layers
import Rendezvous.Proofs.Config.Usable
import Rendezvous.Proofs.Link.Command
import Rendezvous.Proofs.Session.Presence.Runs
