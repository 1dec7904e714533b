import HttpServer.CommandLine
import HttpServer.Connection.History
import HttpServer.Event.Poller
import HttpServer.Main
import HttpServer.Proofs.Connection.Transcript
import HttpServer.Proofs.Message.Fragmentation
import HttpServer.Proofs.Time.Refinement
import HttpServer.Reactor.Run
import HttpServer.Worker.Schedule
import HttpServer.Proofs.Reactor.Links
import HttpServer.Proofs.Reactor.Upkeep
import HttpServer.Proofs.Connection.Turns
import HttpServer.Proofs.Reactor.Accounting
import HttpServer.Proofs.Reactor.Abandonment
import HttpServer.Proofs.Buffer.Block
import HttpServer.Proofs.Buffer.Queue
import HttpServer.Proofs.Message.Acceptance
import HttpServer.Proofs.Connection.Succession
import HttpServer.Proofs.Site.Confinement
import HttpServer.Proofs.Site.Disclosure
import HttpServer.Proofs.Connection.Failure
import HttpServer.Proofs.Store.Conservation
import HttpServer.Proofs.Worker.Completion
import HttpServer.Proofs.Reactor.Expiry
import HttpServer.Proofs.Site.Selection
import HttpServer.Proofs.Config.RoundTrip
import HttpServer.Proofs.Connection.Backlog
import HttpServer.Proofs.Connection.Writing
import HttpServer.Proofs.Site.Announcement
import HttpServer.Proofs.Message.BodyEnd
import HttpServer.Proofs.Config.IdleTimeout
import HttpServer.Proofs.Worker.Wakeups
import HttpServer.Proofs.Log.Agreement
import HttpServer.Proofs.Time.Repair
