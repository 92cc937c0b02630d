import ServerFleet.Main
import ServerFleet.Manager.Session
import ServerFleet.Retry.Playback
import ServerFleet.Event.Channel
import ServerFleet.Client.Error
import ServerFleet.Proofs.Retry.Records
import ServerFleet.Proofs.Manager.Move
import ServerFleet.Proofs.Manager.Roster
import ServerFleet.Proofs.Manager.Inversion
import ServerFleet.Proofs.Manager.Run
import ServerFleet.Proofs.Manager.Reservation
import ServerFleet.Proofs.Manager.Exclusion
import ServerFleet.Proofs.Manager.Deduplication
import ServerFleet.Proofs.Manager.Custody
import ServerFleet.Proofs.Manager.Ending
import ServerFleet.Proofs.Manager.Origin
import ServerFleet.Proofs.Manager.Account
import ServerFleet.Proofs.Manager.Shutdown
import ServerFleet.Proofs.Retry.Timers
import ServerFleet.Proofs.Manager.Timing
import ServerFleet.Proofs.Manager.Tending
import ServerFleet.Proofs.Manager.Ledger
import ServerFleet.Proofs.Manager.Dismissal
import ServerFleet.Proofs.Manager.Lifecycle
import ServerFleet.Proofs.Manager.Fencing
import ServerFleet.Proofs.Manager.Picture
import ServerFleet.Proofs.Retry.Workshop
import ServerFleet.Proofs.Definition.Root
import ServerFleet.Proofs.Manager.Course
import ServerFleet.Proofs.Manager.Backoff
import ServerFleet.Proofs.Config.Servers
import ServerFleet.Proofs.Manager.Solitary
import ServerFleet.Proofs.Manager.Resolution
import ServerFleet.Proofs.Manager.Routing
import ServerFleet.Proofs.Instance.Order
import ServerFleet.Proofs.Manager.Enrolment
import ServerFleet.Proofs.Manager.Overview
import ServerFleet.Proofs.Manager.Succession
import ServerFleet.Proofs.Manager.Locality
import ServerFleet.Proofs.Manager.Independence
import ServerFleet.Proofs.Path.Ancestry
import ServerFleet.Proofs.Tree.Links
import ServerFleet.Proofs.Definition.Patterns
import ServerFleet.Proofs.Definition.Sketch
import ServerFleet.Proofs.Definition.Detection
import ServerFleet.Proofs.Registry.Builtin
import ServerFleet.Proofs.Definition.Separation
import ServerFleet.Proofs.Config.Registry
import ServerFleet.Proofs.Path.Extension
import ServerFleet.Proofs.Registry.History
import ServerFleet.Proofs.Diagnostics.Merging
import ServerFleet.Proofs.Manager.Diagnostics
import ServerFleet.Proofs.Manager.Inquiry
import ServerFleet.Proofs.Event.Accounting
import ServerFleet.Proofs.Launch.Course
import ServerFleet.Proofs.CommandLine.Promise
import ServerFleet.Proofs.Manager.Absence
import ServerFleet.Proofs.Manager.Opening
import ServerFleet.Proofs.Manager.Waiting
import ServerFleet.Proofs.Text.Truncation
import ServerFleet.Proofs.CommandLine.Alignment
import ServerFleet.Proofs.Scan.Tally
import ServerFleet.Proofs.Scan.Walk
import ServerFleet.Proofs.Scan.Counts
import ServerFleet.Proofs.Json.Members
import ServerFleet.Proofs.Toml.Members
import ServerFleet.Proofs.Config.Layering
import ServerFleet.Proofs.Config.Files
import ServerFleet.Proofs.Config.Loading
import ServerFleet.Proofs.Definition.Alternatives
import ServerFleet.Proofs.Path.Respelling
import ServerFleet.Proofs.Instance.Ordered
import ServerFleet.Proofs.Instance.Keys
