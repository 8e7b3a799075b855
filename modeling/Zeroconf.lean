import Zeroconf.Address
import Zeroconf.Address.Reader
import Zeroconf.Command.Arguments
import Zeroconf.Command.Presentation
import Zeroconf.Command.Run
import Zeroconf.Error
import Zeroconf.Fanout
import Zeroconf.Inbox
import Zeroconf.Inquiry
import Zeroconf.Inquiry.Merge
import Zeroconf.Label
import Zeroconf.Link
import Zeroconf.Lookup
import Zeroconf.Lookup.Scripted
import Zeroconf.Main
import Zeroconf.Message
import Zeroconf.Message.Reader
import Zeroconf.Message.Reader.Payload
import Zeroconf.Message.Reader.Primitive
import Zeroconf.Message.Writer
import Zeroconf.Metric
import Zeroconf.Name
import Zeroconf.Name.HostText
import Zeroconf.Name.Idna
import Zeroconf.Name.Idna.Repertoire
import Zeroconf.Name.LinkLocal
import Zeroconf.Name.Reverse
import Zeroconf.Nameserver.Exchange
import Zeroconf.Nameserver.ResolvConf
import Zeroconf.Outcome
import Zeroconf.Peer
import Zeroconf.Peer.Scripted
import Zeroconf.Querier
import Zeroconf.QueryIds
import Zeroconf.Reception
import Zeroconf.Reply
import Zeroconf.Service
import Zeroconf.Settings
import Zeroconf.Settings.Coercion
import Zeroconf.Settings.Load
import Zeroconf.Settings.Toml
import Zeroconf.Settings.Toml.Datetime
import Zeroconf.Settings.Toml.Document
import Zeroconf.Settings.Toml.Scalar
import Zeroconf.Settings.Value
import Zeroconf.Settings.Writer
import Zeroconf.Station
import Zeroconf.Text.Ascii
import Zeroconf.Text.Decimal
import Zeroconf.Text.Hex
import Zeroconf.Text.Numeric
import Zeroconf.Text.Punycode
import Zeroconf.Text.Space
import Zeroconf.Text.Utf8
import Zeroconf.Transport.Connections
import Zeroconf.Transport.Frame
import Zeroconf.Transport.Health
import Zeroconf.Transport.Host
import Zeroconf.Transport.Interface
import Zeroconf.Transport.Packet
import Zeroconf.Transport.Processor
import Zeroconf.Verbosity
import Zeroconf.Waiter
import Zeroconf.Work.Crew
import Zeroconf.Work.Pool
import Zeroconf.Work.Timetable
import Zeroconf.Proofs.Inquiry.Merge
import Zeroconf.Proofs.Inquiry.Arrival
import Zeroconf.Proofs.Inquiry.Course
import Zeroconf.Proofs.Reception
import Zeroconf.Proofs.Inquiry.Completion
import Zeroconf.Proofs.Inquiry.Silence
import Zeroconf.Proofs.Querier.Start
import Zeroconf.Proofs.Inquiry.Attribution
import Zeroconf.Proofs.Inquiry.NxDomain
import Zeroconf.Proofs.Inquiry.Asking
import Zeroconf.Proofs.Reception.Course
import Zeroconf.Proofs.Inquiry.Failure
import Zeroconf.Proofs.Inquiry.Streaming
import Zeroconf.Proofs.Label
import Zeroconf.Proofs.Name.Text
import Zeroconf.Proofs.Name.Wire
import Zeroconf.Proofs.Service
import Zeroconf.Proofs.Service.Text
import Zeroconf.Proofs.Service.Markers
import Zeroconf.Proofs.Service.Wire
import Zeroconf.Proofs.Name.Idna
import Zeroconf.Proofs.Name.HostText
import Zeroconf.Proofs.Lookup.Printed
import Zeroconf.Proofs.Lookup.Found
import Zeroconf.Proofs.Transport.Frame
import Zeroconf.Proofs.Nameserver.Exchange
import Zeroconf.Proofs.Machine
import Zeroconf.Proofs.Work.Workshop
import Zeroconf.Proofs.Work.Conservation
import Zeroconf.Proofs.Work.Timetable
import Zeroconf.Proofs.Work.Timekeeper
import Zeroconf.Proofs.Work.Punctuality
import Zeroconf.Proofs.Transport.Dispatch
import Zeroconf.Proofs.Transport.Intake
import Zeroconf.Proofs.Inbox.Course
import Zeroconf.Proofs.Reception.Delivery
import Zeroconf.Proofs.Station.Course
import Zeroconf.Proofs.Link
import Zeroconf.Proofs.Station.Asking
import Zeroconf.Proofs.Station.Wiring
import Zeroconf.Proofs.Station.Patience
import Zeroconf.Proofs.Station.Calls
import Zeroconf.Proofs.Fanout.Nested
import Zeroconf.Proofs.Querier.Watched
import Zeroconf.Proofs.Querier.Closing
import Zeroconf.Proofs.Querier.Broadcast
import Zeroconf.Proofs.Link.Course
import Zeroconf.Proofs.Link.Sending
import Zeroconf.Proofs.Label.Grammar
import Zeroconf.Proofs.Transport.Framing
import Zeroconf.Proofs.Service.TypeName
import Zeroconf.Proofs.Querier.Sending
import Zeroconf.Proofs.Querier.Dispatch
import Zeroconf.Proofs.Fanout.Course
import Zeroconf.Proofs.Fanout.Snapshot
import Zeroconf.Proofs.Querier.Waiting
import Zeroconf.Proofs.Link.Refusal
import Zeroconf.Proofs.Lookup.Addresses
import Zeroconf.Proofs.Lookup.Browsing
import Zeroconf.Proofs.Nameserver.Dialogue
import Zeroconf.Proofs.Nameserver.Hearing
import Zeroconf.Proofs.Nameserver.Requests
import Zeroconf.Proofs.Nameserver.Callbacks
import Zeroconf.Proofs.Querier.Assembly
import Zeroconf.Proofs.Querier.Announcing
import Zeroconf.Proofs.Transport.Handover
import Zeroconf.Proofs.Transport.Delivery
import Zeroconf.Proofs.Transport.Lifetime
import Zeroconf.Proofs.QueryIds
import Zeroconf.Proofs.Address
import Zeroconf.Proofs.Name.Reverse
import Zeroconf.Proofs.Name.LinkLocal
import Zeroconf.Proofs.Settings
import Zeroconf.Proofs.Station.Slots
import Zeroconf.Proofs.Text.Space
import Zeroconf.Proofs.Address.Reader
import Zeroconf.Proofs.Nameserver.ResolvConf
