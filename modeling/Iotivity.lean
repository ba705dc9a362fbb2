import Iotivity.Lib.Memory
import Iotivity.Lib.Emit
import Iotivity.Lib.DeltaCode
import Iotivity.Lib.Keyed
import Iotivity.Lib.Ring
import Iotivity.Lib.Scan
import Iotivity.Lib.Last
import Iotivity.Lib.History
import Iotivity.Lib.Flags
import Iotivity.Lib.Links
import Iotivity.Lib.Chain
import Iotivity.Lib.Cursor
import Iotivity.Lib.Cut
import Iotivity.Lib.Tiling
import Iotivity.Lib.Gather
import Iotivity.Coap.Packet
import Iotivity.Coap.Serialize
import Iotivity.Coap.Emitted
import Iotivity.Coap.Parse
import Iotivity.Coap.Decoded
import Iotivity.Coap.Splitting
import Iotivity.Coap.Values
import Iotivity.Coap.Build
import Iotivity.Coap.RoundTrip
import Iotivity.Coap.Lengths
import Iotivity.Coap.Codec
import Iotivity.Coap.Datagram
import Iotivity.Coap.Received
import Iotivity.Coap.BlockOptions
import Iotivity.Coap.TcpAdapter
import Iotivity.Engine.Blockwise
import Iotivity.Engine.Lookup
import Iotivity.Engine.Reassembly
import Iotivity.Engine.Transactions
import Iotivity.Engine.Receive
import Iotivity.Engine.Frame
import Iotivity.Engine.Settle
import Iotivity.Engine.Run
import Iotivity.Engine.Cancel
import Iotivity.Engine.Trace
import Iotivity.Engine.Delivery
import Iotivity.Engine.Labels
import Iotivity.Engine.Mislabelled
import Iotivity.Engine.Duplicates
import Iotivity.Engine.Exchange
import Iotivity.Engine.Uploads
import Iotivity.Engine.Snapshot
import Iotivity.Engine.Observe
import Iotivity.Engine.Observing
import Iotivity.Engine.Pools
import Iotivity.Engine.BytePool
import Iotivity.Engine.ArrayPool
import Iotivity.Engine.Dispatch
import Iotivity.Engine.Separate
import Iotivity.Engine.Notify
import Iotivity.Engine.Linked
import Iotivity.Engine.Respond
import Iotivity.Engine.Retransmission
import Iotivity.Engine.TimedCallbacks
import Iotivity.Engine.Client
import Iotivity.Engine.Pointers
import Iotivity.Engine.Owners
import Iotivity.Engine.Asking
import Iotivity.Engine.Answering
import Iotivity.Engine.Isolation
import Iotivity.Engine.Sent
import Iotivity.Lib.RefCount
import Iotivity.Engine.Messages
import Iotivity.Engine.Polling
import Iotivity.Engine.Deleting
import Iotivity.Engine.Bulletin
import Iotivity.Security.Text
import Iotivity.Security.State
import Iotivity.Security.Acl
import Iotivity.Security.Access
import Iotivity.Security.Cred
import Iotivity.Security.Pstat
import Iotivity.Security.Handle
import Iotivity.Security.KeyOrder
import Iotivity.Security.Reset
import Iotivity.Security.Onboarding
import Iotivity.Security.Entries
import Iotivity.Security.Operational
import Iotivity.Security.Mediation
import Iotivity.Security.Query
import Iotivity.Security.Batch
import Iotivity.Security.Rejected
import Iotivity.Security.Persist
import Iotivity.Security.Identifiers
import Iotivity.Security.Boot
import Iotivity.Security.Verify
import Iotivity.Security.CredStore
import Iotivity.Security.Calls
import Iotivity.Security.Chains
import Iotivity.Security.Anchors
import Iotivity.Security.Readback
import Iotivity.Security.Provision
import Iotivity.Security.TypeFilter
import Iotivity.Security.CoreLookup
import Iotivity.Security.UuidText
import Iotivity.Lib.Triple
import Iotivity.Payload.Parse
import Iotivity.Payload.Release
import Iotivity.Payload.Arrays
import Iotivity.Lib.Numeral
import Iotivity.Endpoint.Strings
import Iotivity.Endpoint.Segments
import Iotivity.Endpoint.Parts
import Iotivity.Endpoint.Bounds
import Iotivity.Endpoint.Groups
import Iotivity.Endpoint.Printing
import Iotivity.Endpoint.Reading
import Iotivity.Endpoint.RoundTrip
import Iotivity.Endpoint.ReadBack
import Iotivity.Payload.Nodes
import Iotivity.Payload.Build
import Iotivity.Payload.Allocations
import Iotivity.Payload.Tree
import Iotivity.Payload.Getters
import Iotivity.Payload.RoundTrip
import Iotivity.Payload.ObjectArrays
import Iotivity.Lib.RingQueue
import Iotivity.Util.Events
import Iotivity.Util.Lists
import Iotivity.Util.Timers
import Iotivity.Util.StringArray
import Iotivity.Lib.Output
import Iotivity.Lib.Sextet
import Iotivity.Security.Base64
import Iotivity.Lib.Guarded
import Iotivity.Discovery.Process
import Iotivity.Discovery.Links
import Iotivity.Discovery.Answer
import Iotivity.Discovery.Offered
import Iotivity.Discovery.RoundTrip
import Iotivity.Lib.FirstFit
import Iotivity.Util.Blocks
import Iotivity.Lib.Runs
import Iotivity.Security.Serving
import Iotivity.Security.Owners
import Iotivity.Security.Defaults
import Iotivity.Obt.Transfer
import Iotivity.Obt.Ownership
import Iotivity.Obt.Safety
import Iotivity.Obt.Sequence
import Iotivity.Obt.Attempt
import Iotivity.Lib.Calendar
import Iotivity.Lib.FixedWidth
import Iotivity.Time.Timestamp
import Iotivity.Time.Days
import Iotivity.Time.Texts
import Iotivity.Time.RoundTrip
import Iotivity.Time.Order
import Iotivity.Time.Outside
import Iotivity.Collections.Batch
import Iotivity.Collections.RoundTrip
