import WebRtc.Lib.Machine
import WebRtc.Lib.Fifo
import WebRtc.Lib.FixedWidth
import WebRtc.Lib.Eff
import WebRtc.Lib.Utf8
import WebRtc.Lib.ListSum
import WebRtc.Lib.Ledger
import WebRtc.Lib.SharedPtr
import WebRtc.Lib.Outbox
import WebRtc.Lib.OfferAnswer
import WebRtc.Engine
import WebRtc.Text
import WebRtc.Native
import WebRtc.Library
import WebRtc.DataChannel
import WebRtc.DataChannel.Receive
import WebRtc.DataChannel.Delivery
import WebRtc.DataChannel.Count
import WebRtc.DataChannel.Access
import WebRtc.DataChannel.ReadyState
import WebRtc.DataChannel.RoundTrip
import WebRtc.DataChannel.Progress
import WebRtc.DataChannel.Arrival
import WebRtc.DataChannel.Lifetime
import WebRtc.PeerConnection
import WebRtc.PeerConnection.Containment
import WebRtc.PeerConnection.Heap
import WebRtc.PeerConnection.Signals
import WebRtc.PeerConnection.Ownership
import WebRtc.PeerConnection.Bookkeeping
import WebRtc.PeerConnection.Conservation
import WebRtc.PeerConnection.Generations
import WebRtc.PeerConnection.Order
import WebRtc.PeerConnection.Refs
import WebRtc.PeerConnection.Announced
import WebRtc.PeerConnection.Custody
import WebRtc.PeerConnection.HandOff
import WebRtc.PeerConnection.Progress
import WebRtc.PeerConnection.Lifetime
import WebRtc.PeerConnection.Calls
import WebRtc.PeerConnection.Requests
import WebRtc.PeerConnection.Closings
import WebRtc.PeerConnection.Configuration
import WebRtc.PeerConnection.Channels
import WebRtc.PeerConnection.ChannelOptions
import WebRtc.PeerConnection.BothEnds
import WebRtc.PeerConnection.RemoteDescription
import WebRtc.PeerConnection.Relay
import WebRtc.PeerConnection.Usage
import WebRtc.PeerConnection.Negotiation
import WebRtc.PeerConnection.Underway
import WebRtc.PeerConnection.Agreement
import WebRtc.PeerConnection.Settled
import WebRtc.PeerConnection.Completion
import WebRtc.PeerConnection.Trickle
