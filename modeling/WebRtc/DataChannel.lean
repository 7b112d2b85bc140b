import WebRtc.Library

/-!
# `WebRTCLibDataChannel`

The members of the wrapper and its member functions, from
`WebRTCLibDataChannel.cpp`. `Receiver` groups what the receive path touches:
`packet_queue` and `available_packets` of the shared state, `current_packet`,
and the caller's variables behind `r_buffer` and `r_len`. Its functions are
the statements of `queue_packet` and `_get_packet`, so that the sequential
functions here and the interleaved ones in `DataChannel.Receive` are made of
the same parts.
-/

namespace WebRtc

open FixedWidth (toUnsigned toSigned)

-- ---------------------------------------------------------------------------
-- The receive path
-- ---------------------------------------------------------------------------

structure QueuedPacket where
  first : Bytes
  second : Bool
  deriving DecidableEq, Repr

structure Receiver where
  packetQueue : List QueuedPacket := []
  availablePackets : Nat := 0
  currentPacket : QueuedPacket := ⟨[], false⟩
  /-- `*r_buffer`: an offset into `current_packet.first`, none before the first assignment. -/
  rBuffer : Option Nat := none
  rLen : Int := 0
  deriving DecidableEq, Repr

/-- The packet `queue_packet` builds before it locks: `size` has become a
`uint32_t`, the vector is resized and filled by `memcpy`. -/
def buildPacket (m : Message) : QueuedPacket :=
  let size := toUnsigned 32 m.data.length
  ⟨memcpy (List.replicate size 0) m.data size, m.isString⟩

theorem buildPacket_of_lt {m : Message} (h : m.data.length < 2 ^ 32) :
    buildPacket m = ⟨m.data, m.isString⟩ := by
  simp [buildPacket, FixedWidth.toUnsigned_of_lt h, memcpy]

namespace Receiver

def push (r : Receiver) (packet : QueuedPacket) : Receiver :=
  { r with packetQueue := r.packetQueue ++ [packet] }

/-- `available_packets.store(packet_queue.size())`, an `atomic<uint32_t>`. -/
def storeSize (r : Receiver) : Receiver :=
  { r with availablePackets := toUnsigned 32 r.packetQueue.length }

/-- `available_packets.store(packet_queue.size() - 1)`; the subtraction is in `size_t`. -/
def storeSizeMinusOne (r : Receiver) : Receiver :=
  { r with availablePackets := toUnsigned 32 (toUnsigned 64 (r.packetQueue.length - 1)) }

def copyFront (r : Receiver) : Receiver :=
  { r with currentPacket := r.packetQueue.head?.getD r.currentPacket }

def pop (r : Receiver) : Receiver := { r with packetQueue := r.packetQueue.tail }

/-- `*r_buffer = &current_packet.first[0]; *r_len = current_packet.first.size();` -/
def setOut (r : Receiver) : Receiver :=
  { r with rBuffer := some 0, rLen := toSigned 32 r.currentPacket.first.length }

def queuePacket (r : Receiver) (packet : QueuedPacket) : Receiver := (r.push packet).storeSize

def getPacket (r : Receiver) : Error × Receiver :=
  if r.packetQueue.isEmpty then (.unavailable, r)
  else (.ok, r.storeSizeMinusOne.copyFront.pop.setOut)

/-- `_get_available_packet_count`: a `uint32_t` returned as an `int32_t`. -/
def getAvailablePacketCount (r : Receiver) : Int := toSigned 32 r.availablePackets

def wasStringPacket (r : Receiver) : Bool := r.currentPacket.second

/-- The `*r_len` bytes found at `*r_buffer`; none if they reach past the vector. -/
def exposed (r : Receiver) : Option Bytes :=
  match r.rBuffer with
  | none => none
  | some offset =>
    if 0 ≤ r.rLen ∧ offset + r.rLen.toNat ≤ r.currentPacket.first.length then
      some ((r.currentPacket.first.drop offset).take r.rLen.toNat)
    else none

end Receiver

-- ---------------------------------------------------------------------------
-- The wrapper
-- ---------------------------------------------------------------------------

inductive ChannelState
  | connecting | open | closing | closed
  deriving DecidableEq, Repr

def ChannelState.code : ChannelState → Nat
  | .connecting => 0
  | .open => 1
  | .closing => 2
  | .closed => 3

/-- `WebRTCDataChannel::WriteMode`: the two enumerators, and the other values
an `int` cast to the type can have. -/
inductive WriteMode
  | text
  | binary
  | other (value : Int)
  deriving DecidableEq, Repr

def WriteMode.ofInt (n : Int) : WriteMode :=
  if n = 0 then .text else if n = 1 then .binary else .other n

/-- The members of `WebRTCLibDataChannel`. `channel` says whether the pointer
to the library's channel is set; the channel itself is in the library's state. -/
structure DataChannel where
  receiver : Receiver := {}
  channelState : ChannelState := .connecting
  channel : Bool := false
  writeMode : WriteMode := .binary
  negotiated : Bool := false
  deriving DecidableEq, Repr

namespace DataChannel

variable {L : Type} (api : DataChannelApi L)

/-- The assignments of `bind_channel`; the registrations of its callbacks are
in `DataChannel.Receive` and `DataChannel.ReadyState`. -/
def bindChannel (d : DataChannel) (p_negotiated : Bool) : DataChannel :=
  { d with channel := true, negotiated := p_negotiated }

def newDataChannel (p_channel : Option Nat) (p_negotiated : Bool) : Option DataChannel :=
  if p_channel.isNone then none
  else some (bindChannel {} p_negotiated)

def setWriteMode (p_mode : WriteMode) : Method L DataChannel Unit :=
  if p_mode ≠ .text ∧ p_mode ≠ .binary then pure ()
  else Method.update fun d => { d with writeMode := p_mode }

def getReadyState (d : DataChannel) : ChannelState :=
  if !d.channel then .closed else d.channelState

def getLabel (build : Build) (w : World L DataChannel) : String :=
  if !w.self.channel then "" else stringOfCString build (api.label w.lib)

def isOrdered (w : World L DataChannel) : Bool :=
  if !w.self.channel then false else (api.reliability w.lib).unordered == false

/-- `id().value_or(-1)` on an `optional<uint16_t>`: the default is converted to
`uint16_t` before the result becomes an `int32_t`. -/
def getId (w : World L DataChannel) : Int :=
  if !w.self.channel then -1 else (api.id w.lib).getD (toUnsigned 16 (-1))

def getMaxPacketLifeTime (w : World L DataChannel) : Int :=
  if !w.self.channel then 0
  else match (api.reliability w.lib).maxPacketLifeTime with
    | some count => toSigned 32 count
    | none => -1

/-- `maxRetransmits.value_or(-1)` on an `optional<unsigned int>`. -/
def getMaxRetransmits (w : World L DataChannel) : Int :=
  if !w.self.channel then 0
  else toSigned 32 ((api.reliability w.lib).maxRetransmits.getD (toUnsigned 32 (-1)))

def getProtocol (build : Build) (w : World L DataChannel) : String :=
  if !w.self.channel then "" else stringOfCString build (api.protocol w.lib)

def isNegotiated (d : DataChannel) : Bool :=
  if !d.channel then false else d.negotiated

def getBufferedAmount (w : World L DataChannel) : Int :=
  if !w.self.channel then 0 else toSigned 32 (api.bufferedAmount w.lib)

def poll : Method L DataChannel Error := pure .ok

def close : Method L DataChannel Unit :=
  Method.tryAll do
    if (← Method.self).channel then Method.call .close api.close

def getPacket : Method L DataChannel Error := fun w =>
  let (err, r) := w.self.receiver.getPacket
  (.ok err, { w with self := { w.self with receiver := r } })

/-- `_put_packet`; `p_len` is the length of `p_buffer`. -/
def putPacket (p_buffer : Bytes) : Method L DataChannel Error :=
  Method.tryStd
    (do
      let d ← Method.self
      if !d.channel then pure .failed
      else if api.isClosed (← Method.lib) then pure .failed
      else match d.writeMode with
        | .text =>
          let str := strncpy (List.replicate p_buffer.length 0) p_buffer p_buffer.length
          let _ ← Method.call .send (api.send (.string str))
          pure .ok
        | .binary =>
          let _ ← Method.call .send (api.send (.binary p_buffer))
          pure .ok
        | .other _ => pure .invalidParameter)
    fun _ => pure .failed

def getMaxPacketSize : Int := 16384

-- ---------------------------------------------------------------------------
-- What the calls leave alone
-- ---------------------------------------------------------------------------

theorem setWriteMode_keeps {β : Type} {f : DataChannel → β}
    (hf : ∀ d mode, f { d with writeMode := mode } = f d) (p_mode : WriteMode) :
    Method.Keeps f (setWriteMode p_mode : Method L DataChannel Unit) := by
  unfold setWriteMode
  split
  · exact .pure ()
  · exact .update fun d => hf d _

theorem putPacket_keeps {β : Type} (f : DataChannel → β) (p_buffer : Bytes) :
    Method.Keeps f (putPacket api p_buffer) := by
  refine .tryStd (.bind .self fun d => ?_) fun _ => .pure _
  split
  · exact .pure _
  refine .bind .lib fun l => ?_
  split
  · exact .pure _
  split
  · exact .bind (.call _ _) fun _ => .pure _
  · exact .bind (.call _ _) fun _ => .pure _
  · exact .pure _

theorem close_keeps {β : Type} (f : DataChannel → β) : Method.Keeps f (close api) := by
  refine .tryAll (.bind .self fun d => ?_)
  split
  · exact .call _ _
  · exact .pure _

end DataChannel

end WebRtc
