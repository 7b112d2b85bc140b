import WebRtc.DataChannel
import Mathlib.Tactic.Simps.Basic

/-!
# `WebRTCLibPeerConnection`

The objects behind the members of the class (`Heap`), and its member functions,
from `WebRTCLibPeerConnection.cpp`. The shared states, the connections and the
channels are numbered in the order they are made. `std::shared_ptr` and `Ref`
are reference counts; the last release of a shared state drops its queued
tasks, and the last release of a wrapper closes its channel.
-/

namespace WebRtc

open FixedWidth (toUnsigned)

-- ---------------------------------------------------------------------------
-- Signals
-- ---------------------------------------------------------------------------

inductive Signal
  | sessionDescriptionCreated (type sdp : String)
  | iceCandidateCreated (mid : String) (index : Nat) (candidate : String)
  | dataChannelReceived (ch : Nat)
  deriving DecidableEq, Repr

inductive Announcement
  | localDescription (description : Description)
  | localCandidate (candidate : Candidate)
  | dataChannel (ch : Nat)
  deriving DecidableEq, Repr

def Announcement.signal (build : Build) : Announcement → Signal
  | .localDescription description =>
    .sessionDescriptionCreated (if description.type = .offer then "offer" else "answer")
      (stringOfCString build description.sdp)
  | .localCandidate candidate =>
    .iceCandidateCreated (stringOfCString build candidate.mid) 0
      (stringOfCString build candidate.candidate)
  | .dataChannel ch => .dataChannelReceived ch

/-- `std::function<void(Object *)>`. Two tasks with the same captures are still
two: `id` is the callback that made the task, and `conn` its connection. -/
structure Task where
  id : Nat
  conn : Nat
  signal : Signal
  deriving DecidableEq, Repr

-- ---------------------------------------------------------------------------
-- The heap
-- ---------------------------------------------------------------------------

structure SharedState where
  refs : Nat
  tasksQueue : List Task
  deriving DecidableEq, Repr

structure Wrapper where
  refs : Nat
  object : DataChannel
  deriving DecidableEq, Repr

/-- A remotely opened channel. The library keeps the messages that come in
until `onMessage` is registered. -/
structure Channel where
  incoming : List Message := []
  /-- How many of them the callback has been given. -/
  delivered : Nat := 0
  bound : Bool := false
  wrapper : Option Wrapper := none
  deriving DecidableEq, Repr

structure Heap where
  peerConnection : Option Nat := none
  sharedState : Option Nat := none
  states : List SharedState := []
  /-- What each connection's callbacks have captured as their weak pointer. -/
  conns : List (Option Nat) := []
  channels : List Channel := []
  /-- The channels closed by the destructor of their wrapper. -/
  closed : List Nat := []
  deriving DecidableEq, Repr

def Channel.retain (c : Channel) : Channel :=
  { c with wrapper := c.wrapper.map fun w => { w with refs := w.refs + 1 } }

def Channel.release (c : Channel) : Channel :=
  { c with wrapper := c.wrapper.bind fun w =>
      if w.refs = 1 then none else some { w with refs := w.refs - 1 } }

def Channel.lastRef (c : Channel) : Bool := c.wrapper.any (·.refs = 1)

def Channel.bind (c : Channel) (object : DataChannel) : Channel :=
  { c with bound := true, wrapper := some ⟨1, object⟩ }

/-- The callback; with the wrapper its shared state is gone, and the message is
dropped. -/
def Channel.onMessage (c : Channel) (m : Message) : Channel :=
  { c with wrapper := c.wrapper.map fun w =>
      { w with object := { w.object with receiver := w.object.receiver.queuePacket (buildPacket m) } } }

/-- What the library does: it goes on to the next message, whatever the callback
does with this one. -/
def Channel.deliver (c : Channel) (m : Message) : Channel :=
  { c.onMessage m with delivered := c.delivered + 1 }

def Channel.getPacket (c : Channel) : Channel :=
  { c with wrapper := c.wrapper.map fun w =>
      { w with object := { w.object with receiver := w.object.receiver.getPacket.2 } } }

namespace Heap

def modifyChannel (h : Heap) (ch : Nat) (f : Channel → Channel) : Heap :=
  { h with channels := h.channels.modify ch f }

def releaseChannel (h : Heap) (ch : Nat) : Heap :=
  { h.modifyChannel ch Channel.release with
    closed := h.closed ++ if h.channels[ch]?.any Channel.lastRef then [ch] else [] }

def retain (h : Heap) (t : Task) : Heap :=
  match t.signal with
  | .dataChannelReceived ch => h.modifyChannel ch Channel.retain
  | _ => h

def release (h : Heap) (t : Task) : Heap :=
  match t.signal with
  | .dataChannelReceived ch => h.releaseChannel ch
  | _ => h

def releaseAll (h : Heap) (tasks : List Task) : Heap := tasks.foldl release h

def modifyState (h : Heap) (sid : Nat) (f : SharedState → SharedState) : Heap :=
  { h with states := h.states.modify sid f }

def lockState (h : Heap) (sid : Nat) : Heap :=
  h.modifyState sid fun st => { st with refs := st.refs + 1 }

def releaseState (h : Heap) (sid : Nat) : Heap :=
  match h.states[sid]? with
  | none => h
  | some st =>
    if st.refs = 1 then (h.modifyState sid fun _ => ⟨0, []⟩).releaseAll st.tasksQueue
    else h.modifyState sid fun st => { st with refs := st.refs - 1 }

def releaseState? (h : Heap) : Option Nat → Heap
  | none => h
  | some sid => h.releaseState sid

def replaceState (h : Heap) : Heap :=
  ({ h with
    sharedState := some h.states.length
    states := h.states ++ [⟨1, []⟩] } : Heap).releaseState? h.sharedState

/-- The destructor: `_close`, then the members go. -/
def destroy (h : Heap) : Heap :=
  ({ h.replaceState with peerConnection := none, sharedState := none } : Heap).releaseState?
    h.replaceState.sharedState

def newConnection (h : Heap) : Heap :=
  { h with peerConnection := some h.conns.length, conns := h.conns ++ [h.sharedState] }

def queue (h : Heap) : List Task :=
  match h.sharedState.bind (h.states[·]?) with
  | some st => st.tasksQueue
  | none => []

/-- `local_queue.swap(shared_state->tasks_queue)`, with an empty local queue. -/
def swapQueue (h : Heap) : Heap :=
  match h.sharedState with
  | some sid => h.modifyState sid fun st => { st with tasksQueue := [] }
  | none => h

def pushTask (h : Heap) (sid : Nat) (t : Task) : Heap :=
  (h.retain t).modifyState sid fun st => { st with tasksQueue := st.tasksQueue ++ [t] }

end Heap

-- ---------------------------------------------------------------------------
-- The member functions
-- ---------------------------------------------------------------------------

namespace PeerConnection

variable {L : Type} (engine : Engine) (api : PeerApi L)

/-- The destructors of wrappers: each is a `_close` of its channel. -/
def closeChannels : List Nat → Method L Heap Unit
  | [] => pure ()
  | ch :: chs => do
    Method.tryAll (Method.call .close (api.closeChannel ch))
    closeChannels chs

/-- Change the heap, and run the destructors of the wrappers this destroys. -/
def updateHeap (f : Heap → Heap) : Method L Heap Unit := do
  let before ← Method.self
  Method.update f
  let after ← Method.self
  closeChannels api (after.closed.drop before.closed.length)

def addServers (username credential : String) :
    List Variant → Configuration → Method L Heap Configuration
  | [], r_config => pure r_config
  | url :: urls, r_config => do
    let url := cString (utf8 (url.toStr engine))
    let _ ← Method.call .iceServer (api.iceServer url)
    let srv : IceServer := ⟨url, cString (utf8 username), cString (utf8 credential)⟩
    addServers username credential urls { r_config with iceServers := r_config.iceServers ++ [srv] }

def serverUrls (p_server : Dictionary) : Option (List Variant) :=
  if !p_server.has "urls" then none
  else match (p_server.get "urls").getType with
    | .string => some [p_server.get "urls"]
    | .array => some (p_server.get "urls").toArray
    | _ => none

def credentialOf (p_server : Dictionary) (key : String) : String :=
  if p_server.has key ∧ (p_server.get key).getType = .string then
    (p_server.get key).toStr engine
  else ""

def parseIceServer (r_config : Configuration) (p_server : Dictionary) :
    Method L Heap (Error × Configuration) :=
  match serverUrls p_server with
  | none => pure (.invalidParameter, r_config)
  | some urls => do
    let r_config ← addServers engine api (credentialOf engine p_server "username")
      (credentialOf engine p_server "credential") urls r_config
    pure (.ok, r_config)

def parseIceServers : List Variant → Configuration → Method L Heap (Error × Configuration)
  | [], config => pure (.ok, config)
  | server :: servers, config =>
    if server.getType ≠ .dictionary then pure (.invalidParameter, config)
    else do
      let (err, config) ← parseIceServer engine api config server.toDictionary
      if err ≠ .ok then pure (.failed, config)
      else parseIceServers servers config

def iceServersOf (p_config : Dictionary) : List Variant :=
  if p_config.has "iceServers" ∧ (p_config.get "iceServers").getType = .array then
    (p_config.get "iceServers").toArray
  else []

/-- The settings of the `libdatachannel` entry: each is taken when it has the
right type. An `int` becomes a `uint16_t` or a `size_t`. -/
def parseLibdatachannel (config : Configuration) (lib_cfg : Dictionary) : Configuration :=
  let setting (key : String) (type : VariantType) : Bool :=
    lib_cfg.has key && (lib_cfg.get key).getType = type
  let int (key : String) : Int := (lib_cfg.get key).toInt32 engine
  { config with
    enableIceTcp := if setting "enableIceTcp" .bool then
      (lib_cfg.get "enableIceTcp").toBool engine else config.enableIceTcp
    enableIceUdpMux := if setting "enableIceUdpMux" .bool then
      (lib_cfg.get "enableIceUdpMux").toBool engine else config.enableIceUdpMux
    portRangeBegin := if setting "portRangeBegin" .int then
      toUnsigned 16 (int "portRangeBegin") else config.portRangeBegin
    portRangeEnd := if setting "portRangeEnd" .int then
      toUnsigned 16 (int "portRangeEnd") else config.portRangeEnd
    mtu := if setting "mtu" .int then some (toUnsigned 64 (int "mtu")) else config.mtu }

def parseChannelConfig (r_config : DataChannelInit) (p_dict : Dictionary) :
    Error × DataChannelInit :=
  let r_config := if p_dict.has "negotiated" then
    { r_config with negotiated := (p_dict.get "negotiated").toBool engine } else r_config
  let r_config := if p_dict.has "id" then
    { r_config with id := some (toUnsigned 16 ((p_dict.get "id").toInt32 engine)) } else r_config
  if r_config.negotiated ≠ r_config.id.isSome then (.invalidParameter, r_config)
  else if p_dict.has "maxPacketLifeTime" ∧ p_dict.has "maxRetransmits" then
    (.invalidParameter, r_config)
  else
    let reliability := if p_dict.has "maxPacketLifeTime" then
        { r_config.reliability with
          maxPacketLifeTime := some ((p_dict.get "maxPacketLifeTime").toInt32 engine) }
      else if p_dict.has "maxRetransmits" then
        { r_config.reliability with
          maxRetransmits := some (toUnsigned 32 ((p_dict.get "maxRetransmits").toInt32 engine)) }
      else r_config.reliability
    let reliability := if p_dict.has "ordered" ∧ (p_dict.get "ordered").toBool engine = false then
      { reliability with unordered := true } else reliability
    let protocol := if p_dict.has "protocol" then
      cString (utf8 ((p_dict.get "protocol").toStr engine)) else r_config.protocol
    (.ok, { r_config with reliability := reliability, protocol := protocol })

inductive ConnectionState
  | new | connecting | connected | disconnected | failed | closed
  deriving DecidableEq, Repr

def getConnectionState (w : World L Heap) : ConnectionState :=
  if w.self.peerConnection.isNone then .closed
  else match api.state w.lib with
    | .new => .new
    | .connecting => .connecting
    | .connected => .connected
    | .disconnected => .disconnected
    | .failed => .failed
    | .closed => .closed

/-- `_close`; the pointer to the closed connection stays. -/
def close : Method L Heap Unit := do
  if (← Method.self).peerConnection.isSome then
    Method.tryAll (Method.call .close api.close)
  updateHeap api Heap.replaceState

/-- `_create_pc`; `std::make_shared` never returns a null pointer. -/
def createPc (r_config : Configuration) : Method L Heap Error :=
  Method.tryStd
    (do
      Method.call .peerConnection (api.peerConnection { r_config with disableAutoNegotiation := true })
      Method.update Heap.newConnection
      pure .ok)
    fun _ => pure .failed

def initializePc (p_config : Dictionary) : Method L Heap Error := do
  close api
  let (err, config) ← parseIceServers engine api (iceServersOf p_config) {}
  if err ≠ .ok then pure err
  else
    let config :=
      if p_config.has "libdatachannel" ∧ (p_config.get "libdatachannel").getType = .dictionary then
        parseLibdatachannel engine config (p_config.get "libdatachannel").toDictionary
      else config
    createPc api config

def createDataChannel (p_channel : String) (p_channel_config : Dictionary) :
    Method L Heap (Option (Nat × DataChannel)) :=
  Method.tryStd
    (do
      if (← Method.self).peerConnection.isNone then pure none
      else
        let (err, config) := parseChannelConfig engine {} p_channel_config
        if err ≠ .ok then pure none
        else
          let ch ← Method.call .createDataChannel
            (api.createDataChannel (cString (utf8 p_channel)) config)
          match ch with
          | none => pure none
          | some ch =>
            let negotiated := (api.channelId ch (← Method.lib)).isSome
            pure ((DataChannel.newDataChannel (some ch) negotiated).map (ch, ·)))
    fun _ => pure none

def createOffer : Method L Heap Error :=
  Method.tryStd
    (do
      if (← Method.self).peerConnection.isNone then pure .unconfigured
      else if getConnectionState api (← Eff.get) ≠ .new then pure .failed
      else
        Method.call .setLocalDescription (api.setLocalDescription .offer)
        pure .ok)
    fun _ => pure .failed

def setRemoteDescription (p_type p_sdp : String) : Method L Heap Error :=
  Method.tryStd
    (do
      if (← Method.self).peerConnection.isNone then pure .unconfigured
      else
        let desc ← Method.call .description
          (api.description (cString (utf8 p_sdp)) (cString (utf8 p_type)))
        Method.call .setRemoteDescription (api.setRemoteDescription desc)
        -- automatically create the answer
        if p_type = "offer" then
          Method.call .setLocalDescription (api.setLocalDescription .answer)
        pure .ok)
    fun _ => pure .failed

/-- The library has set the local description already; the call is ignored. -/
def setLocalDescription (_p_type _p_sdp : String) : Method L Heap Error := do
  if (← Method.self).peerConnection.isNone then pure .unconfigured
  else pure .ok

def addIceCandidate (sdpMidName : String) (_sdpMlineIndexName : Int) (sdpName : String) :
    Method L Heap Error :=
  Method.tryStd
    (do
      if (← Method.self).peerConnection.isNone then pure .unconfigured
      else
        let candidate ← Method.call .candidate
          (api.candidate (cString (utf8 sdpName)) (cString (utf8 sdpMidName)))
        Method.call .addRemoteCandidate (api.addRemoteCandidate candidate)
        pure .ok)
    fun _ => pure .failed

/-- `emit_signal`: it runs the handlers, which may do anything to the library and
to the heap, and returns; what a call made by a handler throws is for the handler. -/
abbrev EmitSignal (L : Type) := Task → L × Heap → L × Heap

/-- The loop over the local queue: `f` is a copy of the front, which stays in
the queue until the handlers of its signal have returned. -/
def emitAll (emit : EmitSignal L) : List Task → Method L Heap Unit
  | [] => pure ()
  | f :: local_queue => do
    Method.update (Heap.retain · f)
    Eff.modify fun w =>
      let (lib, self) := emit f (w.lib, w.self)
      { w with lib := lib, self := self }
    updateHeap api (Heap.release · f)
    updateHeap api (Heap.release · f)
    emitAll emit local_queue

def poll (emit : EmitSignal L) : Method L Heap Error := do
  if (← Method.self).peerConnection.isNone then pure .unconfigured
  else
    let local_queue := (← Method.self).queue
    Method.update Heap.swapQueue
    emitAll api emit local_queue
    pure .ok

end PeerConnection

end WebRtc
