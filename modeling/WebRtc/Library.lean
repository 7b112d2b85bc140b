import WebRtc.Engine
import WebRtc.Lib.Eff

/-!
# libdatachannel as the plugin calls it

The library is a parameter: an arbitrary state type, with a function for each
call the plugin makes. A call that parses or changes something returns or
throws a `std::exception`; accessors return. `Method` is a member function of
a plugin class: it reads and writes the object and the library's state, and
records which library calls it made.
-/

namespace WebRtc

-- ---------------------------------------------------------------------------
-- Types
-- ---------------------------------------------------------------------------

/-- `rtc::message_variant`. -/
inductive Message
  | binary (bin : Bytes)
  | string (str : Bytes)
  deriving DecidableEq, Repr

def Message.data : Message → Bytes
  | .binary bin => bin
  | .string str => str

def Message.isString : Message → Bool
  | .binary _ => false
  | .string _ => true

structure Reliability where
  unordered : Bool := false
  maxPacketLifeTime : Option Int := none
  maxRetransmits : Option Nat := none
  deriving DecidableEq, Repr

structure DataChannelInit where
  reliability : Reliability := {}
  negotiated : Bool := false
  id : Option Nat := none
  protocol : Bytes := []
  deriving DecidableEq, Repr

/-- `rtc::IceServer`: what its constructor was given, and the credentials. -/
structure IceServer where
  url : Bytes
  username : Bytes := []
  password : Bytes := []
  deriving DecidableEq, Repr

/-- `rtc::Configuration`, the members the plugin writes. -/
structure Configuration where
  iceServers : List IceServer := []
  enableIceTcp : Bool := false
  enableIceUdpMux : Bool := false
  portRangeBegin : Nat := 1024
  portRangeEnd : Nat := 65535
  mtu : Option Nat := none
  disableAutoNegotiation : Bool := false
  deriving DecidableEq, Repr

inductive DescriptionType
  | unspec | offer | answer | pranswer | rollback
  deriving DecidableEq, Repr

structure Description where
  sdp : Bytes
  type : DescriptionType
  deriving DecidableEq, Repr

structure Candidate where
  candidate : Bytes
  mid : Bytes
  deriving DecidableEq, Repr

inductive PeerState
  | new | connecting | connected | disconnected | failed | closed
  deriving DecidableEq, Repr

-- ---------------------------------------------------------------------------
-- Calls
-- ---------------------------------------------------------------------------

/-- What is caught by `catch (const std::exception &e)`: its `what()`. -/
abbrev StdException := String

/-- What a call of the library does: return or throw. -/
abbrev Call (L α : Type) := L → Except StdException α × L

/-- `rtc::DataChannel`. -/
structure DataChannelApi (L : Type) where
  isClosed : L → Bool
  label : L → Bytes
  protocol : L → Bytes
  reliability : L → Reliability
  id : L → Option Nat
  bufferedAmount : L → Nat
  send : Message → Call L Bool
  close : Call L Unit

/-- An open channel that accepts every message and keeps none. -/
def DataChannelApi.sink : DataChannelApi Unit where
  isClosed _ := false
  label _ := []
  protocol _ := []
  reliability _ := {}
  id _ := none
  bufferedAmount _ := 0
  send _ l := (.ok true, l)
  close l := (.ok (), l)

/-- `rtc::PeerConnection`, and the constructors of the types it takes. -/
structure PeerApi (L : Type) where
  iceServer : Bytes → Call L Unit
  peerConnection : Configuration → Call L Unit
  state : L → PeerState
  createDataChannel : Bytes → DataChannelInit → Call L (Option Nat)
  channelId : Nat → L → Option Nat
  setLocalDescription : DescriptionType → Call L Unit
  description : Bytes → Bytes → Call L Description
  setRemoteDescription : Description → Call L Unit
  candidate : Bytes → Bytes → Call L Candidate
  addRemoteCandidate : Candidate → Call L Unit
  close : Call L Unit
  closeChannel : Nat → Call L Unit

/-- A library whose calls all return, and do nothing. -/
def PeerApi.sink (L : Type) : PeerApi L where
  iceServer _ l := (.ok (), l)
  peerConnection _ l := (.ok (), l)
  state _ := .new
  createDataChannel _ _ l := (.ok none, l)
  channelId _ _ := none
  setLocalDescription _ l := (.ok (), l)
  description sdp _ l := (.ok ⟨sdp, .unspec⟩, l)
  setRemoteDescription _ l := (.ok (), l)
  candidate cand mid l := (.ok ⟨cand, mid⟩, l)
  addRemoteCandidate _ l := (.ok (), l)
  close l := (.ok (), l)
  closeChannel _ l := (.ok (), l)

inductive CallName
  | iceServer | peerConnection | createDataChannel | setLocalDescription | description
  | setRemoteDescription | candidate | addRemoteCandidate | send | close
  deriving DecidableEq, Repr

structure LogEntry where
  name : CallName
  threw : Bool
  deriving DecidableEq, Repr

-- ---------------------------------------------------------------------------
-- Methods
-- ---------------------------------------------------------------------------

structure World (L σ : Type) where
  lib : L
  self : σ
  log : List LogEntry := []

/-- What C++ code may throw. -/
inductive Thrown
  | std (what : StdException)
  | other
  deriving DecidableEq, Repr

abbrev Method (L σ α : Type) := Eff Thrown (World L σ) α

namespace Method

variable {L σ α : Type}

def self : Method L σ σ := do return (← Eff.get).self

def lib : Method L σ L := do return (← Eff.get).lib

def update (f : σ → σ) : Method L σ Unit := Eff.modify fun w => { w with self := f w.self }

def call (name : CallName) (f : Call L α) : Method L σ α := fun w =>
  match f w.lib with
  | (.ok a, l) => (.ok a, { w with lib := l, log := w.log ++ [⟨name, false⟩] })
  | (.error e, l) => (.error (.std e), { w with lib := l, log := w.log ++ [⟨name, true⟩] })

/-- `try { m } catch (const std::exception &e) { handler }`. -/
def tryStd (m : Method L σ α) (handler : StdException → Method L σ α) : Method L σ α :=
  Eff.tryCatch m fun
    | .std e => handler e
    | .other => Eff.throw .other

/-- `try { m } catch (...) { }`. -/
def tryAll (m : Method L σ Unit) : Method L σ Unit := Eff.tryCatch m fun _ => pure ()

-- ---------------------------------------------------------------------------
-- Rules
-- ---------------------------------------------------------------------------

theorem self_apply (w : World L σ) : (self : Method L σ σ) w = (.ok w.self, w) := rfl

section
variable {w : World L σ} {Q : α → World L σ → Prop} {E : Thrown → World L σ → Prop}

theorem sat_self {Q : σ → World L σ → Prop} (h : Q w.self w) : Eff.Sat self w Q E := h

theorem sat_lib {Q : L → World L σ → Prop} (h : Q w.lib w) : Eff.Sat lib w Q E := h

theorem sat_update {f : σ → σ} {Q : Unit → World L σ → Prop} (h : Q () { w with self := f w.self }) :
    Eff.Sat (update f) w Q E := h

theorem sat_call {f : Call L α}
    (hok : ∀ a l, f w.lib = (.ok a, l) → Q a { w with lib := l, log := w.log ++ [⟨name, false⟩] })
    (hthrows : ∀ e l, f w.lib = (.error e, l) →
      E (.std e) { w with lib := l, log := w.log ++ [⟨name, true⟩] }) :
    Eff.Sat (call name f) w Q E := by
  unfold Eff.Sat Method.call
  rcases h : f w.lib with ⟨e | a, l⟩
  · exact hthrows e l h
  · exact hok a l h

theorem sat_tryStd {m : Method L σ α} {handler : StdException → Method L σ α}
    {F : StdException → World L σ → Prop}
    (hm : Eff.Sat m w Q fun thrown t => ∃ e, thrown = .std e ∧ F e t)
    (hh : ∀ e t, F e t → Eff.Sat (handler e) t Q E) : Eff.Sat (tryStd m handler) w Q E := by
  refine hm.tryCatch ?_
  rintro _ t ⟨e, rfl, he⟩
  exact hh e t he

theorem sat_tryAll {m : Method L σ Unit} {Q : Unit → World L σ → Prop}
    {F : Thrown → World L σ → Prop} (hm : Eff.Sat m w Q F) (hF : ∀ e t, F e t → Q () t) :
    Eff.Sat (tryAll m) w Q E :=
  hm.tryCatch fun e t he => .pure (hF e t he)

end

-- ---------------------------------------------------------------------------
-- Frames
-- ---------------------------------------------------------------------------

/-- The method leaves `f` of the object as it was, however it ends. -/
def Keeps (f : σ → β) (m : Method L σ α) : Prop := ∀ w, f (m w).2.self = f w.self

variable {β : Type} {f : σ → β} {m : Method L σ α}

theorem Keeps.pure (a : α) : Keeps f (pure a : Method L σ α) := fun _ => rfl

theorem Keeps.self : Keeps f (self : Method L σ σ) := fun _ => rfl

theorem Keeps.lib : Keeps f (lib : Method L σ L) := fun _ => rfl

theorem Keeps.update {g : σ → σ} (h : ∀ d, f (g d) = f d) :
    Keeps f (update g : Method L σ Unit) := fun w => h w.self

theorem Keeps.call (name : CallName) (c : Call L α) : Keeps f (call name c : Method L σ α) := by
  intro w
  unfold Method.call
  split <;> rfl

theorem Keeps.bind {γ : Type} {k : α → Method L σ γ} (hm : Keeps f m) (hk : ∀ a, Keeps f (k a)) :
    Keeps f (m >>= k) :=
  Eff.Keeps.bind (v := fun w : World L σ => f w.self) hm hk

theorem Keeps.tryCatch {handler : Thrown → Method L σ α} (hm : Keeps f m)
    (hh : ∀ e, Keeps f (handler e)) : Keeps f (Eff.tryCatch m handler) :=
  Eff.Keeps.tryCatch (v := fun w : World L σ => f w.self) hm hh

theorem Keeps.tryStd {handler : StdException → Method L σ α} (hm : Keeps f m)
    (hh : ∀ e, Keeps f (handler e)) : Keeps f (tryStd m handler) :=
  hm.tryCatch fun
    | .std e => hh e
    | .other => Eff.Keeps.throw (v := fun w : World L σ => f w.self) Thrown.other

theorem Keeps.tryAll {m : Method L σ Unit} (hm : Keeps f m) : Keeps f (tryAll m) :=
  hm.tryCatch fun _ => Keeps.pure ()

end Method

end WebRtc
