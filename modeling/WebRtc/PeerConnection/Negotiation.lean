import WebRtc.Lib.OfferAnswer
import WebRtc.Lib.Outbox
import WebRtc.PeerConnection.Calls
import WebRtc.PeerConnection.Relay
import Mathlib.Logic.Function.Basic

/-!
# Two peers negotiate

An application connects two `WebRTCLibPeerConnection` objects: it calls
`create_offer` at one of them, and calls `set_remote_description` at each with
what the other's `session_description_created` brings. On its way a description
is owed by the library, held by a callback, queued, taken by a poll, emitted,
and carried over a network that may lose it; everything else goes on meanwhile.
Together they are a run of the machine of `Lib.OfferAnswer`.
-/

namespace WebRtc.PeerConnection

variable {L : Type}

-- ---------------------------------------------------------------------------
-- The states of a connection
-- ---------------------------------------------------------------------------

inductive ReportedSignalingState
  | stable | haveLocalOffer | haveRemoteOffer | haveLocalPranswer | haveRemotePranswer | closed
  deriving DecidableEq, Repr

/-- `_get_signaling_state`; `signalingState` is the library's accessor. -/
def getSignalingState (signalingState : L → SignalingState) (w : World L Heap) :
    ReportedSignalingState :=
  if w.self.peerConnection.isNone then .closed
  else match signalingState w.lib with
    | .stable => .stable
    | .haveLocalOffer => .haveLocalOffer
    | .haveRemoteOffer => .haveRemoteOffer
    | .haveLocalPranswer => .haveLocalPranswer
    | .haveRemotePranswer => .haveRemotePranswer

theorem getSignalingState_stable {signalingState : L → SignalingState} {w : World L Heap}
    (hopen : w.self.peerConnection ≠ none) :
    getSignalingState signalingState w = .stable ↔ signalingState w.lib = .stable := by
  obtain ⟨conn, hconn⟩ := Option.ne_none_iff_exists'.mp hopen
  unfold getSignalingState
  rw [hconn]
  cases signalingState w.lib <;> simp

namespace Negotiation

open Containment (PeerOp Reply)

structure Connection where
  signalingState : SignalingState := .stable
  localDescription : Option Description := none
  remoteDescription : Option Description := none
  /-- The descriptions that `onLocalDescription` is still to be called with. -/
  owed : List Description := []
  deriving DecidableEq, Repr

/-- The library has made a description of the type: it will announce it, as text
that a `String` can carry. -/
structure Made (type : DescriptionType) (d : Description) : Prop where
  type : d.type = type
  plain : ∀ b ∈ d.sdp, b ≠ 0 ∧ b.toNat < 128

/-- How the library exchanges offers and answers: `read` is what it makes of the
text of a description. -/
structure OffersAndAnswers (api : PeerApi L) (view : L → Connection)
    (read : Description → Description) : Prop where
  description : api.description sdp name l = (r, l₁) → view l₁ = view l
  reads {d desc : Description} {l l₁ : L} : (d.type = .offer ∨ d.type = .answer) →
    api.description d.sdp (utf8 (typeName d.type)) l = (.ok desc, l₁) → desc = read d
  readType : (read d).type = d.type
  remoteOffer : api.setRemoteDescription desc l = (.ok (), l₁) → desc.type = .offer →
    (view l₁).signalingState = .haveRemoteOffer ∧ (view l₁).remoteDescription = some desc ∧
      (view l₁).owed = (view l).owed
  remoteAnswer : api.setRemoteDescription desc l = (.ok (), l₁) → desc.type = .answer →
    view l₁ = { view l with signalingState := .stable, remoteDescription := some desc }
  setRemoteThrew : api.setRemoteDescription desc l = (.error e, l₁) → view l₁ = view l
  /-- A second offer, or one that there is no need for, is not made. -/
  localOffer : api.setLocalDescription .offer l = (.ok (), l₁) → view l₁ = view l ∨
    (view l).signalingState = .stable ∧ ∃ d, Made .offer d ∧ view l₁ = { view l with
      signalingState := .haveLocalOffer
      localDescription := some d
      owed := (view l).owed ++ [d] }
  localAnswer : api.setLocalDescription .answer l = (.ok (), l₁) →
    (view l).signalingState = .haveRemoteOffer → ∃ d, Made .answer d ∧ view l₁ = { view l with
      signalingState := .stable
      localDescription := some d
      owed := (view l).owed ++ [d] }
  setLocalThrew : api.setLocalDescription type l = (.error e, l₁) → view l₁ = view l
  createDataChannel : api.createDataChannel label init l = (r, l₁) → view l₁ = view l
  candidate : api.candidate cand mid l = (r, l₁) → view l₁ = view l
  addRemoteCandidate : api.addRemoteCandidate c l = (r, l₁) → view l₁ = view l

-- ---------------------------------------------------------------------------
-- The two peers
-- ---------------------------------------------------------------------------

/-- A new object: its constructor has called `_initialize`. -/
def connected : Signals.State := { heap := ({} : Heap).replaceState.newConnection }

theorem run_connected (build : Build) :
    Machine.run (Signals.step build) {} Signals.connect = some connected := rfl

structure Peer (L : Type) where
  lib : L
  signals : Signals.State := connected
  taken : Finset Nat := ∅

namespace Peer

def world (p : Peer L) : World L Heap := ⟨p.lib, p.signals.heap, []⟩

def after (p : Peer L) (w : World L Heap) : Peer L :=
  { p with lib := w.lib, signals := { p.signals with heap := w.self } }

def take (p : Peer L) (i : Nat) : Peer L := { p with taken := insert i p.taken }

@[simp] theorem lib_take (p : Peer L) (i : Nat) : (p.take i).lib = p.lib := rfl

/-- The description a callback's signal has brought, if it has been emitted and
is still to be taken to the other peer. -/
def described (p : Peer L) (i : Nat) : Option (String × String) :=
  if i ∈ p.taken then none
  else do
    let e ← p.signals.emitted.find? (·.task.id = i)
    match e.task.signal with
    | .sessionDescriptionCreated type sdp => some (type, sdp)
    | _ => none

end Peer

inductive Side
  | offerer | answerer
  deriving DecidableEq, Repr

def Side.other : Side → Side
  | .offerer => .answerer
  | .answerer => .offerer

def Side.makes : Side → DescriptionType
  | .offerer => .offer
  | .answerer => .answer

structure State (L : Type) where
  peers : Side → Peer L
  failed : Bool := false

def State.set (s : State L) (side : Side) (p : Peer L) : State L :=
  { s with peers := Function.update s.peers side p }

def State.relay (s : State L) (side : Side) (i : Nat) (ok : Bool) (w : World L Heap) : State L :=
  { (s.set side ((s.peers side).take i)).set side.other ((s.peers side.other).after w) with
    failed := s.failed || !ok }

def State.lose (s : State L) (side : Side) (i : Nat) : State L :=
  { s.set side ((s.peers side).take i) with failed := true }

inductive Event (L : Type)
  | createOffer
  | relay (side : Side) (i : Nat)
  | lose (side : Side) (i : Nat)
  | announce (side : Side) (l : L)
  | signals (side : Side) (e : Signals.Event)
  | call (side : Side) (op : PeerOp L)
  | library (side : Side) (l : L)

/-- The connection stays, and no description is announced. -/
def aside : Signals.Event → Bool
  | .close | .initializePc | .createPc _ | .destroy | .invoke _ (.localDescription _) => false
  | _ => true

/-- The calls that take no part in the negotiation. -/
def leaves : PeerOp L → Bool
  | .createDataChannel _ _ | .setLocalDescription _ _ | .addIceCandidate _ _ _ => true
  | _ => false

def succeeded : Except Thrown Error → Bool
  | .ok .ok => true
  | _ => false

variable (build : Build) (engine : Engine) (api : PeerApi L) (view : L → Connection)

def step (s : State L) : Event L → Option (State L)
  | .createOffer =>
    let p := s.peers .offerer
    if p.signals.ready then some (s.set .offerer (p.after (createOffer api p.world).2)) else none
  | .relay side i =>
    let q := s.peers side.other
    match (s.peers side).described i with
    | some (type, sdp) =>
      if q.signals.ready then
        let (r, w) := setRemoteDescription api type sdp q.world
        some (s.relay side i (succeeded r) w)
      else none
    | none => none
  | .lose side i => if ((s.peers side).described i).isSome then some (s.lose side i) else none
  | .announce side l =>
    let p := s.peers side
    match p.signals.heap.peerConnection, (view p.lib).owed with
    | some conn, d :: owed =>
      if view l = { view p.lib with owed := owed } then
        (Signals.step build p.signals (.invoke conn (.localDescription d))).map fun signals =>
          s.set side { p with lib := l, signals := signals }
      else none
    | _, _ => none
  | .signals side e =>
    let p := s.peers side
    if aside e then
      (Signals.step build p.signals e).map fun signals => s.set side { p with signals := signals }
    else none
  | .call side op =>
    let p := s.peers side
    if p.signals.ready && leaves op then
      some (s.set side (p.after (op.exec engine api p.world).2))
    else none
  | .library side l =>
    let p := s.peers side
    if view l = view p.lib then some (s.set side { p with lib := l }) else none

inductive Step (s : State L) : Event L → State L → Prop
  | createOffer :
      Step s .createOffer
        (s.set .offerer ((s.peers .offerer).after (createOffer api (s.peers .offerer).world).2))
  | relay (described : (s.peers side).described i = some (type, sdp))
      (call : setRemoteDescription api type sdp (s.peers side.other).world = (r, w)) :
      Step s (.relay side i) (s.relay side i (succeeded r) w)
  | lose (described : (s.peers side).described i = some text) :
      Step s (.lose side i) (s.lose side i)
  | announce (owes : (view (s.peers side).lib).owed = d :: owed)
      (paid : view l = { view (s.peers side).lib with owed := owed })
      (invoked : Signals.step build (s.peers side).signals (.invoke conn (.localDescription d)) =
        some signals) :
      Step s (.announce side l) (s.set side { s.peers side with lib := l, signals := signals })
  | signals (stays : aside e = true)
      (stepped : Signals.step build (s.peers side).signals e = some signals) :
      Step s (.signals side e) (s.set side { s.peers side with signals := signals })
  | call (leaves : leaves op = true) :
      Step s (.call side op)
        (s.set side ((s.peers side).after (op.exec engine api (s.peers side).world).2))
  | library (same : view l = view (s.peers side).lib) :
      Step s (.library side l) (s.set side { s.peers side with lib := l })

variable {build engine api view}

theorem step_cases {s t : State L} (h : step build engine api view s e = some t) :
    Step build engine api view s e t := by
  cases e with
  | createOffer =>
    simp only [step] at h
    split at h <;> cases h
    exact .createOffer
  | relay side i =>
    simp only [step] at h
    repeat' split at h
    all_goals cases h
    exact .relay (by assumption) rfl
  | lose side i =>
    simp only [step] at h
    split at h
    · rename_i hsome
      cases h
      obtain ⟨text, htext⟩ := Option.isSome_iff_exists.mp hsome
      exact .lose htext
    · cases h
  | announce side l =>
    simp only [step] at h
    repeat' split at h
    · rename_i howed hpaid
      obtain ⟨signals, hsignals, rfl⟩ := Option.map_eq_some_iff.mp h
      exact .announce howed hpaid hsignals
    all_goals cases h
  | signals side e =>
    simp only [step] at h
    split at h
    · rename_i hstays
      obtain ⟨signals, hsignals, rfl⟩ := Option.map_eq_some_iff.mp h
      exact .signals hstays hsignals
    · cases h
  | call side op =>
    simp only [step] at h
    split at h
    · rename_i hcall
      cases h
      exact .call (Bool.and_eq_true_iff.mp hcall).2
    · cases h
  | library side l =>
    simp only [step] at h
    split at h
    · cases h
      exact .library (by assumption)
    · cases h

end Negotiation

end WebRtc.PeerConnection
