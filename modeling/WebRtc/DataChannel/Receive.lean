import WebRtc.DataChannel
import WebRtc.Lib.Machine
import Mathlib.Logic.Function.Basic
import Mathlib.Tactic.Simps.Basic

/-!
# The receive path under interleaving

Any number of `onMessage` callbacks run `queue_packet` on network threads
while one consumer thread calls the wrapper. Each statement between a lock and
its unlock is a step of its own, so an event list is an interleaving.

`queue_packet` builds its packet before it locks and touches nothing shared
there, so `onMessage` is one step up to the lock. Element accesses are
recorded; with `checked`, an access out of range aborts the process, as a
hardened standard library does, and without it only an address is computed.
The weak pointer a callback locks is never empty here: the consumer calls the
wrapper for as long as the run lasts.
-/

namespace WebRtc.DataChannel.Receive

-- ---------------------------------------------------------------------------
-- Threads
-- ---------------------------------------------------------------------------

/-- Where an `onMessage` callback is in `queue_packet`. -/
inductive QueuePacketPc
  | idle
  | ready (m : Message)
  | locked (m : Message)
  | pushed
  | stored
  deriving DecidableEq

/-- Where the consumer is in `_get_packet`. -/
inductive GetPacketPc
  | idle
  | locked
  | unavailable
  | available
  | counted
  | copied
  | popped
  | filled
  deriving DecidableEq

def QueuePacketPc.critical : QueuePacketPc → Bool
  | .idle | .ready _ => false
  | .locked _ | .pushed | .stored => true

def GetPacketPc.critical (pc : GetPacketPc) : Bool := pc ≠ .idle

inductive Owner
  | callback (thread : Nat)
  | consumer
  deriving DecidableEq

/-- `vector[index]` on a vector of `size` elements. -/
structure Access where
  index : Nat
  size : Nat
  deriving DecidableEq, Repr

def Access.InRange (a : Access) : Prop := a.index < a.size

instance (a : Access) : Decidable a.InRange := by unfold Access.InRange; infer_instance

/-- A `_get_packet` call that has returned: what it found under its lock and
what it left. -/
structure GetCall where
  atLock : Receiver
  atReturn : Receiver
  code : Error
  deriving DecidableEq, Repr

/-- The consumer's calls other than `_get_packet`. -/
inductive ConsumerCall
  | setWriteMode (p_mode : WriteMode)
  | putPacket (p_buffer : Bytes)
  | poll
  | close
  | getter

def ConsumerCall.exec {L : Type} (api : DataChannelApi L) : ConsumerCall → Method L DataChannel Unit
  | .setWriteMode p_mode => DataChannel.setWriteMode p_mode
  | .putPacket p_buffer => do let _ ← DataChannel.putPacket api p_buffer
  | .poll => do let _ ← DataChannel.poll
  | .close => DataChannel.close api
  | .getter => pure ()

-- ---------------------------------------------------------------------------
-- The machine
-- ---------------------------------------------------------------------------

structure State (L : Type) where
  lib : L
  object : DataChannel
  mutex : Option Owner := none
  callbacks : Nat → QueuePacketPc := fun _ => .idle
  consumer : GetPacketPc := .idle
  /-- The messages in the order their callbacks took the lock. -/
  lockOrder : List Message := []
  /-- The receive side as the running `_get_packet` found it. -/
  entry : Receiver := {}
  calls : List GetCall := []
  accesses : List Access := []
  aborted : Bool := false

inductive Event (L : Type)
  | onMessage (thread : Nat) (m : Message)
  | lock (thread : Nat)
  | push (thread : Nat)
  | store (thread : Nat)
  | unlock (thread : Nat)
  | getLock
  | getTest
  | getStore
  | getCopy
  | getPop
  | getOut
  | getUnlock
  | call (c : ConsumerCall)
  /-- An open or closed callback stores the channel's state. -/
  | setState (p_channel_state : ChannelState)
  | library (l : L)

variable {L : Type}

/-- A wrapper that `new_data_channel` has just returned. -/
def State.initial (l : L) (p_negotiated : Bool) : State L :=
  { lib := l, object := bindChannel {} p_negotiated }

namespace State

@[simps object mutex callbacks consumer lockOrder entry calls accesses aborted]
def setReceiver (s : State L) (r : Receiver) : State L :=
  { s with object := { s.object with receiver := r } }

@[simps object mutex callbacks consumer lockOrder entry calls accesses aborted]
def setCallback (s : State L) (thread : Nat) (pc : QueuePacketPc) : State L :=
  { s with callbacks := Function.update s.callbacks thread pc }

@[simps object mutex callbacks consumer lockOrder entry calls accesses]
def access (checked : Bool) (s : State L) (a : Access) : State L :=
  { s with
    accesses := s.accesses ++ [a]
    aborted := s.aborted || (checked && !decide a.InRange) }

@[simps mutex callbacks consumer lockOrder entry calls accesses aborted]
def exec (api : DataChannelApi L) (s : State L) (c : ConsumerCall) : State L :=
  let w := (c.exec api { lib := s.lib, self := s.object }).2
  { s with lib := w.lib, object := w.self }

/-- The consumer's other calls write at most the write mode. -/
theorem exec_keeps {β : Type} {f : DataChannel → β}
    (hf : ∀ d mode, f { d with writeMode := mode } = f d) (api : DataChannelApi L) (c : ConsumerCall) :
    Method.Keeps f (c.exec api) := by
  cases c with
  | setWriteMode p_mode => exact setWriteMode_keeps hf p_mode
  | putPacket p_buffer => exact .bind (putPacket_keeps api _ p_buffer) fun _ => .pure ()
  | poll => exact .bind (.pure _) fun _ => .pure ()
  | close => exact close_keeps api _
  | getter => exact .pure ()

@[simp] theorem exec_receiver (s : State L) (api : DataChannelApi L) :
    (s.exec api c).object.receiver = s.object.receiver :=
  exec_keeps (fun _ _ => rfl) api c { lib := s.lib, self := s.object }

end State

def enabledStep (checked : Bool) (api : DataChannelApi L) (s : State L) :
    Event L → Option (State L)
  | .onMessage t m => match s.callbacks t with
    | .idle =>
      some ((s.setCallback t (.ready m)).access checked ⟨0, (buildPacket m).first.length⟩)
    | _ => none
  | .lock t => match s.callbacks t, s.mutex with
    | .ready m, none =>
      some { s.setCallback t (.locked m) with
        mutex := some (.callback t), lockOrder := s.lockOrder ++ [m] }
    | _, _ => none
  | .push t => match s.callbacks t with
    | .locked m => some ((s.setCallback t .pushed).setReceiver (s.object.receiver.push (buildPacket m)))
    | _ => none
  | .store t => match s.callbacks t with
    | .pushed => some ((s.setCallback t .stored).setReceiver s.object.receiver.storeSize)
    | _ => none
  | .unlock t => match s.callbacks t with
    | .stored => some { s.setCallback t .idle with mutex := none }
    | _ => none
  | .getLock => match s.consumer, s.mutex with
    | .idle, none =>
      some { s with consumer := .locked, mutex := some .consumer, entry := s.object.receiver }
    | _, _ => none
  | .getTest => match s.consumer with
    | .locked =>
      some { s with consumer := if s.object.receiver.packetQueue.isEmpty then .unavailable else .available }
    | _ => none
  | .getStore => match s.consumer with
    | .available => some { s.setReceiver s.object.receiver.storeSizeMinusOne with consumer := .counted }
    | _ => none
  | .getCopy => match s.consumer with
    | .counted => some { s.setReceiver s.object.receiver.copyFront with consumer := .copied }
    | _ => none
  | .getPop => match s.consumer with
    | .copied => some { s.setReceiver s.object.receiver.pop with consumer := .popped }
    | _ => none
  | .getOut => match s.consumer with
    | .popped =>
      some (({ s.setReceiver s.object.receiver.setOut with consumer := .filled } : State L).access
        checked ⟨0, s.object.receiver.currentPacket.first.length⟩)
    | _ => none
  | .getUnlock => match s.consumer with
    | .unavailable =>
      some { s with
        consumer := .idle, mutex := none
        calls := s.calls ++ [⟨s.entry, s.object.receiver, .unavailable⟩] }
    | .filled =>
      some { s with
        consumer := .idle, mutex := none
        calls := s.calls ++ [⟨s.entry, s.object.receiver, .ok⟩] }
    | _ => none
  | .call c => match s.consumer with
    | .idle => some (s.exec api c)
    | _ => none
  | .setState p_channel_state =>
    some { s with object := { s.object with channelState := p_channel_state } }
  | .library l => some { s with lib := l }

/-- Nothing runs in an aborted process. -/
def step (checked : Bool) (api : DataChannelApi L) (s : State L) (e : Event L) :
    Option (State L) :=
  if s.aborted then none else enabledStep checked api s e

-- ---------------------------------------------------------------------------
-- What a step can do
-- ---------------------------------------------------------------------------

section
variable (checked : Bool) (api : DataChannelApi L)

/-- `step` read as a relation, one constructor per way a step can go. -/
inductive Step (s : State L) : Event L → State L → Prop
  | onMessage (idle : s.callbacks t = .idle) :
      Step s (.onMessage t m)
        ((s.setCallback t (.ready m)).access checked ⟨0, (buildPacket m).first.length⟩)
  | lock (ready : s.callbacks t = .ready m) (free : s.mutex = none) :
      Step s (.lock t) { s.setCallback t (.locked m) with
        mutex := some (.callback t), lockOrder := s.lockOrder ++ [m] }
  | push (locked : s.callbacks t = .locked m) :
      Step s (.push t) ((s.setCallback t .pushed).setReceiver (s.object.receiver.push (buildPacket m)))
  | store (pushed : s.callbacks t = .pushed) :
      Step s (.store t) ((s.setCallback t .stored).setReceiver s.object.receiver.storeSize)
  | unlock (stored : s.callbacks t = .stored) :
      Step s (.unlock t) { s.setCallback t .idle with mutex := none }
  | getLock (idle : s.consumer = .idle) (free : s.mutex = none) :
      Step s .getLock { s with consumer := .locked, mutex := some .consumer, entry := s.object.receiver }
  | getEmpty (locked : s.consumer = .locked) (empty : s.object.receiver.packetQueue = []) :
      Step s .getTest { s with consumer := .unavailable }
  | getSome (locked : s.consumer = .locked) (some : s.object.receiver.packetQueue ≠ []) :
      Step s .getTest { s with consumer := .available }
  | getStore (available : s.consumer = .available) :
      Step s .getStore { s.setReceiver s.object.receiver.storeSizeMinusOne with consumer := .counted }
  | getCopy (counted : s.consumer = .counted) :
      Step s .getCopy { s.setReceiver s.object.receiver.copyFront with consumer := .copied }
  | getPop (copied : s.consumer = .copied) :
      Step s .getPop { s.setReceiver s.object.receiver.pop with consumer := .popped }
  | getOut (popped : s.consumer = .popped) :
      Step s .getOut (({ s.setReceiver s.object.receiver.setOut with consumer := .filled } : State L).access
        checked ⟨0, s.object.receiver.currentPacket.first.length⟩)
  | getFail (unavailable : s.consumer = .unavailable) :
      Step s .getUnlock { s with
        consumer := .idle, mutex := none
        calls := s.calls ++ [⟨s.entry, s.object.receiver, .unavailable⟩] }
  | getOk (filled : s.consumer = .filled) :
      Step s .getUnlock { s with
        consumer := .idle, mutex := none
        calls := s.calls ++ [⟨s.entry, s.object.receiver, .ok⟩] }
  | call (idle : s.consumer = .idle) : Step s (.call c) (s.exec api c)
  | setState :
      Step s (.setState cs) { s with object := { s.object with channelState := cs } }
  | library : Step s (.library l) { s with lib := l }

variable {checked : Bool} {api : DataChannelApi L}

theorem step_cases (h : step checked api s e = some t) :
    s.aborted = false ∧ Step checked api s e t := by
  unfold step at h
  split at h
  · cases h
  rename_i ha
  refine ⟨by simpa using ha, ?_⟩
  cases e with
  | getTest =>
    simp only [enabledStep] at h
    split at h
    · rename_i hc
      cases h
      by_cases hq : s.object.receiver.packetQueue = []
      · simpa [hq] using Step.getEmpty hc hq
      · simpa [hq] using Step.getSome hc hq
    · cases h
  | lock | getLock =>
    simp only [enabledStep] at h
    split at h
    · rename_i h₁ h₂; cases h; constructor <;> assumption
    · cases h
  | getUnlock =>
    simp only [enabledStep] at h
    split at h
    · rename_i hc; cases h; exact .getFail hc
    · rename_i hc; cases h; exact .getOk hc
    · cases h
  | setState | library => cases h; constructor
  | _ =>
    simp only [enabledStep] at h
    split at h
    · rename_i hc; cases h; constructor; assumption
    · cases h

-- ---------------------------------------------------------------------------
-- Mutual exclusion
-- ---------------------------------------------------------------------------

/-- A thread is in its critical section exactly when it owns the mutex. -/
structure Exclusive (s : State L) : Prop where
  callback : ∀ t, (s.callbacks t).critical = true ↔ s.mutex = some (.callback t)
  consumer : s.consumer.critical = true ↔ s.mutex = some .consumer

theorem initial_exclusive (l : L) (n : Bool) : Exclusive (State.initial l n) :=
  ⟨fun _ => by simp [State.initial, QueuePacketPc.critical],
    by simp [State.initial, GetPacketPc.critical]⟩

theorem Exclusive.free (hs : Exclusive s) (free : s.mutex = none) (t : Nat) :
    (s.callbacks t).critical = false := by
  have := hs.callback t
  simpa [free] using this

theorem Exclusive.callback_owns (hs : Exclusive s) (pc : s.callbacks t = p)
    (hp : p.critical = true) : s.mutex = some (.callback t) :=
  (hs.callback t).mp (pc ▸ hp)

theorem Exclusive.consumer_owns (hs : Exclusive s) (pc : s.consumer = p)
    (hp : p.critical = true) : s.mutex = some .consumer :=
  hs.consumer.mp (pc ▸ hp)

theorem Exclusive.idle (hs : Exclusive s) (pc : s.callbacks t = p) (hp : p.critical = true) :
    s.consumer = .idle := by
  have owns := hs.callback_owns pc hp
  have := hs.consumer
  simpa [owns, GetPacketPc.critical] using this

theorem Exclusive.update_idle (hs : Exclusive s) (idle : s.callbacks t = .idle)
    (owns : s.mutex = some (.callback u)) (p : QueuePacketPc) :
    Function.update s.callbacks t p u = s.callbacks u := by
  have hne : u ≠ t := by
    rintro rfl
    have := (hs.callback u).mpr owns
    simp [idle, QueuePacketPc.critical] at this
  exact Function.update_of_ne hne ..

theorem Exclusive.update (hs : Exclusive s) (hc : (s.callbacks t).critical = pc.critical) (u : Nat) :
    (Function.update s.callbacks t pc u).critical = true ↔ s.mutex = some (.callback u) := by
  by_cases hu : u = t
  · subst hu; simpa [← hc] using hs.callback u
  · simpa [hu] using hs.callback u

theorem step_exclusive (hs : Exclusive s) (h : step checked api s e = some t) : Exclusive t := by
  cases (step_cases h).2 with
  | onMessage pc | push pc | store pc =>
    refine ⟨fun u => ?_, by simpa using hs.consumer⟩
    simpa using hs.update (by simp [pc, QueuePacketPc.critical]) u
  | @lock k m ready free =>
    refine ⟨fun u => ?_, ?_⟩
    · by_cases hu : u = k
      · subst hu; simp [QueuePacketPc.critical]
      · simp [hu, hs.free free u, Ne.symm hu]
    · have := hs.consumer
      simpa [free] using this
  | @unlock k stored =>
    have owns := hs.callback_owns stored rfl
    refine ⟨fun u => ?_, ?_⟩
    · by_cases hu : u = k
      · subst hu; simp [QueuePacketPc.critical]
      · have := hs.callback u
        simpa [hu, owns, Ne.symm hu] using this
    · have := hs.consumer
      simpa [owns] using this
  | getLock idle free =>
    exact ⟨fun u => by simp [hs.free free u], by simp [GetPacketPc.critical]⟩
  | getFail pc | getOk pc =>
    have owns := hs.consumer_owns pc rfl
    refine ⟨fun u => ?_, by simp [GetPacketPc.critical]⟩
    have := hs.callback u
    simpa [owns] using this
  | getEmpty pc | getSome pc | getStore pc | getCopy pc | getPop pc | getOut pc =>
    have owns := hs.consumer_owns pc rfl
    exact ⟨by simpa using hs.callback, by simp [GetPacketPc.critical, owns]⟩
  | call | setState | library => exact ⟨by simpa using hs.callback, by simpa using hs.consumer⟩

end

end WebRtc.DataChannel.Receive
