import WebRtc.PeerConnection
import WebRtc.Lib.Machine

/-!
# The signals under interleaving

The library's callbacks run on its own threads, the application's calls on one
thread, and the signal handlers run inside `_poll`, where they may call the
object again: the polls in progress are a stack. A callback is cut where it can
be overtaken: after its arguments are made, after it has locked its weak
pointer, after it has queued its task. What `Heap` does is as in
`WebRTCLibPeerConnection`; the other fields record what has happened.

The library may call back for any connection it was ever given, also for one
that was closed, and any number of callbacks may be under way. The object is
destroyed only when none of its polls is in progress: a handler that frees the
object it is called from is undefined in the source.
-/

namespace WebRtc.PeerConnection.Signals

inductive CallbackPc
  | invoked
  /-- The arguments of `queue_task` can be made; a wrapper has been. -/
  | prepared
  | locked (p_state : Option Nat)
  | queued (p_state : Option Nat)
  | finished
  deriving DecidableEq

structure Callback where
  conn : Nat
  announcement : Announcement
  pc : CallbackPc
  deriving DecidableEq

structure Frame where
  id : Nat
  localQueue : List Task
  emitting : Bool := false
  /-- The queue when it was swapped. -/
  snapshot : List Task
  deriving DecidableEq

structure Emission where
  poll : Nat
  task : Task
  /-- The connections made before the last `_close` that had returned are those
  below this one. -/
  closedBelow : Nat
  /-- A remotely opened channel, as its signal hands it over. -/
  channel : Option Channel
  deriving DecidableEq

structure State where
  heap : Heap := {}
  alive : Bool := true
  /-- `_initialize` is between its `_close` and its end. -/
  initializing : Bool := false
  stack : List Frame := []
  callbacks : List Callback := []
  appRefs : List Nat := []
  polls : Nat := 0
  closedBelow : Nat := 0
  pushed : List Task := []
  /-- The tasks of callbacks whose weak pointer had expired. -/
  gone : List Task := []
  emitted : List Emission := []
  /-- The tasks in a shared state when it was replaced, or pushed there later. -/
  discarded : List Task := []
  returned : List Frame := []
  deriving DecidableEq

inductive Event
  | poll
  | emit
  | handlerReturn
  | pollReturn
  | close
  /-- `_initialize`, up to the return of its `_close`. -/
  | initializePc
  /-- The rest of `_initialize`, with a new connection or without. -/
  | createPc (ok : Bool)
  | destroy
  /-- The application copies a `Ref` it has, or is being given. -/
  | retain (ch : Nat)
  | drop (ch : Nat)
  | getPacket (ch : Nat)
  /-- `_close` of a wrapper, which stays bound to its channel. -/
  | closeChannel (ch : Nat)
  | invoke (conn : Nat) (announcement : Announcement)
  | prepare (i : Nat)
  | lock (i : Nat)
  | push (i : Nat)
  | finish (i : Nat)
  | arrive (ch : Nat) (m : Message)
  | deliver (ch : Nat)
  deriving DecidableEq

/-- The tasks of the local queue whose emission has not started. -/
def Frame.waiting (f : Frame) : List Task := if f.emitting then f.localQueue.tail else f.localQueue

def Frame.gives (f : Frame) (ch : Nat) : Bool :=
  f.emitting && (f.localQueue.head?.map Task.signal = some (.dataChannelReceived ch))

namespace State

def ready (s : State) : Bool :=
  s.alive && !s.initializing && match s.stack with
    | [] => true
    | f :: _ => f.emitting

theorem ready_not_initializing {s : State} (h : s.ready = true) : s.initializing = false := by
  simp only [ready, Bool.and_eq_true, Bool.not_eq_true'] at h
  exact h.1.2

theorem alive_of_ready {s : State} (h : s.ready = true) : s.alive = true := by
  simp only [ready, Bool.and_eq_true] at h
  exact h.1.1

theorem ready_of_eq {s t : State} (h : s.ready = true) (halive : t.alive = s.alive)
    (hinit : t.initializing = false) (hstack : t.stack = s.stack) : t.ready = true := by
  unfold ready at h ⊢
  rw [halive, hinit, hstack]
  simp only [Bool.and_eq_true] at h ⊢
  exact ⟨⟨h.1.1, rfl⟩, h.2⟩

def waiting (s : State) : List Task := s.stack.flatMap Frame.waiting

def setPc (s : State) (i : Nat) (pc : CallbackPc) : State :=
  { s with callbacks := s.callbacks.modify i fun c => { c with pc := pc } }

def close (s : State) : State :=
  { s with
    heap := s.heap.replaceState
    closedBelow := s.heap.conns.length
    discarded := s.discarded ++ s.heap.queue }

def channelOf (s : State) (t : Task) : Option Channel :=
  match t.signal with
  | .dataChannelReceived ch => s.heap.channels[ch]?
  | _ => none

end State

/-- `s.lock()` on what the connection's callbacks have captured. -/
def lockWeak (h : Heap) (conn : Nat) : Option Nat :=
  match h.conns[conn]? with
  | some (some sid) => if h.states[sid]?.any fun st => 0 < st.refs then some sid else none
  | _ => none

def taskOf (build : Build) (i : Nat) (c : Callback) : Task :=
  ⟨i, c.conn, c.announcement.signal build⟩

def prepareArgs (h : Heap) : Announcement → Heap
  | .dataChannel ch => match DataChannel.newDataChannel (some ch) false with
    | some object => h.modifyChannel ch (Channel.bind · object)
    | none => h
  | _ => h

/-- The channel an announcement brings is new. -/
def announce (h : Heap) : Announcement → Option Heap
  | .dataChannel ch =>
    if ch = h.channels.length then some { h with channels := h.channels ++ [{}] } else none
  | _ => some h

def step (build : Build) (s : State) : Event → Option State
  | .poll =>
    if !s.ready then none
    else if s.heap.peerConnection.isNone then some s
    else some { s with
      heap := s.heap.swapQueue
      stack := ⟨s.polls, s.heap.queue, false, s.heap.queue⟩ :: s.stack
      polls := s.polls + 1 }
  | .emit => match s.stack with
    | f :: rest => match f.emitting, f.localQueue with
      | false, t :: _ =>
        some { s with
          heap := s.heap.retain t
          stack := { f with emitting := true } :: rest
          emitted := s.emitted ++ [⟨f.id, t, s.closedBelow, s.channelOf t⟩] }
      | _, _ => none
    | [] => none
  | .handlerReturn =>
    if s.initializing then none
    else match s.stack with
      | f :: rest => match f.emitting, f.localQueue with
        | true, t :: local_queue =>
          some { s with
            heap := (s.heap.release t).release t
            stack := { f with localQueue := local_queue, emitting := false } :: rest }
        | _, _ => none
      | [] => none
  | .pollReturn => match s.stack with
    | f :: rest =>
      if f.emitting || !f.localQueue.isEmpty then none
      else some { s with stack := rest, returned := s.returned ++ [f] }
    | [] => none
  | .close => if s.ready then some s.close else none
  | .initializePc => if s.ready then some { s.close with initializing := true } else none
  | .createPc ok =>
    if s.initializing then
      some { s with
        heap := if ok then s.heap.newConnection else s.heap
        initializing := false }
    else none
  | .destroy =>
    if s.ready && s.stack.isEmpty then
      some { s.close with heap := s.heap.destroy, alive := false }
    else none
  | .retain ch =>
    if s.appRefs.contains ch || s.stack.any (·.gives ch) then
      some { s with
        heap := s.heap.modifyChannel ch Channel.retain
        appRefs := s.appRefs ++ [ch] }
    else none
  | .drop ch =>
    if s.appRefs.contains ch then
      some { s with heap := s.heap.releaseChannel ch, appRefs := s.appRefs.erase ch }
    else none
  | .getPacket ch =>
    if s.appRefs.contains ch then
      some { s with heap := s.heap.modifyChannel ch Channel.getPacket }
    else none
  | .closeChannel ch => if s.appRefs.contains ch then some s else none
  | .invoke conn announcement =>
    if conn < s.heap.conns.length then
      (announce s.heap announcement).map fun h =>
        { s with heap := h, callbacks := s.callbacks ++ [⟨conn, announcement, .invoked⟩] }
    else none
  | .prepare i => do
    let c ← s.callbacks[i]?
    match c.pc with
    | .invoked => some { s.setPc i .prepared with heap := prepareArgs s.heap c.announcement }
    | _ => none
  | .lock i => do
    let c ← s.callbacks[i]?
    match c.pc with
    | .prepared =>
      let h := s.heap.retain (taskOf build i c)
      match lockWeak s.heap c.conn with
      | some sid => some { s.setPc i (.locked (some sid)) with heap := h.lockState sid }
      | none => some { s.setPc i (.locked none) with heap := h }
    | _ => none
  | .push i => do
    let c ← s.callbacks[i]?
    match c.pc with
    | .locked (some sid) =>
      some { s.setPc i (.queued (some sid)) with
        heap := s.heap.pushTask sid (taskOf build i c)
        pushed := s.pushed ++ [taskOf build i c]
        discarded := s.discarded ++
          if s.heap.sharedState = some sid then [] else [taskOf build i c] }
    | .locked none =>
      some { s.setPc i (.queued none) with gone := s.gone ++ [taskOf build i c] }
    | _ => none
  | .finish i => do
    let c ← s.callbacks[i]?
    match c.pc with
    | .queued p_state =>
      let h := (s.heap.release (taskOf build i c)).releaseState? p_state
      some { s.setPc i .finished with heap := h.release (taskOf build i c) }
    | _ => none
  | .arrive ch m =>
    if ch < s.heap.channels.length then
      some { s with
        heap := s.heap.modifyChannel ch fun c => { c with incoming := c.incoming ++ [m] } }
    else none
  | .deliver ch => do
    let c ← s.heap.channels[ch]?
    let m ← c.incoming[c.delivered]?
    if c.bound then some { s with heap := s.heap.modifyChannel ch (Channel.deliver · m) } else none

-- ---------------------------------------------------------------------------
-- What a step can do
-- ---------------------------------------------------------------------------

inductive Step (build : Build) (s : State) : Event → State → Prop
  | pollUnconfigured (ready : s.ready = true) (unconfigured : s.heap.peerConnection = none) :
      Step build s .poll s
  | poll (ready : s.ready = true) (configured : s.heap.peerConnection ≠ none) :
      Step build s .poll { s with
      heap := s.heap.swapQueue
      stack := ⟨s.polls, s.heap.queue, false, s.heap.queue⟩ :: s.stack
      polls := s.polls + 1 }
  | emit (stack : s.stack = f :: rest) (idle : f.emitting = false)
      (front : f.localQueue = t :: local_queue) : Step build s .emit { s with
      heap := s.heap.retain t
      stack := { f with emitting := true } :: rest
      emitted := s.emitted ++ [⟨f.id, t, s.closedBelow, s.channelOf t⟩] }
  | handlerReturn (stack : s.stack = f :: rest) (emitting : f.emitting = true)
      (front : f.localQueue = t :: local_queue) : Step build s .handlerReturn { s with
      heap := (s.heap.release t).release t
      stack := { f with localQueue := local_queue, emitting := false } :: rest }
  | pollReturn (stack : s.stack = f :: rest) (idle : f.emitting = false)
      (empty : f.localQueue = []) : Step build s .pollReturn { s with
      stack := rest
      returned := s.returned ++ [f] }
  | close (ready : s.ready = true) : Step build s .close s.close
  | initializePc (ready : s.ready = true) :
      Step build s .initializePc { s.close with initializing := true }
  | connect (initializing : s.initializing = true) : Step build s (.createPc true) { s with
      heap := s.heap.newConnection
      initializing := false }
  | connectFails (initializing : s.initializing = true) :
      Step build s (.createPc false) { s with initializing := false }
  | destroy (ready : s.ready = true) (idle : s.stack = []) :
      Step build s .destroy { s.close with heap := s.heap.destroy, alive := false }
  | retain (access : ch ∈ s.appRefs ∨ ∃ f ∈ s.stack, f.gives ch = true) :
      Step build s (.retain ch) { s with
        heap := s.heap.modifyChannel ch Channel.retain
        appRefs := s.appRefs ++ [ch] }
  | drop (held : ch ∈ s.appRefs) : Step build s (.drop ch) { s with
      heap := s.heap.releaseChannel ch
      appRefs := s.appRefs.erase ch }
  | getPacket (held : ch ∈ s.appRefs) : Step build s (.getPacket ch) { s with
      heap := s.heap.modifyChannel ch Channel.getPacket }
  | closeChannel (held : ch ∈ s.appRefs) : Step build s (.closeChannel ch) s
  | invoke (inRange : conn < s.heap.conns.length) (announced : announce s.heap a = some h) :
      Step build s (.invoke conn a) { s with
        heap := h
        callbacks := s.callbacks ++ [⟨conn, a, .invoked⟩] }
  | prepare (callback : s.callbacks[i]? = some c) (pc : c.pc = .invoked) :
      Step build s (.prepare i) { s.setPc i .prepared with heap := prepareArgs s.heap c.announcement }
  | lock (callback : s.callbacks[i]? = some c) (pc : c.pc = .prepared)
      (locked : lockWeak s.heap c.conn = some sid) :
      Step build s (.lock i) { s.setPc i (.locked (some sid)) with
        heap := (s.heap.retain (taskOf build i c)).lockState sid }
  | lockExpired (callback : s.callbacks[i]? = some c) (pc : c.pc = .prepared)
      (expired : lockWeak s.heap c.conn = none) :
      Step build s (.lock i) { s.setPc i (.locked none) with
        heap := s.heap.retain (taskOf build i c) }
  | push (callback : s.callbacks[i]? = some c) (pc : c.pc = .locked (some sid)) :
      Step build s (.push i) { s.setPc i (.queued (some sid)) with
        heap := s.heap.pushTask sid (taskOf build i c)
        pushed := s.pushed ++ [taskOf build i c]
        discarded := s.discarded ++
          if s.heap.sharedState = some sid then [] else [taskOf build i c] }
  | pushExpired (callback : s.callbacks[i]? = some c) (pc : c.pc = .locked none) :
      Step build s (.push i) { s.setPc i (.queued none) with
        gone := s.gone ++ [taskOf build i c] }
  | finish (callback : s.callbacks[i]? = some c) (pc : c.pc = .queued p_state) :
      Step build s (.finish i) { s.setPc i .finished with
        heap := ((s.heap.release (taskOf build i c)).releaseState? p_state).release
          (taskOf build i c) }
  | arrive (inRange : ch < s.heap.channels.length) : Step build s (.arrive ch m) { s with
      heap := s.heap.modifyChannel ch fun c => { c with incoming := c.incoming ++ [m] } }
  | deliver (channel : s.heap.channels[ch]? = some c) (next : c.incoming[c.delivered]? = some m)
      (bound : c.bound = true) : Step build s (.deliver ch) { s with
      heap := s.heap.modifyChannel ch (Channel.deliver · m) }

theorem step_cases (h : step build s e = some t) : Step build s e t := by
  cases e with
  | poll =>
    simp only [step] at h
    split at h
    · cases h
    rename_i hready
    split at h
    · rename_i hnone; cases h; exact .pollUnconfigured (by simpa using hready) (by simpa using hnone)
    · rename_i hsome; cases h; exact .poll (by simpa using hready) (by simpa using hsome)
  | emit | handlerReturn =>
    simp only [step] at h
    repeat' split at h
    all_goals cases h
    all_goals constructor <;> assumption
  | pollReturn =>
    simp only [step] at h
    split at h
    · rename_i hstack
      split at h
      · cases h
      · rename_i hidle
        cases h
        simp only [Bool.or_eq_true, Bool.not_eq_true', List.isEmpty_eq_false_iff, ne_eq, not_or,
          Bool.not_eq_true, not_not] at hidle
        exact .pollReturn hstack hidle.1 hidle.2
    · cases h
  | close | initializePc =>
    simp only [step] at h
    split at h
    · cases h; constructor; assumption
    · cases h
  | createPc ok =>
    simp only [step] at h
    split at h
    · rename_i hi
      cases h
      cases ok
      · exact .connectFails hi
      · exact .connect hi
    · cases h
  | destroy =>
    simp only [step] at h
    split at h
    · rename_i hd
      cases h
      simp only [Bool.and_eq_true, List.isEmpty_iff] at hd
      exact .destroy hd.1 hd.2
    · cases h
  | retain ch | drop ch | getPacket ch | closeChannel ch | arrive ch m =>
    simp only [step] at h
    split at h
    · rename_i hh; cases h; constructor; simpa using hh
    · cases h
  | invoke conn a =>
    simp only [step] at h
    split at h
    · rename_i hlt
      obtain ⟨k, hk, rfl⟩ := Option.map_eq_some_iff.mp h
      exact .invoke hlt hk
    · cases h
  | prepare i | finish i =>
    simp only [step, Option.bind_eq_bind, Option.bind_eq_some_iff] at h
    obtain ⟨c, hc, h⟩ := h
    split at h
    · rename_i hpc; cases h; constructor <;> assumption
    · cases h
  | lock i =>
    simp only [step, Option.bind_eq_bind, Option.bind_eq_some_iff] at h
    obtain ⟨c, hc, h⟩ := h
    repeat' split at h
    all_goals cases h
    all_goals constructor <;> assumption
  | push i =>
    simp only [step, Option.bind_eq_bind, Option.bind_eq_some_iff] at h
    obtain ⟨c, hc, h⟩ := h
    split at h
    · rename_i hpc; cases h; exact .push hc hpc
    · rename_i hpc; cases h; exact .pushExpired hc hpc
    · cases h
  | deliver ch =>
    simp only [step, Option.bind_eq_bind, Option.bind_eq_some_iff] at h
    obtain ⟨c, hc, m, hm, h⟩ := h
    split at h
    · rename_i hb; cases h; exact .deliver hc hm hb
    · cases h

end WebRtc.PeerConnection.Signals
