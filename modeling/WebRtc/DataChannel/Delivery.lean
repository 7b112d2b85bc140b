import WebRtc.DataChannel.Receive
import WebRtc.Lib.Fifo

/-!
# The receive path is a queue

Under the mutex, a `_get_packet` call in progress is the sequential
`getPacket` cut into its statements (`Running`), so every call that returns
did what `getPacket` does on what it found (`Sequential`). The interleaved
receive path then simulates the first-in first-out buffer of `Lib.Fifo`: a
callback puts its packet when it takes the lock, a call takes one when it pops.
-/

namespace WebRtc.DataChannel.Receive

open FixedWidth (toUnsigned toSigned)

variable {L : Type} {checked : Bool} {api : DataChannelApi L}

-- ---------------------------------------------------------------------------
-- Calls are sequential
-- ---------------------------------------------------------------------------

/-- How far the running `_get_packet` has taken the receive side from what it
found under its lock. -/
def Running (s : State L) : Prop :=
  match s.consumer with
  | .idle => True
  | .locked => s.object.receiver = s.entry
  | .unavailable => s.object.receiver = s.entry ∧ s.entry.packetQueue = []
  | .available => s.object.receiver = s.entry ∧ s.entry.packetQueue ≠ []
  | .counted => s.object.receiver = s.entry.storeSizeMinusOne ∧ s.entry.packetQueue ≠ []
  | .copied => s.object.receiver = s.entry.storeSizeMinusOne.copyFront ∧ s.entry.packetQueue ≠ []
  | .popped => s.object.receiver = s.entry.storeSizeMinusOne.copyFront.pop ∧ s.entry.packetQueue ≠ []
  | .filled =>
    s.object.receiver = s.entry.storeSizeMinusOne.copyFront.pop.setOut ∧ s.entry.packetQueue ≠ []

structure Sequential (s : State L) : Prop where
  exclusive : Exclusive s
  running : Running s
  calls : ∀ c ∈ s.calls, c.atLock.getPacket = (c.code, c.atReturn)

theorem initial_sequential (l : L) (n : Bool) : Sequential (State.initial l n) :=
  ⟨initial_exclusive l n, trivial, by simp [State.initial]⟩

theorem step_running (hs : Exclusive s) (hr : Running s) (h : Step checked api s e t) :
    Running t := by
  cases h with
  | onMessage | lock | unlock | setState | library => simpa [Running] using hr
  | push pc | store pc =>
    have hc := hs.idle pc rfl
    simp [Running, hc]
  | getLock | getFail | getOk => simp [Running]
  | call idle => simp [Running, idle]
  | getEmpty pc hq | getSome pc hq =>
    simp only [Running, pc] at hr
    exact ⟨hr, hr ▸ hq⟩
  | getStore pc | getCopy pc | getPop pc | getOut pc =>
    simp only [Running, pc] at hr
    exact ⟨by simp [hr.1], hr.2⟩

theorem step_sequential (hs : Sequential s) (h : step checked api s e = some t) :
    Sequential t := by
  have hstep := (step_cases h).2
  refine ⟨step_exclusive hs.exclusive h, step_running hs.exclusive hs.running hstep, ?_⟩
  have hr := hs.running
  cases hstep with
  | getFail pc | getOk pc =>
    simp only [Running, pc] at hr
    simpa [or_imp, forall_and, Receiver.getPacket, hr.1, hr.2] using hs.calls
  | _ => simpa using hs.calls

theorem run_sequential (h : Machine.run (step checked api) (State.initial l n) es = some s) :
    Sequential s :=
  Machine.run_invariant step_sequential h (initial_sequential l n)

-- ---------------------------------------------------------------------------
-- Simulation of the buffer
-- ---------------------------------------------------------------------------

/-- The `_get_packet` calls that returned a packet. -/
def State.returned (s : State L) : List GetCall := s.calls.filter (·.code = .ok)

/-- The packet popped by a call that has not returned yet. -/
def State.popped (s : State L) : List QueuedPacket :=
  match s.consumer with
  | .popped | .filled => [s.object.receiver.currentPacket]
  | _ => []

/-- The message of a callback that owns the lock and has not pushed yet. -/
def State.pushing (s : State L) : List Message :=
  match s.mutex with
  | some (.callback t) => match s.callbacks t with
    | .locked m => [m]
    | _ => []
  | _ => []

def State.buffer (s : State L) : Fifo.State QueuedPacket where
  inputs := s.lockOrder.map buildPacket
  outputs := s.returned.map (·.atReturn.currentPacket) ++ s.popped
  contents := s.object.receiver.packetQueue ++ s.pushing.map buildPacket

theorem pushing_of_free {s : State L} (h : s.mutex = none) : s.pushing = [] := by
  simp [State.pushing, h]

theorem pushing_onMessage {s t : State L} (hs : Exclusive s) (idle : s.callbacks k = .idle)
    (hmutex : t.mutex = s.mutex) (hcallbacks : t.callbacks = Function.update s.callbacks k p) :
    t.pushing = s.pushing := by
  simp only [State.pushing, hmutex, hcallbacks]
  split
  · rename_i owns
    rw [hs.update_idle idle owns]
  · rfl

theorem step_buffer (hs : Sequential s) (h : step checked api s e = some t) :
    t.buffer = s.buffer ∨ ∃ op, Fifo.step s.buffer op = some t.buffer := by
  have hx := hs.exclusive
  have hr := hs.running
  cases (step_cases h).2 with
  | @onMessage k m idle =>
    left
    have hpushing : ((s.setCallback k (.ready m)).access checked
        ⟨0, (buildPacket m).first.length⟩).pushing = s.pushing := pushing_onMessage hx idle rfl rfl
    simp [State.buffer, State.returned, State.popped, hpushing]
  | @lock k m ready free =>
    right
    refine ⟨.put (buildPacket m), ?_⟩
    simp [Fifo.step, State.buffer, State.returned, State.popped, State.pushing, free]
  | @push k m locked =>
    left
    have owns := hx.callback_owns locked rfl
    have idle := hx.idle locked rfl
    simp [State.buffer, State.returned, State.popped, State.pushing, owns, locked, idle,
      Receiver.push]
  | @store k pushed =>
    left
    have owns := hx.callback_owns pushed rfl
    have idle := hx.idle pushed rfl
    simp [State.buffer, State.returned, State.popped, State.pushing, owns, pushed, idle,
      Receiver.storeSize]
  | @unlock k stored =>
    left
    have owns := hx.callback_owns stored rfl
    simp [State.buffer, State.returned, State.popped, State.pushing, owns, stored]
  | getLock idle free =>
    left
    simp [State.buffer, State.returned, State.popped, State.pushing, idle, free]
  | getEmpty pc | getSome pc =>
    left
    simp [State.buffer, State.returned, State.popped, State.pushing, pc]
  | getStore pc | getCopy pc =>
    left
    have owns := hx.consumer_owns pc rfl
    simp [State.buffer, State.returned, State.popped, State.pushing, pc, owns,
      Receiver.storeSizeMinusOne, Receiver.copyFront]
  | getPop pc =>
    right
    refine ⟨.take, ?_⟩
    simp only [Running, pc] at hr
    have owns := hx.consumer_owns pc rfl
    obtain ⟨front, rest, hq⟩ := List.exists_cons_of_ne_nil hr.2
    simp [Fifo.step, State.buffer, State.returned, State.popped, State.pushing, pc, owns, hr.1, hq,
      Receiver.storeSizeMinusOne, Receiver.copyFront, Receiver.pop]
  | getOut pc =>
    left
    have owns := hx.consumer_owns pc rfl
    simp [State.buffer, State.returned, State.popped, State.pushing, pc, owns, Receiver.setOut]
  | getFail pc | getOk pc =>
    left
    have owns := hx.consumer_owns pc rfl
    simp [State.buffer, State.returned, State.popped, State.pushing, pc, owns]
  | call idle =>
    left
    simp [State.buffer, State.returned, State.popped, State.pushing, idle]
  | setState | library =>
    left
    simp [State.buffer, State.returned, State.popped, State.pushing]

theorem simulation : Machine.Simulation (step checked api) (fun _ _ => True) Fifo.step
    (fun _ _ => True) State.buffer Sequential where
  inv := step_sequential
  sim hs h := by
    rcases step_buffer hs h with he | ⟨op, hop⟩
    · exact ⟨[], by simp [he], fun _ => trivial⟩
    · exact ⟨[op], by simpa using hop, fun _ => Machine.guarded_true _ _⟩

theorem run_conserves (h : Machine.run (step checked api) (State.initial l n) es = some s) :
    Fifo.Conserves s.buffer := by
  obtain ⟨ops, hops, -⟩ := simulation.run h (initial_sequential l n)
  exact Fifo.run_conserves hops

-- ---------------------------------------------------------------------------
-- What the consumer sees
-- ---------------------------------------------------------------------------

/-- A packet as the consumer of `_get_packet` and `_was_string_packet` sees it. -/
structure Received where
  bytes : Option Bytes
  len : Int
  text : Bool
  deriving DecidableEq, Repr

def receivedOfMessage (m : Message) : Received := ⟨some m.data, m.data.length, m.isString⟩

def receivedOfPacket (p : QueuedPacket) : Received := ⟨some p.first, p.first.length, p.second⟩

/-- What the out parameters and `_was_string_packet` show now. -/
def observed (r : Receiver) : Received := ⟨r.exposed, r.rLen, r.wasStringPacket⟩

@[simp] theorem observed_push : observed (r.push p) = observed r := rfl

@[simp] theorem observed_storeSize : observed r.storeSize = observed r := rfl

@[simp] theorem observed_storeSizeMinusOne : observed r.storeSizeMinusOne = observed r := rfl

theorem observed_setOut {r : Receiver} (h : r.currentPacket.first.length < 2 ^ 31) :
    observed r.setOut = receivedOfPacket r.currentPacket := by
  have hl : toSigned 32 r.currentPacket.first.length = r.currentPacket.first.length :=
    FixedWidth.toSigned_of_lt h
  simp [observed, Receiver.exposed, Receiver.setOut, Receiver.wasStringPacket, receivedOfPacket, hl]

theorem getPacket_ok {r r' : Receiver} (h : r.getPacket = (.ok, r')) :
    r' = r.storeSizeMinusOne.copyFront.pop.setOut := by
  unfold Receiver.getPacket at h
  split at h
  · cases h
  · cases h; rfl

theorem getPacket_fails {r r' : Receiver} (h : r.getPacket = (code, r')) :
    (code ≠ .ok ↔ r.packetQueue = []) ∧ (code ≠ .ok → code = .unavailable ∧ r' = r) := by
  unfold Receiver.getPacket at h
  split at h
  · rename_i hq; cases h; simpa using hq
  · rename_i hq; cases h; simpa using hq

/-- The call has begun to replace the current packet. -/
def GetPacketPc.writing : GetPacketPc → Bool
  | .copied | .popped | .filled => true
  | _ => false

/-- What the last successful call exposed is still exposed. -/
def Exposes (s : State L) : Prop :=
  ∀ c, s.returned.getLast? = some c → s.consumer.writing = false →
    observed s.object.receiver = observed c.atReturn

theorem step_exposes (hs : Exposes s) (h : step checked api s e = some t) : Exposes t := by
  cases (step_cases h).2 with
  | push | store | lock | unlock | onMessage | setState | library | call =>
    simpa [Exposes, State.returned] using hs
  | getLock pc | getEmpty pc | getSome pc | getStore pc =>
    simpa [Exposes, State.returned, pc, GetPacketPc.writing] using hs
  | getCopy | getPop | getOut => simp [Exposes, GetPacketPc.writing]
  | getFail pc => simpa [Exposes, State.returned, pc, GetPacketPc.writing] using hs
  | getOk => simp [Exposes, State.returned]

def QueuePacketPc.message : QueuePacketPc → Option Message
  | .ready m | .locked m => some m
  | .idle | .pushed | .stored => none

theorem QueuePacketPc.forall_update {callbacks : Nat → QueuePacketPc} {P : Message → Prop}
    (hs : ∀ t, ∀ m ∈ (callbacks t).message, P m) (hp : ∀ m ∈ p.message, P m) :
    ∀ t, ∀ m ∈ (Function.update callbacks k p t).message, P m :=
  (Function.forall_update_iff callbacks fun _ p => ∀ m ∈ p.message, P m).mpr
    ⟨hp, fun t _ => hs t⟩

/-- Every message in the lock order, or held by a callback, came from the library. -/
def Delivered (es : List (Event L)) (s : State L) : Prop :=
  (∀ m ∈ s.lockOrder, ∃ t, Event.onMessage t m ∈ es) ∧
    ∀ t, ∀ m ∈ (s.callbacks t).message, ∃ t, Event.onMessage t m ∈ es

theorem run_delivered (h : Machine.run (step checked api) (State.initial l n) es = some s) :
    Delivered es s := by
  refine Machine.run_induction (P := Delivered)
    ⟨by simp [State.initial], by simp [State.initial, QueuePacketPc.message]⟩ ?_ h
  intro es s e t _ hs he
  have hs : Delivered (es ++ [e]) s :=
    ⟨fun m hm => (hs.1 m hm).imp fun _ => List.mem_append_left _,
      fun u m hm => (hs.2 u m hm).imp fun _ => List.mem_append_left _⟩
  cases (step_cases he).2 with
  | @onMessage k m idle =>
    exact ⟨hs.1, QueuePacketPc.forall_update hs.2 (by simp [QueuePacketPc.message])⟩
  | @lock k m ready free =>
    have hm := hs.2 k m (by simp [ready, QueuePacketPc.message])
    refine ⟨fun m' hm' => ?_,
      QueuePacketPc.forall_update hs.2 (by simpa [QueuePacketPc.message] using hm)⟩
    rcases List.mem_append.mp hm' with hm' | hm'
    · exact hs.1 m' hm'
    · exact List.mem_singleton.mp hm' ▸ hm
  | push | store | unlock =>
    exact ⟨hs.1, QueuePacketPc.forall_update hs.2 (by simp [QueuePacketPc.message])⟩
  | _ => exact ⟨by simpa using hs.1, by simpa using hs.2⟩

theorem Delivered.pushing {s : State L} (hs : Delivered es s) (hm : m ∈ s.pushing) :
    ∃ t, Event.onMessage t m ∈ es := by
  unfold State.pushing at hm
  split at hm
  · split at hm
    · rename_i t _ _ m' hc
      exact hs.2 t m (by simpa [hc, QueuePacketPc.message, eq_comm] using hm)
    · cases hm
  · cases hm

theorem Sequential.observed_return {s : State L} (hs : Sequential s) (hc : c ∈ s.returned)
    (hlen : c.atReturn.currentPacket.first.length < 2 ^ 31) :
    observed c.atReturn = receivedOfPacket c.atReturn.currentPacket := by
  have hok : c.code = .ok := by simpa using List.of_mem_filter hc
  have hcall := hs.calls c (List.mem_of_mem_filter hc)
  rw [hok] at hcall
  rw [getPacket_ok hcall] at hlen ⊢
  exact observed_setOut hlen

theorem popped_of_free {s : State L} (hs : Exclusive s) (free : s.mutex = none) :
    s.popped = [] := by
  have : s.consumer = .idle := by simpa [free, GetPacketPc.critical] using hs.consumer
  simp [State.popped, this]

theorem received_conserves
    (h : Machine.run (step checked api) (State.initial l n) es = some s)
    (hlen : ∀ t m, Event.onMessage t m ∈ es → m.data.length < 2 ^ 31) :
    s.returned.map (observed ·.atReturn) ++ s.popped.map receivedOfPacket ++
        s.object.receiver.packetQueue.map receivedOfPacket ++ s.pushing.map receivedOfMessage =
      s.lockOrder.map receivedOfMessage := by
  have hdel := run_delivered h
  have hlocked : ∀ m ∈ s.lockOrder, m.data.length < 2 ^ 31 := fun m hm =>
    let ⟨t, ht⟩ := hdel.1 m hm
    hlen t m ht
  have hpushing : ∀ m ∈ s.pushing, m.data.length < 2 ^ 31 := fun m hm =>
    let ⟨t, ht⟩ := hdel.pushing hm
    hlen t m ht
  have hmessage : ∀ m : Message, m.data.length < 2 ^ 31 →
      receivedOfPacket (buildPacket m) = receivedOfMessage m := fun m hm => by
    rw [buildPacket_of_lt (by omega)]
    rfl
  have hfifo : s.buffer.outputs ++ s.buffer.contents = s.buffer.inputs := run_conserves h
  have hshort : ∀ p ∈ s.buffer.inputs, p.first.length < 2 ^ 31 := by
    intro p hp
    obtain ⟨m, hm, rfl⟩ := List.mem_map.mp hp
    have := hlocked m hm
    rw [buildPacket_of_lt (by omega)]
    exact this
  have hreturned : s.returned.map (observed ·.atReturn) =
      s.returned.map (receivedOfPacket ·.atReturn.currentPacket) :=
    List.map_congr_left fun c hc => (run_sequential h).observed_return hc
      (hshort _ (hfifo ▸ by simp [State.buffer]; exact .inl ⟨c, hc, rfl⟩))
  calc s.returned.map (observed ·.atReturn) ++ s.popped.map receivedOfPacket ++
        s.object.receiver.packetQueue.map receivedOfPacket ++ s.pushing.map receivedOfMessage
      = (s.buffer.outputs ++ s.buffer.contents).map receivedOfPacket := by
        have : s.pushing.map receivedOfMessage = s.pushing.map (receivedOfPacket ∘ buildPacket) :=
          List.map_congr_left fun m hm => (hmessage m (hpushing m hm)).symm
        simp only [hreturned, this, State.buffer, List.map_append, List.map_map, List.append_assoc]
        rfl
    _ = s.buffer.inputs.map receivedOfPacket := by rw [hfifo]
    _ = s.lockOrder.map receivedOfMessage := by
        simp only [State.buffer, List.map_map]
        exact List.map_congr_left fun m hm => hmessage m (hlocked m hm)

/-- The receive side is a first-in first-out queue of the messages in the
order their callbacks took the lock: those the calls returned, popped, queued
and being pushed. A call fails exactly when it finds the queue empty, and then
changes nothing; between two successful calls the packet stays exposed. -/
theorem packets_received_in_order
    (h : Machine.run (step checked api) (State.initial l n) es = some s)
    (hlen : ∀ t m, Event.onMessage t m ∈ es → m.data.length < 2 ^ 31) :
    (s.returned.map (observed ·.atReturn) ++ s.popped.map receivedOfPacket ++
        s.object.receiver.packetQueue.map receivedOfPacket ++ s.pushing.map receivedOfMessage =
      s.lockOrder.map receivedOfMessage) ∧
    (s.mutex = none →
      s.returned.map (observed ·.atReturn) ++
        s.object.receiver.packetQueue.map receivedOfPacket = s.lockOrder.map receivedOfMessage) ∧
    (∀ c ∈ s.calls, (c.code ≠ .ok ↔ c.atLock.packetQueue = []) ∧
      (c.code ≠ .ok → c.code = .unavailable ∧ c.atReturn = c.atLock)) ∧
    (∀ c, s.returned.getLast? = some c → s.consumer.writing = false →
      observed s.object.receiver = observed c.atReturn) := by
  have hseq := run_sequential h
  have hall := received_conserves h hlen
  refine ⟨hall, fun free => ?_, fun c hc => getPacket_fails (hseq.calls c hc), ?_⟩
  · simpa [popped_of_free hseq.exclusive free, pushing_of_free free] using hall
  · exact Machine.run_invariant step_exposes h (by simp [Exposes, State.returned, State.initial])

/-- Two callbacks and two calls, the first of which finds nothing. -/
def crossedMessages : List (Event Unit) :=
  [.onMessage 0 (.string [104, 0, 105]), .onMessage 1 (.binary []), .getLock, .getTest, .getUnlock,
    .lock 1, .push 1, .store 1, .unlock 1, .lock 0, .push 0, .store 0, .unlock 0,
    .getLock, .getTest, .getStore, .getCopy, .getPop, .getOut, .getUnlock]

theorem packets_received_in_order_crossed :
    ∃ s, Machine.run (step false .sink) (State.initial () false) crossedMessages = some s ∧
      s.calls.map GetCall.code = [.unavailable, .ok] ∧
      s.object.receiver.packetQueue.map receivedOfPacket = [⟨some [104, 0, 105], 3, true⟩] ∧
      s.returned.map (observed ·.atReturn) ++
        s.object.receiver.packetQueue.map receivedOfPacket = s.lockOrder.map receivedOfMessage := by
  have hrun : (Machine.run (step false .sink) (State.initial () false) crossedMessages).map
      (fun s => (s.mutex, s.calls.map GetCall.code,
        s.object.receiver.packetQueue.map receivedOfPacket)) =
      some (none, [.unavailable, .ok], [⟨some [104, 0, 105], 3, true⟩]) := by decide
  obtain ⟨s, hs, hv⟩ := Option.map_eq_some_iff.mp hrun
  simp only [Prod.mk.injEq] at hv
  refine ⟨s, hs, hv.2.1, hv.2.2, (packets_received_in_order hs fun t m hm => ?_).2.1 hv.1⟩
  simp only [crossedMessages, List.mem_cons, Event.onMessage.injEq, reduceCtorEq, or_false,
    List.not_mem_nil] at hm
  rcases hm with ⟨-, rfl⟩ | ⟨-, rfl⟩ <;> decide

end WebRtc.DataChannel.Receive
