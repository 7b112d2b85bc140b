import WebRtc.DataChannel.Delivery

/-!
# Element accesses of the receive path

`queue_packet` takes `&packet[0]` for its `memcpy` and `_get_packet` takes
`&current_packet.first[0]`, both without looking at the length. The accesses
are in range exactly in the runs in which no message has size zero after its
conversion to `uint32_t`.
-/

namespace WebRtc.DataChannel.Receive

open FixedWidth (toUnsigned)

variable {L : Type} {checked : Bool} {api : DataChannelApi L}

/-- The `uint32_t size` that `queue_packet` is given. -/
def messageSize (m : Message) : Nat := toUnsigned 32 m.data.length

theorem length_buildPacket (m : Message) : (buildPacket m).first.length = messageSize m := by
  have hle : messageSize m ≤ m.data.length := by
    rw [messageSize, FixedWidth.toUnsigned_natCast]
    exact Nat.mod_le _ _
  simp only [messageSize] at hle ⊢
  simp [buildPacket, memcpy, hle]

/-- Under checked indexing the process is aborted exactly when an access was
out of range. -/
def Aborts (checked : Bool) (s : State L) : Prop :=
  s.aborted = (checked && s.accesses.any (!decide ·.InRange))

theorem step_aborts (hs : Aborts checked s) (h : step checked api s e = some t) :
    Aborts checked t := by
  cases (step_cases h).2 with
  | onMessage | getOut =>
    simp only [Aborts] at hs
    simp only [Aborts, State.access, State.setCallback, State.setReceiver, hs, List.any_append,
      List.any_cons, List.any_nil, Bool.or_false, Bool.and_or_distrib_left]
  | _ => simpa [Aborts] using hs

theorem run_accesses (h : Machine.run (step checked api) (State.initial l n) es = some s) :
    ∀ t m, Event.onMessage t m ∈ es → ⟨0, messageSize m⟩ ∈ s.accesses := by
  refine Machine.run_induction
    (P := fun es s => ∀ t m, Event.onMessage t m ∈ es → ⟨0, messageSize m⟩ ∈ s.accesses)
    (by simp) ?_ h
  intro es s e u _ ih he t m hm
  have hgrow : ∀ a ∈ s.accesses, a ∈ u.accesses := by
    intro a ha
    cases (step_cases he).2 <;> simp [ha]
  rcases List.mem_append.mp hm with hm | hm
  · exact hgrow _ (ih t m hm)
  · rw [List.mem_singleton] at hm
    subst hm
    cases (step_cases he).2 with
    | onMessage => simp [length_buildPacket]

/-- No empty packet is anywhere on its way to the consumer, and no access has
been out of range. -/
structure NonEmpty (s : State L) : Prop where
  callbacks : ∀ t, ∀ m ∈ (s.callbacks t).message, messageSize m ≠ 0
  queue : ∀ p ∈ s.object.receiver.packetQueue, p.first ≠ []
  current : s.consumer = .copied ∨ s.consumer = .popped → s.object.receiver.currentPacket.first ≠ []
  accesses : ∀ a ∈ s.accesses, a.InRange

theorem NonEmpty.move {s : State L} (hs : NonEmpty s) (hp : ∀ m ∈ p.message, messageSize m ≠ 0)
    (k : Nat) : ∀ t, ∀ m ∈ (Function.update s.callbacks k p t).message, messageSize m ≠ 0 :=
  QueuePacketPc.forall_update hs.callbacks hp

theorem NonEmpty.access {s : State L} (hs : NonEmpty s) (hsize : size ≠ 0) :
    ∀ a ∈ s.accesses ++ [⟨0, size⟩], a.InRange := by
  intro a ha
  rcases List.mem_append.mp ha with ha | ha
  · exact hs.accesses a ha
  · rw [List.mem_singleton.mp ha]
    exact Nat.pos_of_ne_zero hsize

theorem step_nonEmpty (hq : Sequential s) (hs : NonEmpty s)
    (he : ∀ t m, e = Event.onMessage t m → messageSize m ≠ 0)
    (h : step checked api s e = some u) : NonEmpty u := by
  have hr := hq.running
  cases (step_cases h).2 with
  | @onMessage k m idle =>
    have hm := he k m rfl
    exact ⟨hs.move (by simpa [QueuePacketPc.message] using hm) k, hs.queue, hs.current,
      hs.access (by rwa [length_buildPacket])⟩
  | @lock k m ready free =>
    have hm := hs.callbacks k m (by simp [ready, QueuePacketPc.message])
    exact ⟨hs.move (by simpa [QueuePacketPc.message] using hm) k, hs.queue, hs.current,
      hs.accesses⟩
  | @push k m locked =>
    have hm := hs.callbacks k m (by simp [locked, QueuePacketPc.message])
    have hidle := hq.exclusive.idle locked rfl
    refine ⟨hs.move (by simp [QueuePacketPc.message]) k, ?_, by simp [hidle],
      hs.accesses⟩
    simp only [State.setReceiver_object, Receiver.push, List.mem_append, List.mem_singleton]
    rintro p (hp | rfl)
    · exact hs.queue p hp
    · rw [← List.length_pos_iff, length_buildPacket]
      exact Nat.pos_of_ne_zero hm
  | @store k pushed =>
    have hidle := hq.exclusive.idle pushed rfl
    exact ⟨hs.move (by simp [QueuePacketPc.message]) k, hs.queue, by simp [hidle],
      hs.accesses⟩
  | @unlock k stored =>
    exact ⟨hs.move (by simp [QueuePacketPc.message]) k, hs.queue, hs.current, hs.accesses⟩
  | getCopy pc =>
    refine ⟨hs.callbacks, hs.queue, fun _ => ?_, hs.accesses⟩
    simp only [Running, pc] at hr
    obtain ⟨front, rest, hfront⟩ := List.exists_cons_of_ne_nil hr.2
    have := hs.queue front (by simp [hr.1, Receiver.storeSizeMinusOne, hfront])
    simpa [Receiver.copyFront, hr.1, Receiver.storeSizeMinusOne, hfront] using this
  | getPop pc =>
    refine ⟨hs.callbacks, fun p hp => hs.queue p (List.mem_of_mem_tail hp), fun _ => ?_, hs.accesses⟩
    exact hs.current (.inl pc)
  | getOut pc =>
    have hcurrent := hs.current (.inr pc)
    exact ⟨hs.callbacks, hs.queue, by simp, hs.access (List.length_pos_iff.mpr hcurrent).ne'⟩
  | getStore => exact ⟨hs.callbacks, hs.queue, by simp, hs.accesses⟩
  | getLock | getEmpty | getSome | getFail | getOk =>
    exact ⟨hs.callbacks, hs.queue, by simp, hs.accesses⟩
  | call idle => exact ⟨hs.callbacks, by simpa using hs.queue, by simp [idle], hs.accesses⟩
  | setState | library => exact ⟨hs.callbacks, hs.queue, hs.current, hs.accesses⟩

theorem run_nonEmpty (h : Machine.run (step checked api) (State.initial l n) es = some s)
    (hm : ∀ t m, Event.onMessage t m ∈ es → messageSize m ≠ 0) : NonEmpty s := by
  have : (∀ t m, Event.onMessage t m ∈ es → messageSize m ≠ 0) → Sequential s ∧ NonEmpty s :=
    Machine.run_induction (P := fun es s => (∀ t m, Event.onMessage t m ∈ es → messageSize m ≠ 0) →
      Sequential s ∧ NonEmpty s)
    (fun _ => ⟨initial_sequential l n,
      ⟨by simp [State.initial, QueuePacketPc.message], by simp [State.initial, bindChannel],
        by simp [State.initial], by simp [State.initial]⟩⟩)
    (fun _ ih he hm => by
      obtain ⟨hq, hs⟩ := ih fun t m ht => hm t m (List.mem_append_left _ ht)
      exact ⟨step_sequential hq he, step_nonEmpty hq hs
        (fun t m heq => hm t m (by simp [heq])) he⟩) h
  exact (this hm).2

/-- Every element access is in range, and a checked run is not aborted, exactly
when no message delivered in the run has size zero as a `uint32_t`. -/
theorem accesses_in_range_iff
    (h : Machine.run (step checked api) (State.initial l n) es = some s) :
    ((∀ a ∈ s.accesses, a.InRange) ↔ ∀ t m, Event.onMessage t m ∈ es → messageSize m ≠ 0) ∧
      (checked = true →
        (s.aborted = false ↔ ∀ t m, Event.onMessage t m ∈ es → messageSize m ≠ 0)) := by
  have hiff : (∀ a ∈ s.accesses, a.InRange) ↔
      ∀ t m, Event.onMessage t m ∈ es → messageSize m ≠ 0 := by
    constructor
    · intro ha t m hm
      exact Nat.pos_iff_ne_zero.mp (ha _ (run_accesses h t m hm))
    · intro hm
      exact (run_nonEmpty h hm).accesses
  refine ⟨hiff, fun hc => ?_⟩
  have haborts : Aborts checked s :=
    Machine.run_invariant step_aborts h (by simp [Aborts, State.initial])
  rw [← hiff, haborts, hc]
  simp

def textMessage : List (Event Unit) :=
  [.onMessage 0 (.string [104, 105]), .lock 0, .push 0, .store 0, .unlock 0,
    .getLock, .getTest, .getStore, .getCopy, .getPop, .getOut, .getUnlock]

/-- One of the crossed messages is empty, and the text is not. -/
theorem accesses_in_range_iff_crossed :
    (∃ s, Machine.run (step false .sink) (State.initial () false) crossedMessages = some s ∧
      ((∀ a ∈ s.accesses, a.InRange) ↔
        ∀ t m, Event.onMessage t m ∈ crossedMessages → messageSize m ≠ 0) ∧
      ¬ ∀ a ∈ s.accesses, a.InRange) ∧
    ∃ s, Machine.run (step true .sink) (State.initial () false) textMessage = some s ∧
      s.accesses.length = 2 ∧ (∀ a ∈ s.accesses, a.InRange) ∧ s.aborted = false := by
  refine ⟨?_, ?_⟩
  · have hrun : (Machine.run (step false .sink) (State.initial () false) crossedMessages).isSome := by
      decide
    obtain ⟨s, hs⟩ := Option.isSome_iff_exists.mp hrun
    obtain ⟨hiff, -⟩ := accesses_in_range_iff hs
    refine ⟨s, hs, hiff, fun hall => ?_⟩
    exact hiff.mp hall 1 (.binary []) (.tail _ (.head _)) rfl
  · have hrun : (Machine.run (step true .sink) (State.initial () false) textMessage).map
        (·.accesses.length) = some 2 := by decide
    obtain ⟨s, hs, haccesses⟩ := Option.map_eq_some_iff.mp hrun
    obtain ⟨hiff, hchecked⟩ := accesses_in_range_iff hs
    have htext : ∀ t m, Event.onMessage t m ∈ textMessage → messageSize m ≠ 0 := by
      intro t m hm
      simp only [textMessage, List.mem_cons, Event.onMessage.injEq, reduceCtorEq, List.not_mem_nil,
        or_false] at hm
      obtain ⟨-, rfl⟩ := hm
      decide
    exact ⟨s, hs, haccesses, hiff.mpr htext, (hchecked rfl).mpr htext⟩

def emptyMessage : List (Event Unit) :=
  [.onMessage 0 (.binary []), .lock 0, .push 0, .store 0, .unlock 0,
    .getLock, .getTest, .getStore, .getCopy, .getPop, .getOut, .getUnlock]

/-- The writer and the reader both take element 0 of an empty vector; with
checked indexing the process ends in the callback. -/
theorem empty_message_out_of_range :
    (∃ s, Machine.run (step false .sink) (State.initial () false) emptyMessage = some s ∧
      s.accesses = [⟨0, 0⟩, ⟨0, 0⟩] ∧ ¬ ∀ a ∈ s.accesses, a.InRange) ∧
    (∃ s, Machine.run (step true .sink) (State.initial () false) (emptyMessage.take 1) = some s ∧
      s.aborted = true) := by
  have hunchecked : (Machine.run (step false .sink) (State.initial () false) emptyMessage).map
      State.accesses = some [⟨0, 0⟩, ⟨0, 0⟩] := by decide
  have hchecked : (Machine.run (step true .sink) (State.initial () false) (emptyMessage.take 1)).map
      State.aborted = some true := by decide
  obtain ⟨s, hs, ha⟩ := Option.map_eq_some_iff.mp hunchecked
  exact ⟨⟨s, hs, ha, by rw [ha]; decide⟩, Option.map_eq_some_iff.mp hchecked⟩

end WebRtc.DataChannel.Receive
