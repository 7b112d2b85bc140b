import WebRtc.DataChannel.Delivery

/-!
# The packet count read without the lock

`_get_available_packet_count` loads an atomic that `queue_packet` stores after
its push and `_get_packet` before its pop. At every step the count is that of
`published` packets, never more than are queued, so the consumer can rely on
every packet it was promised.
-/

namespace WebRtc.DataChannel.Receive

open FixedWidth (toUnsigned toSigned)

variable {L : Type} {checked : Bool} {api : DataChannelApi L}

/-- How many packets the last store counted: all of them, except between a
push and its store, and between a store and its pop. -/
def State.published (s : State L) : Nat :=
  match s.mutex with
  | none => s.object.receiver.packetQueue.length
  | some (.callback t) => match s.callbacks t with
    | .pushed => s.object.receiver.packetQueue.length - 1
    | _ => s.object.receiver.packetQueue.length
  | some .consumer => match s.consumer with
    | .counted | .copied => s.object.receiver.packetQueue.length - 1
    | _ => s.object.receiver.packetQueue.length

theorem published_le (s : State L) : s.published ≤ s.object.receiver.packetQueue.length := by
  unfold State.published
  split
  · exact le_refl _
  · split <;> omega
  · split <;> omega

theorem published_of_free {s : State L} (h : s.mutex = none) :
    s.published = s.object.receiver.packetQueue.length := by
  simp [State.published, h]

def Counts (s : State L) : Prop :=
  s.object.receiver.availablePackets = toUnsigned 32 s.published

theorem storeSizeMinusOne_availablePackets {r : Receiver} (h : r.packetQueue ≠ []) :
    r.storeSizeMinusOne.availablePackets = toUnsigned 32 (r.packetQueue.length - 1 : Nat) := by
  have hpos : 0 < r.packetQueue.length := List.length_pos_iff.mpr h
  have hsub : ((r.packetQueue.length : Int) - 1) = ((r.packetQueue.length - 1 : Nat) : Int) := by
    omega
  simp only [Receiver.storeSizeMinusOne, hsub, FixedWidth.toUnsigned_natCast]
  rw [Nat.mod_mod_of_dvd _ (by decide)]

theorem step_counts (hs : Sequential s) (hc : Counts s) (h : step checked api s e = some t) :
    Counts t := by
  have hx := hs.exclusive
  have hr := hs.running
  simp only [Counts, State.published] at hc ⊢
  cases (step_cases h).2 with
  | onMessage idle =>
    simp only [State.access_object, State.setCallback_object, State.access_mutex,
      State.setCallback_mutex, State.access_callbacks, State.setCallback_callbacks,
      State.access_consumer, State.setCallback_consumer]
    rw [hc]
    split
    · rfl
    · rename_i owns
      rw [hx.update_idle idle owns]
    · rfl
  | @lock k m ready free => simpa [free] using hc
  | @push k m locked =>
    have owns := hx.callback_owns locked rfl
    simpa [owns, locked, Receiver.push] using hc
  | @store k pushed =>
    have owns := hx.callback_owns pushed rfl
    simp [owns, Receiver.storeSize]
  | @unlock k stored =>
    have owns := hx.callback_owns stored rfl
    simpa [owns, stored] using hc
  | getLock idle free => simpa [free] using hc
  | getStore pc =>
    have owns := hx.consumer_owns pc rfl
    simp only [Running, pc] at hr
    simpa [owns, Receiver.storeSizeMinusOne] using
      storeSizeMinusOne_availablePackets (hr.1 ▸ hr.2 : s.object.receiver.packetQueue ≠ [])
  | getEmpty pc | getSome pc | getCopy pc | getPop pc | getOut pc | getFail pc | getOk pc =>
    have owns := hx.consumer_owns pc rfl
    simpa [owns, pc, Receiver.copyFront, Receiver.pop, Receiver.setOut] using hc
  | call => simpa using hc
  | setState | library => simpa using hc

theorem run_counts (h : Machine.run (step checked api) (State.initial l n) es = some s) :
    Counts s := by
  have : Sequential s ∧ Counts s := Machine.run_invariant (I := fun s => Sequential s ∧ Counts s)
    (fun hs he => ⟨step_sequential hs.1 he, step_counts hs.1 hs.2 he⟩) h
    ⟨initial_sequential l n, by simp [Counts, State.published, State.initial, bindChannel,
      FixedWidth.toUnsigned]⟩
  exact this.2

theorem Counts.load {s : State L} (hc : Counts s)
    (hlen : s.object.receiver.packetQueue.length < 2 ^ 31) :
    s.object.receiver.getAvailablePacketCount = s.published := by
  have hle := published_le s
  rw [Receiver.getAvailablePacketCount, hc, FixedWidth.toUnsigned_of_lt (by omega)]
  exact FixedWidth.toSigned_of_lt (w := 31) (by omega)

-- ---------------------------------------------------------------------------
-- A promise is kept
-- ---------------------------------------------------------------------------

/-- Packets returned, popped or queued: what was ever promised is among them. -/
def State.stock (s : State L) : Nat :=
  s.returned.length + s.popped.length + s.object.receiver.packetQueue.length

theorem step_stock (hs : Sequential s) (h : step checked api s e = some t) :
    s.stock ≤ t.stock := by
  have hr := hs.running
  cases (step_cases h).2 with
  | push pc =>
    simp [State.stock, State.returned, State.popped, Receiver.push]
  | getPop pc =>
    simp only [Running, pc] at hr
    obtain ⟨front, rest, hq⟩ := List.exists_cons_of_ne_nil hr.2
    simp [State.stock, State.returned, State.popped, pc, hr.1, hq, Receiver.pop,
      Receiver.copyFront, Receiver.storeSizeMinusOne]
    omega
  | call idle => simp [State.stock, State.returned, State.popped, idle]
  | getLock pc | getEmpty pc | getSome pc | getStore pc | getCopy pc | getOut pc | getFail pc
  | getOk pc =>
    simp [State.stock, State.returned, State.popped, pc, Receiver.storeSizeMinusOne,
      Receiver.copyFront, Receiver.setOut]
  | _ => simp [State.stock, State.returned, State.popped, Receiver.storeSize]

/-- Of the calls returned since `s`, the first `n` succeeded; one that is about
to fail has `n` successes before it. -/
def Kept (s : State L) (n : Nat) (t : State L) : Prop :=
  ∃ since, t.calls = s.calls ++ since ∧ (∀ c ∈ since.take n, c.code = .ok) ∧
    (t.consumer = .unavailable → n ≤ (since.filter (·.code = .ok)).length)

theorem step_kept (hk : Kept s n t) (hstock : s.returned.length + n ≤ t.stock)
    (h : step checked api t e = some u) : Kept s n u := by
  obtain ⟨since, hcalls, hok, hlast⟩ := hk
  cases (step_cases h).2 with
  | getEmpty pc empty =>
    refine ⟨since, hcalls, hok, fun _ => ?_⟩
    simp [State.stock, State.returned, State.popped, hcalls, pc, empty] at hstock
    exact hstock
  | getFail pc =>
    refine ⟨since ++ [⟨t.entry, t.object.receiver, .unavailable⟩], by simp [hcalls], ?_, by simp⟩
    have hn : n ≤ since.length := (hlast pc).trans (List.length_filter_le _ _)
    rwa [List.take_append_of_le_length hn]
  | getOk pc =>
    refine ⟨since ++ [⟨t.entry, t.object.receiver, .ok⟩], by simp [hcalls], ?_, by simp⟩
    intro c hc
    rw [List.take_append] at hc
    rcases List.mem_append.mp hc with hc | hc
    · exact hok c hc
    · have := List.mem_of_mem_take hc
      simp_all
  | call idle => exact ⟨since, by simpa using hcalls, hok, by simp [idle]⟩
  | getLock | getSome | getStore | getCopy | getPop | getOut =>
    exact ⟨since, by simpa using hcalls, hok, by simp⟩
  | _ => exact ⟨since, by simpa using hcalls, hok, by simpa using hlast⟩

theorem run_kept (hs : Sequential s) (idle : s.consumer = .idle)
    (hn : n ≤ s.object.receiver.packetQueue.length)
    (h : Machine.run (step checked api) s es = some t) : Kept s n t := by
  have hstart : s.returned.length + n ≤ s.stock := by
    simp only [State.stock, State.popped, idle, List.length_nil]
    omega
  have : Sequential t ∧ s.returned.length + n ≤ t.stock ∧ Kept s n t := Machine.run_invariant
    (I := fun t => Sequential t ∧ s.returned.length + n ≤ t.stock ∧ Kept s n t)
    (fun hu he => ⟨step_sequential hu.1 he, hu.2.1.trans (step_stock hu.1 he),
      step_kept hu.2.2 hu.2.1 he⟩) h
    ⟨hs, hstart, [], by simp, by simp, by simp [idle]⟩
  exact this.2.2

/-- The loaded count is never negative and never above the queue, and exact
while the lock is free; a consumer that reads it can take that many packets,
whatever runs in between. -/
theorem available_count_never_overpromises
    (h : Machine.run (step checked api) (State.initial l neg) es = some s)
    (hlen : s.object.receiver.packetQueue.length < 2 ^ 31) :
    (0 ≤ s.object.receiver.getAvailablePacketCount ∧
      s.object.receiver.getAvailablePacketCount ≤ s.object.receiver.packetQueue.length ∧
      (s.mutex = none →
        s.object.receiver.getAvailablePacketCount = s.object.receiver.packetQueue.length)) ∧
    (s.consumer = .idle → ∀ fs t, Machine.run (step checked api) s fs = some t →
      ∀ c ∈ (t.calls.drop s.calls.length).take s.object.receiver.getAvailablePacketCount.toNat,
        c.code = .ok) := by
  have hload := (run_counts h).load hlen
  have hle := published_le s
  refine ⟨⟨by omega, by omega, fun free => ?_⟩, fun idle fs t hrun c hc => ?_⟩
  · rw [hload, published_of_free free]
  · obtain ⟨since, hcalls, hok, -⟩ := run_kept (run_sequential h) idle hle hrun
    rw [hload, hcalls, List.drop_left] at hc
    exact hok c hc

theorem available_count_never_overpromises_crossed :
    ∃ s, Machine.run (step false .sink) (State.initial () false) crossedMessages = some s ∧
      s.object.receiver.getAvailablePacketCount = 1 ∧
      ∀ fs t, Machine.run (step false .sink) s fs = some t →
        ∀ c ∈ (t.calls.drop s.calls.length).take s.object.receiver.getAvailablePacketCount.toNat,
          c.code = .ok := by
  have hrun : (Machine.run (step false .sink) (State.initial () false) crossedMessages).map
      (fun s => (s.consumer, s.object.receiver.packetQueue.length,
        s.object.receiver.getAvailablePacketCount)) = some (.idle, 1, 1) := by decide
  obtain ⟨s, hs, hv⟩ := Option.map_eq_some_iff.mp hrun
  simp only [Prod.mk.injEq] at hv
  exact ⟨s, hs, hv.2.2, (available_count_never_overpromises hs (by omega)).2 hv.1⟩

end WebRtc.DataChannel.Receive
