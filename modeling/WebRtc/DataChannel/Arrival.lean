import WebRtc.DataChannel.Progress
import WebRtc.DataChannel.RoundTrip

/-!
# What was put arrives

What the sending library has taken reaches the receiving wrapper, and the
receiving wrapper's callbacks and calls end by themselves. So from any state of
the joined wrappers a bounded number of steps, in any order, leaves every buffer
that was put either returned to the consumer or in the packet queue, in the
order they were put.
-/

namespace WebRtc.DataChannel.RoundTrip

open Receive (Received observed receivedOfMessage receivedOfPacket Within work Quiescent)

variable {L R : Type} {checked : Bool} {api : DataChannelApi L} {link : Link api}
  {rapi : DataChannelApi R}

def Event.finishes : Event L R → Bool
  | .deliver => true
  | .receive e => e.finishes
  | .setWriteMode _ | .putPacket _ | .close | .library _ => false

/-- A message on its way is delivered, and then its callback has four steps. -/
def left (link : Link api) (s : State L R) : Nat :=
  5 * ((link.sent s.sender.lib).length - s.delivered) + work {0} s.receiver

structure Finishing (link : Link api) (puts : List Put) (s : State L R) : Prop where
  within : Within {0} s.receiver
  bound : s.delivered ≤ (link.sent s.sender.lib).length
  puts : s.puts = puts

theorem Linked.finishing (hs : Linked link s) : Finishing link s.puts s where
  within t ht := hs.single t fun h => ht (by simp [h])
  bound := hs.bound
  puts := rfl

theorem step_left (hs : Finishing link puts s) (he : e.finishes = true)
    (h : step checked link rapi s e = some t) :
    Finishing link puts t ∧ left link t < left link s := by
  cases e with
  | deliver =>
    simp only [step, Option.bind_eq_bind, Option.bind_eq_some_iff] at h
    obtain ⟨m, hm, r, hr, h⟩ := h
    cases h
    have hlt := (List.getElem?_eq_some_iff.mp hm).1
    cases (Receive.step_cases hr).2 with
    | onMessage idle =>
      refine ⟨⟨fun u hu => ?_, hlt, hs.puts⟩, ?_⟩
      · exact (Function.update_of_ne (by simpa using hu) ..).trans (hs.within u hu)
      · simp [left, work, idle, Receive.QueuePacketPc.left]
        omega
  | receive e =>
    simp only [step] at h
    split at h
    · cases h
    · obtain ⟨r, hr, rfl⟩ := Option.map_eq_some_iff.mp h
      obtain ⟨hwithin, hwork⟩ := Receive.step_work hs.within he hr
      exact ⟨⟨hwithin, hs.bound, hs.puts⟩, Nat.add_lt_add_left hwork _⟩
  | setWriteMode | putPacket | close | library => cases he

theorem left_le (link : Link api) (s : State L R) :
    left link s ≤ 5 * (link.sent s.sender.lib).length + 10 := by
  have hwork := Receive.work_le {0} s.receiver
  rw [Finset.card_singleton] at hwork
  unfold left
  omega

/-- As long as a message is on its way, or a call has not returned, there is a
step to take. -/
theorem arrived_of_stalled (hs : Linked link s) (hexclusive : Receive.Exclusive s.receiver)
    (halive : s.receiver.aborted = false)
    (hstalled : ∀ e : Event L R, e.finishes = true → step checked link rapi s e = none) :
    Quiescent s.receiver ∧ s.receiver.lockOrder = s.puts.map Put.message := by
  have hreceiver (e : Receive.Event R) (he : e.finishes = true) :
      Receive.step checked rapi s.receiver e = none := by
    have hstep := hstalled (.receive e) he
    have hother : isMessage e = false := by cases e <;> first | rfl | cases he
    simpa [step, hother] using hstep
  have hq : Quiescent s.receiver := Receive.quiescent_of_stalled hexclusive halive hreceiver
  have hall : s.delivered = (link.sent s.sender.lib).length := by
    refine le_antisymm hs.bound (Nat.not_lt.mp fun hlt => ?_)
    have hstep := hstalled .deliver rfl
    simp [step, Receive.step, Receive.enabledStep, halive, hq.callbacks 0,
      List.getElem?_eq_getElem hlt] at hstep
  have hdelivered := hs.delivered
  rw [hall, List.take_length, hs.sent, waiting, hq.callbacks 0, List.append_nil] at hdelivered
  exact ⟨hq, hdelivered⟩

-- ---------------------------------------------------------------------------
-- Every schedule
-- ---------------------------------------------------------------------------

def arrived (r : Receive.State R) : List Received :=
  r.returned.map (observed ·.atReturn) ++ r.object.receiver.packetQueue.map receivedOfPacket

/-- Once the sender puts no more, a bounded number of steps is left however they
are scheduled, one of them can always be taken, and after the last of them every
buffer put has arrived, in order; it is as it was put unless the text mode cuts
it at a NUL. -/
theorem puts_arrive
    (h : Machine.run (step checked link rapi) (State.initial l r n) es = some s)
    (h₀ : link.sent l = []) (hfs : Machine.run (step checked link rapi) s fs = some t)
    (hfinishes : ∀ e ∈ fs, e.finishes = true) (halive : t.receiver.aborted = false) :
    fs.length ≤ 5 * s.puts.length + 10 ∧
    ((∃ e, e.finishes = true ∧ step checked link rapi t e ≠ none) ∨
      Quiescent t.receiver ∧
      arrived t.receiver = s.puts.map (fun p => receivedOfMessage p.message) ∧
      (arrived t.receiver = s.puts.map Put.intended ↔
        ∀ p ∈ s.puts, p.mode = .text → NulsLast p.buffer)) := by
  have hrun : Machine.run (step checked link rapi) (State.initial l r n) (es ++ fs) = some t :=
    Machine.run_append.mpr ⟨s, h, hfs⟩
  have hlinked := run_linked h h₀
  obtain ⟨hfinishing, hle⟩ := Machine.length_le_measure (I := Finishing link s.puts) step_left hfs
    hlinked.finishing hfinishes
  refine ⟨?_, ?_⟩
  · have hleft := left_le link s
    rw [hlinked.sent, List.length_map] at hleft
    omega
  by_cases hsteps : ∃ e, e.finishes = true ∧ step checked link rapi t e ≠ none
  · exact .inl hsteps
  have hlinked' := run_linked hrun h₀
  obtain ⟨ops, hops, hsent⟩ := run_receiver hrun h₀
  have hexclusive := (Receive.run_sequential hops).exclusive
  obtain ⟨hq, horder⟩ := arrived_of_stalled hlinked' hexclusive halive fun e he => by
    by_contra hstep
    exact hsteps ⟨e, he, hstep⟩
  have harrived : arrived t.receiver = s.puts.map fun p => receivedOfMessage p.message := by
    have hconserved := Receive.received_conserves hops fun k m hm => by
      have hm := hsent k m hm
      rw [hlinked'.sent] at hm
      obtain ⟨p, hp, rfl⟩ := List.mem_map.mp hm
      exact lt_of_eq_of_lt (messageOf_length _ _) (hlinked'.short p hp)
    rw [Receive.popped_of_free hexclusive hq.mutex, Receive.pushing_of_free hq.mutex, List.map_nil,
      List.map_nil, List.append_nil, List.append_nil, horder, hfinishing.puts, List.map_map] at hconserved
    exact hconserved
  refine .inr ⟨hq, harrived, ?_⟩
  rw [harrived, List.map_inj_left]
  exact forall₂_congr fun p _ => received_eq_intended_iff p

def underway : List (Event (List Message) Unit) :=
  [.putPacket [0, 7], .setWriteMode 0, .putPacket [104, 105], .deliver, .receive (.lock 0)]

def rest : List (Event (List Message) Unit) :=
  [.receive (.push 0), .receive (.store 0), .receive (.unlock 0), .deliver, .receive (.lock 0),
    .receive (.push 0), .receive (.store 0), .receive (.unlock 0)]

theorem puts_arrive_underway :
    ∃ s t, Machine.run (step true recorderLink .sink) (State.initial [] () false) underway = some s ∧
      Machine.run (step true recorderLink .sink) s rest = some t ∧
      ((∃ e, e.finishes = true ∧ step true recorderLink .sink t e ≠ none) ∨
        Quiescent t.receiver ∧
          arrived t.receiver = [⟨some [0, 7], 2, false⟩, ⟨some [104, 105], 2, true⟩]) := by
  have hrun : (Machine.run (step true recorderLink .sink) (State.initial [] () false) underway).bind
      (fun s => (Machine.run (step true recorderLink .sink) s rest).map fun t =>
        (s.puts, t.receiver.aborted)) =
      some ([⟨[0, 7], .binary⟩, ⟨[104, 105], .text⟩], false) := by decide
  obtain ⟨s, hs, hrun⟩ := Option.bind_eq_some_iff.mp hrun
  obtain ⟨t, ht, hv⟩ := Option.map_eq_some_iff.mp hrun
  obtain ⟨hputs, halive⟩ := Prod.mk.inj hv
  have hfinishes : ∀ e ∈ rest, e.finishes = true := by
    intro e he
    simp only [rest, List.mem_cons, List.not_mem_nil, or_false] at he
    rcases he with rfl | rfl | rfl | rfl | rfl | rfl | rfl | rfl <;> rfl
  refine ⟨s, t, hs, ht, ?_⟩
  obtain ⟨-, hsteps | ⟨hq, harrived, -⟩⟩ := puts_arrive hs rfl ht hfinishes halive
  · exact .inl hsteps
  · rw [hputs] at harrived
    exact .inr ⟨hq, harrived.trans (by decide)⟩

end WebRtc.DataChannel.RoundTrip
