import WebRtc.DataChannel.Delivery
import Mathlib.Algebra.BigOperators.Group.Finset.Basic
import Mathlib.Algebra.Order.BigOperators.Group.Finset
import Mathlib.Data.List.Perm.Basic

/-!
# The receive path completes

What the threads have begun they can finish by themselves. However they are
scheduled, the steps of the callbacks that have been called and of the
`_get_packet` call in progress come to an end (`work` counts those that are
left), and they do not stall before each of them is done: nobody waits for a
mutex that its owner does not give back. Then every message that arrived has
been queued.
-/

namespace WebRtc.DataChannel.Receive

variable {L : Type} {checked : Bool} {api : DataChannelApi L}

-- ---------------------------------------------------------------------------
-- The steps that are left
-- ---------------------------------------------------------------------------

/-- The steps of calls that have begun. -/
def Event.finishes : Event L → Bool
  | .lock _ | .push _ | .store _ | .unlock _ => true
  | .getTest | .getStore | .getCopy | .getPop | .getOut | .getUnlock => true
  | .onMessage _ _ | .getLock | .call _ | .setState _ | .library _ => false

def QueuePacketPc.left : QueuePacketPc → Nat
  | .idle => 0
  | .stored => 1
  | .pushed => 2
  | .locked _ => 3
  | .ready _ => 4

def GetPacketPc.left : GetPacketPc → Nat
  | .idle => 0
  | .unavailable | .filled => 1
  | .popped => 2
  | .copied => 3
  | .counted => 4
  | .available => 5
  | .locked => 6

/-- The threads that have been called. -/
def threads (es : List (Event L)) : Finset Nat :=
  (es.filterMap fun
    | .onMessage t _ => some t
    | _ => none).toFinset

def work (busy : Finset Nat) (s : State L) : Nat :=
  ∑ t ∈ busy, (s.callbacks t).left + s.consumer.left

/-- Only these threads are anywhere. -/
def Within (busy : Finset Nat) (s : State L) : Prop := ∀ t ∉ busy, s.callbacks t = .idle

theorem left_update_lt {callbacks : Nat → QueuePacketPc} (hpc : callbacks t = pc)
    (hlt : next.left < pc.left) (ht : t ∈ busy) :
    ∑ u ∈ busy, (Function.update callbacks t next u).left < ∑ u ∈ busy, (callbacks u).left := by
  refine Finset.sum_lt_sum (fun u _ => ?_) ⟨t, ht, by simpa [hpc] using hlt⟩
  by_cases hu : u = t
  · subst hu
    simpa [hpc] using hlt.le
  · simp [hu]

theorem Within.mem {s : State L} (hs : Within busy s) (h : s.callbacks t = pc) (hne : pc ≠ .idle) :
    t ∈ busy := by
  by_contra ht
  exact hne (h ▸ hs t ht)

theorem step_work (hs : Within busy s) (he : e.finishes = true)
    (h : step checked api s e = some t) : Within busy t ∧ work busy t < work busy s := by
  unfold work
  cases (step_cases h).2 with
  | @lock k _ pc | @push k _ pc | @store k pc | @unlock k pc =>
    have hmem : k ∈ busy := hs.mem pc (by simp)
    refine ⟨fun u hu => ?_, ?_⟩
    · exact (Function.update_of_ne (by rintro rfl; exact hu hmem) ..).trans (hs u hu)
    · exact Nat.add_lt_add_right (left_update_lt pc (by simp [QueuePacketPc.left]) hmem) _
  | getEmpty pc | getSome pc | getStore pc | getCopy pc | getPop pc | getOut pc | getFail pc
  | getOk pc =>
    refine ⟨hs, Nat.add_lt_add_left ?_ _⟩
    simp [pc, GetPacketPc.left]
  | onMessage | getLock | call | setState | library => cases he

theorem run_within (h : Machine.run (step checked api) (State.initial l n) es = some s) :
    Within (threads es) s := by
  refine Machine.run_induction (P := fun es s => Within (threads es) s) (fun _ _ => rfl) ?_ h
  intro es s e t _ hs he u hu
  simp only [threads, List.filterMap_append, List.toFinset_append, Finset.mem_union, not_or] at hu
  have hidle : s.callbacks u = .idle := hs u hu.1
  cases (step_cases he).2 with
  | @onMessage k m idle =>
    have hne : u ≠ k := by
      rintro rfl
      exact hu.2 (by simp)
    exact (Function.update_of_ne hne ..).trans hidle
  | @lock k _ pc | @push k _ pc | @store k pc | @unlock k pc =>
    have hne : u ≠ k := by
      rintro rfl
      cases hidle.symm.trans pc
    exact (Function.update_of_ne hne ..).trans hidle
  | _ => exact hidle

theorem work_le (busy : Finset Nat) (s : State L) : work busy s ≤ 4 * busy.card + 6 := by
  have hcallbacks : ∑ t ∈ busy, (s.callbacks t).left ≤ busy.card * 4 := by
    refine Finset.sum_le_card_nsmul busy _ 4 fun t _ => ?_
    cases s.callbacks t <;> simp [QueuePacketPc.left]
  have hconsumer : s.consumer.left ≤ 6 := by
    cases s.consumer <;> simp [GetPacketPc.left]
  unfold work
  omega

-- ---------------------------------------------------------------------------
-- No stall
-- ---------------------------------------------------------------------------

/-- Every call that was begun has returned. -/
structure Quiescent (s : State L) : Prop where
  mutex : s.mutex = none
  consumer : s.consumer = .idle
  callbacks : ∀ t, s.callbacks t = .idle

/-- Whoever owns the mutex has a step to take. -/
theorem owner_steps (hs : Exclusive s) (halive : s.aborted = false) (howns : s.mutex = some o) :
    ∃ e : Event L, e.finishes = true ∧ step checked api s e ≠ none := by
  cases o with
  | callback k =>
    have hcritical := (hs.callback k).mpr howns
    cases hpc : s.callbacks k with
    | idle | ready =>
      rw [hpc] at hcritical
      cases hcritical
    | locked m => exact ⟨.push k, rfl, by simp [step, enabledStep, halive, hpc]⟩
    | pushed => exact ⟨.store k, rfl, by simp [step, enabledStep, halive, hpc]⟩
    | stored => exact ⟨.unlock k, rfl, by simp [step, enabledStep, halive, hpc]⟩
  | consumer =>
    have hcritical := hs.consumer.mpr howns
    cases hpc : s.consumer with
    | idle =>
      rw [hpc] at hcritical
      cases hcritical
    | locked => exact ⟨.getTest, rfl, by simp [step, enabledStep, halive, hpc]⟩
    | available => exact ⟨.getStore, rfl, by simp [step, enabledStep, halive, hpc]⟩
    | counted => exact ⟨.getCopy, rfl, by simp [step, enabledStep, halive, hpc]⟩
    | copied => exact ⟨.getPop, rfl, by simp [step, enabledStep, halive, hpc]⟩
    | popped => exact ⟨.getOut, rfl, by simp [step, enabledStep, halive, hpc]⟩
    | unavailable | filled => exact ⟨.getUnlock, rfl, by simp [step, enabledStep, halive, hpc]⟩

theorem quiescent_of_stalled (hs : Exclusive s) (halive : s.aborted = false)
    (hstalled : ∀ e : Event L, e.finishes = true → step checked api s e = none) : Quiescent s := by
  have hfree : s.mutex = none := by
    by_contra howned
    obtain ⟨o, howns⟩ := Option.ne_none_iff_exists'.mp howned
    obtain ⟨e, he, hsteps⟩ := owner_steps hs halive howns
    exact hsteps (hstalled e he)
  refine ⟨hfree, by simpa [hfree, GetPacketPc.critical] using hs.consumer, fun t => ?_⟩
  have hcritical := hs.free hfree t
  cases hpc : s.callbacks t with
  | idle => rfl
  | ready m =>
    -- the mutex is free, so it could lock
    have hlock := hstalled (.lock t) rfl
    simp [step, enabledStep, halive, hpc, hfree] at hlock
  | locked | pushed | stored =>
    rw [hpc] at hcritical
    cases hcritical

-- ---------------------------------------------------------------------------
-- Where the messages are
-- ---------------------------------------------------------------------------

/-- The messages that callbacks were called with. -/
def received (es : List (Event L)) : List Message :=
  es.filterMap fun
    | .onMessage _ m => some m
    | _ => none

theorem received_snoc (es : List (Event L)) (he : ∀ t m, e ≠ .onMessage t m) :
    received (es ++ [e]) = received es := by
  rw [received, List.filterMap_append, List.filterMap_cons_none, List.filterMap_nil, List.append_nil]
  · rfl
  · split
    · exact absurd rfl (he _ _)
    · rfl

theorem received_finishes (es : List (Event L)) (hfs : ∀ e ∈ fs, Event.finishes e = true) :
    received (es ++ fs) = received es := by
  have hnone : received fs = [] := by
    refine List.filterMap_eq_nil_iff.mpr fun e he => ?_
    have hfinishes := hfs e he
    cases e <;> first | rfl | cases hfinishes
  have happend : received (es ++ fs) = received es ++ received fs := List.filterMap_append
  rw [happend, hnone, List.append_nil]

/-- A message has taken its place in the lock order, or its callback waits for
the mutex. -/
structure Waiting (es : List (Event L)) (s : State L) (waiting : List (Nat × Message)) : Prop where
  nodup : waiting.Nodup
  mem : ∀ t m, (t, m) ∈ waiting ↔ s.callbacks t = .ready m
  perm : (received es).Perm (s.lockOrder ++ waiting.map Prod.snd)

theorem Waiting.move {s : State L} (hs : Waiting es s waiting) (hpc : s.callbacks k = pc)
    (hpc' : ∀ m, pc ≠ .ready m) (hnext : ∀ m, next ≠ .ready m) (t : Nat) (m : Message) :
    (t, m) ∈ waiting ↔ Function.update s.callbacks k next t = .ready m := by
  rw [hs.mem]
  by_cases ht : t = k
  · subst ht
    rw [Function.update_self, hpc]
    exact iff_of_false (hpc' m) (hnext m)
  · rw [Function.update_of_ne ht]

theorem step_waiting (hs : Waiting es s waiting) (h : step checked api s e = some t) :
    ∃ waiting', Waiting (es ++ [e]) t waiting' := by
  have hother (he : ∀ k m, e ≠ .onMessage k m) := received_snoc es he
  cases (step_cases h).2 with
  | @onMessage k m idle =>
    refine ⟨(k, m) :: waiting, ?_, fun u m' => ?_, ?_⟩
    · refine List.nodup_cons.mpr ⟨fun hmem => ?_, hs.nodup⟩
      cases idle.symm.trans ((hs.mem k m).mp hmem)
    · rw [List.mem_cons, Prod.mk.injEq, hs.mem]
      change _ ↔ Function.update s.callbacks k (.ready m) u = .ready m'
      by_cases hu : u = k
      · subst hu
        simp [idle, eq_comm]
      · simp [hu]
    · have hreceived : received (es ++ [.onMessage k m]) = received es ++ [m] :=
        List.filterMap_append
      rw [hreceived, List.map_cons]
      exact (List.perm_append_singleton m _).trans ((hs.perm.cons m).trans List.perm_middle.symm)
  | @lock k m ready free =>
    have hmem : (k, m) ∈ waiting := (hs.mem k m).mpr ready
    refine ⟨waiting.erase (k, m), hs.nodup.erase _, fun u m' => ?_, ?_⟩
    · rw [hs.nodup.mem_erase_iff, hs.mem]
      change _ ↔ Function.update s.callbacks k (.locked m) u = .ready m'
      by_cases hu : u = k
      · subst hu
        simp [ready, eq_comm]
      · simp [hu]
    · rw [hother fun _ _ => nofun]
      have hmap : (waiting.map Prod.snd).Perm (m :: (waiting.erase (k, m)).map Prod.snd) :=
        (List.perm_cons_erase hmem).map Prod.snd
      refine hs.perm.trans ((hmap.append_left _).trans ?_)
      simp
  | @push k _ pc | @store k pc | @unlock k pc =>
    refine ⟨waiting, hs.nodup, hs.move pc (by simp) (by simp), ?_⟩
    rw [hother fun _ _ => nofun]
    exact hs.perm
  | _ => exact ⟨waiting, hs.nodup, hs.mem, (hother fun _ _ => nofun).symm ▸ hs.perm⟩

theorem run_waiting (h : Machine.run (step checked api) (State.initial l n) es = some s) :
    ∃ waiting, Waiting es s waiting := by
  refine Machine.run_induction (P := fun es s => ∃ waiting, Waiting es s waiting) ?_ ?_ h
  · exact ⟨[], .nil, fun t m => by simp [State.initial], by simp [received, State.initial]⟩
  · rintro es s e t - ⟨waiting, hs⟩ he
    exact step_waiting hs he

theorem Quiescent.lockOrder_perm {s : State L} (hq : Quiescent s) (hs : Waiting es s waiting) :
    (received es).Perm s.lockOrder := by
  have hnone : waiting = [] := by
    refine List.eq_nil_iff_forall_not_mem.mpr fun ⟨t, m⟩ hmem => ?_
    cases (hq.callbacks t).symm.trans ((hs.mem t m).mp hmem)
  simpa [hnone] using hs.perm

-- ---------------------------------------------------------------------------
-- Every schedule
-- ---------------------------------------------------------------------------

theorem card_threads_le (es : List (Event L)) : (threads es).card ≤ (received es).length := by
  refine (List.toFinset_card_le _).trans (le_of_eq ?_)
  induction es with
  | nil => rfl
  | cons e es ih =>
    cases e with
    | onMessage k m => simpa [received] using ih
    | _ => exact ih

/-- From any state, the threads finish what they have begun in a bounded number
of steps however they are scheduled: as long as something is left, one of them
can go on, and when nothing is, each message that arrived is in the queue or was
returned. -/
theorem receive_path_completes
    (h : Machine.run (step checked api) (State.initial l n) es = some s)
    (hlen : ∀ t m, Event.onMessage t m ∈ es → m.data.length < 2 ^ 31)
    (hfs : Machine.run (step checked api) s fs = some t)
    (hfinishes : ∀ e ∈ fs, e.finishes = true) (halive : t.aborted = false) :
    fs.length ≤ 4 * (received es).length + 6 ∧
    ((∃ e, e.finishes = true ∧ step checked api t e ≠ none) ∨
      Quiescent t ∧ (t.returned.map (observed ·.atReturn) ++
        t.object.receiver.packetQueue.map receivedOfPacket).Perm
          ((received es).map receivedOfMessage)) := by
  have hrun : Machine.run (step checked api) (State.initial l n) (es ++ fs) = some t :=
    Machine.run_append.mpr ⟨s, h, hfs⟩
  refine ⟨?_, ?_⟩
  · obtain ⟨-, hle⟩ := Machine.length_le_measure (I := Within (threads es)) step_work hfs
      (run_within h) hfinishes
    have hwork := work_le (threads es) s
    have hcard := card_threads_le es
    omega
  by_cases hsteps : ∃ e, e.finishes = true ∧ step checked api t e ≠ none
  · exact .inl hsteps
  have hexclusive := (run_sequential hrun).exclusive
  have hq : Quiescent t := quiescent_of_stalled hexclusive halive fun e he => by
    by_contra hstep
    exact hsteps ⟨e, he, hstep⟩
  refine .inr ⟨hq, ?_⟩
  have hlen' : ∀ k m, Event.onMessage k m ∈ es ++ fs → m.data.length < 2 ^ 31 := by
    intro k m hm
    rcases List.mem_append.mp hm with hm | hm
    · exact hlen k m hm
    · cases hfinishes _ hm
  have hconserved := received_conserves hrun hlen'
  rw [popped_of_free hexclusive hq.mutex, pushing_of_free hq.mutex, List.map_nil, List.map_nil,
    List.append_nil, List.append_nil] at hconserved
  obtain ⟨waiting, hwaiting⟩ := run_waiting hrun
  have hperm := hq.lockOrder_perm hwaiting
  rw [received_finishes es hfinishes] at hperm
  rw [hconserved]
  exact (hperm.map _).symm

/-- Two callbacks are inside, one of them under the lock, and so is a call that
waits for none. -/
def begun : List (Event Unit) :=
  [.onMessage 0 (.string [104, 105]), .onMessage 1 (.binary [1]), .lock 1, .push 1]

def finished : List (Event Unit) :=
  [.store 1, .unlock 1, .lock 0, .push 0, .store 0, .unlock 0]

theorem receive_path_completes_begun :
    ∃ s t, Machine.run (step true .sink) (State.initial () false) begun = some s ∧
      Machine.run (step true .sink) s finished = some t ∧
      ((∃ e, e.finishes = true ∧ step true .sink t e ≠ none) ∨ Quiescent t ∧
        (t.returned.map (observed ·.atReturn) ++
          t.object.receiver.packetQueue.map receivedOfPacket).Perm
            [⟨some [104, 105], 2, true⟩, ⟨some [1], 1, false⟩]) := by
  have hrun : (Machine.run (step true .sink) (State.initial () false) begun).bind (fun s =>
      (Machine.run (step true .sink) s finished).map (·.aborted)) = some false := by decide
  obtain ⟨s, hs, hrun⟩ := Option.bind_eq_some_iff.mp hrun
  obtain ⟨t, ht, halive⟩ := Option.map_eq_some_iff.mp hrun
  refine ⟨s, t, hs, ht, (receive_path_completes hs ?_ ht ?_ halive).2⟩
  · intro k m hm
    simp only [begun, List.mem_cons, Event.onMessage.injEq, reduceCtorEq, or_false,
      List.not_mem_nil] at hm
    rcases hm with ⟨-, rfl⟩ | ⟨-, rfl⟩ <;> decide
  · intro e he
    simp only [finished, List.mem_cons, List.not_mem_nil, or_false] at he
    rcases he with rfl | rfl | rfl | rfl | rfl | rfl <;> rfl

end WebRtc.DataChannel.Receive
