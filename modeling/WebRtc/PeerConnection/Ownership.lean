import WebRtc.PeerConnection.Heap
import WebRtc.PeerConnection.Signals
import WebRtc.Lib.ListSum

/-!
# Who owns a shared state

The references to a shared state are the object's own and those of the
callbacks inside `queue_task`. So the current one is never destroyed by a
callback that leaves, and a connection's callbacks have captured the current
one exactly when no `_close` has returned since the connection was made.
-/

namespace WebRtc.PeerConnection.Signals

open Heap (SameStates SameShape)
open ListSum (total)

/-- The references to a shared state that a callback holds. -/
def Callback.stateRefs (sid : Nat) (c : Callback) : Nat :=
  match c.pc with
  | .locked p_state | .queued p_state => if p_state = some sid then 1 else 0
  | _ => 0

structure Sound (s : State) : Prop where
  valid : s.heap.Valid
  refs : ∀ sid, s.heap.refsOf sid =
    (if s.heap.sharedState = some sid then 1 else 0) + total (Callback.stateRefs sid) s.callbacks
  captured : ∀ conn p, s.heap.conns[conn]? = some p → ∃ sid, p = some sid ∧
    sid < s.heap.states.length ∧ (s.heap.sharedState = some sid ↔ s.closedBelow ≤ conn)
  bound : s.closedBelow ≤ s.heap.conns.length
  initializing : s.initializing = true →
    s.heap.sharedState.isSome ∧ s.closedBelow = s.heap.conns.length
  callbacks : ∀ c ∈ s.callbacks, c.conn < s.heap.conns.length ∧
    ∀ sid, 0 < c.stateRefs sid → s.heap.conns[c.conn]? = some (some sid)
  tasks : ∀ sid, ∀ t ∈ s.heap.tasksOf sid, s.heap.conns[t.conn]? = some (some sid)

theorem initial_sound : Sound {} := by
  constructor <;> simp [Heap.Valid, Heap.refsOf, Heap.tasksOf]

theorem lockWeak_some (h : lockWeak heap conn = some sid) :
    heap.conns[conn]? = some (some sid) ∧ 0 < heap.refsOf sid := by
  unfold lockWeak at h
  split at h
  · rename_i k hk
    split at h
    · rename_i hany
      cases h
      refine ⟨hk, ?_⟩
      unfold Heap.refsOf
      cases hst : heap.states[sid]? with
      | none => simp [hst] at hany
      | some st => simpa [hst] using hany
    · cases h
  · cases h

theorem lockWeak_none (h : lockWeak heap conn = none) (hc : heap.conns[conn]? = some (some sid)) :
    heap.refsOf sid = 0 := by
  simp only [lockWeak, hc] at h
  unfold Heap.refsOf
  cases hst : heap.states[sid]? with
  | none => rfl
  | some st => simpa [hst] using h

theorem announce_same (h : announce heap a = some k) : SameStates heap k := by
  unfold announce at h
  split at h
  · split at h
    · cases h; exact ⟨rfl, rfl, rfl, rfl⟩
    · cases h
  · cases h; exact .refl heap

theorem prepareArgs_same (heap : Heap) (a : Announcement) : SameStates heap (prepareArgs heap a) := by
  unfold prepareArgs
  split
  · split
    · exact Heap.modifyChannel_same ..
    · exact .refl heap
  · exact .refl heap

-- ---------------------------------------------------------------------------
-- Steps that leave the shared states alone
-- ---------------------------------------------------------------------------

/-- Everything `Sound` speaks of but the heap stays. -/
structure SameControl (s t : State) : Prop where
  callbacks : t.callbacks = s.callbacks
  closedBelow : t.closedBelow = s.closedBelow
  initializing : t.initializing = s.initializing

theorem Sound.frame (hs : Sound s) (hc : SameControl s t) (hh : SameStates s.heap t.heap) :
    Sound t := by
  obtain ⟨hvalid, hrefs, hcaptured, hbound, hinit, hcallbacks, htasks⟩ := hs
  constructor
  · simpa only [Heap.Valid, hh.sharedState, hh.states] using hvalid
  · simpa only [hh.refsOf, hh.sharedState, hc.callbacks] using hrefs
  · simpa only [hh.conns, hh.sharedState, hh.states, hc.closedBelow] using hcaptured
  · simpa only [hh.conns, hc.closedBelow] using hbound
  · simpa only [hc.initializing, hh.sharedState, hc.closedBelow, hh.conns] using hinit
  · simpa only [hc.callbacks, hh.conns] using hcallbacks
  · simpa only [hh.tasksOf, hh.conns] using htasks

-- ---------------------------------------------------------------------------
-- Closing and connecting
-- ---------------------------------------------------------------------------

theorem Sound.close (hs : Sound s) : Sound s.close := by
  have hlt : ∀ c ∈ s.callbacks, ∀ sid, 0 < c.stateRefs sid → sid < s.heap.states.length := by
    intro c hc sid hp
    obtain ⟨k, hk, hlt, -⟩ := hs.captured _ _ ((hs.callbacks c hc).2 sid hp)
    cases hk
    exact hlt
  constructor
  · intro sid hsid
    rw [State.close, Heap.replaceState_sharedState] at hsid
    cases hsid
    simp [State.close, Heap.replaceState_length]
  · intro sid
    simp only [State.close, Heap.refsOf_replaceState, Heap.replaceState_sharedState,
      Option.some.injEq, hs.refs]
    have hcurrent : s.heap.sharedState = some sid → sid ≠ s.heap.states.length :=
      fun h => Nat.ne_of_lt (hs.valid sid h)
    have hnew : sid = s.heap.states.length → total (Callback.stateRefs sid) s.callbacks = 0 := by
      rintro rfl
      refine ListSum.total_eq_zero_iff.mpr fun c hc => ?_
      by_contra hp
      exact absurd (hlt c hc _ (Nat.pos_of_ne_zero hp)) (lt_irrefl _)
    split <;> split <;> split <;> omega
  · intro conn p hp
    simp only [State.close, Heap.replaceState_conns] at hp
    obtain ⟨sid, rfl, hsid, -⟩ := hs.captured conn p hp
    have hconn : conn < s.heap.conns.length := (List.getElem?_eq_some_iff.mp hp).1
    refine ⟨sid, rfl, ?_, ?_⟩
    · simp only [State.close, Heap.replaceState_length]; omega
    · simp only [State.close, Heap.replaceState_sharedState, Option.some.injEq]
      omega
  · simp [State.close, Heap.replaceState_conns]
  · simp [State.close, Heap.replaceState_sharedState, Heap.replaceState_conns]
  · simpa only [State.close, Heap.replaceState_conns] using hs.callbacks
  · intro sid t ht
    simp only [State.close, Heap.tasksOf_replaceState hs.valid, Heap.replaceState_conns] at ht ⊢
    split at ht
    · cases ht
    · exact hs.tasks sid t ht

theorem Sound.destroy (hs : Sound s) (hi : s.initializing = false) :
    Sound { s.close with heap := s.heap.destroy, alive := false } := by
  constructor
  · intro sid hsid
    rw [Heap.destroy_sharedState] at hsid
    cases hsid
  · intro sid
    simp only [State.close, Heap.refsOf_destroy hs.valid, Heap.destroy_sharedState, hs.refs]
    split <;> simp
  · intro conn p hp
    simp only [Heap.destroy_conns] at hp
    obtain ⟨sid, rfl, hsid, -⟩ := hs.captured conn p hp
    have hconn : conn < s.heap.conns.length := (List.getElem?_eq_some_iff.mp hp).1
    refine ⟨sid, rfl, ?_, ?_⟩
    · simp only [Heap.destroy_length]; omega
    · simpa [State.close, Heap.destroy_sharedState] using hconn
  · simp [State.close, Heap.destroy_conns]
  · simp [State.close, hi]
  · simpa only [State.close, Heap.destroy_conns] using hs.callbacks
  · intro sid t ht
    simp only [Heap.tasksOf_destroy hs.valid, Heap.destroy_conns] at ht ⊢
    split at ht
    · cases ht
    · exact hs.tasks sid t ht

theorem Sound.connect (hs : Sound s) (hi : s.initializing = true) :
    Sound { s with heap := s.heap.newConnection, initializing := false } := by
  obtain ⟨hsome, hbelow⟩ := hs.initializing hi
  obtain ⟨sid, hsid⟩ := Option.isSome_iff_exists.mp hsome
  have hgrow : ∀ {conn p}, s.heap.conns[conn]? = some p →
      s.heap.newConnection.conns[conn]? = some p := fun h => by
    simpa [Heap.newConnection] using
      (List.getElem?_append_left (List.getElem?_eq_some_iff.mp h).1).trans h
  constructor
  · exact hs.valid
  · exact hs.refs
  · intro conn p hp
    simp only [Heap.newConnection] at hp ⊢
    rcases Nat.lt_or_ge conn s.heap.conns.length with hlt | hge
    · rw [List.getElem?_append_left hlt] at hp
      exact hs.captured conn p hp
    · -- the new connection captures the current shared state
      rw [List.getElem?_append_right hge, hsid] at hp
      obtain ⟨-, rfl⟩ := List.getElem?_eq_some_iff.mp hp
      exact ⟨sid, by simp, hs.valid sid hsid, by simp [hsid, hbelow, hge]⟩
  · have := hs.bound
    simp only [Heap.newConnection, List.length_append, List.length_singleton]
    omega
  · simp
  · intro c hc
    obtain ⟨hconn, hcap⟩ := hs.callbacks c hc
    refine ⟨?_, fun k hk => hgrow (hcap k hk)⟩
    simp only [Heap.newConnection, List.length_append, List.length_singleton]
    omega
  · exact fun k t ht => hgrow (hs.tasks k t ht)

theorem Sound.swapQueue (hs : Sound s) (hc : SameControl s t) (hh : t.heap = s.heap.swapQueue) :
    Sound t := by
  have hshape := s.heap.swapQueue_shape
  rw [← hh] at hshape
  constructor
  · simpa only [Heap.Valid, hshape.sharedState, hshape.length] using hs.valid
  · simpa only [hh, Heap.refsOf_swapQueue, ← hshape.sharedState, hc.callbacks] using hs.refs
  · simpa only [hshape.conns, hshape.sharedState, hshape.length, hc.closedBelow] using hs.captured
  · simpa only [hshape.conns, hc.closedBelow] using hs.bound
  · simpa only [hc.initializing, hshape.sharedState, hc.closedBelow, hshape.conns]
      using hs.initializing
  · simpa only [hc.callbacks, hshape.conns] using hs.callbacks
  · intro sid t ht
    rw [hh, Heap.tasksOf_swapQueue] at ht
    rw [hshape.conns]
    split at ht
    · cases ht
    · exact hs.tasks sid t ht

-- ---------------------------------------------------------------------------
-- Callbacks
-- ---------------------------------------------------------------------------

theorem Sound.invoke (hs : Sound s) (hconn : conn < s.heap.conns.length)
    (ha : announce s.heap a = some h) :
    Sound { s with heap := h, callbacks := s.callbacks ++ [⟨conn, a, .invoked⟩] } := by
  have hh := announce_same ha
  obtain ⟨hvalid, hrefs, hcaptured, hbound, hinit, hcallbacks, htasks⟩ := hs
  constructor
  · simpa only [Heap.Valid, hh.sharedState, hh.states] using hvalid
  · simpa [hh.refsOf, hh.sharedState, Callback.stateRefs] using hrefs
  · simpa only [hh.conns, hh.sharedState, hh.states] using hcaptured
  · simpa only [hh.conns] using hbound
  · simpa only [hh.sharedState, hh.conns] using hinit
  · simpa [hh.conns, or_imp, forall_and, Callback.stateRefs, hconn] using hcallbacks
  · simpa only [hh.tasksOf, hh.conns] using htasks

/-- One callback moves on, and takes or gives back references. -/
theorem Sound.move (hs : Sound s) (hcb : s.callbacks[i]? = some c)
    (hc : SameControl (s.setPc i pc) t) (hh : SameShape s.heap t.heap)
    (hrefs : ∀ sid, t.heap.refsOf sid + c.stateRefs sid =
      s.heap.refsOf sid + ({ c with pc := pc } : Callback).stateRefs sid)
    (htasks : ∀ sid, ∀ u ∈ t.heap.tasksOf sid,
      u ∈ s.heap.tasksOf sid ∨ s.heap.conns[u.conn]? = some (some sid))
    (hcap : ∀ sid, 0 < ({ c with pc := pc } : Callback).stateRefs sid →
      s.heap.conns[c.conn]? = some (some sid)) : Sound t := by
  constructor
  · simpa only [Heap.Valid, hh.sharedState, hh.length] using hs.valid
  · intro sid
    have htotal := ListSum.total_modify (g := Callback.stateRefs sid)
      (fun c : Callback => { c with pc := pc }) hcb
    have := hrefs sid
    have := hs.refs sid
    simp only [hc.callbacks, State.setPc, hh.sharedState] at htotal ⊢
    omega
  · have := hc.closedBelow
    simp only [State.setPc] at this
    simpa only [hh.conns, hh.sharedState, hh.length, this] using hs.captured
  · have := hc.closedBelow
    simp only [State.setPc] at this
    simpa only [hh.conns, this] using hs.bound
  · have hbelow := hc.closedBelow
    have hinit := hc.initializing
    simp only [State.setPc] at hbelow hinit
    simpa only [hinit, hh.sharedState, hbelow, hh.conns] using hs.initializing
  · intro b hb
    rw [hc.callbacks] at hb
    rw [hh.conns]
    rcases ListSum.mem_modify hb with hb | ⟨a, ha, rfl⟩
    · exact hs.callbacks b hb
    · cases Option.some.inj (ha.symm.trans hcb)
      exact ⟨(hs.callbacks c (List.mem_of_getElem? hcb)).1, hcap⟩
  · intro sid u hu
    rw [hh.conns]
    rcases htasks sid u hu with hu | hu
    · exact hs.tasks sid u hu
    · exact hu

theorem stateRefs_of_pc {c : Callback} (h : c.pc = .locked p ∨ c.pc = .queued p) (sid : Nat) :
    c.stateRefs sid = if p = some sid then 1 else 0 := by
  rcases h with h | h <;> simp [Callback.stateRefs, h]

theorem Sound.inRange {c : Callback} {i : Nat} (hs : Sound s) (hcb : s.callbacks[i]? = some c)
    (hpc : c.pc = .locked (some sid)) :
    s.heap.conns[c.conn]? = some (some sid) ∧ sid < s.heap.states.length := by
  have hone := stateRefs_of_pc (.inl hpc)
  have hcap := (hs.callbacks c (List.mem_of_getElem? hcb)).2 sid (by simp [hone])
  obtain ⟨k, hk, hlt, -⟩ := hs.captured _ _ hcap
  cases hk
  exact ⟨hcap, hlt⟩

theorem Sound.lock {c : Callback} (hs : Sound s) (hcb : s.callbacks[i]? = some c)
    (hpc : c.pc = .prepared) (hlocked : lockWeak s.heap c.conn = some sid) (u : Task) :
    Sound { s.setPc i (.locked (some sid)) with heap := (s.heap.retain u).lockState sid } := by
  obtain ⟨hcap, hpos⟩ := lockWeak_some hlocked
  have hh := Heap.retain_same s.heap u
  have hlt : sid < (s.heap.retain u).states.length := by
    rw [hh.states]
    exact Heap.lt_of_refsOf_pos hpos
  refine hs.move hcb ⟨rfl, rfl, rfl⟩ (hh.shape.trans (Heap.modifyState_shape ..))
    (fun k => ?_) (fun k v hv => .inl ?_) (fun k hk => ?_)
  · simp [Heap.refsOf_lockState hlt, hh.refsOf, Callback.stateRefs, hpc, eq_comm]
  · simpa [Heap.tasksOf_lockState, hh.tasksOf] using hv
  · simp only [Callback.stateRefs, Option.some.injEq] at hk
    split at hk
    · rename_i hsid; exact hsid ▸ hcap
    · cases hk

theorem Sound.push {c : Callback} (hs : Sound s) (hcb : s.callbacks[i]? = some c)
    (hpc : c.pc = .locked (some sid)) (hc : SameControl (s.setPc i (.queued (some sid))) t)
    (hheap : t.heap = s.heap.pushTask sid (taskOf build i c)) : Sound t := by
  have hcap := (hs.callbacks c (List.mem_of_getElem? hcb)).2
  obtain ⟨hsid, hlt⟩ := hs.inRange hcb hpc
  refine hs.move hcb hc (hheap ▸ Heap.pushTask_shape ..) (fun k => ?_) (fun k u hu => ?_)
    (fun k hk => hcap k (by simpa [Callback.stateRefs, hpc] using hk))
  · simp [hheap, Heap.refsOf_pushTask, Callback.stateRefs, hpc]
  · simp only [hheap, Heap.tasksOf_pushTask hlt, List.mem_append] at hu
    rcases hu with hu | hu
    · exact .inl hu
    · split at hu
      · -- the task is of the connection that captured the shared state
        rename_i hk
        rw [List.mem_singleton.mp hu, hk]
        exact .inr hsid
      · cases hu

theorem Sound.finish {c : Callback} (hs : Sound s) (hcb : s.callbacks[i]? = some c)
    (hpc : c.pc = .queued p) (u : Task) :
    Sound { s.setPc i .finished with heap := ((s.heap.release u).releaseState? p).release u } := by
  have h₁ := Heap.release_same s.heap u
  have h₂ := Heap.release_same ((s.heap.release u).releaseState? p) u
  have hone := stateRefs_of_pc (.inr hpc)
  refine hs.move hcb ⟨rfl, rfl, rfl⟩
    ((h₁.shape.trans (Heap.releaseState?_shape ..)).trans h₂.shape)
    (fun k => ?_) (fun k v hv => .inl ?_) ?_
  · have hle := ListSum.le_total (g := Callback.stateRefs k) (List.mem_of_getElem? hcb)
    have hrefs := hs.refs k
    rw [h₂.refsOf, Heap.refsOf_releaseState?, h₁.refsOf, hone k]
    rw [hone k] at hle
    simp only [Callback.stateRefs]
    omega
  · simp only [h₂.tasksOf, Heap.tasksOf_releaseState?, h₁.tasksOf] at hv
    split at hv
    · cases hv
    · exact hv
  · simp [Callback.stateRefs]

theorem step_sound (hs : Sound s) (h : step build s e = some t) : Sound t := by
  cases step_cases h with
  | pollUnconfigured | closeChannel => exact hs
  | poll => exact hs.swapQueue ⟨rfl, rfl, rfl⟩ rfl
  | emit => exact hs.frame ⟨rfl, rfl, rfl⟩ (Heap.retain_same ..)
  | handlerReturn =>
    exact hs.frame ⟨rfl, rfl, rfl⟩ ((Heap.release_same ..).trans (Heap.release_same ..))
  | pollReturn => exact hs.frame ⟨rfl, rfl, rfl⟩ (.refl _)
  | close => exact hs.close
  | initializePc =>
    have hclose := hs.close
    refine ⟨hclose.valid, hclose.refs, hclose.captured, hclose.bound, fun _ => ?_,
      hclose.callbacks, hclose.tasks⟩
    simp [State.close, Heap.replaceState_sharedState, Heap.replaceState_conns]
  | connect hi => exact hs.connect hi
  | connectFails =>
    exact ⟨hs.valid, hs.refs, hs.captured, hs.bound, by simp, hs.callbacks, hs.tasks⟩
  | destroy ready => exact hs.destroy (State.ready_not_initializing ready)
  | retain | getPacket | arrive | deliver =>
    exact hs.frame ⟨rfl, rfl, rfl⟩ (Heap.modifyChannel_same ..)
  | drop => exact hs.frame ⟨rfl, rfl, rfl⟩ (Heap.releaseChannel_same ..)
  | invoke hconn ha => exact hs.invoke hconn ha
  | @prepare i c hcb hpc =>
    have hh := prepareArgs_same s.heap c.announcement
    refine hs.move hcb ⟨rfl, rfl, rfl⟩ hh.shape (fun sid => ?_) (fun sid u hu => .inl ?_) ?_
    · simp [hh.refsOf, Callback.stateRefs, hpc]
    · simpa [hh.tasksOf] using hu
    · simp [Callback.stateRefs]
  | lock hcb hpc hlocked => exact hs.lock hcb hpc hlocked _
  | @lockExpired i c hcb hpc =>
    have hh := Heap.retain_same s.heap (taskOf build i c)
    refine hs.move hcb ⟨rfl, rfl, rfl⟩ hh.shape (fun k => ?_) (fun k u hu => .inl ?_) ?_
    · simp [hh.refsOf, Callback.stateRefs, hpc]
    · simpa [hh.tasksOf] using hu
    · simp [Callback.stateRefs]
  | push hcb hpc => exact hs.push hcb hpc ⟨rfl, rfl, rfl⟩ rfl
  | pushExpired hcb hpc =>
    refine hs.move hcb ⟨rfl, rfl, rfl⟩ (.refl _) (fun k => ?_) (fun k u hu => .inl hu) ?_
    · simp [Callback.stateRefs, hpc, State.setPc]
    · simp [Callback.stateRefs]
  | finish hcb hpc => exact hs.finish hcb hpc _

theorem run_sound (h : Machine.run (step build) {} es = some s) : Sound s :=
  Machine.run_invariant step_sound h initial_sound

end WebRtc.PeerConnection.Signals
