import WebRtc.PeerConnection.Ownership
import WebRtc.Lib.Ledger

/-!
# The ledger of the signals

What happens to the tasks is a run of the machine of `Lib.Ledger`: a callback
pushes, a poll swaps the current queue into its local queue and emits, a close
raises the bar to the number of connections made so far and discards the queue.
-/

namespace WebRtc.PeerConnection.Signals

open ListSum (total)

-- ---------------------------------------------------------------------------
-- The queue of the current shared state
-- ---------------------------------------------------------------------------

theorem swapQueue_queue (heap : Heap) : heap.swapQueue.queue = [] := by
  rw [Heap.queue_eq, heap.swapQueue_shape.sharedState]
  cases hs : heap.sharedState with
  | none => rfl
  | some sid => simp [Heap.tasksOf_swapQueue, hs]

theorem destroy_queue (heap : Heap) : heap.destroy.queue = [] := by
  rw [Heap.queue_eq, Heap.destroy_sharedState]

theorem lockState_queue (heap : Heap) (sid : Nat) : (heap.lockState sid).queue = heap.queue := by
  have hcur : (heap.lockState sid).sharedState = heap.sharedState := rfl
  rw [Heap.queue_eq, Heap.queue_eq, hcur]
  cases heap.sharedState with
  | none => rfl
  | some k => exact Heap.tasksOf_lockState heap sid k

theorem pushTask_queue {heap : Heap} (hlt : sid < heap.states.length) (t : Task) :
    (heap.pushTask sid t).queue =
      heap.queue ++ if heap.sharedState = some sid then [t] else [] := by
  rw [Heap.queue_eq, Heap.queue_eq, (Heap.pushTask_shape ..).sharedState]
  cases heap.sharedState with
  | none => simp
  | some k => simp [Heap.tasksOf_pushTask hlt]

theorem Sound.finish_queue {c : Callback} {i : Nat} (hs : Sound s) (hcb : s.callbacks[i]? = some c)
    (hpc : c.pc = .queued p) (u : Task) :
    (((s.heap.release u).releaseState? p).release u).queue = s.heap.queue := by
  have h₁ := Heap.release_same s.heap u
  rw [(Heap.release_same ..).queue, Heap.queue_eq, Heap.queue_eq,
    (Heap.releaseState?_shape ..).sharedState, h₁.sharedState]
  cases hcur : s.heap.sharedState with
  | none => rfl
  | some sid =>
    simp only [Heap.tasksOf_releaseState?, h₁.refsOf, h₁.tasksOf]
    split
    · rename_i hlast
      -- the object and the callback hold it, so this is not the last reference
      have hle := ListSum.le_total (g := Callback.stateRefs sid) (List.mem_of_getElem? hcb)
      have hrefs := hs.refs sid
      rw [stateRefs_of_pc (.inr hpc), if_pos hlast.1] at hle
      rw [hcur, if_pos rfl] at hrefs
      omega
    · rfl

theorem Sound.known (hs : Sound s) (ht : t ∈ s.heap.queue) : t.conn < s.heap.conns.length := by
  rw [Heap.queue_eq] at ht
  cases hcur : s.heap.sharedState with
  | none => simp [hcur] at ht
  | some sid =>
    simp only [hcur] at ht
    exact (List.getElem?_eq_some_iff.mp (hs.tasks sid t ht)).1

-- ---------------------------------------------------------------------------
-- The tasks that wait
-- ---------------------------------------------------------------------------

theorem waiting_emit {f : Frame} (idle : f.emitting = false) (front : f.localQueue = u :: rest) :
    f.waiting = u :: ({ f with emitting := true } : Frame).waiting := by
  simp [Frame.waiting, idle, front]

theorem waiting_handlerReturn {f : Frame} (emitting : f.emitting = true)
    (front : f.localQueue = u :: rest) :
    f.waiting = ({ f with localQueue := rest, emitting := false } : Frame).waiting := by
  simp [Frame.waiting, emitting, front]

theorem waiting_pollReturn {f : Frame} (idle : f.emitting = false) (empty : f.localQueue = []) :
    f.waiting = [] := by
  simp [Frame.waiting, idle, empty]

-- ---------------------------------------------------------------------------
-- Simulation of the ledger
-- ---------------------------------------------------------------------------

def State.ledger (s : State) : Ledger Task where
  pushed := s.pushed
  queue := s.heap.queue
  waiting := s.waiting
  emitted := s.emitted.map fun e => (e.task, e.closedBelow)
  discarded := s.discarded
  bar := s.closedBelow

theorem ledger_emitted (s : State) :
    s.ledger.emitted.map Prod.fst = s.emitted.map Emission.task := by
  simp only [State.ledger, List.map_map]
  rfl

/-- No task waits in the local queue of a poll in progress when the connection
is closed. -/
def NoneWaiting (s : State) (e : Event) : Prop :=
  e = .close ∨ e = .initializePc → s.waiting = []

/-- A poll does not take tasks of a connection that has tasks waiting in the
polls around it. -/
def TakesInTurn (s : State) (e : Event) : Prop :=
  e = .poll → s.heap.peerConnection ≠ none → ∀ t ∈ s.waiting, ∀ u ∈ s.heap.queue, t.conn ≠ u.conn

instance : Decidable (NoneWaiting s e) := inferInstanceAs (Decidable (_ → _))

instance : Decidable (TakesInTurn s e) := inferInstanceAs (Decidable (_ → _ → _))

def Allows (s : State) (e : Event) (op : Ledger.Op Task) : Prop :=
  (NoneWaiting s e → Ledger.NoneWaiting s.ledger op) ∧
    (TakesInTurn s e → Ledger.TakesInTurn Task.conn s.ledger op)

theorem ledger_eq {s t : State} (hpushed : t.pushed = s.pushed)
    (hqueue : t.heap.queue = s.heap.queue) (hwaiting : t.waiting = s.waiting)
    (hemitted : t.emitted = s.emitted) (hdiscarded : t.discarded = s.discarded)
    (hbelow : t.closedBelow = s.closedBelow) : t.ledger = s.ledger := by
  simp only [State.ledger, hpushed, hqueue, hwaiting, hemitted, hdiscarded, hbelow]

theorem ledger_close {s t : State} (hs : Sound s) (hpushed : t.pushed = s.pushed)
    (hqueue : t.heap.queue = []) (hwaiting : t.waiting = s.waiting)
    (hemitted : t.emitted = s.emitted) (hdiscarded : t.discarded = s.discarded ++ s.heap.queue)
    (hbelow : t.closedBelow = s.heap.conns.length) :
    Ledger.step Task.conn s.ledger (.close s.heap.conns.length) = some t.ledger := by
  have h : t.ledger = { s.ledger with
      queue := [], discarded := s.ledger.discarded ++ s.ledger.queue, bar := s.heap.conns.length } := by
    simp only [State.ledger, hpushed, hqueue, hwaiting, hemitted, hdiscarded, hbelow]
  rw [h]
  exact Ledger.step_iff.mpr (.close hs.bound fun u hu => hs.known hu)

theorem ledger_push {s t : State} {c : Callback} (hs : Sound s) (hcb : s.callbacks[i]? = some c)
    (hpc : c.pc = .locked (some sid)) (hpushed : t.pushed = s.pushed ++ [taskOf build i c])
    (hqueue : t.heap.queue =
      s.heap.queue ++ if s.heap.sharedState = some sid then [taskOf build i c] else [])
    (hwaiting : t.waiting = s.waiting) (hemitted : t.emitted = s.emitted)
    (hdiscarded : t.discarded =
      s.discarded ++ if s.heap.sharedState = some sid then [] else [taskOf build i c])
    (hbelow : t.closedBelow = s.closedBelow) :
    Ledger.step Task.conn s.ledger (.push (taskOf build i c)) = some t.ledger := by
  -- the shared state is the current one exactly when the connection is not closed
  obtain ⟨k, hk, -, hiff⟩ := hs.captured _ _ (hs.inRange hcb hpc).1
  cases hk
  by_cases hcur : s.heap.sharedState = some sid
  · have h : t.ledger = { s.ledger with
        pushed := s.ledger.pushed ++ [taskOf build i c]
        queue := s.ledger.queue ++ [taskOf build i c] } := by
      simp [State.ledger, hpushed, hqueue, hwaiting, hemitted, hdiscarded, hbelow, hcur]
    rw [h]
    exact Ledger.step_iff.mpr (.push (hiff.mp hcur))
  · have h : t.ledger = { s.ledger with
        pushed := s.ledger.pushed ++ [taskOf build i c]
        discarded := s.ledger.discarded ++ [taskOf build i c] } := by
      simp [State.ledger, hpushed, hqueue, hwaiting, hemitted, hdiscarded, hbelow, hcur]
    rw [h]
    exact Ledger.step_iff.mpr (.pushStale (not_le.mp fun hle => hcur (hiff.mpr hle)))

theorem step_ledger (hs : Sound s) (h : step build s e = some t) :
    t.ledger = s.ledger ∨
      ∃ op, Ledger.step Task.conn s.ledger op = some t.ledger ∧ Allows s e op := by
  cases step_cases h with
  | pollUnconfigured | closeChannel => exact .inl rfl
  | poll ready configured =>
    refine .inr ⟨.swap, ?_, by simp [Ledger.NoneWaiting], fun hg _ => hg rfl configured⟩
    simp [Ledger.step, State.ledger, State.waiting, Frame.waiting, swapQueue_queue]
  | emit hstack idle front =>
    refine .inr ⟨.emit, ?_, by simp [Ledger.NoneWaiting], by simp [Ledger.TakesInTurn]⟩
    simp [Ledger.step, State.ledger, State.waiting, hstack, waiting_emit idle front,
      (Heap.retain_same ..).queue]
  | handlerReturn hstack emitting front =>
    refine .inl (ledger_eq rfl ?_ ?_ rfl rfl rfl)
    · exact ((Heap.release_same ..).trans (Heap.release_same ..)).queue
    · simp [State.waiting, hstack, waiting_handlerReturn emitting front]
  | pollReturn hstack idle empty =>
    refine .inl (ledger_eq rfl rfl ?_ rfl rfl rfl)
    simp [State.waiting, hstack, waiting_pollReturn idle empty]
  | close =>
    exact .inr ⟨_, ledger_close hs rfl (Heap.replaceState_queue hs.valid) rfl rfl rfl rfl,
      fun hg _ _ => hg (.inl rfl), by simp [Ledger.TakesInTurn]⟩
  | initializePc =>
    exact .inr ⟨_, ledger_close hs rfl (Heap.replaceState_queue hs.valid) rfl rfl rfl rfl,
      fun hg _ _ => hg (.inr rfl), by simp [Ledger.TakesInTurn]⟩
  | destroy ready idle =>
    exact .inr ⟨_, ledger_close hs rfl (destroy_queue _) rfl rfl rfl rfl,
      fun _ _ _ => by simp [State.ledger, State.waiting, idle], by simp [Ledger.TakesInTurn]⟩
  | connect | connectFails | pushExpired => exact .inl (ledger_eq rfl rfl rfl rfl rfl rfl)
  | retain | getPacket | arrive | deliver =>
    exact .inl (ledger_eq rfl (Heap.modifyChannel_same ..).queue rfl rfl rfl rfl)
  | drop => exact .inl (ledger_eq rfl (Heap.releaseChannel_same ..).queue rfl rfl rfl rfl)
  | invoke _ ha => exact .inl (ledger_eq rfl (announce_same ha).queue rfl rfl rfl rfl)
  | prepare => exact .inl (ledger_eq rfl (prepareArgs_same ..).queue rfl rfl rfl rfl)
  | lock =>
    exact .inl (ledger_eq rfl ((lockState_queue ..).trans (Heap.retain_same ..).queue)
      rfl rfl rfl rfl)
  | lockExpired => exact .inl (ledger_eq rfl (Heap.retain_same ..).queue rfl rfl rfl rfl)
  | push hcb hpc =>
    exact .inr ⟨_, ledger_push hs hcb hpc rfl (pushTask_queue (hs.inRange hcb hpc).2 _)
      rfl rfl rfl rfl, by simp [Ledger.NoneWaiting], by simp [Ledger.TakesInTurn]⟩
  | finish hcb hpc => exact .inl (ledger_eq rfl (hs.finish_queue hcb hpc _) rfl rfl rfl rfl)

/-- What holds of every step of the ledger under a guard holds of every run
under the guard of the same name. -/
theorem ledger_simulation {G : State → Event → Prop} {H : Ledger Task → Ledger.Op Task → Prop}
    (hG : ∀ {s e op}, Allows s e op → G s e → H s.ledger op) :
    Machine.Simulation (step build) G (Ledger.step Task.conn) H State.ledger Sound where
  inv := step_sound
  sim hs h := by
    rcases step_ledger hs h with he | ⟨op, hop, hallows⟩
    · exact ⟨[], by simp [he], fun _ => trivial⟩
    · exact ⟨[op], by simpa using hop, fun hg => ⟨hG hallows hg, fun _ _ => trivial⟩⟩

theorem ledger_invariant {G : State → Event → Prop} {H : Ledger Task → Ledger.Op Task → Prop}
    {I : Ledger Task → Prop} (hG : ∀ {s e op}, Allows s e op → G s e → H s.ledger op)
    (hstep : ∀ {l op k}, I l → H l op → Ledger.step Task.conn l op = some k → I k) (hI : I {})
    (h : Machine.run (step build) {} es = some s) (hg : Machine.Guarded (step build) G {} es) :
    I s.ledger := by
  obtain ⟨ops, hops, hguard⟩ := (ledger_simulation hG).run h initial_sound
  exact (hguard hg).invariant hstep hops hI

end WebRtc.PeerConnection.Signals
