import WebRtc.PeerConnection.Conservation

/-!
# Signals of closed connections

`_close` replaces the shared state, so no task of an older connection reaches
the queue again. The tasks that a poll has already swapped into its local queue
are not replaced: a handler that closes the connection from inside that poll
does not stop them.
-/

namespace WebRtc.PeerConnection.Signals

/-- The connection was made after the last `_close` that had returned. -/
def Emission.Current (e : Emission) : Prop := e.closedBelow ≤ e.task.conn

-- ---------------------------------------------------------------------------
-- The stack of polls
-- ---------------------------------------------------------------------------

/-- Below the top, every poll is in a handler; a poll in a handler has the task
it emits in front. -/
structure Nested (s : State) : Prop where
  below : ∀ f ∈ s.stack.tail, f.emitting = true
  front : ∀ f ∈ s.stack, f.emitting = true → f.localQueue ≠ []

theorem initial_nested : Nested {} := ⟨by simp, by simp⟩

theorem Nested.emitting (hn : Nested s) (hready : s.ready = true) (hf : f ∈ s.stack) :
    f.emitting = true := by
  unfold State.ready at hready
  cases hstack : s.stack with
  | nil => rw [hstack] at hf; cases hf
  | cons g rest =>
    have hbelow := hn.below
    simp only [hstack, Bool.and_eq_true, List.tail_cons] at hready hbelow
    rw [hstack] at hf
    rcases List.mem_cons.mp hf with rfl | hf
    · exact hready.2
    · exact hbelow f hf

theorem step_nested (hn : Nested s) (h : step build s e = some t) : Nested t := by
  cases step_cases h with
  | poll ready =>
    refine ⟨fun f hf => hn.emitting ready hf, fun f hf he => ?_⟩
    rcases List.mem_cons.mp hf with rfl | hf
    · cases he
    · exact hn.front f hf he
  | emit hstack idle front =>
    obtain ⟨hbelow, hfront⟩ := hn
    simp only [hstack, List.tail_cons] at hbelow hfront
    refine ⟨hbelow, fun g hg _ => ?_⟩
    rcases List.mem_cons.mp hg with rfl | hg
    · simp [front]
    · exact hfront g (List.mem_cons_of_mem _ hg) (hbelow g hg)
  | handlerReturn hstack =>
    obtain ⟨hbelow, hfront⟩ := hn
    simp only [hstack, List.tail_cons] at hbelow hfront
    refine ⟨hbelow, fun g hg he => ?_⟩
    rcases List.mem_cons.mp hg with rfl | hg
    · cases he
    · exact hfront g (List.mem_cons_of_mem _ hg) he
  | pollReturn hstack =>
    obtain ⟨hbelow, hfront⟩ := hn
    simp only [hstack, List.tail_cons] at hbelow hfront
    exact ⟨fun g hg => hbelow g (List.mem_of_mem_tail hg),
      fun g hg => hfront g (List.mem_cons_of_mem _ hg)⟩
  | _ => exact ⟨hn.below, hn.front⟩

-- ---------------------------------------------------------------------------
-- What is left waiting is emitted
-- ---------------------------------------------------------------------------

/-- When every handler returns, the polls go on from the top of the stack down
to one with a task that waits. -/
theorem waiting_emitted (build : Build) (stack : List Frame) (s : State) (hstack : s.stack = stack)
    (hinit : s.initializing = false) (hemitting : ∀ f ∈ stack, f.emitting = true)
    (hfront : ∀ f ∈ stack, f.localQueue ≠ []) (hwaiting : s.waiting ≠ []) :
    ∃ es t, Machine.run (step build) s es = some t ∧
      ∃ e ∈ t.emitted, e.task ∈ s.waiting ∧ e.closedBelow = s.closedBelow := by
  induction stack generalizing s with
  | nil => simp [State.waiting, hstack] at hwaiting
  | cons f rest ih =>
    have hf := hemitting f (by simp)
    obtain ⟨u, local_queue, hqueue⟩ := List.exists_cons_of_ne_nil (hfront f (by simp))
    let s₁ : State := { s with
      heap := (s.heap.release u).release u
      stack := { f with localQueue := local_queue, emitting := false } :: rest }
    have h₁ : step build s .handlerReturn = some s₁ := by
      simp [step, hinit, hstack, hf, hqueue, s₁]
    cases hlocal : local_queue with
    | cons v local_queue' =>
      let s₂ : State := { s₁ with
        heap := s₁.heap.retain v
        stack := { f with localQueue := local_queue, emitting := true } :: rest
        emitted := s₁.emitted ++ [⟨f.id, v, s.closedBelow, s₁.channelOf v⟩] }
      have h₂ : step build s₁ .emit = some s₂ := by simp [step, hlocal, s₁, s₂]
      refine ⟨[.handlerReturn, .emit], s₂, ?_, ⟨f.id, v, s.closedBelow, s₁.channelOf v⟩, ?_, ?_, rfl⟩
      · exact Machine.run_cons.mpr ⟨s₁, h₁, by simpa using h₂⟩
      · exact List.mem_append_right _ (List.mem_singleton.mpr rfl)
      · simp [State.waiting, hstack, Frame.waiting, hf, hqueue, hlocal]
    | nil =>
      let s₂ : State := { s₁ with
        stack := rest
        returned := s₁.returned ++ [{ f with localQueue := local_queue, emitting := false }] }
      have h₂ : step build s₁ .pollReturn = some s₂ := by simp [step, hlocal, s₁, s₂]
      have hsame : s₂.waiting = s.waiting := by
        simp [State.waiting, hstack, Frame.waiting, hf, hqueue, hlocal, s₂]
      obtain ⟨es, t, hrun, e, he, htask, hbelow⟩ := ih s₂ rfl hinit
        (fun g hg => hemitting g (List.mem_cons_of_mem _ hg))
        (fun g hg => hfront g (List.mem_cons_of_mem _ hg)) (hsame ▸ hwaiting)
      refine ⟨.handlerReturn :: .pollReturn :: es, t, ?_, e, he, hsame ▸ htask, hbelow⟩
      exact Machine.run_cons.mpr ⟨s₁, h₁, Machine.run_cons.mpr ⟨s₂, h₂, hrun⟩⟩

theorem stale_emitted (hc : Conserved build s) (hn : Nested s) (hready : s.ready = true)
    (hwaiting : s.waiting ≠ []) :
    ∃ es t, Machine.run (step build) s.close es = some t ∧ ∃ e ∈ t.emitted, ¬ e.Current := by
  have hemitting := fun f (hf : f ∈ s.stack) => hn.emitting hready hf
  obtain ⟨es, t, hrun, e, he, htask, hbelow⟩ := waiting_emitted build s.stack s.close rfl
    (State.ready_not_initializing hready) hemitting (fun f hf => hn.front f hf (hemitting f hf)) hwaiting
  refine ⟨es, t, hrun, e, he, ?_⟩
  have hknown := hc.known (List.mem_append_right _ (List.mem_append_left _ htask))
  simpa [Emission.Current, hbelow, State.close] using hknown

-- ---------------------------------------------------------------------------
-- Isolation
-- ---------------------------------------------------------------------------

theorem run_nested (h : Machine.run (step build) {} es = some s) : Nested s :=
  Machine.run_invariant step_nested h initial_nested

theorem run_isolated (h : Machine.run (step build) {} es = some s)
    (hg : Machine.Guarded (step build) NoneWaiting {} es) : Ledger.Isolated Task.conn s.ledger :=
  ledger_invariant (fun hallows => hallows.1) Ledger.step_isolated
    ⟨⟨by simp, by simp⟩, by simp, by simp⟩ h hg

/-- Where no close leaves a task waiting, no signal of a closed connection is
ever emitted; and wherever one does, the polls in progress go on to emit it. -/
theorem signals_isolated (h : Machine.run (step build) {} es = some s) :
    (Machine.Guarded (step build) NoneWaiting {} es → ∀ e ∈ s.emitted, e.Current) ∧
      ∀ a t, step build s a = some t → ¬ NoneWaiting s a →
        ∃ fs u, Machine.run (step build) t fs = some u ∧ ∃ e ∈ u.emitted, ¬ e.Current := by
  constructor
  · intro hg e he
    exact (run_isolated h hg).emitted _ (List.mem_map_of_mem he)
  · intro a t ht hwaiting
    have hc := run_conserved h
    have hn := run_nested h
    simp only [NoneWaiting, Classical.not_imp] at hwaiting
    obtain ⟨ha, hwaiting⟩ := hwaiting
    cases step_cases ht with
    | close ready => exact stale_emitted hc hn ready hwaiting
    | initializePc ready =>
      obtain ⟨es, u, hrun, hstale⟩ := stale_emitted hc hn ready hwaiting
      have hinit := State.ready_not_initializing ready
      have hsame : ({ s.close with initializing := false } : State) = s.close := by
        simp [State.close, ← hinit]
      refine ⟨.createPc false :: es, u, Machine.run_cons.mpr ⟨s.close, ?_, hrun⟩, hstale⟩
      exact congrArg some hsame
    | _ => simp at ha

/-- The connection is closed between two polls, and made again. -/
def closedBetween : List Event :=
  connect ++ callback 0 0 (.localDescription ⟨[], .offer⟩) ++
    [.poll, .emit, .handlerReturn, .pollReturn] ++
    callback 1 0 (.localCandidate ⟨[], []⟩) ++ connect ++
    callback 2 1 (.localDescription ⟨[], .offer⟩) ++ [.poll, .emit]

theorem signals_isolated_closedBetween :
    ∃ s, Machine.run (step .gdextension) {} closedBetween = some s ∧
      s.emitted.map (·.task.conn) = [0, 1] ∧ ∀ e ∈ s.emitted, e.Current := by
  have hrun : (Machine.run (step .gdextension) {} closedBetween).map
      (fun s => s.emitted.map (·.task.conn)) = some [0, 1] := by decide
  obtain ⟨s, hs, hv⟩ := Option.map_eq_some_iff.mp hrun
  exact ⟨s, hs, hv, (signals_isolated hs).1 (by decide)⟩

/-- Two signals are queued, and the handler of the first closes the connection. -/
def closedInHandler : List Event :=
  connect ++ callback 0 0 (.localDescription ⟨[], .offer⟩) ++
    callback 1 0 (.localCandidate ⟨[], []⟩) ++ [.poll, .emit, .close, .handlerReturn, .emit]

theorem closed_connection_emits :
    ∃ s, Machine.run (step .gdextension) {} closedInHandler = some s ∧
      s.emitted.map (fun e => (e.task.conn, e.closedBelow)) = [(0, 0), (0, 1)] ∧
      ¬ ∀ e ∈ s.emitted, e.Current := by
  have hrun : (Machine.run (step .gdextension) {} closedInHandler).map
      (fun s => s.emitted.map fun e => (e.task.conn, e.closedBelow)) = some [(0, 0), (0, 1)] := by
    decide
  obtain ⟨s, hs, hv⟩ := Option.map_eq_some_iff.mp hrun
  refine ⟨s, hs, hv, fun hall => ?_⟩
  have hmem : ((0, 1) : Nat × Nat) ∈ s.emitted.map fun e => (e.task.conn, e.closedBelow) := by
    simp [hv]
  obtain ⟨e, he, heq⟩ := List.mem_map.mp hmem
  have := hall e he
  simp only [Prod.mk.injEq] at heq
  simp [Emission.Current, heq.1, heq.2] at this

end WebRtc.PeerConnection.Signals
