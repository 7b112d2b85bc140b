import WebRtc.PeerConnection.Conservation

/-!
# The order of the signals

A poll emits what it has taken in the order it was queued. A poll inside a
handler takes tasks that were queued later, and emits them before those that
wait in the polls around it.
-/

namespace WebRtc.PeerConnection.Signals

def State.emittedOf (s : State) (conn : Nat) : List Task :=
  Ledger.ofGen Task.conn conn (s.emitted.map Emission.task)

def State.pushedOf (s : State) (conn : Nat) : List Task := Ledger.ofGen Task.conn conn s.pushed

theorem run_inOrder (h : Machine.run (step build) {} es = some s)
    (hg : Machine.Guarded (step build) TakesInTurn {} es) : Ledger.InOrder Task.conn s.ledger :=
  ledger_invariant (fun hallows => hallows.2) Ledger.step_inOrder
    ⟨fun _ => List.prefix_refl _, fun _ _ => rfl⟩ h hg

-- ---------------------------------------------------------------------------
-- A poll on its own
-- ---------------------------------------------------------------------------

def drain : Nat → List Event
  | 0 => []
  | n + 1 => .emit :: .handlerReturn :: drain n

theorem run_drain (build : Build) (tasks : List Task) (s : State) (hinit : s.initializing = false)
    (hstack : s.stack = f :: rest) (idle : f.emitting = false) (hqueue : f.localQueue = tasks) :
    ∃ t, Machine.run (step build) s (drain tasks.length) = some t ∧
      t.emitted.map Emission.task = s.emitted.map Emission.task ++ tasks ∧
      t.pushed = s.pushed := by
  induction tasks generalizing s f with
  | nil => exact ⟨s, rfl, by simp, rfl⟩
  | cons u tasks ih =>
    let s₁ : State := { s with
      heap := s.heap.retain u
      stack := { f with emitting := true } :: rest
      emitted := s.emitted ++ [⟨f.id, u, s.closedBelow, s.channelOf u⟩] }
    have h₁ : step build s .emit = some s₁ := by simp [step, hstack, idle, hqueue, s₁]
    let s₂ : State := { s₁ with
      heap := (s₁.heap.release u).release u
      stack := { f with localQueue := tasks, emitting := false } :: rest }
    have h₂ : step build s₁ .handlerReturn = some s₂ := by simp [step, hinit, hqueue, s₁, s₂]
    obtain ⟨t, hrun, hemitted, hpushed⟩ := ih s₂ hinit rfl rfl rfl
    refine ⟨t, Machine.run_cons.mpr ⟨s₁, h₁, Machine.run_cons.mpr ⟨s₂, h₂, hrun⟩⟩, ?_, hpushed⟩
    rw [hemitted]
    simp [s₁, s₂]

-- ---------------------------------------------------------------------------
-- Order
-- ---------------------------------------------------------------------------

/-- Where every poll takes its tasks in turn, a connection's signals are emitted
in the order its callbacks pushed them; and the first poll that does not take
its tasks in turn emits them in another order, also when its handlers do
nothing. -/
theorem signals_ordered (h : Machine.run (step build) {} es = some s)
    (hg : Machine.Guarded (step build) TakesInTurn {} es) :
    (∀ conn, s.emittedOf conn <+: s.pushedOf conn) ∧
      ∀ t, step build s .poll = some t → ¬ TakesInTurn s .poll →
        ∃ u, Machine.run (step build) t (drain s.heap.queue.length) = some u ∧
          ∃ conn, ¬ u.emittedOf conn <+: u.pushedOf conn := by
  have hs := run_inOrder h hg
  constructor
  · intro conn
    have hprefix := hs.emitted conn
    rwa [ledger_emitted] at hprefix
  · intro t ht hturn
    simp only [TakesInTurn, not_forall, not_not] at hturn
    obtain ⟨-, configured, a, ha, b, hb, hconn⟩ := hturn
    cases step_cases ht with
    | pollUnconfigured _ unconfigured => exact absurd unconfigured configured
    | poll ready =>
      have hinit : s.initializing = false := State.ready_not_initializing ready
      obtain ⟨u, hrun, hemitted, hpushed⟩ := run_drain build s.heap.queue
        { s with
          heap := s.heap.swapQueue
          stack := ⟨s.polls, s.heap.queue, false, s.heap.queue⟩ :: s.stack
          polls := s.polls + 1 }
        hinit rfl rfl rfl
      refine ⟨u, hrun, b.conn, ?_⟩
      have hdisjoint : ∀ x ∈ s.waiting, x ∉ s.heap.queue := by
        have hnodup := (run_conserved h).places_nodup
        simp only [State.places, List.nodup_append, List.mem_append] at hnodup
        exact fun x hx hq => hnodup.2.1.2.2 x hx x (.inl hq) rfl
      have hout := hs.out_of_turn hdisjoint ha hb hconn
      rw [ledger_emitted] at hout
      rwa [State.emittedOf, State.pushedOf, hemitted, hpushed]

/-- The handler of the last signal polls again, after another was pushed. -/
def nestedInTurn : List Event :=
  connect ++ callback 0 0 (.localDescription ⟨[], .offer⟩) ++
    callback 1 0 (.localCandidate ⟨[], []⟩) ++ [.poll, .emit, .handlerReturn, .emit] ++
    callback 2 0 (.localCandidate ⟨[], []⟩) ++
    [.poll, .emit, .handlerReturn, .pollReturn, .handlerReturn, .pollReturn]

theorem signals_ordered_nestedInTurn :
    ∃ s, Machine.run (step .gdextension) {} nestedInTurn = some s ∧
      s.emitted.map (·.task.id) = [0, 1, 2] ∧ s.emittedOf 0 <+: s.pushedOf 0 := by
  have hrun : (Machine.run (step .gdextension) {} nestedInTurn).map
      (fun s => s.emitted.map (·.task.id)) = some [0, 1, 2] := by decide
  obtain ⟨s, hs, hv⟩ := Option.map_eq_some_iff.mp hrun
  exact ⟨s, hs, hv, (signals_ordered hs (by decide)).1 0⟩

/-- The handler of the first of two signals polls again, after a third was
pushed. -/
def nestedOutOfTurn : List Event :=
  connect ++ callback 0 0 (.localDescription ⟨[], .offer⟩) ++
    callback 1 0 (.localCandidate ⟨[], []⟩) ++ [.poll, .emit] ++
    callback 2 0 (.localCandidate ⟨[], []⟩) ++ [.poll, .emit]

theorem nested_poll_overtakes :
    ∃ s, Machine.run (step .gdextension) {} nestedOutOfTurn = some s ∧
      s.pushed.map Task.id = [0, 1, 2] ∧ s.emitted.map (·.task.id) = [0, 2] ∧
      ¬ s.emittedOf 0 <+: s.pushedOf 0 := by
  have hrun : (Machine.run (step .gdextension) {} nestedOutOfTurn).map
      (fun s => (s.pushed.map Task.id, s.emitted.map (·.task.id),
        decide (s.emittedOf 0 <+: s.pushedOf 0))) = some ([0, 1, 2], [0, 2], false) := by decide
  obtain ⟨s, hs, hv⟩ := Option.map_eq_some_iff.mp hrun
  simp only [Prod.mk.injEq, decide_eq_false_iff_not] at hv
  exact ⟨s, hs, hv⟩

end WebRtc.PeerConnection.Signals
