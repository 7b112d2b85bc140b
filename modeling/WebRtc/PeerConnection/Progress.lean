import WebRtc.PeerConnection.Announced
import WebRtc.PeerConnection.Generations

/-!
# What is announced is emitted

The callbacks and the calls of a `WebRTCLibPeerConnection` that have begun end
by themselves, however they are scheduled: `work` counts the steps that are
left. When nothing is left, the task of every callback of a current connection
has been emitted, or is in the queue. Whatever else goes on meanwhile, a poll
that has returned has emitted what was announced before it began.
-/

namespace WebRtc.PeerConnection.Signals

open ListSum (total)

variable {build : Build}

-- ---------------------------------------------------------------------------
-- The steps that are left
-- ---------------------------------------------------------------------------

/-- The steps of what has begun; a signal handler that runs returns. -/
def Event.finishes : Event → Bool
  | .emit | .handlerReturn | .pollReturn | .createPc _ => true
  | .prepare _ | .lock _ | .push _ | .finish _ => true
  | _ => false

def CallbackPc.left : CallbackPc → Nat
  | .finished => 0
  | .queued _ => 1
  | .locked _ => 2
  | .prepared => 3
  | .invoked => 4

def Frame.left (f : Frame) : Nat := 2 * f.waiting.length + (if f.emitting then 2 else 1)

def State.work (s : State) : Nat :=
  total (·.pc.left) s.callbacks + total Frame.left s.stack + if s.initializing then 1 else 0

theorem work_setPc {s t : State} (hcb : s.callbacks[i]? = some c)
    (hcallbacks : t.callbacks = (s.setPc i pc).callbacks) (hstack : t.stack = s.stack)
    (hinit : t.initializing = s.initializing) (hlt : pc.left < c.pc.left) : t.work < s.work := by
  have htotal : total (·.pc.left) (s.setPc i pc).callbacks + c.pc.left =
      total (·.pc.left) s.callbacks + pc.left := ListSum.total_modify _ hcb
  unfold State.work
  rw [hcallbacks, hstack, hinit]
  omega

theorem step_work (he : e.finishes = true) (h : step build s e = some t) : t.work < s.work := by
  cases step_cases h with
  | @emit f rest u local_queue hstack idle front =>
    simp [State.work, hstack, Frame.left, Frame.waiting, idle, front]
    omega
  | @handlerReturn f rest u local_queue hstack emitting front =>
    simp [State.work, hstack, Frame.left, Frame.waiting, emitting, front]
  | pollReturn hstack idle empty => simp [State.work, hstack, Frame.left, Frame.waiting, idle, empty]
  | connect hinit | connectFails hinit => simp [State.work, hinit]
  | prepare hcb hpc | lock hcb hpc | lockExpired hcb hpc | push hcb hpc | pushExpired hcb hpc
  | finish hcb hpc =>
    refine work_setPc hcb rfl rfl rfl ?_
    simp [hpc, CallbackPc.left]
  | _ => cases he

-- ---------------------------------------------------------------------------
-- No stall
-- ---------------------------------------------------------------------------

/-- No callback, no poll and no `_initialize` is in progress. -/
structure Quiescent (s : State) : Prop where
  callbacks : ∀ c ∈ s.callbacks, c.pc = .finished
  stack : s.stack = []
  initializing : s.initializing = false

theorem callback_steps (hc : c ∈ s.callbacks) (hpc : c.pc ≠ .finished) :
    ∃ e : Event, e.finishes = true ∧ step build s e ≠ none := by
  obtain ⟨i, hi⟩ := List.mem_iff_getElem?.mp hc
  cases h : c.pc with
  | invoked => exact ⟨.prepare i, rfl, by simp [step, hi, h]⟩
  | prepared =>
    refine ⟨.lock i, rfl, ?_⟩
    cases hlock : lockWeak s.heap c.conn <;> simp [step, hi, h, hlock]
  | locked p_state => exact ⟨.push i, rfl, by cases p_state <;> simp [step, hi, h]⟩
  | queued p_state => exact ⟨.finish i, rfl, by simp [step, hi, h]⟩
  | finished => exact absurd h hpc

theorem poll_steps (hn : Nested s) (hinit : s.initializing = false) (hstack : s.stack = f :: rest) :
    ∃ e : Event, e.finishes = true ∧ step build s e ≠ none := by
  cases hemitting : f.emitting with
  | true =>
    have hfront : f.localQueue ≠ [] := hn.front f (hstack ▸ List.mem_cons_self) hemitting
    obtain ⟨u, local_queue, hqueue⟩ := List.exists_cons_of_ne_nil hfront
    exact ⟨.handlerReturn, rfl, by simp [step, hinit, hstack, hemitting, hqueue]⟩
  | false =>
    cases hqueue : f.localQueue with
    | nil => exact ⟨.pollReturn, rfl, by simp [step, hstack, hemitting, hqueue]⟩
    | cons u local_queue => exact ⟨.emit, rfl, by simp [step, hstack, hemitting, hqueue]⟩

theorem quiescent_of_stalled (hn : Nested s)
    (hstalled : ∀ e : Event, e.finishes = true → step build s e = none) : Quiescent s := by
  have hstuck : ¬ ∃ e : Event, e.finishes = true ∧ step build s e ≠ none := by
    rintro ⟨e, he, hsteps⟩
    exact hsteps (hstalled e he)
  have hinit : s.initializing = false := by
    by_contra hinit
    rw [Bool.not_eq_false] at hinit
    exact hstuck ⟨.createPc false, rfl, by simp [step, hinit]⟩
  refine ⟨fun c hc => ?_, ?_, hinit⟩
  · by_contra hpc
    exact hstuck (callback_steps hc hpc)
  · cases hstack : s.stack with
    | nil => rfl
    | cons f rest => exact absurd (poll_steps hn hinit hstack) hstuck

-- ---------------------------------------------------------------------------
-- What a callback leaves behind
-- ---------------------------------------------------------------------------

/-- The task of a callback that is past `queue_task` has been queued, or dropped
at an expired pointer. -/
def Recorded (build : Build) (s : State) : Prop :=
  ∀ i c, s.callbacks[i]? = some c → c.pc.past = true → taskOf build i c ∈ s.pushed ++ s.gone

theorem initial_recorded : Recorded build {} := by simp [Recorded]

theorem Recorded.setPc (hr : Recorded build s) (hcb : s.callbacks[i]? = some c)
    (hcallbacks : t.callbacks = (s.setPc i pc).callbacks)
    (hsub : ∀ u ∈ s.pushed ++ s.gone, u ∈ t.pushed ++ t.gone)
    (h : pc.past = true → taskOf build i c ∈ t.pushed ++ t.gone) : Recorded build t := by
  intro j d hd hpast
  rw [hcallbacks, getElem?_setPc] at hd
  split at hd
  · rename_i hij
    subst hij
    rw [hcb, Option.map_some, Option.some_inj] at hd
    subst hd
    exact h hpast
  · exact hsub _ (hr j d hd hpast)

theorem step_recorded (hr : Recorded build s) (h : step build s e = some t) : Recorded build t := by
  cases step_cases h with
  | invoke =>
    intro j d hd hpast
    rcases ListSum.getElem?_snoc hd with hd | ⟨-, rfl⟩
    · exact hr j d hd hpast
    · cases hpast
  | prepare hcb | lock hcb | lockExpired hcb =>
    exact hr.setPc hcb rfl (fun _ hu => hu) fun hpast => by cases hpast
  | finish hcb hpc =>
    exact hr.setPc hcb rfl (fun _ hu => hu) fun _ => hr _ _ hcb (by rw [hpc]; rfl)
  | push hcb | pushExpired hcb =>
    refine hr.setPc hcb rfl (fun u hu => ?_) fun _ => by simp
    rcases List.mem_append.mp hu with hu | hu
    · exact List.mem_append_left _ (by simp [State.setPc, hu])
    · exact List.mem_append_right _ (by simp [State.setPc, hu])
  | _ => exact hr

theorem run_recorded (h : Machine.run (step build) {} es = some s) : Recorded build s :=
  Machine.run_invariant step_recorded h initial_recorded

/-- Only the tasks of older connections are dropped. -/
theorem announced_kept (h : Machine.run (step build) {} es = some s)
    (hcb : s.callbacks[i]? = some c) (hpast : c.pc.past = true) (hcurrent : s.closedBelow ≤ c.conn) :
    taskOf build i c ∈ s.emitted.map Emission.task ++ (s.waiting ++ s.heap.queue) := by
  have hs := run_conserved h
  have hplace := hs.places_perm.symm.subset (run_recorded h i c hcb hpast)
  have hplaces : s.places =
      s.emitted.map Emission.task ++ (s.waiting ++ s.heap.queue) ++ (s.discarded ++ s.gone) := by
    simp [State.places]
  rw [hplaces] at hplace
  refine (List.mem_append.mp hplace).resolve_right fun hdropped => ?_
  have hlt : c.conn < s.closedBelow :=
    (List.mem_append.mp hdropped).elim (hs.barred.discarded _) (hs.stale.gone _)
  exact Nat.not_lt.mpr hcurrent hlt

/-- With no callback and no poll in progress, what a current connection has
announced was emitted or is in the queue, once. -/
theorem announced_once (h : Machine.run (step build) {} es = some s)
    (hfinished : ∀ c ∈ s.callbacks, c.pc = .finished) (hstack : s.stack = [])
    (hcb : s.callbacks[i]? = some c) (hcurrent : s.closedBelow ≤ c.conn) :
    (s.emitted.map Emission.task ++ s.heap.queue).count (taskOf build i c) = 1 := by
  have hpast : c.pc.past = true := by
    rw [hfinished c (List.mem_of_getElem? hcb)]
    rfl
  have hkept := announced_kept h hcb hpast hcurrent
  have hnodup := (run_conserved h).places_nodup
  have hwaiting : s.waiting = [] := by simp [State.waiting, hstack]
  rw [State.places, hwaiting, List.nil_append, ← List.append_assoc] at hnodup
  rw [hwaiting, List.nil_append] at hkept
  exact List.count_eq_one_of_mem (List.nodup_append.mp hnodup).1 hkept

-- ---------------------------------------------------------------------------
-- Every schedule
-- ---------------------------------------------------------------------------

/-- Whatever is in progress ends in a bounded number of steps: as long as
something is left, a step can be taken, and when nothing is, each announcement
of a current connection has been emitted or is in the queue, once. -/
theorem announcements_complete (h : Machine.run (step build) {} es = some s)
    (hfs : Machine.run (step build) s fs = some t) (hfinishes : ∀ e ∈ fs, e.finishes = true) :
    fs.length ≤ s.work ∧
    ((∃ e : Event, e.finishes = true ∧ step build t e ≠ none) ∨
      Quiescent t ∧ ∀ (i : Nat) c, t.callbacks[i]? = some c → t.closedBelow ≤ c.conn →
        (t.emitted.map Emission.task ++ t.heap.queue).count (taskOf build i c) = 1) := by
  have hrun : Machine.run (step build) {} (es ++ fs) = some t := Machine.run_append.mpr ⟨s, h, hfs⟩
  refine ⟨?_, ?_⟩
  · obtain ⟨-, hle⟩ := Machine.length_le_measure (I := fun _ => True)
      (fun _ he hstep => ⟨trivial, step_work he hstep⟩) hfs trivial hfinishes
    omega
  by_cases hsteps : ∃ e : Event, e.finishes = true ∧ step build t e ≠ none
  · exact .inl hsteps
  have hq : Quiescent t := quiescent_of_stalled (run_nested hrun) fun e he => by
    by_contra hstep
    exact hsteps ⟨e, he, hstep⟩
  exact .inr ⟨hq, fun i c hcb hcurrent =>
    announced_once hrun hq.callbacks hq.stack hcb hcurrent⟩

-- ---------------------------------------------------------------------------
-- Whatever goes on during a poll
-- ---------------------------------------------------------------------------

theorem step_emitted (h : step build s e = some t) : s.emitted <+: t.emitted := by
  cases step_cases h with
  | emit => exact List.prefix_append ..
  | _ => exact List.prefix_refl _

/-- The poll of that number has taken `queue`. -/
structure Took (n : Nat) (queue : List Task) (s : State) : Prop where
  begun : n < s.polls
  snapshot : ∀ f ∈ s.stack ++ s.returned, f.id = n → f.snapshot = queue

theorem Took.of_eq (ht : Took n queue s) (hstack : t.stack = s.stack) (hpolls : t.polls = s.polls)
    (hreturned : t.returned = s.returned) : Took n queue t := by
  obtain ⟨hbegun, hsnapshot⟩ := ht
  constructor
  · rwa [hpolls]
  · rwa [hstack, hreturned]

/-- The top of the stack goes on to another task. -/
theorem Took.top (ht : Took n queue s) (hstack : s.stack = f :: rest) (hstack' : t.stack = g :: rest)
    (hid : g.id = f.id) (hsnapshot : g.snapshot = f.snapshot) (hpolls : t.polls = s.polls)
    (hreturned : t.returned = s.returned) : Took n queue t := by
  obtain ⟨hbegun, htook⟩ := ht
  rw [hstack] at htook
  refine ⟨hpolls ▸ hbegun, fun k hk hkid => ?_⟩
  rw [hstack', hreturned] at hk
  rcases List.mem_cons.mp hk with rfl | hk
  · rw [hsnapshot]
    exact htook f List.mem_cons_self (hid ▸ hkid)
  · exact htook k (List.mem_cons_of_mem _ hk) hkid

theorem step_took (ht : Took n queue s) (h : step build s e = some t) : Took n queue t := by
  cases step_cases h with
  | poll =>
    refine ⟨Nat.lt_succ_of_lt ht.begun, fun f hf hid => ?_⟩
    rcases List.mem_cons.mp hf with rfl | hf
    · exact absurd hid ht.begun.ne'
    · exact ht.snapshot f hf hid
  | emit hstack | handlerReturn hstack => exact ht.top hstack rfl rfl rfl rfl rfl
  | pollReturn hstack =>
    obtain ⟨hbegun, hsnapshot⟩ := ht
    refine ⟨hbegun, fun f hf hid => hsnapshot f ?_ hid⟩
    rw [hstack]
    simp only [List.mem_append, List.mem_cons, List.not_mem_nil, or_false] at hf ⊢
    tauto
  | _ => exact ht.of_eq rfl rfl rfl

/-- A poll that has returned has emitted, once each, the announcements that were
queued before it began and that no poll around it had taken. -/
theorem poll_emits_all (h : Machine.run (step build) {} es = some s)
    (hconfigured : s.heap.peerConnection ≠ none) (hpoll : step build s .poll = some u)
    (hfs : Machine.run (step build) u fs = some t) (hreturned : ∃ f ∈ t.returned, f.id = s.polls)
    (hcb : s.callbacks[i]? = some c) (hpast : c.pc.past = true) (hcurrent : s.closedBelow ≤ c.conn)
    (hfree : taskOf build i c ∉ s.waiting) :
    (t.emitted.map Emission.task).count (taskOf build i c) = 1 := by
  have hafter : Machine.run (step build) s (.poll :: fs) = some t :=
    Machine.run_cons.mpr ⟨u, hpoll, hfs⟩
  have hrun : Machine.run (step build) {} (es ++ .poll :: fs) = some t :=
    Machine.run_append.mpr ⟨s, h, hafter⟩
  have ht := run_conserved hrun
  have hnodup := ht.places_nodup
  rw [State.places] at hnodup
  refine List.count_eq_one_of_mem (List.nodup_append.mp hnodup).1 ?_
  rcases List.mem_append.mp (announced_kept h hcb hpast hcurrent) with hemitted | hkept
  · have hgrows : s.emitted <+: t.emitted :=
      Machine.run_invariant (I := fun m => s.emitted <+: m.emitted)
        (fun hm he => hm.trans (step_emitted he)) hafter (List.prefix_refl _)
    exact (hgrows.map Emission.task).subset hemitted
  · have hqueued := (List.mem_append.mp hkept).resolve_left hfree
    have htook : Took s.polls s.heap.queue u := by
      cases step_cases hpoll with
      | pollUnconfigured _ unconfigured => exact absurd unconfigured hconfigured
      | poll =>
        refine ⟨Nat.lt_succ_self _, fun f hf hid => ?_⟩
        rcases List.mem_cons.mp hf with rfl | hf
        · rfl
        · exact absurd hid ((run_conserved h).drained.frames f hf).ne
    obtain ⟨f, hf, hid⟩ := hreturned
    have hsnapshot := (Machine.run_invariant step_took hfs htook).snapshot f
      (List.mem_append_right _ hf) hid
    have hdrained := ht.drained.returned f hf
    rw [hsnapshot] at hdrained
    rw [← hdrained] at hqueued
    obtain ⟨e, he, htask⟩ := List.mem_map.mp hqueued
    exact htask ▸ List.mem_map_of_mem (List.mem_of_mem_filter he)

def hostCandidate : Announcement := .localCandidate ⟨utf8 "candidate:1", utf8 "0"⟩

/-- A candidate is announced, and the callback is under the lock. -/
def underLock : List Event := connect ++ [.invoke 0 hostCandidate, .prepare 0, .lock 0]

theorem announcements_complete_underLock :
    ∃ s t, Machine.run (step .gdextension) {} underLock = some s ∧
      Machine.run (step .gdextension) s [.push 0, .finish 0] = some t ∧ 2 ≤ s.work ∧
      ((∃ e : Event, e.finishes = true ∧ step .gdextension t e ≠ none) ∨ Quiescent t ∧
        ∀ (i : Nat) c, t.callbacks[i]? = some c → t.closedBelow ≤ c.conn →
          (t.emitted.map Emission.task ++ t.heap.queue).count (taskOf .gdextension i c) = 1) := by
  obtain ⟨s, hs⟩ : ∃ s, Machine.run (step .gdextension) {} underLock = some s := ⟨_, rfl⟩
  obtain ⟨t, ht⟩ : ∃ t, Machine.run (step .gdextension) s [.push 0, .finish 0] = some t := by
    cases hs
    exact ⟨_, rfl⟩
  exact ⟨s, t, hs, ht, announcements_complete hs ht (by decide)⟩

/-- While the poll is in a handler, another candidate is announced, and the
handler closes the connection. -/
def closedMeanwhile : List Event :=
  [.emit, .invoke 0 hostCandidate, .prepare 1, .lock 1, .push 1, .close, .handlerReturn, .pollReturn]

theorem poll_emits_all_closedMeanwhile :
    ∃ s u t, Machine.run (step .gdextension) {} (underLock ++ [.push 0]) = some s ∧
      step .gdextension s .poll = some u ∧ Machine.run (step .gdextension) u closedMeanwhile = some t ∧
      (t.emitted.map Emission.task).count
        (taskOf .gdextension 0 ⟨0, hostCandidate, .queued (some 0)⟩) = 1 ∧
      t.discarded.map Task.id = [1] := by
  obtain ⟨s, hs⟩ : ∃ s, Machine.run (step .gdextension) {} (underLock ++ [.push 0]) = some s := ⟨_, rfl⟩
  obtain ⟨u, hu⟩ : ∃ u, step .gdextension s .poll = some u := by
    cases hs
    exact ⟨_, rfl⟩
  obtain ⟨t, ht⟩ : ∃ t, Machine.run (step .gdextension) u closedMeanwhile = some t := by
    cases hs
    cases hu
    exact ⟨_, rfl⟩
  have hreturned : (∃ f ∈ t.returned, f.id = s.polls) ∧ t.discarded.map Task.id = [1] := by
    cases hs
    cases hu
    cases ht
    decide
  have hqueued : s.heap.peerConnection ≠ none ∧
      s.callbacks[0]? = some ⟨0, hostCandidate, .queued (some 0)⟩ ∧ s.closedBelow ≤ 0 ∧
      s.waiting = [] := by
    cases hs
    exact ⟨Option.some_ne_none 0, rfl, le_refl 0, rfl⟩
  obtain ⟨hconfigured, hcb, hcurrent, hwaiting⟩ := hqueued
  exact ⟨s, u, t, hs, hu, ht,
    poll_emits_all hs hconfigured hu ht hreturned.1 hcb rfl hcurrent (by simp [hwaiting]), hreturned.2⟩

end WebRtc.PeerConnection.Signals
