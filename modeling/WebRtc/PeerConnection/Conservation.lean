import WebRtc.PeerConnection.Bookkeeping
import Mathlib.Data.List.Nodup

/-!
# Where a queued signal is

A task that has been pushed is being emitted or has been, waits in the local
queue of a poll, is in the queue of the current shared state, or was discarded
with a shared state that is not the current one: in one of these places, and
once. A poll emits its snapshot, in order.
-/

namespace WebRtc.PeerConnection.Signals

-- ---------------------------------------------------------------------------
-- Tasks are distinct
-- ---------------------------------------------------------------------------

def CallbackPc.past : CallbackPc → Bool
  | .queued _ | .finished => true
  | _ => false

/-- A task is its callback's, and the callback is past `queue_task`. -/
structure Distinct (build : Build) (s : State) : Prop where
  made : ∀ t ∈ s.pushed ++ s.gone,
    ∃ c, s.callbacks[t.id]? = some c ∧ c.pc.past = true ∧ t = taskOf build t.id c
  nodup : ((s.pushed ++ s.gone).map Task.id).Nodup

theorem initial_distinct : Distinct build {} := ⟨by simp, by simp⟩

theorem Distinct.of_eq (hd : Distinct build s) (hpushed : t.pushed = s.pushed)
    (hgone : t.gone = s.gone) (hcallbacks : t.callbacks = s.callbacks) : Distinct build t := by
  obtain ⟨hmade, hnodup⟩ := hd
  constructor
  · simpa only [hpushed, hgone, hcallbacks] using hmade
  · simpa only [hpushed, hgone] using hnodup

theorem Distinct.setPc (hd : Distinct build s) (hcb : s.callbacks[i]? = some c)
    (hmono : c.pc.past = true → pc.past = true) : Distinct build (s.setPc i pc) := by
  refine ⟨fun u hu => ?_, hd.nodup⟩
  obtain ⟨b, hb, hpast, hmade⟩ := hd.made u hu
  by_cases hid : i = u.id
  · cases Option.some.inj ((hid ▸ hcb).symm.trans hb)
    exact ⟨{ c with pc := pc }, by simp [State.setPc, hid, hb], hmono hpast, hmade⟩
  · exact ⟨b, by simpa [State.setPc, hid] using hb, hpast, hmade⟩

theorem Distinct.queue {t : State} {c : Callback} (hd : Distinct build s)
    (hcb : s.callbacks[i]? = some c) (hbefore : c.pc.past = false) (hafter : pc.past = true)
    (hcallbacks : t.callbacks = (s.setPc i pc).callbacks)
    (hqueued : (t.pushed ++ t.gone).Perm (s.pushed ++ s.gone ++ [taskOf build i c])) :
    Distinct build t := by
  have hnew : ∀ u ∈ s.pushed ++ s.gone, u.id ≠ i := by
    rintro u hu rfl
    obtain ⟨b, hb, hpast, -⟩ := hd.made u hu
    cases Option.some.inj (hcb.symm.trans hb)
    rw [hbefore] at hpast
    cases hpast
  have hmoved : Distinct build (s.setPc i pc) := hd.setPc hcb fun _ => hafter
  constructor
  · intro u hu
    rw [hcallbacks]
    rcases List.mem_append.mp (hqueued.subset hu) with hu | hu
    · exact hmoved.made u hu
    · rw [List.mem_singleton.mp hu]
      exact ⟨{ c with pc := pc }, by simp [State.setPc, taskOf, hcb], hafter, rfl⟩
  · refine (hqueued.map Task.id).nodup_iff.mpr ?_
    rw [List.map_append, List.nodup_append]
    refine ⟨hd.nodup, by simp, ?_⟩
    intro n hn m hm
    obtain ⟨u, hu, rfl⟩ := List.mem_map.mp hn
    simp only [List.map_cons, List.map_nil, List.mem_singleton, taskOf] at hm
    exact hm ▸ hnew u hu

theorem step_distinct (hd : Distinct build s) (h : step build s e = some t) : Distinct build t := by
  cases step_cases h with
  | invoke =>
    refine ⟨fun u hu => ?_, hd.nodup⟩
    obtain ⟨b, hb, hmade⟩ := hd.made u hu
    exact ⟨b, (List.getElem?_append_left (List.getElem?_eq_some_iff.mp hb).1).trans hb, hmade⟩
  | prepare hcb hpc => exact (hd.setPc hcb (by simp [hpc, CallbackPc.past])).of_eq rfl rfl rfl
  | lock hcb hpc | lockExpired hcb hpc =>
    exact (hd.setPc hcb (by simp [hpc, CallbackPc.past])).of_eq rfl rfl rfl
  | finish hcb hpc => exact (hd.setPc hcb (fun _ => rfl)).of_eq rfl rfl rfl
  | push hcb hpc =>
    refine hd.queue hcb (by rw [hpc]; rfl) rfl rfl ?_
    simp only [State.setPc, List.append_assoc]
    exact .append_left _ List.perm_append_comm
  | pushExpired hcb hpc =>
    refine hd.queue hcb (by rw [hpc]; rfl) rfl rfl ?_
    simp [State.setPc]
  | _ => exact hd.of_eq rfl rfl rfl

-- ---------------------------------------------------------------------------
-- What is discarded is stale
-- ---------------------------------------------------------------------------

theorem Sound.replaced (hs : Sound s) (hconn : s.heap.conns[conn]? = some p)
    (hlt : conn < s.closedBelow) : ∃ sid, p = some sid ∧ s.heap.sharedState ≠ some sid := by
  obtain ⟨sid, hp, -, hiff⟩ := hs.captured conn p hconn
  exact ⟨sid, hp, fun hcur => absurd (hiff.mp hcur) (by omega)⟩

/-- A weak pointer has expired only for a connection older than the last
`_close`. -/
theorem Sound.expired (hs : Sound s) (hconn : conn < s.heap.conns.length)
    (hnone : lockWeak s.heap conn = none) : conn < s.closedBelow := by
  obtain ⟨sid, hp, -, hiff⟩ := hs.captured conn _ (List.getElem?_eq_getElem hconn)
  by_contra hge
  have hcur := hiff.mpr (by omega)
  have hzero := lockWeak_none hnone ((List.getElem?_eq_getElem hconn).trans (congrArg some hp))
  have hrefs := hs.refs sid
  rw [if_pos hcur] at hrefs
  omega

/-- A weak pointer was found expired only after a `_close`. -/
structure Stale (s : State) : Prop where
  expired : ∀ c ∈ s.callbacks, c.pc = .locked none → c.conn < s.closedBelow
  gone : ∀ t ∈ s.gone, t.conn < s.closedBelow

theorem initial_stale : Stale {} := ⟨by simp, by simp⟩

theorem Stale.of_le (h : Stale s) (hcallbacks : t.callbacks = s.callbacks) (hgone : t.gone = s.gone)
    (hbelow : s.closedBelow ≤ t.closedBelow) : Stale t := by
  obtain ⟨hexpired, hg⟩ := h
  constructor
  · rw [hcallbacks]
    exact fun c hc hpc => (hexpired c hc hpc).trans_le hbelow
  · rw [hgone]
    exact fun u hu => (hg u hu).trans_le hbelow

theorem Stale.setPc (h : Stale s) (hcb : s.callbacks[i]? = some c)
    (hpc : pc = .locked none → c.conn < s.closedBelow) : Stale (s.setPc i pc) := by
  refine ⟨fun b hb hnone => ?_, h.gone⟩
  rcases ListSum.mem_modify hb with hb | ⟨a, ha, rfl⟩
  · exact h.expired b hb hnone
  · cases Option.some.inj (ha.symm.trans hcb)
    exact hpc hnone

theorem step_stale (hs : Sound s) (hst : Stale s) (h : step build s e = some t) : Stale t := by
  cases step_cases h with
  | close | initializePc | destroy => exact hst.of_le rfl rfl hs.bound
  | invoke =>
    refine ⟨fun c hc hpc => ?_, hst.gone⟩
    rcases List.mem_append.mp hc with hc | hc
    · exact hst.expired c hc hpc
    · rw [List.mem_singleton.mp hc] at hpc
      cases hpc
  | prepare hcb | finish hcb | lock hcb | push hcb =>
    exact (hst.setPc hcb (by simp)).of_le rfl rfl (le_refl _)
  | lockExpired hcb hpc hexpired =>
    refine (hst.setPc hcb fun _ => ?_).of_le rfl rfl (le_refl _)
    exact hs.expired (hs.callbacks _ (List.mem_of_getElem? hcb)).1 hexpired
  | @pushExpired i c hcb hpc =>
    have hmoved : Stale (s.setPc i (.queued none)) := hst.setPc hcb (by simp)
    refine ⟨hmoved.expired, fun u hu => ?_⟩
    rcases List.mem_append.mp hu with hu | hu
    · exact hst.gone u hu
    · rw [List.mem_singleton.mp hu]
      exact hst.expired c (List.mem_of_getElem? hcb) hpc
  | _ => exact hst.of_le rfl rfl (le_refl _)

-- ---------------------------------------------------------------------------
-- A poll emits its snapshot
-- ---------------------------------------------------------------------------

/-- The tasks whose emission a poll has started. -/
def State.emittedBy (s : State) (id : Nat) : List Task :=
  (s.emitted.filter (·.poll = id)).map Emission.task

structure Drained (s : State) : Prop where
  ids : ((s.stack ++ s.returned).map Frame.id).Nodup
  frames : ∀ f ∈ s.stack ++ s.returned, f.id < s.polls
  emissions : ∀ e ∈ s.emitted, e.poll < s.polls
  running : ∀ f ∈ s.stack, s.emittedBy f.id ++ f.waiting = f.snapshot
  returned : ∀ f ∈ s.returned, s.emittedBy f.id = f.snapshot

theorem initial_drained : Drained {} := by constructor <;> simp

theorem Drained.of_eq (h : Drained s) (hstack : t.stack = s.stack) (hpolls : t.polls = s.polls)
    (hemitted : t.emitted = s.emitted) (hreturned : t.returned = s.returned) : Drained t := by
  obtain ⟨hids, hframes, hemissions, hrunning, hret⟩ := h
  constructor
  · simpa only [hstack, hreturned] using hids
  · simpa only [hstack, hreturned, hpolls] using hframes
  · simpa only [hemitted, hpolls] using hemissions
  · simpa only [hstack, State.emittedBy, hemitted] using hrunning
  · simpa only [hreturned, State.emittedBy, hemitted] using hret

theorem Drained.poll (hd : Drained s) (hstack : t.stack = ⟨s.polls, q, false, q⟩ :: s.stack)
    (hpolls : t.polls = s.polls + 1) (hemitted : t.emitted = s.emitted)
    (hreturned : t.returned = s.returned) : Drained t := by
  obtain ⟨hids, hframes, hemissions, hrunning, hret⟩ := hd
  have hsame : t.emittedBy = s.emittedBy := by
    funext id
    rw [State.emittedBy, State.emittedBy, hemitted]
  have hnew : s.emittedBy s.polls = [] := by
    simp only [State.emittedBy, List.map_eq_nil_iff, List.filter_eq_nil_iff, decide_eq_true_eq]
    intro e he heq
    exact absurd (hemissions e he) (by omega)
  refine ⟨?_, fun f hf => ?_, fun e he => ?_, fun f hf => ?_, hreturned ▸ hsame ▸ hret⟩
  · rw [hstack, hreturned, List.cons_append, List.map_cons, List.nodup_cons]
    refine ⟨fun hmem => ?_, hids⟩
    obtain ⟨f, hf, hid⟩ := List.mem_map.mp hmem
    exact absurd (hframes f hf) (hid ▸ lt_irrefl _)
  · rw [hstack, hreturned] at hf
    rw [hpolls]
    rcases List.mem_cons.mp hf with rfl | hf
    · exact Nat.lt_succ_self _
    · exact Nat.lt_succ_of_lt (hframes f hf)
  · rw [hpolls]
    exact Nat.lt_succ_of_lt (hemissions e (hemitted ▸ he))
  · rw [hstack] at hf
    rw [hsame]
    rcases List.mem_cons.mp hf with rfl | hf
    · simp [hnew, Frame.waiting]
    · exact hrunning f hf

theorem Drained.emit (hd : Drained s) (hstack : s.stack = f :: rest) (idle : f.emitting = false)
    (front : f.localQueue = u :: local_queue) (hstack' : t.stack = { f with emitting := true } :: rest)
    (hpolls : t.polls = s.polls) (hemitted : t.emitted = s.emitted ++ [⟨f.id, u, below, channel⟩])
    (hreturned : t.returned = s.returned) : Drained t := by
  obtain ⟨hids, hframes, hemissions, hrunning, hret⟩ := hd
  rw [hstack] at hids hframes hrunning
  have hown : t.emittedBy f.id = s.emittedBy f.id ++ [u] := by simp [State.emittedBy, hemitted]
  have hothers : ∀ g ∈ rest ++ s.returned, t.emittedBy g.id = s.emittedBy g.id := fun g hg => by
    simp only [List.cons_append, List.map_cons, List.nodup_cons] at hids
    have hne : g.id ≠ f.id := fun heq => hids.1 (List.mem_map.mpr ⟨g, hg, heq⟩)
    simp [State.emittedBy, hemitted, Ne.symm hne]
  refine ⟨?_, ?_, fun e he => ?_, fun g hg => ?_, fun g hg => ?_⟩
  · simpa [hstack', hreturned] using hids
  · simpa [hstack', hreturned, hpolls] using hframes
  · rw [hemitted] at he
    rw [hpolls]
    rcases List.mem_append.mp he with he | he
    · exact hemissions e he
    · rw [List.mem_singleton.mp he]
      exact hframes f (by simp)
  · rw [hstack'] at hg
    rcases List.mem_cons.mp hg with rfl | hg
    · have := hrunning f (by simp)
      rw [waiting_emit idle front] at this
      simpa [hown] using this
    · rw [hothers g (List.mem_append_left _ hg)]
      exact hrunning g (List.mem_cons_of_mem _ hg)
  · rw [hreturned] at hg
    rw [hothers g (List.mem_append_right _ hg)]
    exact hret g hg

theorem step_drained (hd : Drained s) (h : step build s e = some t) : Drained t := by
  cases step_cases h with
  | poll => exact hd.poll rfl rfl rfl rfl
  | emit hstack idle front => exact hd.emit hstack idle front rfl rfl rfl rfl
  | handlerReturn hstack emitting front =>
    obtain ⟨hids, hframes, hemissions, hrunning, hret⟩ := hd
    rw [hstack] at hids hframes hrunning
    refine ⟨by simpa using hids, by simpa using hframes, hemissions, fun g hg => ?_, hret⟩
    rcases List.mem_cons.mp hg with rfl | hg
    · have := hrunning _ List.mem_cons_self
      rw [waiting_handlerReturn emitting front] at this
      exact this
    · exact hrunning g (List.mem_cons_of_mem _ hg)
  | @pollReturn f rest hstack idle empty =>
    obtain ⟨hids, hframes, hemissions, hrunning, hret⟩ := hd
    rw [hstack] at hids hframes hrunning
    have hmoved : (rest ++ (s.returned ++ [f])).Perm (f :: rest ++ s.returned) := by
      rw [← List.append_assoc]
      exact List.perm_append_comm
    refine ⟨(hmoved.map _).nodup_iff.mpr hids, fun g hg => hframes g (hmoved.subset hg), hemissions,
      fun g hg => hrunning g (List.mem_cons_of_mem _ hg), fun g hg => ?_⟩
    rcases List.mem_append.mp hg with hg | hg
    · exact hret g hg
    · -- nothing is left of its snapshot
      have := hrunning f (by simp)
      rw [waiting_pollReturn idle empty, List.append_nil] at this
      rwa [List.mem_singleton.mp hg]
  | _ => exact hd.of_eq rfl rfl rfl rfl

-- ---------------------------------------------------------------------------
-- Conservation
-- ---------------------------------------------------------------------------

/-- The places a task can be in once its callback is past `queue_task`. -/
def State.places (s : State) : List Task :=
  s.emitted.map Emission.task ++ (s.waiting ++ (s.heap.queue ++ (s.discarded ++ s.gone)))

structure Conserved (build : Build) (s : State) : Prop where
  sound : Sound s
  conserves : Ledger.Conserves s.ledger
  barred : Ledger.Barred Task.conn s.ledger
  distinct : Distinct build s
  stale : Stale s
  drained : Drained s

theorem run_conserved (h : Machine.run (step build) {} es = some s) : Conserved build s := by
  obtain ⟨hsound, hdistinct, hstale, hdrained⟩ : Sound s ∧ Distinct build s ∧ Stale s ∧ Drained s :=
    Machine.run_invariant (I := fun s => Sound s ∧ Distinct build s ∧ Stale s ∧ Drained s)
      (fun ⟨hsound, hdistinct, hstale, hdrained⟩ he => ⟨step_sound hsound he,
        step_distinct hdistinct he, step_stale hsound hstale he, step_drained hdrained he⟩)
      h ⟨initial_sound, initial_distinct, initial_stale, initial_drained⟩
  obtain ⟨hconserves, hbarred⟩ : Ledger.Conserves s.ledger ∧ Ledger.Barred Task.conn s.ledger :=
    ledger_invariant (G := fun _ _ => True) (H := fun _ _ => True)
      (I := fun l => Ledger.Conserves l ∧ Ledger.Barred Task.conn l) (fun _ _ => trivial)
      (fun hl _ hop => ⟨Ledger.step_conserves hl.1 hop, Ledger.step_barred hl.2 hop⟩)
      ⟨.refl _, by simp, by simp⟩ h (Machine.guarded_true ..)
  exact ⟨hsound, hconserves, hbarred, hdistinct, hstale, hdrained⟩

theorem Conserved.places_perm (hs : Conserved build s) : s.places.Perm (s.pushed ++ s.gone) := by
  have h := List.Perm.append_right s.gone hs.conserves
  rw [ledger_emitted] at h
  simpa [State.places, State.ledger] using h

theorem Conserved.places_nodup (hs : Conserved build s) : s.places.Nodup :=
  hs.places_perm.nodup_iff.mpr (List.Nodup.of_map _ hs.distinct.nodup)

theorem Conserved.known (hs : Conserved build s) (ht : t ∈ s.places) :
    t.conn < s.heap.conns.length := by
  obtain ⟨c, hcb, -, hmade⟩ := hs.distinct.made t (hs.places_perm.subset ht)
  rw [hmade]
  exact (hs.sound.callbacks c (List.mem_of_getElem? hcb)).1

/-- Every task a callback has queued, or dropped at an expired pointer, is in
one place, and no other is; what is discarded belongs to a shared state that a
`_close` has replaced; a poll takes the queue whole and emits just that, in
order. -/
theorem signals_conserved (h : Machine.run (step build) {} es = some s) :
    s.places.Nodup ∧ s.places.Perm (s.pushed ++ s.gone) ∧
    (∀ t ∈ s.discarded ++ s.gone, t.conn < s.closedBelow ∧
      ∃ sid, s.heap.conns[t.conn]? = some (some sid) ∧ s.heap.sharedState ≠ some sid) ∧
    (∀ t, step build s .poll = some t → t = s ∨
      ∃ f, t.stack = f :: s.stack ∧ f.snapshot = s.heap.queue ∧ t.heap.queue = []) ∧
    (∀ f ∈ s.stack, s.emittedBy f.id ++ f.waiting = f.snapshot) ∧
    (∀ f ∈ s.returned, s.emittedBy f.id = f.snapshot) := by
  have hs := run_conserved h
  refine ⟨hs.places_nodup, hs.places_perm, fun t ht => ?_, fun t ht => ?_, hs.drained.running,
    hs.drained.returned⟩
  · have hlt : t.conn < s.closedBelow :=
      (List.mem_append.mp ht).elim (hs.barred.discarded t) (hs.stale.gone t)
    obtain ⟨sid, hsid, hne⟩ := hs.sound.replaced
      (List.getElem?_eq_getElem (hlt.trans_le hs.sound.bound)) hlt
    exact ⟨hlt, sid, (List.getElem?_eq_getElem _).trans (congrArg some hsid), hne⟩
  · cases step_cases ht with
    | pollUnconfigured => exact .inl rfl
    | poll => exact .inr ⟨_, rfl, rfl, swapQueue_queue _⟩

def callback (i : Nat) (conn : Nat) (a : Announcement) : List Event :=
  [.invoke conn a, .prepare i, .lock i, .push i, .finish i]

def connect : List Event := [.initializePc, .createPc true]

/-- The handler of the first signal closes the connection, while a callback is
about to queue the second. -/
def closedMidway : List Event :=
  connect ++ callback 0 0 (.localDescription ⟨[], .offer⟩) ++
    [.invoke 0 (.localCandidate ⟨[], []⟩), .prepare 1, .lock 1, .poll, .emit, .close, .push 1,
      .finish 1, .handlerReturn, .pollReturn]

theorem signals_conserved_closedMidway :
    ∃ s, Machine.run (step .gdextension) {} closedMidway = some s ∧
      s.emitted.map (·.task.id) = [0] ∧ s.discarded.map Task.id = [1] ∧ s.places.Nodup := by
  have hrun : (Machine.run (step .gdextension) {} closedMidway).map
      (fun s => (s.emitted.map (·.task.id), s.discarded.map Task.id)) = some ([0], [1]) := by decide
  obtain ⟨s, hs, hv⟩ := Option.map_eq_some_iff.mp hrun
  simp only [Prod.mk.injEq] at hv
  exact ⟨s, hs, hv.1, hv.2, (signals_conserved hs).1⟩

end WebRtc.PeerConnection.Signals
