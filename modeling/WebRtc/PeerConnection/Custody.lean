import WebRtc.PeerConnection.Announced

/-!
# Who holds an announced channel

The `Ref`s to a wrapper are held by the callback that made it, by the tasks in
the shared states, by the polls in progress, and by the application; their
number is the wrapper's reference count.
-/

namespace WebRtc.PeerConnection.Signals

open ListSum (total)

variable {build : Build} {s t : State} {c : Callback} {i ch : Nat}

-- ---------------------------------------------------------------------------
-- Accounts
-- ---------------------------------------------------------------------------

/-- The `Ref`s to its channel's wrapper that a callback holds: its own, and in
`queue_task` that of its task. -/
def CallbackPc.refs : CallbackPc → Nat
  | .prepared => 1
  | .locked _ | .queued _ => 2
  | .invoked | .finished => 0

def Callback.holds (ch : Nat) (c : Callback) : Nat :=
  if c.channel? = some ch then c.pc.refs else 0

/-- The local queue's tasks, and the copy of the front that is being run. -/
def Frame.holds (ch : Nat) (f : Frame) : Nat :=
  total (Task.holds ch) f.localQueue +
    if f.emitting then total (Task.holds ch) (f.localQueue.take 1) else 0

/-- The `Ref`s to a wrapper that no queued task holds. -/
def State.refs (s : State) (ch : Nat) : Nat :=
  total (Callback.holds ch) s.callbacks + total (Frame.holds ch) s.stack + s.appRefs.count ch

theorem holds_taskOf (build : Build) (i : Nat) (c : Callback) (ch : Nat) :
    (taskOf build i c).holds ch = if c.channel? = some ch then 1 else 0 := by
  unfold Task.holds
  simp only [signal_taskOf]

theorem refs_setPc (build : Build) (hcb : s.callbacks[i]? = some c)
    (hcallbacks : t.callbacks = (s.setPc i pc).callbacks) (hstack : t.stack = s.stack)
    (happ : t.appRefs = s.appRefs) (ch : Nat) :
    t.refs ch + c.pc.refs * (taskOf build i c).holds ch =
      s.refs ch + pc.refs * (taskOf build i c).holds ch := by
  have h := ListSum.total_modify (g := Callback.holds ch) (fun c => { c with pc := pc }) hcb
  have hch : Callback.channel? { c with pc := pc } = c.channel? := rfl
  rw [State.refs, State.refs, hcallbacks, hstack, happ, State.setPc, holds_taskOf]
  simp only [Callback.holds, hch, mul_ite, mul_one, mul_zero] at h ⊢
  omega

theorem refs_gain (build : Build) (hcb : s.callbacks[i]? = some c)
    (hpc : pc.refs = c.pc.refs + 1) (hcallbacks : t.callbacks = (s.setPc i pc).callbacks)
    (hstack : t.stack = s.stack) (happ : t.appRefs = s.appRefs) (ch : Nat) :
    t.refs ch = s.refs ch + (taskOf build i c).holds ch := by
  have h := refs_setPc build hcb hcallbacks hstack happ ch
  rw [hpc, Nat.add_mul] at h
  omega

theorem refs_keep (build : Build) (hcb : s.callbacks[i]? = some c) (hpc : pc.refs = c.pc.refs)
    (hcallbacks : t.callbacks = (s.setPc i pc).callbacks) (hstack : t.stack = s.stack)
    (happ : t.appRefs = s.appRefs) (ch : Nat) : t.refs ch = s.refs ch := by
  have h := refs_setPc build hcb hcallbacks hstack happ ch
  rw [hpc] at h
  omega

theorem refs_lose (build : Build) (hcb : s.callbacks[i]? = some c)
    (hpc : c.pc.refs = pc.refs + 2) (hcallbacks : t.callbacks = (s.setPc i pc).callbacks)
    (hstack : t.stack = s.stack) (happ : t.appRefs = s.appRefs) (ch : Nat) :
    s.refs ch = t.refs ch + (taskOf build i c).holds ch + (taskOf build i c).holds ch := by
  have h := refs_setPc build hcb hcallbacks hstack happ ch
  rw [hpc, Nat.add_mul] at h
  omega

theorem refs_pos_of_callback (hcb : s.callbacks[i]? = some c) (hpc : 0 < c.pc.refs) (ch : Nat)
    (hholds : 0 < (taskOf build i c).holds ch) : 0 < s.refs ch := by
  have hle := ListSum.le_total (g := Callback.holds ch) (List.mem_of_getElem? hcb)
  rw [holds_taskOf] at hholds
  split at hholds
  · rename_i hc
    have hrefs : c.holds ch = c.pc.refs := if_pos hc
    unfold State.refs
    omega
  · cases hholds

theorem accounts_announce (ha : heap.Accounts n) (hannounce : announce heap a = some h) :
    h.Accounts n := by
  unfold announce at hannounce
  split at hannounce
  · split at hannounce
    · cases hannounce
      intro ch
      have ho := ha ch
      rcases Nat.lt_trichotomy ch heap.channels.length with hlt | rfl | hgt
      · exact ho.of_eq (List.getElem?_append_left hlt) (List.Subset.refl _)
      · -- nothing holds a channel that does not exist
        have hzero := ho.refs
        simp only [Heap.wrapperRefs, List.getElem?_eq_none (le_refl _), Option.bind_none] at hzero
        exact hzero ▸ .of_none (c := {}) (by simp) rfl (by simp)
      · refine ho.of_eq ?_ (List.Subset.refl _)
        rw [List.getElem?_eq_none hgt.le, List.getElem?_eq_none (by simp; omega)]
    · cases hannounce
  · cases hannounce
    exact ha

theorem accounts_prepare (ha : s.heap.Accounts s.refs) (hs : Announced s)
    (hcb : s.callbacks[i]? = some c) (hpc : c.pc = .invoked)
    (hrefs : ∀ ch, n ch = s.refs ch + if c.channel? = some ch then 1 else 0) :
    (prepareArgs s.heap c.announcement).Accounts n := by
  intro ch
  have ho := ha ch
  rw [hrefs]
  cases hc : c.channel? with
  | none => simpa [prepareArgs_of_none hc] using ho
  | some ch' =>
    rw [prepareArgs_of_channel hc, (Heap.modifyChannel_same ..).queuedRefs]
    have hch := s.heap.getElem?_modifyChannel ch' ch
      (Channel.bind · (DataChannel.bindChannel {} false))
    split at hch
    · rename_i heq
      subst heq
      obtain ⟨k, hk⟩ : ∃ k, s.heap.channels[ch']? = some k :=
        ⟨_, List.getElem?_eq_getElem (hs.known hcb hc)⟩
      have hnone := (hs.fresh ch' k hk ((hs.bound i ch' c k hcb hc hk).mpr hpc)).1
      have hzero := ho.refs
      simp only [Heap.wrapperRefs, hk, Option.bind_some, hnone] at hzero
      rw [hk, Option.map_some] at hch
      have hone : 1 = s.refs ch' + (if some ch' = some ch' then 1 else 0) + s.heap.queuedRefs ch' := by
        rw [if_pos rfl]
        omega
      exact hone ▸ .of_some hch rfl rfl Nat.one_pos
    · rename_i hne
      rw [if_neg (by simpa using hne), add_zero]
      exact ho.of_eq hch (List.Subset.refl _)

theorem refs_pos_of_access (access : ch ∈ s.appRefs ∨ ∃ f ∈ s.stack, f.gives ch = true) :
    0 < s.refs ch := by
  unfold State.refs
  rcases access with hmem | ⟨f, hf, hgives⟩
  · have := List.count_pos_iff.mpr hmem
    omega
  · have hpos : 0 < f.holds ch := by
      simp only [Frame.gives, Bool.and_eq_true, decide_eq_true_eq] at hgives
      obtain ⟨-, hhead⟩ := hgives
      obtain ⟨u, hu, hsignal⟩ := Option.map_eq_some_iff.mp hhead
      have := ListSum.le_total (g := Task.holds ch) (List.mem_of_head? hu)
      have := Task.holds_pos_iff.mpr hsignal
      unfold Frame.holds
      omega
    have := ListSum.le_total (g := Frame.holds ch) hf
    omega

theorem step_accounts (hsound : Sound s) (hs : Announced s) (ha : s.heap.Accounts s.refs)
    (h : step build s e = some t) : t.heap.Accounts t.refs := by
  cases step_cases h with
  | pollUnconfigured | closeChannel => exact ha
  | poll =>
    refine ha.swapQueue fun ch => ?_
    simp only [State.refs, ListSum.total_cons, Frame.holds]
    simp only [Bool.false_eq_true, ↓reduceIte]
    omega
  | emit hstack idle front =>
    refine ha.retain _ (fun ch hp => ?_) fun ch => ?_ <;>
      simp only [State.refs, hstack, ListSum.total_cons, Frame.holds, front, idle,
        List.take_succ_cons, List.take_zero, ListSum.total_nil, ↓reduceIte, Bool.false_eq_true] <;>
      omega
  | @handlerReturn f rest u local_queue hstack emitting front =>
    refine (ha.release (m := fun ch => State.refs _ ch + u.holds ch) u fun ch => ?_).release u
      fun ch => rfl
    simp only [State.refs, hstack, ListSum.total_cons, Frame.holds, front, emitting,
      List.take_succ_cons, List.take_zero, ListSum.total_nil, ↓reduceIte, Bool.false_eq_true]
    omega
  | pollReturn hstack idle empty =>
    refine ha.move rfl rfl fun ch => ?_
    simp [State.refs, hstack, Frame.holds, idle, empty]
  | close | initializePc => exact ha.replaceState
  | connect => exact ha.move rfl rfl fun ch => rfl
  | connectFails => exact ha
  | destroy => exact ha.destroy
  | retain access =>
    refine ha.retainChannel _ (refs_pos_of_access access) fun ch => ?_
    simp only [State.refs, List.count_append, List.count_singleton, beq_iff_eq]
    omega
  | drop held =>
    refine ha.releaseChannel _ fun ch => ?_
    have hpos := List.count_pos_iff.mpr held
    simp only [State.refs, List.count_erase, beq_iff_eq]
    split
    · rename_i heq
      subst heq
      omega
    · omega
  | getPacket => exact ha.modify _ Heap.refs_getPacket fun c => rfl
  | deliver => exact ha.modify _ (Heap.refs_deliver _) fun c => rfl
  | arrive => exact ha.modify _ (fun c => rfl) fun c => rfl
  | invoke _ hannounce =>
    refine (accounts_announce ha hannounce).move rfl rfl fun ch => ?_
    simp [State.refs, Callback.holds, CallbackPc.refs]
  | prepare hcb hpc =>
    refine accounts_prepare ha hs hcb hpc fun ch => ?_
    rw [← holds_taskOf build]
    exact refs_gain build hcb (by rw [hpc]; rfl) rfl rfl rfl ch
  | lock hcb hpc =>
    refine (ha.retain _ (refs_pos_of_callback hcb (by simp [hpc, CallbackPc.refs])) ?_).lockState _
    exact refs_gain build hcb (by rw [hpc]; rfl) rfl rfl rfl
  | lockExpired hcb hpc =>
    refine ha.retain _ (refs_pos_of_callback hcb (by simp [hpc, CallbackPc.refs])) ?_
    exact refs_gain build hcb (by rw [hpc]; rfl) rfl rfl rfl
  | push hcb hpc =>
    refine (ha.pushTask (hsound.inRange hcb hpc).2 _
      (refs_pos_of_callback hcb (by simp [hpc, CallbackPc.refs]))).move rfl rfl fun ch => ?_
    exact congrArg (· + _) (refs_keep build hcb (by rw [hpc]; rfl) rfl rfl rfl ch).symm
  | pushExpired hcb hpc =>
    refine ha.move rfl rfl fun ch => ?_
    exact congrArg (· + _) (refs_keep build hcb (by rw [hpc]; rfl) rfl rfl rfl ch).symm
  | @finish i c p hcb hpc =>
    refine ((ha.release (m := fun ch => State.refs _ ch + (taskOf build i c).holds ch) _
      fun ch => ?_).releaseState? p).release _ fun ch => rfl
    exact refs_lose build hcb (by rw [hpc]; rfl) rfl rfl rfl ch

-- ---------------------------------------------------------------------------
-- What the application was given
-- ---------------------------------------------------------------------------

/-- A `data_channel_received` with the channel has been emitted. -/
def State.gave (s : State) (ch : Nat) : Prop :=
  ∃ e ∈ s.emitted, e.task.signal = .dataChannelReceived ch

structure Given (s : State) : Prop where
  emitting : ∀ f ∈ s.stack, f.emitting = true → ∀ t ∈ f.localQueue.head?,
    t ∈ s.emitted.map Emission.task
  app : ∀ ch ∈ s.appRefs, s.gave ch

theorem initial_given : Given {} := ⟨by simp, by simp⟩

theorem Given.gave (hs : Given s) (access : ch ∈ s.appRefs ∨ ∃ f ∈ s.stack, f.gives ch = true) :
    s.gave ch := by
  rcases access with hmem | ⟨f, hf, hgives⟩
  · exact hs.app ch hmem
  · simp only [Frame.gives, Bool.and_eq_true, decide_eq_true_eq] at hgives
    obtain ⟨hemitting, hhead⟩ := hgives
    obtain ⟨u, hu, hsignal⟩ := Option.map_eq_some_iff.mp hhead
    obtain ⟨e, he, rfl⟩ := List.mem_map.mp (hs.emitting f hf hemitting u hu)
    exact ⟨e, he, hsignal⟩

theorem step_given (hs : Given s) (h : step build s e = some t) : Given t := by
  obtain ⟨hemitting, happ⟩ := hs
  cases step_cases h with
  | poll => exact ⟨by simpa using hemitting, happ⟩
  | emit hstack idle front =>
    refine ⟨fun f hf _ u hu => ?_, fun ch hch => ?_⟩
    · rw [List.map_append]
      rcases List.mem_cons.mp hf with rfl | hf
      · simp only [front, List.head?_cons, Option.mem_some_iff] at hu
        simp [hu]
      · exact List.mem_append_left _ (hemitting f (hstack ▸ List.mem_cons_of_mem _ hf) ‹_› u hu)
    · obtain ⟨e, he, hsignal⟩ := happ ch hch
      exact ⟨e, List.mem_append_left _ he, hsignal⟩
  | handlerReturn hstack =>
    rw [hstack] at hemitting
    exact ⟨by simpa using fun f hf => hemitting f (List.mem_cons_of_mem _ hf), happ⟩
  | pollReturn hstack =>
    exact ⟨fun f hf => hemitting f (hstack ▸ List.mem_cons_of_mem _ hf), happ⟩
  | retain access =>
    refine ⟨hemitting, fun k hk => ?_⟩
    rcases List.mem_append.mp hk with hk | hk
    · exact happ k hk
    · rw [List.mem_singleton.mp hk]
      exact Given.gave (s := s) ⟨hemitting, happ⟩ access
  | drop => exact ⟨hemitting, fun k hk => happ k (List.mem_of_mem_erase hk)⟩
  | _ => exact ⟨hemitting, happ⟩

-- ---------------------------------------------------------------------------
-- Shared states that are gone
-- ---------------------------------------------------------------------------

/-- A destroyed shared state has no tasks. -/
def Emptied (h : Heap) : Prop := ∀ sid, h.refsOf sid = 0 → h.tasksOf sid = []

theorem Emptied.of_same (he : Emptied h) (hs : Heap.SameStates h k) : Emptied k := by
  unfold Emptied at he ⊢
  rwa [hs.refsOf, hs.tasksOf]

theorem Emptied.releaseState? (he : Emptied h) (p : Option Nat) : Emptied (h.releaseState? p) := by
  intro sid hzero
  rw [Heap.refsOf_releaseState?] at hzero
  rw [Heap.tasksOf_releaseState?]
  split
  · rfl
  · rename_i hne
    refine he sid ?_
    split at hzero
    · have : h.refsOf sid ≠ 1 := fun hone => hne ⟨‹_›, hone⟩
      omega
    · exact hzero

theorem Emptied.replaceState (he : Emptied h) : Emptied h.replaceState := by
  refine Emptied.releaseState? (fun sid hzero => ?_) _
  rw [Heap.refsOf_fresh] at hzero
  rw [Heap.tasksOf_fresh]
  exact he sid (by omega)

theorem step_emptied (hs : Sound s) (he : Emptied s.heap) (h : step build s e = some t) :
    Emptied t.heap := by
  cases step_cases h with
  | poll =>
    intro sid hzero
    rw [Heap.refsOf_swapQueue] at hzero
    rw [Heap.tasksOf_swapQueue]
    split
    · rfl
    · exact he sid hzero
  | emit => exact he.of_same (Heap.retain_same ..)
  | handlerReturn => exact he.of_same ((Heap.release_same ..).trans (Heap.release_same ..))
  | close | initializePc => exact he.replaceState
  | destroy =>
    refine Emptied.releaseState? ?_ _
    exact he.replaceState
  | retain | getPacket | arrive | deliver => exact he.of_same (Heap.modifyChannel_same ..)
  | drop => exact he.of_same (Heap.releaseChannel_same ..)
  | invoke _ ha => exact he.of_same (announce_same ha)
  | prepare => exact he.of_same (prepareArgs_same ..)
  | lock hcb hpc hlock =>
    intro sid hzero
    rw [Heap.tasksOf_lockState]
    refine he.of_same (Heap.retain_same ..) sid ?_
    rw [Heap.refsOf_lockState] at hzero
    · omega
    · rw [(Heap.retain_same ..).states]
      exact Heap.lt_of_refsOf_pos (lockWeak_some hlock).2
  | lockExpired => exact he.of_same (Heap.retain_same ..)
  | @push i c sid hcb hpc =>
    intro k hzero
    rw [Heap.refsOf_pushTask] at hzero
    rw [Heap.tasksOf_pushTask (hs.inRange hcb hpc).2, he k hzero, List.nil_append]
    split
    · -- the callback holds the shared state it pushes to
      rename_i heq
      subst heq
      have hle := ListSum.le_total (g := Callback.stateRefs k) (List.mem_of_getElem? hcb)
      rw [stateRefs_of_pc (.inl hpc), if_pos rfl] at hle
      have := hs.refs k
      omega
    · rfl
  | finish =>
    exact ((he.of_same (Heap.release_same ..)).releaseState? _).of_same (Heap.release_same ..)
  | _ => exact he

end WebRtc.PeerConnection.Signals
