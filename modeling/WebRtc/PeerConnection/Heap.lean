import WebRtc.PeerConnection

/-!
# What the heap operations do

Two views of the shared states, `refsOf` and `tasksOf`, and what each operation
of `Heap` does to them. Operations on channels do not touch the shared states,
no operation touches what the connections have captured, and a channel that was
closed stays closed.
-/

namespace WebRtc.Heap

/-- The references to a shared state; none to one that does not exist. -/
def refsOf (h : Heap) (sid : Nat) : Nat :=
  match h.states[sid]? with
  | some st => st.refs
  | none => 0

def tasksOf (h : Heap) (sid : Nat) : List Task :=
  match h.states[sid]? with
  | some st => st.tasksQueue
  | none => []

theorem queue_eq (h : Heap) : h.queue = match h.sharedState with
    | some sid => h.tasksOf sid
    | none => [] := by
  unfold queue tasksOf
  cases h.sharedState <;> rfl

theorem queue_of_current {h : Heap} (hs : h.sharedState = some sid) : h.queue = h.tasksOf sid := by
  rw [queue_eq, hs]

-- ---------------------------------------------------------------------------
-- Operations on channels
-- ---------------------------------------------------------------------------

/-- Two heaps that differ in their channels only. -/
structure SameStates (h k : Heap) : Prop where
  states : k.states = h.states
  conns : k.conns = h.conns
  sharedState : k.sharedState = h.sharedState
  peerConnection : k.peerConnection = h.peerConnection

theorem SameStates.refl (h : Heap) : SameStates h h := ⟨rfl, rfl, rfl, rfl⟩

theorem SameStates.trans (h₁ : SameStates a b) (h₂ : SameStates b c) : SameStates a c :=
  ⟨h₂.states.trans h₁.states, h₂.conns.trans h₁.conns, h₂.sharedState.trans h₁.sharedState,
    h₂.peerConnection.trans h₁.peerConnection⟩

theorem SameStates.refsOf (hs : SameStates h k) : k.refsOf = h.refsOf := by
  funext sid; simp only [Heap.refsOf, hs.states]

theorem SameStates.tasksOf (hs : SameStates h k) : k.tasksOf = h.tasksOf := by
  funext sid; simp only [Heap.tasksOf, hs.states]

theorem SameStates.queue (hs : SameStates h k) : k.queue = h.queue := by
  simp only [Heap.queue, hs.states, hs.sharedState]

theorem modifyChannel_same (h : Heap) (ch : Nat) (f : Channel → Channel) :
    SameStates h (h.modifyChannel ch f) := ⟨rfl, rfl, rfl, rfl⟩

theorem releaseChannel_same (h : Heap) (ch : Nat) : SameStates h (h.releaseChannel ch) :=
  ⟨rfl, rfl, rfl, rfl⟩

theorem retain_same (h : Heap) (t : Task) : SameStates h (h.retain t) := by
  unfold retain
  split
  · exact modifyChannel_same ..
  · exact .refl h

theorem release_same (h : Heap) (t : Task) : SameStates h (h.release t) := by
  unfold release
  split
  · exact releaseChannel_same ..
  · exact .refl h

theorem releaseAll_same (h : Heap) (tasks : List Task) : SameStates h (h.releaseAll tasks) := by
  induction tasks generalizing h with
  | nil => exact .refl h
  | cons t tasks ih => exact (release_same h t).trans (ih (h.release t))

-- ---------------------------------------------------------------------------
-- Operations on shared states
-- ---------------------------------------------------------------------------

theorem refsOf_modifyState (h : Heap) (sid : Nat) (f : SharedState → SharedState)
    (hf : ∀ st, h.states[sid]? = some st → (f st).refs = n) (hlt : sid < h.states.length)
    (k : Nat) : (h.modifyState sid f).refsOf k = if k = sid then n else h.refsOf k := by
  obtain ⟨st, hst⟩ : ∃ st, h.states[sid]? = some st := ⟨_, List.getElem?_eq_getElem hlt⟩
  unfold refsOf modifyState
  by_cases hk : k = sid
  · subst hk; simp [hst, hf st hst]
  · simp [hk, Ne.symm hk]

theorem tasksOf_modifyState (h : Heap) (sid : Nat) (f : SharedState → SharedState)
    (hf : ∀ st, h.states[sid]? = some st → (f st).tasksQueue = q)
    (hlt : sid < h.states.length) (k : Nat) :
    (h.modifyState sid f).tasksOf k = if k = sid then q else h.tasksOf k := by
  obtain ⟨st, hst⟩ : ∃ st, h.states[sid]? = some st := ⟨_, List.getElem?_eq_getElem hlt⟩
  unfold tasksOf modifyState
  by_cases hk : k = sid
  · subst hk; simp [hst, hf st hst]
  · simp [hk, Ne.symm hk]

theorem lt_of_refsOf_pos {h : Heap} (hp : 0 < h.refsOf sid) : sid < h.states.length := by
  unfold refsOf at hp
  split at hp
  · rename_i hst; exact (List.getElem?_eq_some_iff.mp hst).1
  · cases hp

theorem refsOf_lockState {h : Heap} (hlt : sid < h.states.length) (k : Nat) :
    (h.lockState sid).refsOf k = h.refsOf k + if k = sid then 1 else 0 := by
  rw [lockState, refsOf_modifyState (n := h.refsOf sid + 1) _ _ _ ?_ hlt]
  · split
    · rename_i hk; rw [hk]
    · rfl
  · intro st hst; simp [refsOf, hst]

theorem tasksOf_lockState (h : Heap) (sid k : Nat) :
    (h.lockState sid).tasksOf k = h.tasksOf k := by
  unfold tasksOf lockState modifyState
  by_cases hk : sid = k
  · subst hk; cases hst : h.states[sid]? <;> simp [hst]
  · simp [hk]

theorem refsOf_pushTask (h : Heap) (sid : Nat) (t : Task) (k : Nat) :
    (h.pushTask sid t).refsOf k = h.refsOf k := by
  rw [← (retain_same h t).refsOf]
  unfold refsOf pushTask modifyState
  by_cases hk : sid = k
  · subst hk; cases hst : (h.retain t).states[sid]? <;> simp [hst]
  · simp [hk]

theorem tasksOf_pushTask {h : Heap} (hlt : sid < h.states.length) (t : Task) (k : Nat) :
    (h.pushTask sid t).tasksOf k = h.tasksOf k ++ if k = sid then [t] else [] := by
  have hs := retain_same h t
  rw [pushTask, tasksOf_modifyState (q := h.tasksOf sid ++ [t]) _ _ _ ?_ (by rwa [hs.states]),
    hs.tasksOf]
  · split
    · rename_i hk; rw [hk]
    · simp
  · intro st hst
    rw [hs.states] at hst
    simp [tasksOf, hst]

theorem refsOf_swapQueue (h : Heap) (k : Nat) : h.swapQueue.refsOf k = h.refsOf k := by
  unfold swapQueue
  cases hs : h.sharedState with
  | none => rfl
  | some sid =>
    simp only [refsOf, modifyState]
    by_cases hk : sid = k
    · subst hk; cases hst : h.states[sid]? <;> simp [hst]
    · simp [hk]

theorem tasksOf_swapQueue (h : Heap) (k : Nat) :
    h.swapQueue.tasksOf k = if h.sharedState = some k then [] else h.tasksOf k := by
  unfold swapQueue
  cases hs : h.sharedState with
  | none => simp
  | some sid =>
    simp only [tasksOf, modifyState]
    by_cases hk : sid = k
    · subst hk; cases hst : h.states[sid]? <;> simp [hst]
    · simp [hk]

theorem refsOf_releaseState (h : Heap) (sid k : Nat) :
    (h.releaseState sid).refsOf k = h.refsOf k - if k = sid then 1 else 0 := by
  unfold releaseState
  split
  · rename_i hst
    by_cases hk : k = sid
    · subst hk; simp [refsOf, hst]
    · simp [hk]
  · rename_i st hst
    have hlt := (List.getElem?_eq_some_iff.mp hst).1
    have hrefs : h.refsOf sid = st.refs := by simp [refsOf, hst]
    split
    · rename_i hone
      rw [(releaseAll_same _ _).refsOf, refsOf_modifyState _ _ _ (fun _ _ => rfl) hlt]
      split
      · rename_i hk; rw [hk, hrefs, hone]
      · simp
    · rw [refsOf_modifyState (n := st.refs - 1) _ _ _ (by simp [hst]) hlt]
      split
      · rename_i hk; rw [hk, hrefs]
      · simp

theorem tasksOf_releaseState (h : Heap) (sid k : Nat) : (h.releaseState sid).tasksOf k =
    if k = sid ∧ h.refsOf sid = 1 then [] else h.tasksOf k := by
  unfold releaseState
  split
  · rename_i hst
    by_cases hk : k = sid
    · subst hk; simp [refsOf, hst]
    · simp [hk]
  · rename_i st hst
    have hlt := (List.getElem?_eq_some_iff.mp hst).1
    have hrefs : h.refsOf sid = st.refs := by simp [refsOf, hst]
    split
    · rename_i hone
      rw [(releaseAll_same _ _).tasksOf, tasksOf_modifyState _ _ _ (fun _ _ => rfl) hlt]
      simp [hrefs, hone]
    · rename_i hne
      rw [tasksOf_modifyState (q := st.tasksQueue) _ _ _ (by simp [hst]) hlt]
      split
      · rename_i hk; simp [hk, hrefs, hne, tasksOf, hst]
      · rename_i hk; simp [hk]

-- ---------------------------------------------------------------------------
-- What they leave alone
-- ---------------------------------------------------------------------------

/-- Two heaps that differ inside their shared states and channels only. -/
structure SameShape (h k : Heap) : Prop where
  length : k.states.length = h.states.length
  conns : k.conns = h.conns
  sharedState : k.sharedState = h.sharedState
  peerConnection : k.peerConnection = h.peerConnection

theorem SameShape.refl (h : Heap) : SameShape h h := ⟨rfl, rfl, rfl, rfl⟩

theorem SameShape.trans (h₁ : SameShape a b) (h₂ : SameShape b c) : SameShape a c :=
  ⟨h₂.length.trans h₁.length, h₂.conns.trans h₁.conns, h₂.sharedState.trans h₁.sharedState,
    h₂.peerConnection.trans h₁.peerConnection⟩

theorem SameStates.shape (hs : SameStates h k) : SameShape h k :=
  ⟨by rw [hs.states], hs.conns, hs.sharedState, hs.peerConnection⟩

theorem modifyState_shape (h : Heap) (sid : Nat) (f : SharedState → SharedState) :
    SameShape h (h.modifyState sid f) := ⟨by simp [modifyState], rfl, rfl, rfl⟩

theorem pushTask_shape (h : Heap) (sid : Nat) (t : Task) : SameShape h (h.pushTask sid t) :=
  (retain_same h t).shape.trans (modifyState_shape ..)

theorem swapQueue_shape (h : Heap) : SameShape h h.swapQueue := by
  unfold swapQueue
  split
  · exact modifyState_shape ..
  · exact .refl h

theorem releaseState_shape (h : Heap) (sid : Nat) : SameShape h (h.releaseState sid) := by
  unfold releaseState
  split
  · exact .refl h
  split
  · exact (modifyState_shape ..).trans (releaseAll_same ..).shape
  · exact modifyState_shape ..

theorem releaseState?_shape (h : Heap) (p : Option Nat) : SameShape h (h.releaseState? p) := by
  cases p with
  | none => exact .refl h
  | some sid => exact releaseState_shape h sid

-- ---------------------------------------------------------------------------
-- A fresh shared state
-- ---------------------------------------------------------------------------

theorem refsOf_releaseState? (h : Heap) (p : Option Nat) (k : Nat) :
    (h.releaseState? p).refsOf k = h.refsOf k - if p = some k then 1 else 0 := by
  cases p with
  | none => simp [releaseState?]
  | some sid => simp [releaseState?, refsOf_releaseState, eq_comm]

theorem tasksOf_releaseState? (h : Heap) (p : Option Nat) (k : Nat) :
    (h.releaseState? p).tasksOf k = if p = some k ∧ h.refsOf k = 1 then [] else h.tasksOf k := by
  cases p with
  | none => simp [releaseState?]
  | some sid =>
    simp only [releaseState?, tasksOf_releaseState, Option.some.injEq]
    by_cases hk : k = sid
    · subst hk; simp
    · simp [hk, Ne.symm hk]

/-- The pointer is to a shared state that exists. -/
def Valid (h : Heap) : Prop := ∀ sid, h.sharedState = some sid → sid < h.states.length

theorem replaceState_sharedState (h : Heap) :
    h.replaceState.sharedState = some h.states.length :=
  (releaseState?_shape _ _).sharedState

theorem replaceState_conns (h : Heap) : h.replaceState.conns = h.conns :=
  (releaseState?_shape _ _).conns

theorem replaceState_length (h : Heap) : h.replaceState.states.length = h.states.length + 1 :=
  (releaseState?_shape _ _).length.trans (by simp)

theorem refsOf_fresh (h : Heap) (p : Option Nat) (k : Nat) :
    ({ h with sharedState := p, states := h.states ++ [⟨1, []⟩] } : Heap).refsOf k =
      h.refsOf k + if k = h.states.length then 1 else 0 := by
  rcases Nat.lt_trichotomy k h.states.length with hk | rfl | hk
  · simp [refsOf, List.getElem?_append_left hk, Nat.ne_of_lt hk]
  · simp [refsOf]
  · have h₁ : h.states[k]? = none := List.getElem?_eq_none hk.le
    have h₂ : (h.states ++ [⟨1, []⟩])[k]? = none := List.getElem?_eq_none (by simp; omega)
    simp only [refsOf, h₁, h₂, Nat.ne_of_gt hk, ↓reduceIte]

theorem tasksOf_fresh (h : Heap) (p : Option Nat) (k : Nat) :
    ({ h with sharedState := p, states := h.states ++ [⟨1, []⟩] } : Heap).tasksOf k =
      h.tasksOf k := by
  rcases Nat.lt_trichotomy k h.states.length with hk | rfl | hk
  · simp [tasksOf, List.getElem?_append_left hk]
  · simp [tasksOf]
  · have h₁ : h.states[k]? = none := List.getElem?_eq_none hk.le
    have h₂ : (h.states ++ [⟨1, []⟩])[k]? = none := List.getElem?_eq_none (by simp; omega)
    simp only [tasksOf, h₁, h₂]

theorem refsOf_replaceState (h : Heap) (k : Nat) : h.replaceState.refsOf k =
    h.refsOf k + (if k = h.states.length then 1 else 0) - if h.sharedState = some k then 1 else 0 := by
  rw [replaceState, refsOf_releaseState?, refsOf_fresh]

theorem tasksOf_replaceState {h : Heap} (hv : h.Valid) (k : Nat) : h.replaceState.tasksOf k =
    if h.sharedState = some k ∧ h.refsOf k = 1 then [] else h.tasksOf k := by
  rw [replaceState, tasksOf_releaseState?, refsOf_fresh, tasksOf_fresh]
  by_cases hk : h.sharedState = some k
  · simp [hk, Nat.ne_of_lt (hv k hk)]
  · simp [hk]

theorem replaceState_queue {h : Heap} (hv : h.Valid) : h.replaceState.queue = [] := by
  rw [queue_of_current h.replaceState_sharedState, tasksOf_replaceState hv]
  have : h.tasksOf h.states.length = [] := by simp [tasksOf]
  simp [this]

theorem destroy_sharedState (h : Heap) : h.destroy.sharedState = none :=
  (releaseState?_shape _ _).sharedState

theorem destroy_conns (h : Heap) : h.destroy.conns = h.conns :=
  (releaseState?_shape _ _).conns.trans h.replaceState_conns

theorem destroy_length (h : Heap) : h.destroy.states.length = h.states.length + 1 :=
  (releaseState?_shape _ _).length.trans h.replaceState_length

theorem refsOf_destroy {h : Heap} (hv : h.Valid) (k : Nat) :
    h.destroy.refsOf k = h.refsOf k - if h.sharedState = some k then 1 else 0 := by
  have hcurrent : h.sharedState = some k → k ≠ h.states.length := fun hk => Nat.ne_of_lt (hv k hk)
  simp only [destroy, refsOf_releaseState?, replaceState_sharedState, Option.some.injEq]
  change h.replaceState.refsOf k - _ = _
  rw [refsOf_replaceState]
  by_cases hk : k = h.states.length
  · have : h.sharedState ≠ some k := fun hs => hcurrent hs hk
    simp [hk ▸ this, hk]
  · simp [hk, Ne.symm hk]

theorem tasksOf_destroy {h : Heap} (hv : h.Valid) (k : Nat) : h.destroy.tasksOf k =
    if h.sharedState = some k ∧ h.refsOf k = 1 then [] else h.tasksOf k := by
  have hfresh : h.tasksOf h.states.length = [] := by simp [tasksOf]
  simp only [destroy, tasksOf_releaseState?, replaceState_sharedState, Option.some.injEq]
  change (if _ then _ else h.replaceState.tasksOf k) = _
  rw [tasksOf_replaceState hv]
  by_cases hk : h.states.length = k
  · subst hk; simp [hfresh]
  · simp [hk]

-- ---------------------------------------------------------------------------
-- The channels their wrappers' destructors have closed
-- ---------------------------------------------------------------------------

theorem retain_closed (h : Heap) (t : Task) : (h.retain t).closed = h.closed := by
  unfold retain
  split <;> rfl

theorem swapQueue_closed (h : Heap) : h.swapQueue.closed = h.closed := by
  unfold swapQueue
  split <;> rfl

theorem releaseChannel_closed (h : Heap) (ch : Nat) : h.closed <+: (h.releaseChannel ch).closed :=
  List.prefix_append _ _

theorem release_closed (h : Heap) (t : Task) : h.closed <+: (h.release t).closed := by
  unfold release
  split
  · exact releaseChannel_closed h _
  · exact List.prefix_refl _

theorem releaseAll_closed (h : Heap) (tasks : List Task) :
    h.closed <+: (h.releaseAll tasks).closed := by
  induction tasks generalizing h with
  | nil => exact List.prefix_refl _
  | cons t tasks ih => exact (release_closed h t).trans (ih (h.release t))

theorem releaseState?_closed (h : Heap) (p : Option Nat) :
    h.closed <+: (h.releaseState? p).closed := by
  cases p with
  | none => exact List.prefix_refl _
  | some sid =>
    simp only [releaseState?, releaseState]
    split
    · exact List.prefix_refl _
    split
    · exact releaseAll_closed (h.modifyState sid _) _
    · exact List.prefix_refl _

theorem replaceState_closed (h : Heap) : h.closed <+: h.replaceState.closed :=
  releaseState?_closed
    { h with sharedState := some h.states.length, states := h.states ++ [⟨1, []⟩] } _

theorem destroy_closed (h : Heap) : h.closed <+: h.destroy.closed :=
  h.replaceState_closed.trans
    (releaseState?_closed { h.replaceState with peerConnection := none, sharedState := none } _)

end WebRtc.Heap
