import WebRtc.PeerConnection.Heap
import WebRtc.Lib.ListSum

/-!
# Who owns a wrapper

The `Ref`s to a wrapper are those that queued tasks have captured and those
that are held elsewhere. `Accounts` says that the heap counts both; the
operations of `Heap` keep the account, so a wrapper is destroyed, and its
channel closed, when nothing holds it any more and not before.
-/

namespace WebRtc

open ListSum (total)

/-- The `Ref`s to a channel's wrapper that the task has captured. -/
def Task.holds (ch : Nat) (t : Task) : Nat := if t.signal = .dataChannelReceived ch then 1 else 0

theorem Task.holds_pos_iff : 0 < Task.holds ch t ↔ t.signal = .dataChannelReceived ch := by
  unfold holds
  split <;> simp_all

def SharedState.holds (ch : Nat) (st : SharedState) : Nat := total (Task.holds ch) st.tasksQueue

namespace Heap

/-- The reference count of a channel's wrapper; none when there is no wrapper. -/
def wrapperRefs (h : Heap) (ch : Nat) : Nat :=
  match h.channels[ch]?.bind Channel.wrapper with
  | some w => w.refs
  | none => 0

/-- The `Ref`s that queued tasks have captured. -/
def queuedRefs (h : Heap) (ch : Nat) : Nat := total (SharedState.holds ch) h.states

/-- There are `n` `Ref`s to the wrapper. It lives as long as there are any, and
its channel is closed when it goes. -/
structure Owned (h : Heap) (ch n : Nat) : Prop where
  refs : h.wrapperRefs ch = n
  alive : ∀ c w, h.channels[ch]? = some c → c.wrapper = some w → 0 < w.refs
  closed : ∀ c, h.channels[ch]? = some c → c.bound = true → c.wrapper = none → ch ∈ h.closed

/-- Apart from those of the queued tasks, `n ch` `Ref`s are held. -/
def Accounts (h : Heap) (n : Nat → Nat) : Prop := ∀ ch, h.Owned ch (n ch + h.queuedRefs ch)

-- ---------------------------------------------------------------------------
-- One channel
-- ---------------------------------------------------------------------------

theorem getElem?_modifyChannel (h : Heap) (k ch : Nat) (f : Channel → Channel) :
    (h.modifyChannel k f).channels[ch]? = if k = ch then h.channels[ch]?.map f else h.channels[ch]? := by
  rw [modifyChannel, List.getElem?_modify]
  split <;> simp

theorem Owned.of_eq (ho : Owned h ch n) (hchannel : k.channels[ch]? = h.channels[ch]?)
    (hclosed : h.closed ⊆ k.closed) : Owned k ch n := by
  obtain ⟨hrefs, halive, hcl⟩ := ho
  constructor
  · rwa [wrapperRefs, hchannel]
  · rwa [hchannel]
  · rw [hchannel]
    exact fun c hc hb hw => hclosed (hcl c hc hb hw)

theorem Owned.wrapper (ho : Owned h ch n) (hpos : 0 < n) :
    ∃ c w, h.channels[ch]? = some c ∧ c.wrapper = some w ∧ w.refs = n := by
  have hrefs := ho.refs
  unfold wrapperRefs at hrefs
  split at hrefs
  · rename_i w hw
    obtain ⟨c, hc, hcw⟩ := Option.bind_eq_some_iff.mp hw
    exact ⟨c, w, hc, hcw, hrefs⟩
  · omega

theorem Owned.of_some (hc : h.channels[ch]? = some c) (hw : c.wrapper = some w)
    (hrefs : w.refs = n) (hpos : 0 < n) : Owned h ch n := by
  refine ⟨by simp [wrapperRefs, hc, hw, hrefs], fun d u hd hu => ?_, fun d hd _ hnone => ?_⟩
  · cases hc.symm.trans hd
    cases hw.symm.trans hu
    exact hrefs ▸ hpos
  · cases hc.symm.trans hd
    cases hw.symm.trans hnone

theorem Owned.of_none (hc : h.channels[ch]? = some c) (hw : c.wrapper = none)
    (hclosed : c.bound = true → ch ∈ h.closed) : Owned h ch 0 := by
  refine ⟨by simp [wrapperRefs, hc, hw], fun d u hd hu => ?_, fun d hd hb _ => ?_⟩
  · cases hc.symm.trans hd
    cases hw.symm.trans hu
  · cases hc.symm.trans hd
    exact hclosed hb

theorem Owned.modify (ho : Owned h ch n) {f : Channel → Channel}
    (hrefs : ∀ c, (f c).wrapper.map Wrapper.refs = c.wrapper.map Wrapper.refs)
    (hbound : ∀ c, (f c).bound = c.bound) (k : Nat) : Owned (h.modifyChannel k f) ch n := by
  have hch := h.getElem?_modifyChannel k ch f
  split at hch
  · cases hc : h.channels[ch]? with
    | none => exact ho.of_eq (by rw [hch, hc]; rfl) (List.Subset.refl _)
    | some c =>
      rw [hc, Option.map_some] at hch
      have hr := hrefs c
      have href := ho.refs
      cases hw : c.wrapper with
      | none =>
        rw [hw, Option.map_none, Option.map_eq_none_iff] at hr
        simp only [wrapperRefs, hc, Option.bind_some, hw] at href
        exact href ▸ .of_none hch hr fun hb => ho.closed c hc (hbound c ▸ hb) hw
      | some w =>
        rw [hw, Option.map_some, Option.map_eq_some_iff] at hr
        simp only [wrapperRefs, hc, Option.bind_some, hw] at href
        obtain ⟨v, hv, hvw⟩ := hr
        exact .of_some hch hv (hvw.trans href) (href ▸ ho.alive c w hc hw)
  · exact ho.of_eq hch (List.Subset.refl _)

theorem Owned.retainChannel (ho : Owned h ch n) (k : Nat) (hpos : k = ch → 0 < n) :
    Owned (h.modifyChannel k Channel.retain) ch (n + if k = ch then 1 else 0) := by
  have hch := h.getElem?_modifyChannel k ch Channel.retain
  split at hch
  · rename_i hk
    obtain ⟨c, w, hc, hw, hrefs⟩ := ho.wrapper (hpos hk)
    rw [hc, Option.map_some] at hch
    have hcw : c.retain.wrapper = some { w with refs := w.refs + 1 } := by simp [Channel.retain, hw]
    rw [if_pos hk]
    exact .of_some hch hcw (congrArg (· + 1) hrefs) (Nat.succ_pos _)
  · rename_i hk
    rw [if_neg hk]
    exact ho.of_eq hch (List.Subset.refl _)

theorem Owned.releaseChannel (k : Nat) (ho : Owned h ch (n + if k = ch then 1 else 0)) :
    Owned (h.releaseChannel k) ch n := by
  have hch : (h.releaseChannel k).channels[ch]? = _ := h.getElem?_modifyChannel k ch Channel.release
  split at hch
  · rename_i hk
    rw [if_pos hk] at ho
    obtain ⟨c, w, hc, hw, hrefs⟩ := ho.wrapper (Nat.succ_pos n)
    rw [hc, Option.map_some] at hch
    by_cases hone : w.refs = 1
    · -- the last one
      have hn : n = 0 := by omega
      have hcw : c.release.wrapper = none := by simp [Channel.release, hw, hone]
      subst hn hk
      exact .of_none hch hcw fun _ => by simp [Heap.releaseChannel, hc, Channel.lastRef, hw, hone]
    · have hcw : c.release.wrapper = some { w with refs := w.refs - 1 } := by
        simp [Channel.release, hw, hone]
      have hpos := ho.alive c w hc hw
      exact .of_some hch hcw (by simp only; omega) (by omega)
  · rename_i hk
    rw [if_neg hk] at ho
    exact ho.of_eq hch (List.subset_append_left _ _)

-- ---------------------------------------------------------------------------
-- Tasks
-- ---------------------------------------------------------------------------

theorem Owned.retain (ho : Owned h ch n) (t : Task) (hpos : 0 < t.holds ch → 0 < n) :
    Owned (h.retain t) ch (n + t.holds ch) := by
  unfold Heap.retain
  unfold Task.holds at hpos ⊢
  split
  · rename_i k hk
    have := ho.retainChannel k fun heq => hpos (by simp [hk, heq])
    simpa [hk] using this
  · rename_i hk
    rw [if_neg (hk ch)]
    exact ho

theorem Owned.release (t : Task) (ho : Owned h ch (n + t.holds ch)) : Owned (h.release t) ch n := by
  unfold Heap.release
  unfold Task.holds at ho
  split
  · rename_i k hk
    exact Owned.releaseChannel k (by simpa [hk] using ho)
  · rename_i hk
    rwa [if_neg (hk ch)] at ho

theorem Owned.releaseAll (tasks : List Task) (ho : Owned h ch (n + total (Task.holds ch) tasks)) :
    Owned (h.releaseAll tasks) ch n := by
  induction tasks generalizing h with
  | nil => exact ho
  | cons t tasks ih =>
    refine ih (h := h.release t) (Owned.release t ?_)
    simpa [Nat.add_comm, Nat.add_left_comm, Nat.add_assoc] using ho

-- ---------------------------------------------------------------------------
-- The account
-- ---------------------------------------------------------------------------

theorem SameStates.queuedRefs (hs : SameStates h k) : k.queuedRefs = h.queuedRefs := by
  funext ch; simp only [Heap.queuedRefs, hs.states]

theorem Accounts.modify (ha : Accounts h n) (k : Nat) {f : Channel → Channel}
    (hrefs : ∀ c, (f c).wrapper.map Wrapper.refs = c.wrapper.map Wrapper.refs)
    (hbound : ∀ c, (f c).bound = c.bound) : Accounts (h.modifyChannel k f) n :=
  fun ch => (ha ch).modify hrefs hbound k

theorem refs_getPacket (c : Channel) :
    c.getPacket.wrapper.map Wrapper.refs = c.wrapper.map Wrapper.refs := by
  simp only [Channel.getPacket, Option.map_map]
  rfl

theorem refs_deliver (m : Message) (c : Channel) :
    (c.deliver m).wrapper.map Wrapper.refs = c.wrapper.map Wrapper.refs := by
  simp only [Channel.deliver, Channel.onMessage, Option.map_map]
  rfl

theorem Accounts.retainChannel (ha : Accounts h n) (k : Nat) (hpos : 0 < n k)
    (hm : ∀ ch, m ch = n ch + if k = ch then 1 else 0) :
    Accounts (h.modifyChannel k Channel.retain) m := by
  intro ch
  have := (ha ch).retainChannel k fun heq => Nat.lt_of_lt_of_le (heq ▸ hpos) (Nat.le_add_right ..)
  rw [(modifyChannel_same ..).queuedRefs, hm]
  rwa [Nat.add_right_comm] at this

theorem Accounts.releaseChannel (ha : Accounts h n) (k : Nat)
    (hn : ∀ ch, n ch = m ch + if k = ch then 1 else 0) : Accounts (h.releaseChannel k) m := by
  intro ch
  have := ha ch
  rw [hn, Nat.add_right_comm] at this
  rw [(releaseChannel_same ..).queuedRefs]
  exact Owned.releaseChannel k this

theorem Accounts.retain (ha : Accounts h n) (t : Task) (hpos : ∀ ch, 0 < t.holds ch → 0 < n ch)
    (hm : ∀ ch, m ch = n ch + t.holds ch) : Accounts (h.retain t) m := by
  intro ch
  have := (ha ch).retain t fun hp => Nat.lt_of_lt_of_le (hpos ch hp) (Nat.le_add_right ..)
  rw [(retain_same h t).queuedRefs, hm]
  rwa [Nat.add_right_comm] at this

theorem Accounts.release (ha : Accounts h n) (t : Task) (hn : ∀ ch, n ch = m ch + t.holds ch) :
    Accounts (h.release t) m := by
  intro ch
  have := ha ch
  rw [hn, Nat.add_right_comm] at this
  rw [(release_same h t).queuedRefs]
  exact Owned.release t this

/-- A change of the shared states that moves `Ref`s between the queues and
elsewhere. -/
theorem Accounts.move (ha : Accounts h n) (hchannels : k.channels = h.channels)
    (hclosed : k.closed = h.closed) (hn : ∀ ch, n ch + h.queuedRefs ch = m ch + k.queuedRefs ch) :
    Accounts k m := by
  intro ch
  rw [← hn]
  exact (ha ch).of_eq (by rw [hchannels]) (by rw [hclosed]; exact List.Subset.refl _)

theorem queuedRefs_modifyState {h : Heap} (f : SharedState → SharedState)
    (hst : h.states[sid]? = some st) (ch : Nat) :
    (h.modifyState sid f).queuedRefs ch + SharedState.holds ch st =
      h.queuedRefs ch + SharedState.holds ch (f st) := ListSum.total_modify f hst

theorem queuedRefs_modifyState_of_eq (h : Heap) (sid : Nat) {f : SharedState → SharedState}
    (hf : ∀ st, (f st).tasksQueue = st.tasksQueue) :
    (h.modifyState sid f).queuedRefs = h.queuedRefs := by
  funext ch
  exact ListSum.total_modify_of_eq f (fun st => by rw [SharedState.holds, hf, SharedState.holds]) sid

theorem Accounts.lockState (ha : Accounts h n) (sid : Nat) : Accounts (h.lockState sid) n := by
  refine ha.move rfl rfl fun ch => ?_
  rw [Heap.lockState, queuedRefs_modifyState_of_eq]
  exact fun _ => rfl

theorem Accounts.pushTask (ha : Accounts h n) (hlt : sid < h.states.length) (t : Task)
    (hpos : ∀ ch, 0 < t.holds ch → 0 < n ch) : Accounts (h.pushTask sid t) n := by
  have hst : (h.retain t).states[sid]? = some h.states[sid] := by
    rw [(retain_same h t).states]
    exact List.getElem?_eq_getElem hlt
  refine (ha.retain t hpos (fun _ => rfl)).move rfl rfl fun ch => ?_
  have := queuedRefs_modifyState (fun st => { st with tasksQueue := st.tasksQueue ++ [t] }) hst ch
  simp only [SharedState.holds, ListSum.total_append, ListSum.total_cons, ListSum.total_nil] at this
  simp only [Heap.pushTask]
  omega

theorem Accounts.swapQueue (ha : Accounts h n)
    (hm : ∀ ch, m ch = n ch + total (Task.holds ch) h.queue) : Accounts h.swapQueue m := by
  unfold Heap.swapQueue
  cases hs : h.sharedState with
  | none => exact ha.move rfl rfl fun ch => by simp [hm, Heap.queue, hs]
  | some sid =>
    refine ha.move rfl rfl fun ch => ?_
    cases hst : h.states[sid]? with
    | none =>
      have : List.modify h.states sid (fun st => { st with tasksQueue := [] }) = h.states :=
        List.modify_eq_self (List.getElem?_eq_none_iff.mp hst)
      simp [hm, Heap.queue, hs, hst, Heap.queuedRefs, modifyState, this]
    | some st =>
      have hq : h.queue = st.tasksQueue := by simp [Heap.queue, hs, hst]
      have := queuedRefs_modifyState (fun st => { st with tasksQueue := [] }) hst ch
      simp only [SharedState.holds, ListSum.total_nil] at this
      simp only [hm, hq]
      omega

theorem Accounts.releaseState (ha : Accounts h n) (sid : Nat) : Accounts (h.releaseState sid) n := by
  unfold Heap.releaseState
  split
  · exact ha
  rename_i st hst
  split
  · have hdrop : ∀ ch, (h.modifyState sid fun _ => ⟨0, []⟩).Owned ch
        (n ch + (h.modifyState sid fun _ => ⟨0, []⟩).queuedRefs ch +
          total (Task.holds ch) st.tasksQueue) := fun ch => by
      have := queuedRefs_modifyState (fun _ => ⟨0, []⟩) hst ch
      simp only [SharedState.holds, ListSum.total_nil] at this
      rw [Nat.add_assoc, this]
      exact (ha ch).of_eq rfl (List.Subset.refl _)
    intro ch
    rw [(releaseAll_same _ _).queuedRefs]
    exact Owned.releaseAll _ (hdrop ch)
  · refine ha.move rfl rfl fun ch => ?_
    rw [queuedRefs_modifyState_of_eq]
    exact fun _ => rfl

theorem Accounts.releaseState? (ha : Accounts h n) (p : Option Nat) :
    Accounts (h.releaseState? p) n := by
  cases p with
  | none => exact ha
  | some sid => exact ha.releaseState sid

theorem Accounts.replaceState (ha : Accounts h n) : Accounts h.replaceState n := by
  refine Accounts.releaseState? ?_ _
  exact ha.move rfl rfl fun ch => by simp [Heap.queuedRefs, SharedState.holds]

theorem Accounts.destroy (ha : Accounts h n) : Accounts h.destroy n := by
  refine Accounts.releaseState? ?_ _
  exact ha.replaceState.move rfl rfl fun ch => rfl

-- ---------------------------------------------------------------------------
-- Counting does not touch what is counted
-- ---------------------------------------------------------------------------

/-- `d` is `c` but for the count, and may have lost its wrapper. -/
structure Kept (c d : Channel) : Prop where
  incoming : d.incoming = c.incoming
  delivered : d.delivered = c.delivered
  bound : d.bound = c.bound
  object : ∀ w, d.wrapper = some w → ∃ v, c.wrapper = some v ∧ v.object = w.object

theorem Kept.refl (c : Channel) : Kept c c := ⟨rfl, rfl, rfl, fun w hw => ⟨w, hw, rfl⟩⟩

theorem Kept.trans (h₁ : Kept a b) (h₂ : Kept b c) : Kept a c := by
  refine ⟨h₂.incoming.trans h₁.incoming, h₂.delivered.trans h₁.delivered,
    h₂.bound.trans h₁.bound, fun w hw => ?_⟩
  obtain ⟨v, hv, hvw⟩ := h₂.object w hw
  obtain ⟨u, hu, huv⟩ := h₁.object v hv
  exact ⟨u, hu, huv.trans hvw⟩

theorem kept_retain (c : Channel) : Kept c c.retain := by
  refine ⟨rfl, rfl, rfl, fun w hw => ?_⟩
  obtain ⟨v, hv, rfl⟩ := Option.map_eq_some_iff.mp hw
  exact ⟨v, hv, rfl⟩

theorem kept_release (c : Channel) : Kept c c.release := by
  refine ⟨rfl, rfl, rfl, fun w hw => ?_⟩
  obtain ⟨v, hv, hw⟩ := Option.bind_eq_some_iff.mp hw
  split at hw
  · cases hw
  · cases hw
    exact ⟨v, hv, rfl⟩

/-- Every channel of `k` is one of `h`, but for the counts. -/
structure SameContents (h k : Heap) : Prop where
  length : k.channels.length = h.channels.length
  channel : ∀ (ch : Nat) d, k.channels[ch]? = some d → ∃ c, h.channels[ch]? = some c ∧ Kept c d

theorem SameContents.of_eq (hchannels : k.channels = h.channels) : SameContents h k :=
  ⟨by rw [hchannels], fun ch d hd => ⟨d, by rwa [hchannels] at hd, .refl d⟩⟩

theorem SameContents.trans (h₁ : SameContents a b) (h₂ : SameContents b c) : SameContents a c := by
  refine ⟨h₂.length.trans h₁.length, fun ch d hd => ?_⟩
  obtain ⟨e, he, hed⟩ := h₂.channel ch d hd
  obtain ⟨f, hf, hfe⟩ := h₁.channel ch e he
  exact ⟨f, hf, hfe.trans hed⟩

theorem SameContents.of_channels (hs : SameContents h k) (hchannels : h.channels = g.channels) :
    SameContents g k := (SameContents.of_eq hchannels).trans hs

theorem sameContents_modifyChannel (h : Heap) (k : Nat) {f : Channel → Channel}
    (hf : ∀ c, Kept c (f c)) : SameContents h (h.modifyChannel k f) := by
  refine ⟨List.length_modify .., fun ch d hd => ?_⟩
  rw [getElem?_modifyChannel] at hd
  split at hd
  · obtain ⟨c, hc, rfl⟩ := Option.map_eq_some_iff.mp hd
    exact ⟨c, hc, hf c⟩
  · exact ⟨d, hd, .refl d⟩

theorem sameContents_releaseChannel (h : Heap) (k : Nat) : SameContents h (h.releaseChannel k) :=
  (sameContents_modifyChannel h k kept_release).trans (.of_eq rfl)

theorem sameContents_retain (h : Heap) (t : Task) : SameContents h (h.retain t) := by
  unfold retain
  split
  · exact sameContents_modifyChannel h _ kept_retain
  · exact .of_eq rfl

theorem sameContents_release (h : Heap) (t : Task) : SameContents h (h.release t) := by
  unfold release
  split
  · exact sameContents_releaseChannel ..
  · exact .of_eq rfl

theorem sameContents_releaseAll (h : Heap) (tasks : List Task) :
    SameContents h (h.releaseAll tasks) := by
  induction tasks generalizing h with
  | nil => exact .of_eq rfl
  | cons t tasks ih => exact (sameContents_release h t).trans (ih (h.release t))

theorem sameContents_releaseState? (h : Heap) (p : Option Nat) :
    SameContents h (h.releaseState? p) := by
  cases p with
  | none => exact .of_eq rfl
  | some sid =>
    simp only [releaseState?, releaseState]
    split
    · exact .of_eq rfl
    split
    · exact (sameContents_releaseAll _ _).of_channels rfl
    · exact .of_eq rfl

theorem sameContents_replaceState (h : Heap) : SameContents h h.replaceState :=
  (sameContents_releaseState? _ _).of_channels rfl

theorem sameContents_destroy (h : Heap) : SameContents h h.destroy :=
  (sameContents_replaceState h).trans ((sameContents_releaseState? _ _).of_channels rfl)

theorem sameContents_swapQueue (h : Heap) : SameContents h h.swapQueue := by
  unfold swapQueue
  split <;> exact .of_eq rfl

theorem sameContents_pushTask (h : Heap) (sid : Nat) (t : Task) : SameContents h (h.pushTask sid t) :=
  (sameContents_retain h t).trans (.of_eq rfl)

end Heap

end WebRtc
