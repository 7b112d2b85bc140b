import WebRtc.PeerConnection.HandOff

/-!
# Nothing is used after it is gone

A shared state lives as long as the object or a callback inside `queue_task`
has a pointer to it, and once gone it stays gone. A wrapper lives as long as
there is a `Ref` to it: it is destroyed once. Its destructor closes its channel,
also one that the application has closed already by the wrapper's `_close`, and
nobody closes it after that.
-/

namespace WebRtc

namespace Heap

/-- A wrapper is destroyed only once, and what is destroyed was bound. -/
structure DestroyedOnce (h : Heap) : Prop where
  nodup : h.closed.Nodup
  gone : ∀ ch ∈ h.closed, ∃ c, h.channels[ch]? = some c ∧ c.bound = true ∧ c.wrapper = none
  bound : ∀ (ch : Nat) c w, h.channels[ch]? = some c → c.wrapper = some w → c.bound = true

theorem DestroyedOnce.of_eq (hd : DestroyedOnce h) (hchannels : k.channels = h.channels)
    (hclosed : k.closed = h.closed) : DestroyedOnce k := by
  obtain ⟨hnodup, hgone, hbound⟩ := hd
  constructor
  · rwa [hclosed]
  · rwa [hclosed, hchannels]
  · rwa [hchannels]

theorem DestroyedOnce.modify (hd : DestroyedOnce h) (k : Nat) (f : Channel → Channel)
    (hbound : ∀ c, (f c).bound = c.bound) (hnone : ∀ c, c.wrapper = none → (f c).wrapper = none) :
    DestroyedOnce (h.modifyChannel k f) := by
  refine ⟨hd.nodup, fun ch hch => ?_, fun ch c w hc hw => ?_⟩
  · obtain ⟨c, hc, hb, hw⟩ := hd.gone ch hch
    rw [getElem?_modifyChannel]
    split
    · exact ⟨f c, by rw [hc, Option.map_some], (hbound c).trans hb, hnone c hw⟩
    · exact ⟨c, hc, hb, hw⟩
  · rw [getElem?_modifyChannel] at hc
    split at hc
    · obtain ⟨d, hd', rfl⟩ := Option.map_eq_some_iff.mp hc
      cases hdw : d.wrapper with
      | none =>
        rw [hnone d hdw] at hw
        cases hw
      | some v => exact (hbound d).trans (hd.bound ch d v hd' hdw)
    · exact hd.bound ch c w hc hw

theorem DestroyedOnce.retain (hd : DestroyedOnce h) (t : Task) : DestroyedOnce (h.retain t) := by
  unfold Heap.retain
  split
  · exact hd.modify _ _ (fun _ => rfl) fun c hw => by simp [Channel.retain, hw]
  · exact hd

theorem DestroyedOnce.releaseChannel (hd : DestroyedOnce h) (k : Nat) :
    DestroyedOnce (h.releaseChannel k) := by
  have hmodified : DestroyedOnce (h.modifyChannel k Channel.release) :=
    hd.modify _ _ (fun _ => rfl) fun c hw => by simp [Channel.release, hw]
  cases hlast : h.channels[k]?.any Channel.lastRef with
  | false => exact hmodified.of_eq rfl (by rw [Heap.releaseChannel, hlast]; exact List.append_nil _)
  | true =>
    obtain ⟨c, hc, hone⟩ := (Option.any_eq_true _ _).mp hlast
    obtain ⟨w, hw, hrefs⟩ := (Option.any_eq_true _ _).mp hone
    have hnew : k ∉ h.closed := by
      intro hmem
      obtain ⟨d, hd', -, hnone⟩ := hd.gone k hmem
      cases Option.some.inj (hc.symm.trans hd')
      rw [hw] at hnone
      cases hnone
    have hclosed : (h.releaseChannel k).closed = h.closed ++ [k] := by
      rw [Heap.releaseChannel, hlast]
      rfl
    refine ⟨?_, fun ch hch => ?_, hmodified.bound⟩
    · rw [hclosed]
      exact List.nodup_append.mpr ⟨hd.nodup, List.nodup_singleton k, fun a ha b hb => by
        rintro rfl
        exact hnew (List.mem_singleton.mp hb ▸ ha)⟩
    · rw [hclosed] at hch
      rcases List.mem_append.mp hch with hch | hch
      · exact hmodified.gone ch hch
      · cases List.mem_singleton.mp hch
        refine ⟨c.release, ?_, hd.bound k c w hc hw, ?_⟩
        · exact (h.getElem?_modifyChannel k k Channel.release).trans (by rw [if_pos rfl, hc]; rfl)
        · rw [Channel.release, hw]
          simpa using hrefs

theorem DestroyedOnce.release (hd : DestroyedOnce h) (t : Task) : DestroyedOnce (h.release t) := by
  unfold Heap.release
  split
  · exact hd.releaseChannel _
  · exact hd

theorem DestroyedOnce.releaseAll (hd : DestroyedOnce h) (tasks : List Task) :
    DestroyedOnce (h.releaseAll tasks) := by
  induction tasks generalizing h with
  | nil => exact hd
  | cons t tasks ih => exact ih (hd.release t)

theorem DestroyedOnce.releaseState? (hd : DestroyedOnce h) (p : Option Nat) :
    DestroyedOnce (h.releaseState? p) := by
  cases p with
  | none => exact hd
  | some sid =>
    simp only [Heap.releaseState?, Heap.releaseState]
    split
    · exact hd
    split
    · refine DestroyedOnce.releaseAll ?_ _
      exact hd.of_eq rfl rfl
    · exact hd.of_eq rfl rfl

theorem DestroyedOnce.replaceState (hd : DestroyedOnce h) : DestroyedOnce h.replaceState := by
  refine DestroyedOnce.releaseState? ?_ _
  exact hd.of_eq rfl rfl

theorem DestroyedOnce.destroy (hd : DestroyedOnce h) : DestroyedOnce h.destroy := by
  refine DestroyedOnce.releaseState? ?_ _
  exact hd.replaceState.of_eq rfl rfl

theorem DestroyedOnce.swapQueue (hd : DestroyedOnce h) : DestroyedOnce h.swapQueue := by
  unfold Heap.swapQueue
  split
  · exact hd.of_eq rfl rfl
  · exact hd

end Heap

namespace PeerConnection.Signals

open Heap (DestroyedOnce)

-- ---------------------------------------------------------------------------
-- Wrappers
-- ---------------------------------------------------------------------------

theorem destroyedOnce_announce (hd : DestroyedOnce heap) (h : announce heap a = some k) :
    DestroyedOnce k := by
  unfold announce at h
  split at h
  · split at h <;> cases h
    refine ⟨hd.nodup, fun ch hch => ?_, fun ch c w hc hw => ?_⟩
    · obtain ⟨c, hc, hgone⟩ := hd.gone ch hch
      exact ⟨c, (List.getElem?_append_left (List.getElem?_eq_some_iff.mp hc).1).trans hc, hgone⟩
    · rcases ListSum.getElem?_snoc hc with hc | ⟨-, rfl⟩
      · exact hd.bound ch c w hc hw
      · cases hw
  · cases h
    exact hd

/-- The wrapper is made for a channel that had none. -/
theorem destroyedOnce_prepare {c : Callback} {i : Nat} (hd : DestroyedOnce s.heap) (ha : Announced s)
    (hcb : s.callbacks[i]? = some c) (hpc : c.pc = .invoked) :
    DestroyedOnce (prepareArgs s.heap c.announcement) := by
  cases hc : c.channel? with
  | none => rwa [prepareArgs_of_none hc]
  | some ch =>
    rw [prepareArgs_of_channel hc]
    refine ⟨hd.nodup, fun j hj => ?_, fun j d w hk hw => ?_⟩
    · obtain ⟨d, hdj, hb, hnone⟩ := hd.gone j hj
      have hne : ch ≠ j := by
        rintro rfl
        have hunbound := (ha.bound i ch c d hcb hc hdj).mpr hpc
        rw [hb] at hunbound
        cases hunbound
      exact ⟨d, by rw [Heap.getElem?_modifyChannel, if_neg hne, hdj], hb, hnone⟩
    · rw [Heap.getElem?_modifyChannel] at hk
      split at hk
      · obtain ⟨k₀, -, rfl⟩ := Option.map_eq_some_iff.mp hk
        rfl
      · exact hd.bound j d w hk hw

theorem step_destroyedOnce (ha : Announced s) (hd : DestroyedOnce s.heap)
    (h : step build s e = some t) : DestroyedOnce t.heap := by
  cases step_cases h with
  | poll => exact hd.swapQueue
  | emit => exact hd.retain _
  | handlerReturn => exact (hd.release _).release _
  | close | initializePc => exact hd.replaceState
  | destroy => exact hd.destroy
  | connect => exact hd.of_eq rfl rfl
  | retain => exact hd.modify _ _ (fun _ => rfl) fun c hw => by simp [Channel.retain, hw]
  | drop => exact hd.releaseChannel _
  | getPacket => exact hd.modify _ _ (fun _ => rfl) fun c hw => by simp [Channel.getPacket, hw]
  | invoke _ hannounce => exact destroyedOnce_announce hd hannounce
  | prepare hcb hpc => exact destroyedOnce_prepare hd ha hcb hpc
  | lock => exact (hd.retain _).of_eq rfl rfl
  | lockExpired => exact hd.retain _
  | push => exact (hd.retain _).of_eq rfl rfl
  | finish => exact ((hd.release _).releaseState? _).release _
  | arrive => exact hd.modify _ _ (fun _ => rfl) fun c hw => hw
  | deliver =>
    exact hd.modify _ _ (fun _ => rfl) fun c hw => by simp [Channel.deliver, Channel.onMessage, hw]
  | _ => exact hd

theorem announce_closed (h : announce heap a = some k) : k.closed = heap.closed := by
  unfold announce at h
  split at h
  · split at h <;> cases h
    rfl
  · cases h
    rfl

theorem prepareArgs_closed (heap : Heap) (a : Announcement) :
    (prepareArgs heap a).closed = heap.closed := by
  unfold prepareArgs
  split
  · split <;> rfl
  · rfl

theorem step_closed (h : step build s e = some t) : s.heap.closed <+: t.heap.closed := by
  have hretain (u : Task) : s.heap.closed <+: (s.heap.retain u).closed := by
    rw [Heap.retain_closed]
  cases step_cases h with
  | poll => exact s.heap.swapQueue_closed ▸ List.prefix_refl _
  | emit | lock | lockExpired | push => exact hretain _
  | handlerReturn => exact (Heap.release_closed _ _).trans (Heap.release_closed _ _)
  | close | initializePc => exact s.heap.replaceState_closed
  | destroy => exact s.heap.destroy_closed
  | drop => exact s.heap.releaseChannel_closed _
  | invoke _ hannounce => exact announce_closed hannounce ▸ List.prefix_refl _
  | prepare => exact prepareArgs_closed s.heap _ ▸ List.prefix_refl _
  | finish =>
    exact ((Heap.release_closed _ _).trans (Heap.releaseState?_closed _ _)).trans
      (Heap.release_closed _ _)
  | _ => exact List.prefix_refl _

theorem run_destroyedOnce (h : Machine.run (step build) {} es = some s) : DestroyedOnce s.heap :=
  Machine.run_induction (P := fun _ s => DestroyedOnce s.heap) ⟨List.nodup_nil, by simp, by simp⟩
    (fun hm hd he => step_destroyedOnce (run_handedOver hm).announced hd he) h

theorem run_closed (h : Machine.run (step build) s es = some t) : s.heap.closed <+: t.heap.closed :=
  Machine.run_invariant (I := fun t => s.heap.closed <+: t.heap.closed)
    (fun hprefix he => hprefix.trans (step_closed he)) h (List.prefix_refl _)

/-- Who destroyed a wrapper had the last `Ref` to it. -/
theorem closed_unheld (h : Machine.run (step build) {} es = some s) (hclosed : ch ∈ s.heap.closed) :
    ch ∉ s.appRefs := by
  intro hheld
  obtain ⟨k, w, hk, hw, -⟩ :=
    ((run_handedOver h).accounts ch).wrapper (Nat.add_pos_left (refs_pos_of_access (.inl hheld)) _)
  obtain ⟨c, hc, -, hnone⟩ := (run_destroyedOnce h).gone ch hclosed
  cases Option.some.inj (hk.symm.trans hc)
  rw [hw] at hnone
  cases hnone

/-- No `_close` of a wrapper comes after its destructor. -/
theorem run_closed_last (h : Machine.run (step build) {} es = some s) (hclosed : ch ∈ s.heap.closed)
    (hrun : Machine.run (step build) s fs = some t) : .closeChannel ch ∉ fs := by
  intro hmem
  obtain ⟨fs₁, fs₂, rfl⟩ := List.append_of_mem hmem
  obtain ⟨m, hm, hrest⟩ := Machine.run_append.mp hrun
  obtain ⟨n, hn, -⟩ := Machine.run_cons.mp hrest
  cases step_cases hn with
  | closeChannel hheld =>
    exact closed_unheld (Machine.run_append.mpr ⟨s, h, hm⟩) ((run_closed hm).subset hclosed) hheld

-- ---------------------------------------------------------------------------
-- Shared states
-- ---------------------------------------------------------------------------

theorem Sound.refs_pos {c : Callback} (hs : Sound s) (hc : c ∈ s.callbacks)
    (hpc : c.pc = .locked (some sid) ∨ c.pc = .queued (some sid)) : 0 < s.heap.refsOf sid := by
  have hle := ListSum.le_total (g := Callback.stateRefs sid) hc
  rw [stateRefs_of_pc hpc, if_pos rfl] at hle
  have := hs.refs sid
  omega

theorem Sound.current_pos (hs : Sound s) (hcur : s.heap.sharedState = some sid) :
    0 < s.heap.refsOf sid := by
  rw [hs.refs sid, if_pos hcur]
  omega

/-- A weak pointer does not bring back what is gone. -/
theorem step_stays_gone (hs : Sound s) (hlt : sid < s.heap.states.length)
    (hgone : s.heap.refsOf sid = 0) (h : step build s e = some t) :
    sid < t.heap.states.length ∧ t.heap.refsOf sid = 0 := by
  have hretain (u : Task) := Heap.retain_same s.heap u
  cases step_cases h with
  | poll => exact ⟨(Heap.swapQueue_shape s.heap).length ▸ hlt, by rw [Heap.refsOf_swapQueue, hgone]⟩
  | emit => exact ⟨(hretain _).states ▸ hlt, by rw [(hretain _).refsOf, hgone]⟩
  | handlerReturn =>
    have hsame {u} := (Heap.release_same s.heap u).trans (Heap.release_same _ u)
    exact ⟨hsame.states ▸ hlt, by rw [hsame.refsOf, hgone]⟩
  | close | initializePc =>
    refine ⟨?_, ?_⟩
    · simp only [State.close, Heap.replaceState_length]
      omega
    · simp [State.close, Heap.refsOf_replaceState, hgone, hlt.ne]
  | destroy =>
    refine ⟨?_, ?_⟩
    · simp only [Heap.destroy_length]
      omega
    · rw [Heap.refsOf_destroy hs.valid, hgone, Nat.zero_sub]
  | invoke _ hannounce =>
    have hsame := announce_same hannounce
    exact ⟨hsame.states ▸ hlt, by rw [hsame.refsOf, hgone]⟩
  | prepare =>
    have hsame {a} := prepareArgs_same s.heap a
    exact ⟨hsame.states ▸ hlt, by rw [hsame.refsOf, hgone]⟩
  | @lock i c k hcb hpc hlocked =>
    have hpos := (lockWeak_some hlocked).2
    have hne : sid ≠ k := fun heq => by rw [← heq, hgone] at hpos; cases hpos
    have hk : k < (s.heap.retain (taskOf build i c)).states.length :=
      (hretain _).states ▸ Heap.lt_of_refsOf_pos hpos
    refine ⟨?_, by rw [Heap.refsOf_lockState hk, (hretain _).refsOf, hgone, if_neg hne]⟩
    exact ((hretain _).shape.trans (Heap.modifyState_shape ..)).length ▸ hlt
  | lockExpired => exact ⟨(hretain _).states ▸ hlt, by rw [(hretain _).refsOf, hgone]⟩
  | push => exact ⟨(Heap.pushTask_shape s.heap _ _).length ▸ hlt, by rw [Heap.refsOf_pushTask, hgone]⟩
  | @finish i c p hcb hpc =>
    have h₁ := Heap.release_same s.heap (taskOf build i c)
    have h₂ := Heap.release_same ((s.heap.release (taskOf build i c)).releaseState? p)
      (taskOf build i c)
    refine ⟨((h₁.shape.trans (Heap.releaseState?_shape ..)).trans h₂.shape).length ▸ hlt, ?_⟩
    rw [h₂.refsOf, Heap.refsOf_releaseState?, h₁.refsOf, hgone, Nat.zero_sub]
  | _ => exact ⟨hlt, hgone⟩

theorem run_stays_gone (hs : Sound s) (hlt : sid < s.heap.states.length)
    (hgone : s.heap.refsOf sid = 0) (h : Machine.run (step build) s es = some t) :
    t.heap.refsOf sid = 0 :=
  (Machine.run_invariant
    (I := fun s => Sound s ∧ sid < s.heap.states.length ∧ s.heap.refsOf sid = 0)
    (fun ⟨hs, hlt, hgone⟩ he => ⟨step_sound hs he, step_stays_gone hs hlt hgone he⟩)
    h ⟨hs, hlt, hgone⟩).2.2

-- ---------------------------------------------------------------------------
-- Every run
-- ---------------------------------------------------------------------------

/-- The object and every callback inside `queue_task` have a shared state that
is there, and one that is gone has dropped its tasks and never comes back; who
has a `Ref` has a wrapper that is there, and each wrapper is destroyed once. That
closes its channel, and no `_close` of the wrapper comes later. -/
theorem objects_outlive_users (h : Machine.run (step build) {} es = some s) :
    (∀ sid, s.heap.sharedState = some sid → 0 < s.heap.refsOf sid) ∧
    (∀ c ∈ s.callbacks, ∀ sid, c.pc = .locked (some sid) ∨ c.pc = .queued (some sid) →
      0 < s.heap.refsOf sid) ∧
    (∀ sid < s.heap.states.length, s.heap.refsOf sid = 0 → s.heap.tasksOf sid = [] ∧
      ∀ fs t, Machine.run (step build) s fs = some t → t.heap.refsOf sid = 0) ∧
    (∀ ch, 0 < s.refs ch + s.heap.queuedRefs ch →
      ∃ k w, s.heap.channels[ch]? = some k ∧ k.wrapper = some w) ∧
    s.heap.closed.Nodup ∧
    (∀ (ch : Nat) k, s.heap.channels[ch]? = some k →
      (ch ∈ s.heap.closed ↔ k.bound = true ∧ k.wrapper = none)) ∧
    (∀ ch ∈ s.heap.closed, ∀ fs t, Machine.run (step build) s fs = some t →
      .closeChannel ch ∉ fs) := by
  have hs := run_sound h
  have hgiven := run_handedOver h
  have hd := run_destroyedOnce h
  refine ⟨fun sid => hs.current_pos, fun c hc sid => hs.refs_pos hc, fun sid hlt hgone => ?_,
    fun ch hpos => ?_, hd.nodup, fun ch k hk => ⟨fun hmem => ?_, fun ⟨hb, hw⟩ => ?_⟩,
    fun ch hclosed fs t => run_closed_last h hclosed⟩
  · exact ⟨hgiven.emptied sid hgone, fun fs t ht => run_stays_gone hs hlt hgone ht⟩
  · obtain ⟨k, w, hk, hw, -⟩ := (hgiven.accounts ch).wrapper hpos
    exact ⟨k, w, hk, hw⟩
  · obtain ⟨c, hc, hgone⟩ := hd.gone ch hmem
    cases Option.some.inj (hk.symm.trans hc)
    exact hgone
  · exact (hgiven.accounts ch).closed k hk hb hw

/-- The application closes the first channel before its destructor does. -/
def closedTwice : List Event := announcedAroundClose ++ [.closeChannel 0, .drop 0]

theorem objects_outlive_users_closedTwice :
    ∃ s, Machine.run (step .gdextension) {} closedTwice = some s ∧ s.heap.closed = [1, 0] ∧
      s.heap.closed.Nodup ∧
      ∀ fs t, Machine.run (step .gdextension) s fs = some t → .closeChannel 0 ∉ fs := by
  have hrun : (Machine.run (step .gdextension) {} closedTwice).map (·.heap.closed) =
      some [1, 0] := by decide
  obtain ⟨s, hs, hclosed⟩ := Option.map_eq_some_iff.mp hrun
  obtain ⟨-, -, -, -, hnodup, -, hlast⟩ := objects_outlive_users hs
  exact ⟨s, hs, hclosed, hnodup, hlast 0 (hclosed ▸ .tail _ (.head _))⟩

end PeerConnection.Signals

end WebRtc
