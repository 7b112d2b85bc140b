import WebRtc.PeerConnection.Conservation
import WebRtc.PeerConnection.Refs

/-!
# Announced channels

Every channel is announced by one callback, and that callback makes its
wrapper: until then the library has delivered nothing.
-/

namespace WebRtc.PeerConnection.Signals

open Heap (SameContents)

variable {build : Build} {s t : State} {c d : Callback} {i j ch : Nat}

def Callback.channel? (c : Callback) : Option Nat :=
  match c.announcement with
  | .dataChannel ch => some ch
  | _ => none

theorem Callback.channel?_eq_some :
    c.channel? = some ch ↔ c.announcement = .dataChannel ch := by
  unfold channel?
  split <;> simp_all

theorem signal_taskOf :
    (taskOf build i c).signal = .dataChannelReceived ch ↔ c.channel? = some ch := by
  unfold taskOf Announcement.signal Callback.channel?
  split <;> simp_all

/-- The events that change a channel otherwise than by counting references. -/
def Event.changesChannel : Event → Bool
  | .getPacket _ | .invoke _ _ | .prepare _ | .arrive _ _ | .deliver _ => true
  | _ => false

theorem step_sameContents (h : step build s e = some t) (he : e.changesChannel = false) :
    SameContents s.heap t.heap := by
  cases step_cases h with
  | poll => exact Heap.sameContents_swapQueue _
  | emit => exact Heap.sameContents_retain _ _
  | handlerReturn => exact (Heap.sameContents_release _ _).trans (Heap.sameContents_release _ _)
  | close | initializePc => exact Heap.sameContents_replaceState _
  | destroy => exact Heap.sameContents_destroy _
  | retain => exact Heap.sameContents_modifyChannel _ _ Heap.kept_retain
  | drop => exact Heap.sameContents_releaseChannel _ _
  | lock => exact (Heap.sameContents_retain _ _).trans (.of_eq rfl)
  | lockExpired => exact Heap.sameContents_retain _ _
  | push => exact Heap.sameContents_pushTask _ _ _
  | finish =>
    exact ((Heap.sameContents_release _ _).trans (Heap.sameContents_releaseState? _ _)).trans
      (Heap.sameContents_release _ _)
  | getPacket | invoke | prepare | arrive | deliver => cases he
  | _ => exact .of_eq rfl

/-- The callbacks announce the channels in turn, each of them once. -/
structure Announced (s : State) : Prop where
  order : s.callbacks.filterMap Callback.channel? = List.range s.heap.channels.length
  bound : ∀ (i ch : Nat) c k, s.callbacks[i]? = some c → c.channel? = some ch →
    s.heap.channels[ch]? = some k → (k.bound = false ↔ c.pc = .invoked)
  fresh : ∀ (ch : Nat) k, s.heap.channels[ch]? = some k → k.bound = false →
    k.wrapper = none ∧ k.delivered = 0

theorem initial_announced : Announced {} := ⟨rfl, by simp, by simp⟩

theorem Announced.known (ha : Announced s) (hcb : s.callbacks[i]? = some c)
    (hc : c.channel? = some ch) : ch < s.heap.channels.length := by
  have hmem : ch ∈ s.callbacks.filterMap Callback.channel? :=
    List.mem_filterMap.mpr ⟨c, List.mem_of_getElem? hcb, hc⟩
  rw [ha.order] at hmem
  exact List.mem_range.mp hmem

theorem Announced.exists (ha : Announced s) (hlt : ch < s.heap.channels.length) :
    ∃ (i : Nat) (c : Callback), s.callbacks[i]? = some c ∧ c.channel? = some ch := by
  have hmem : ch ∈ s.callbacks.filterMap Callback.channel? := by
    rw [ha.order]
    exact List.mem_range.mpr hlt
  obtain ⟨c, hc, hch⟩ := List.mem_filterMap.mp hmem
  obtain ⟨i, hi⟩ := List.mem_iff_getElem?.mp hc
  exact ⟨i, c, hi, hch⟩

theorem Announced.unique (ha : Announced s) (hi : s.callbacks[i]? = some c)
    (hj : s.callbacks[j]? = some d) (hc : c.channel? = some ch) (hd : d.channel? = some ch) :
    i = j := by
  have hnodup : (s.callbacks.filterMap Callback.channel?).Nodup := ha.order ▸ List.nodup_range
  have hpair := List.pairwise_iff_getElem.mp (List.pairwise_filterMap.mp hnodup)
  obtain ⟨hilt, rfl⟩ := List.getElem?_eq_some_iff.mp hi
  obtain ⟨hjlt, rfl⟩ := List.getElem?_eq_some_iff.mp hj
  rcases Nat.lt_trichotomy i j with hij | hij | hij
  · exact absurd rfl (hpair i j hilt hjlt hij ch hc ch hd)
  · exact hij
  · exact absurd rfl (hpair j i hjlt hilt hij ch hd ch hc)

theorem Announced.frame (ha : Announced s) (hcallbacks : t.callbacks = s.callbacks)
    (hh : SameContents s.heap t.heap) : Announced t := by
  refine ⟨?_, fun i ch c k hi hc hk => ?_, fun ch k hk hb => ?_⟩
  · rw [hcallbacks, ha.order, hh.length]
  · obtain ⟨k₀, hk₀, hkept⟩ := hh.channel ch k hk
    rw [hkept.bound]
    exact ha.bound i ch c k₀ (hcallbacks ▸ hi) hc hk₀
  · obtain ⟨k₀, hk₀, hkept⟩ := hh.channel ch k hk
    obtain ⟨hnone, hzero⟩ := ha.fresh ch k₀ hk₀ (hkept.bound ▸ hb)
    refine ⟨Option.eq_none_iff_forall_ne_some.mpr fun w hw => ?_, hkept.delivered.trans hzero⟩
    obtain ⟨v, hv, -⟩ := hkept.object w hw
    rw [hnone] at hv
    cases hv

theorem getElem?_setPc (s : State) (i j : Nat) (pc : CallbackPc) : (s.setPc i pc).callbacks[j]? =
    if i = j then s.callbacks[j]?.map fun c => { c with pc := pc } else s.callbacks[j]? := by
  rw [State.setPc, List.getElem?_modify]
  split <;> simp

theorem filterMap_setPc (s : State) (i : Nat) (pc : CallbackPc) :
    (s.setPc i pc).callbacks.filterMap Callback.channel? =
      s.callbacks.filterMap Callback.channel? := by
  simp only [State.setPc]
  induction s.callbacks generalizing i with
  | nil => simp
  | cons c cs ih =>
    cases i with
    | zero => simp [List.filterMap_cons, Callback.channel?]
    | succ i => simp [List.filterMap_cons, ih]

theorem Announced.setPc (ha : Announced s) (hcb : s.callbacks[i]? = some c)
    (hbefore : c.pc ≠ .invoked) (hafter : pc ≠ .invoked) : Announced (s.setPc i pc) := by
  refine ⟨(filterMap_setPc ..).trans ha.order, fun j ch d k hj hd hk => ?_, ha.fresh⟩
  rw [getElem?_setPc] at hj
  split at hj
  · rename_i hij
    subst hij
    rw [hcb, Option.map_some, Option.some.injEq] at hj
    subst hj
    have := ha.bound i ch c k hcb hd hk
    simp only [this, hbefore, hafter]
  · exact ha.bound j ch d k hj hd hk

theorem Announced.modify (ha : Announced s) (hcallbacks : t.callbacks = s.callbacks)
    {f : Channel → Channel} (hheap : t.heap = s.heap.modifyChannel ch f)
    (hbound : ∀ k, (f k).bound = k.bound)
    (hfresh : ∀ k, s.heap.channels[ch]? = some k → k.bound = false → k.wrapper = none →
      (f k).wrapper = none ∧ (f k).delivered = k.delivered) : Announced t := by
  obtain ⟨horder, hb, hf⟩ := ha
  have hget : ∀ (j : Nat) d, t.heap.channels[j]? = some d →
      ∃ k, s.heap.channels[j]? = some k ∧ (d = k ∨ (j = ch ∧ d = f k)) := fun j d hd => by
    rw [hheap, Heap.getElem?_modifyChannel] at hd
    split at hd
    · rename_i hj
      obtain ⟨k, hk, rfl⟩ := Option.map_eq_some_iff.mp hd
      exact ⟨k, hk, .inr ⟨hj.symm, rfl⟩⟩
    · exact ⟨d, hd, .inl rfl⟩
  refine ⟨?_, fun i j c d hi hc hd => ?_, fun j d hd hdb => ?_⟩
  · rw [hcallbacks, horder, hheap, Heap.modifyChannel, List.length_modify]
  · rw [hcallbacks] at hi
    obtain ⟨k, hk, rfl | ⟨-, rfl⟩⟩ := hget j d hd
    · exact hb i j c d hi hc hk
    · rw [hbound]
      exact hb i j c k hi hc hk
  · obtain ⟨k, hk, rfl | ⟨rfl, rfl⟩⟩ := hget j d hd
    · exact hf j d hk hdb
    · rw [hbound] at hdb
      obtain ⟨hnone, hzero⟩ := hf j k hk hdb
      obtain ⟨hnone', hsame⟩ := hfresh k hk hdb hnone
      exact ⟨hnone', hsame.trans hzero⟩

theorem prepareArgs_of_channel (hc : c.channel? = some ch) (heap : Heap) :
    prepareArgs heap c.announcement =
      heap.modifyChannel ch (Channel.bind · (DataChannel.bindChannel {} false)) := by
  rw [Callback.channel?_eq_some.mp hc]
  rfl

theorem prepareArgs_of_none (hc : c.channel? = none) (heap : Heap) :
    prepareArgs heap c.announcement = heap := by
  cases ha : c.announcement with
  | dataChannel ch => simp [Callback.channel?, ha] at hc
  | localDescription | localCandidate => rfl

theorem Announced.prepare (ha : Announced s) (hcb : s.callbacks[i]? = some c) :
    Announced { s.setPc i .prepared with heap := prepareArgs s.heap c.announcement } := by
  have horder := (filterMap_setPc s i .prepared).trans ha.order
  refine ⟨horder.trans ?_, fun j ch d k hj hd hk => ?_, fun ch k hk hb => ?_⟩
  · cases hc : c.channel? with
    | none => simp only [prepareArgs_of_none hc]
    | some ch => simp only [prepareArgs_of_channel hc, Heap.modifyChannel, List.length_modify]
  · rw [getElem?_setPc] at hj
    split at hj
    · -- the callback itself
      rename_i hij
      subst hij
      rw [hcb, Option.map_some, Option.some.injEq] at hj
      subst hj
      have hc : c.channel? = some ch := hd
      simp only [prepareArgs_of_channel hc, Heap.getElem?_modifyChannel, ↓reduceIte] at hk
      obtain ⟨k₀, -, rfl⟩ := Option.map_eq_some_iff.mp hk
      simp [Channel.bind]
    · rename_i hij
      refine ha.bound j ch d k hj hd ?_
      cases hc : c.channel? with
      | none => simpa only [prepareArgs_of_none hc] using hk
      | some ch' =>
        have hne : ch' ≠ ch := by
          rintro rfl
          exact hij (ha.unique hcb hj hc hd)
        simpa only [prepareArgs_of_channel hc, Heap.getElem?_modifyChannel, if_neg hne] using hk
  · cases hc : c.channel? with
    | none => exact ha.fresh ch k (by simpa only [prepareArgs_of_none hc] using hk) hb
    | some ch' =>
      simp only [prepareArgs_of_channel hc, Heap.getElem?_modifyChannel] at hk
      split at hk
      · obtain ⟨k₀, -, rfl⟩ := Option.map_eq_some_iff.mp hk
        cases hb
      · exact ha.fresh ch k hk hb

theorem getElem?_announce {h k : Heap} {j : Nat} {c : Channel} (hannounce : announce h a = some k)
    (hc : k.channels[j]? = some c) : h.channels[j]? = some c ∨ c = {} := by
  unfold announce at hannounce
  split at hannounce
  · split at hannounce
    · cases hannounce
      exact (ListSum.getElem?_snoc hc).imp_right And.right
    · cases hannounce
  · cases hannounce
    exact .inl hc

theorem Announced.invoke (ha : Announced s) (hannounce : announce s.heap a = some h) :
    Announced { s with heap := h, callbacks := s.callbacks ++ [⟨conn, a, .invoked⟩] } := by
  unfold announce at hannounce
  split at hannounce
  · rename_i ch
    split at hannounce
    · rename_i hch
      cases hannounce
      subst hch
      refine ⟨by simp [ha.order, Callback.channel?, List.range_succ],
        fun j ch d k hj hd hk => ?_, fun ch k hk hb => ?_⟩
      · rcases ListSum.getElem?_snoc hk with hk | ⟨rfl, rfl⟩
        · rcases ListSum.getElem?_snoc hj with hj | ⟨-, rfl⟩
          · exact ha.bound j ch d k hj hd hk
          · cases hd
            exact absurd (List.getElem?_eq_some_iff.mp hk).1 (lt_irrefl _)
        · rcases ListSum.getElem?_snoc hj with hj | ⟨-, rfl⟩
          · exact absurd (ha.known hj hd) (lt_irrefl _)
          · simp
      · rcases ListSum.getElem?_snoc hk with hk | ⟨-, rfl⟩
        · exact ha.fresh ch k hk hb
        · exact ⟨rfl, rfl⟩
    · cases hannounce
  · rename_i hne
    cases hannounce
    have hnone : Callback.channel? ⟨conn, a, .invoked⟩ = none := by
      cases a with
      | dataChannel ch => exact absurd rfl (hne ch)
      | localDescription | localCandidate => rfl
    refine ⟨by simp [ha.order, hnone], fun j ch d k hj hd hk => ?_, ha.fresh⟩
    rcases ListSum.getElem?_snoc hj with hj | ⟨-, rfl⟩
    · exact ha.bound j ch d k hj hd hk
    · rw [hnone] at hd
      cases hd

theorem step_announced (ha : Announced s) (h : step build s e = some t) : Announced t := by
  cases step_cases h with
  | invoke _ hannounce => exact ha.invoke hannounce
  | prepare hcb => exact ha.prepare hcb
  | lock hcb hpc | lockExpired hcb hpc | push hcb hpc | pushExpired hcb hpc | finish hcb hpc =>
    have hh := step_sameContents h rfl
    exact (ha.setPc hcb (by simp [hpc]) (by simp)).frame rfl hh
  | getPacket =>
    exact ha.modify rfl rfl (fun k => rfl) fun k _ _ hnone => by simp [Channel.getPacket, hnone]
  | arrive => exact ha.modify rfl rfl (fun k => rfl) fun k _ _ hnone => ⟨hnone, rfl⟩
  | deliver hk _ hbound =>
    refine ha.modify rfl rfl (fun k => rfl) fun k hk' hfalse _ => ?_
    cases Option.some.inj (hk.symm.trans hk')
    rw [hbound] at hfalse
    cases hfalse
  | _ => exact ha.frame rfl (step_sameContents h rfl)

end WebRtc.PeerConnection.Signals
