import WebRtc.PeerConnection.Custody

/-!
# Handing over remotely opened channels

A channel is handed over at most once, with all that the library has delivered
so far in its queue; and a channel that is not handed over, and that nothing
holds any more, has been closed. A delivery is one step: the packet is queued
under the mutex (`DataChannel.Delivery`).
-/

namespace WebRtc.PeerConnection.Signals

open Heap (SameContents)

variable {build : Build} {s t : State} {c : Callback} {i ch : Nat}

/-- The messages the library has delivered, as `queue_packet` stores them. -/
def packetsOf (k : Channel) : List QueuedPacket := (k.incoming.take k.delivered).map buildPacket

/-- The channel has a wrapper, and its queue holds what was delivered. -/
def Complete (k : Channel) : Prop :=
  ∃ w, k.wrapper = some w ∧ w.object.receiver.packetQueue = packetsOf k

-- ---------------------------------------------------------------------------
-- What the queue of a wrapper holds
-- ---------------------------------------------------------------------------

structure Contents (s : State) : Prop where
  delivered : ∀ (ch : Nat) k, s.heap.channels[ch]? = some k → k.delivered ≤ k.incoming.length
  queue : ∀ (ch : Nat) k w, s.heap.channels[ch]? = some k → k.wrapper = some w → ¬ s.gave ch →
    w.object.receiver.packetQueue = packetsOf k
  emissions : ∀ e ∈ s.emitted, ∀ ch, e.task.signal = .dataChannelReceived ch →
    ∃ k, e.channel = some k ∧ Complete k

theorem initial_contents : Contents {} := ⟨by simp, by simp, by simp⟩

theorem Contents.frame (hs : Contents s) (hh : SameContents s.heap t.heap)
    (hgave : ∀ ch, s.gave ch → t.gave ch)
    (hemissions : ∀ e ∈ t.emitted, e ∈ s.emitted ∨ ∀ ch, e.task.signal = .dataChannelReceived ch →
      ∃ k, e.channel = some k ∧ Complete k) : Contents t := by
  refine ⟨fun ch k hk => ?_, fun ch k w hk hw hg => ?_, fun e he => ?_⟩
  · obtain ⟨k₀, hk₀, hkept⟩ := hh.channel ch k hk
    rw [hkept.delivered, hkept.incoming]
    exact hs.delivered ch k₀ hk₀
  · obtain ⟨k₀, hk₀, hkept⟩ := hh.channel ch k hk
    obtain ⟨v, hv, hvw⟩ := hkept.object w hw
    rw [← hvw, packetsOf, hkept.incoming, hkept.delivered]
    exact hs.queue ch k₀ v hk₀ hv fun h => hg (hgave ch h)
  · exact (hemissions e he).elim (hs.emissions e) id

theorem Contents.modify (hs : Contents s) (hemitted : t.emitted = s.emitted)
    {f : Channel → Channel} (hheap : t.heap = s.heap.modifyChannel ch f)
    (hdelivered : ∀ k, s.heap.channels[ch]? = some k → k.delivered ≤ k.incoming.length →
      (f k).delivered ≤ (f k).incoming.length)
    (hqueue : ∀ k w, s.heap.channels[ch]? = some k → (f k).wrapper = some w → ¬ s.gave ch →
      w.object.receiver.packetQueue = packetsOf (f k)) : Contents t := by
  have hgave : ∀ ch, t.gave ch ↔ s.gave ch := fun ch => by rw [State.gave, State.gave, hemitted]
  refine ⟨fun j k hk => ?_, fun j k w hk hw hg => ?_, hemitted ▸ hs.emissions⟩
  · rw [hheap, Heap.getElem?_modifyChannel] at hk
    split at hk
    · rename_i hj
      subst hj
      obtain ⟨k₀, hk₀, rfl⟩ := Option.map_eq_some_iff.mp hk
      exact hdelivered k₀ hk₀ (hs.delivered ch k₀ hk₀)
    · exact hs.delivered j k hk
  · rw [hgave] at hg
    rw [hheap, Heap.getElem?_modifyChannel] at hk
    split at hk
    · rename_i hj
      subst hj
      obtain ⟨k₀, hk₀, rfl⟩ := Option.map_eq_some_iff.mp hk
      exact hqueue k₀ w hk₀ hw hg
    · exact hs.queue j k w hk hw hg

theorem Contents.announce (hs : Contents s) (hannounce : announce s.heap a = some h)
    (hemitted : t.emitted = s.emitted) (hheap : t.heap = h) : Contents t := by
  have hgave : ∀ ch, t.gave ch ↔ s.gave ch := fun ch => by rw [State.gave, State.gave, hemitted]
  have hnew : ∀ (j : Nat) k, t.heap.channels[j]? = some k → s.heap.channels[j]? = some k ∨ k = {} :=
    fun j k hk => getElem?_announce hannounce (hheap ▸ hk)
  refine ⟨fun j k hk => ?_, fun j k w hk hw hg => ?_, hemitted ▸ hs.emissions⟩
  · rcases hnew j k hk with hk | rfl
    · exact hs.delivered j k hk
    · exact le_refl _
  · rcases hnew j k hk with hk | rfl
    · exact hs.queue j k w hk hw fun h => hg ((hgave j).mpr h)
    · cases hw

theorem packetsOf_deliver (k : Channel) (m : Message) (hm : k.incoming[k.delivered]? = some m) :
    packetsOf (k.deliver m) = packetsOf k ++ [buildPacket m] := by
  simp [packetsOf, Channel.deliver, Channel.onMessage, List.take_add_one, hm]

theorem step_contents (hs : Contents s) (ha : Announced s) (hg : Given s)
    (hfront : ∀ f rest u local_queue, s.stack = f :: rest → f.emitting = false →
      f.localQueue = u :: local_queue → ∀ ch, u.signal = .dataChannelReceived ch →
        ∃ k, s.channelOf u = some k ∧ Complete k)
    (h : step build s e = some t) : Contents t := by
  cases step_cases h with
  | emit hstack idle front =>
    refine hs.frame (step_sameContents h rfl) (fun ch ⟨e, he, hsignal⟩ => ?_) fun e he => ?_
    · exact ⟨e, List.mem_append_left _ he, hsignal⟩
    · rcases List.mem_append.mp he with he | he
      · exact .inl he
      · rw [List.mem_singleton.mp he]
        exact .inr (hfront _ _ _ _ hstack idle front)
  | invoke _ hannounce => exact hs.announce hannounce rfl rfl
  | prepare hcb hpc =>
    cases hc : Callback.channel? _ with
    | none => exact hs.frame (.of_eq (by rw [prepareArgs_of_none hc])) (fun _ h => h) fun _ => .inl
    | some ch =>
      refine hs.modify rfl (prepareArgs_of_channel hc _) (fun _ _ h => h) fun k w hk hw _ => ?_
      -- nothing was delivered before
      cases hw
      have hzero := (ha.fresh ch k hk ((ha.bound _ ch _ k hcb hc hk).mpr hpc)).2
      simp [packetsOf, Channel.bind, hzero, DataChannel.bindChannel]
  | getPacket held =>
    exact hs.modify rfl rfl (fun _ _ h => h) fun k w _ _ hn => absurd (hg.app _ held) hn
  | arrive =>
    refine hs.modify rfl rfl (fun k _ hle => ?_) fun k w hk hw hn => ?_
    · simp only [List.length_append, List.length_singleton]
      omega
    · rw [hs.queue _ k w hk hw hn, packetsOf, packetsOf]
      exact congrArg _ (List.take_append_of_le_length (hs.delivered _ k hk)).symm
  | deliver hk hm =>
    refine hs.modify rfl rfl (fun k hk' hle => ?_) fun k w hk' hw hn => ?_
    · cases Option.some.inj (hk.symm.trans hk')
      exact (List.getElem?_eq_some_iff.mp hm).1
    · cases Option.some.inj (hk.symm.trans hk')
      obtain ⟨v, hv, rfl⟩ := Option.map_eq_some_iff.mp hw
      rw [packetsOf_deliver _ _ hm, ← hs.queue _ _ v hk hv hn]
      rfl
  | _ => exact hs.frame (step_sameContents h rfl) (fun _ h => h) fun _ => .inl

-- ---------------------------------------------------------------------------
-- Every run
-- ---------------------------------------------------------------------------

structure HandedOver (s : State) : Prop where
  announced : Announced s
  accounts : s.heap.Accounts s.refs
  given : Given s
  emptied : Emptied s.heap
  contents : Contents s

theorem initial_handedOver : HandedOver {} := by
  refine ⟨initial_announced, fun ch => ?_, initial_given, fun sid _ => rfl, initial_contents⟩
  exact ⟨rfl, fun k w hk => by simp at hk, fun k hk => by simp at hk⟩

theorem Conserved.unique (hc : Conserved build s) (ha : Announced s) {t u : Task}
    (ht : t ∈ s.places) (hu : u ∈ s.places) (hts : t.signal = .dataChannelReceived ch)
    (hus : u.signal = .dataChannelReceived ch) : t = u := by
  obtain ⟨c, hcb, -, htask⟩ := hc.distinct.made t (hc.places_perm.subset ht)
  obtain ⟨d, hdb, -, hutask⟩ := hc.distinct.made u (hc.places_perm.subset hu)
  have hid : t.id = u.id :=
    ha.unique hcb hdb (signal_taskOf.mp (htask ▸ hts)) (signal_taskOf.mp (hutask ▸ hus))
  rw [hid] at hcb htask
  cases Option.some.inj (hcb.symm.trans hdb)
  exact htask.trans hutask.symm

theorem Conserved.not_gave (hc : Conserved build s) (ha : Announced s) {t : Task}
    (ht : t ∈ s.waiting ++ (s.heap.queue ++ (s.discarded ++ s.gone)))
    (hts : t.signal = .dataChannelReceived ch) : ¬ s.gave ch := by
  rintro ⟨e, he, hes⟩
  have hemitted : e.task ∈ s.emitted.map Emission.task := List.mem_map_of_mem he
  have heq : e.task = t :=
    hc.unique ha (List.mem_append_left _ hemitted) (List.mem_append_right _ ht) hes hts
  have hnodup := hc.places_nodup
  rw [State.places, List.nodup_append] at hnodup
  exact hnodup.2.2 _ hemitted _ ht heq

theorem front_complete (hc : Conserved build s) (hs : HandedOver s) (hstack : s.stack = f :: rest)
    (idle : f.emitting = false) (front : f.localQueue = u :: local_queue)
    (hsignal : u.signal = .dataChannelReceived ch) :
    ∃ k, s.channelOf u = some k ∧ Complete k := by
  have hwaiting : u ∈ s.waiting := by simp [State.waiting, hstack, waiting_emit idle front]
  have hpos : 0 < s.refs ch := by
    have := Task.holds_pos_iff.mpr hsignal
    simp only [State.refs, hstack, ListSum.total_cons, Frame.holds, front]
    omega
  obtain ⟨k, w, hk, hw, -⟩ := (hs.accounts ch).wrapper (Nat.lt_of_lt_of_le hpos (Nat.le_add_right ..))
  have hngave := hc.not_gave hs.announced (List.mem_append_left _ hwaiting) hsignal
  exact ⟨k, by simp [State.channelOf, hsignal, hk], w, hw, hs.contents.queue ch k w hk hw hngave⟩

theorem step_handedOver (hc : Conserved build s) (hs : HandedOver s)
    (h : step build s e = some t) : HandedOver t where
  announced := step_announced hs.announced h
  accounts := step_accounts hc.sound hs.announced hs.accounts h
  given := step_given hs.given h
  emptied := step_emptied hc.sound hs.emptied h
  contents := step_contents hs.contents hs.announced hs.given
    (fun _ _ _ _ hstack idle front _ hsignal => front_complete hc hs hstack idle front hsignal) h

theorem run_handedOver (h : Machine.run (step build) {} es = some s) : HandedOver s :=
  Machine.run_induction (P := fun _ s => HandedOver s) initial_handedOver
    (fun hm hs he => step_handedOver (run_conserved hm) hs he) h

-- ---------------------------------------------------------------------------
-- Where a channel is
-- ---------------------------------------------------------------------------

/-- An `onDataChannel` callback in progress holds the channel. -/
def State.heldByCallback (s : State) (ch : Nat) : Prop :=
  ∃ c ∈ s.callbacks, c.announcement = .dataChannel ch ∧ c.pc ≠ .finished

/-- A task waiting in the queue of a shared state holds it. -/
def State.heldByQueue (s : State) (ch : Nat) : Prop :=
  ∃ st ∈ s.heap.states, 0 < st.refs ∧ ∃ t ∈ st.tasksQueue, t.signal = .dataChannelReceived ch

/-- A task in the local queue of a poll in progress holds it. -/
def State.heldByPoll (s : State) (ch : Nat) : Prop :=
  ∃ f ∈ s.stack, ∃ t ∈ f.localQueue, t.signal = .dataChannelReceived ch

theorem heldByCallback_of_holds (hp : 0 < ListSum.total (Callback.holds ch) s.callbacks) :
    s.heldByCallback ch := by
  obtain ⟨c, hc, hpos⟩ := ListSum.total_pos_iff.mp hp
  unfold Callback.holds at hpos
  split at hpos
  · rename_i hch
    refine ⟨c, hc, Callback.channel?_eq_some.mp hch, fun hpc => ?_⟩
    rw [hpc] at hpos
    cases hpos
  · cases hpos

theorem heldByPoll_of_holds (hp : 0 < ListSum.total (Frame.holds ch) s.stack) : s.heldByPoll ch := by
  obtain ⟨f, hf, hpos⟩ := ListSum.total_pos_iff.mp hp
  have hqueue : 0 < ListSum.total (Task.holds ch) f.localQueue := by
    unfold Frame.holds at hpos
    cases hlocal : f.localQueue with
    | nil => simp [hlocal] at hpos
    | cons u rest =>
      simp only [hlocal, List.take_succ_cons, List.take_zero, ListSum.total_cons,
        ListSum.total_nil] at hpos ⊢
      split at hpos <;> omega
  obtain ⟨t, ht, htpos⟩ := ListSum.total_pos_iff.mp hqueue
  exact ⟨f, hf, t, ht, Task.holds_pos_iff.mp htpos⟩

theorem HandedOver.heldByQueue (hs : HandedOver s) (hp : 0 < s.heap.queuedRefs ch) :
    s.heldByQueue ch := by
  obtain ⟨st, hst, hpos⟩ := ListSum.total_pos_iff.mp hp
  obtain ⟨t, ht, htpos⟩ := ListSum.total_pos_iff.mp hpos
  obtain ⟨sid, hsid⟩ := List.mem_iff_getElem?.mp hst
  refine ⟨st, hst, Nat.pos_of_ne_zero fun hzero => ?_, t, ht, Task.holds_pos_iff.mp htpos⟩
  have hempty := hs.emptied sid (by simp [Heap.refsOf, hsid, hzero])
  simp only [Heap.tasksOf, hsid] at hempty
  rw [hempty] at ht
  cases ht

theorem HandedOver.cases (hs : HandedOver s) (hlt : ch < s.heap.channels.length) :
    s.gave ch ∨ s.heldByCallback ch ∨ s.heldByQueue ch ∨ s.heldByPoll ch ∨ ch ∈ s.heap.closed := by
  have hk := List.getElem?_eq_getElem hlt
  have ho := hs.accounts ch
  cases hb : s.heap.channels[ch].bound with
  | false =>
    -- its callback has not begun
    obtain ⟨i, c, hcb, hc⟩ := hs.announced.exists hlt
    have hpc := (hs.announced.bound i ch c _ hcb hc hk).mp hb
    refine .inr (.inl ⟨c, List.mem_of_getElem? hcb, Callback.channel?_eq_some.mp hc, ?_⟩)
    rw [hpc]
    simp
  | true =>
    cases hw : s.heap.channels[ch].wrapper with
    | none => exact .inr (.inr (.inr (.inr (ho.closed _ hk hb hw))))
    | some w =>
      have hpos := ho.alive _ w hk hw
      have hrefs := ho.refs
      simp only [Heap.wrapperRefs, hk, Option.bind_some, hw, State.refs] at hrefs
      rcases Nat.eq_zero_or_pos (s.heap.queuedRefs ch) with hqueue | hqueue
      · rcases Nat.eq_zero_or_pos (s.appRefs.count ch) with happ | happ
        · rcases Nat.eq_zero_or_pos (ListSum.total (Callback.holds ch) s.callbacks) with hcb | hcb
          · exact .inr (.inr (.inr (.inl (heldByPoll_of_holds (by omega)))))
          · exact .inr (.inl (heldByCallback_of_holds hcb))
        · exact .inl (hs.given.app ch (List.count_pos_iff.mp happ))
      · exact .inr (.inr (.inl (hs.heldByQueue hqueue)))

theorem not_heldByPoll (hc : Conserved build s) (hs : HandedOver s) {t : Task}
    (ht : t ∈ s.discarded ++ s.gone) (hts : t.signal = .dataChannelReceived ch)
    (hngave : ¬ s.gave ch) : ¬ s.heldByPoll ch := by
  rintro ⟨f, hf, u, hu, hus⟩
  have hwaiting : u ∈ f.waiting := by
    unfold Frame.waiting
    split
    · rename_i hemitting
      obtain ⟨v, rest, hqueue⟩ := List.exists_cons_of_ne_nil (List.ne_nil_of_mem hu)
      rw [hqueue] at hu ⊢
      rcases List.mem_cons.mp hu with rfl | hu
      · -- the front of a poll in a handler is being handed over
        obtain ⟨e, he, rfl⟩ := List.mem_map.mp (hs.given.emitting f hf hemitting u (by simp [hqueue]))
        exact absurd ⟨e, he, hus⟩ hngave
      · exact hu
    · exact hu
  have huw : u ∈ s.waiting := List.mem_flatMap.mpr ⟨f, hf, hwaiting⟩
  have hplaces := hc.places_nodup
  rw [State.places, List.nodup_append] at hplaces
  have heq : u = t := hc.unique hs.announced
    (List.mem_append_right _ (List.mem_append_left _ huw))
    (List.mem_append_right _ (List.mem_append_right _ (List.mem_append_right _ ht))) hus hts
  have hrest := (List.nodup_append.mp hplaces.2.1).2.2
  exact hrest u huw t (List.mem_append_right _ ht) heq

/-- With no callback in progress, no shared state but the current one is left. -/
theorem not_heldByQueue (hc : Conserved build s) (hs : HandedOver s) {t : Task}
    (ht : t ∈ s.discarded ++ s.gone) (hts : t.signal = .dataChannelReceived ch)
    (hfinished : ∀ c ∈ s.callbacks, c.pc = .finished) : ¬ s.heldByQueue ch := by
  rintro ⟨st, hst, hrefs, u, hu, hus⟩
  obtain ⟨sid, hsid⟩ := List.mem_iff_getElem?.mp hst
  have hcallbacks : ListSum.total (Callback.stateRefs sid) s.callbacks = 0 :=
    ListSum.total_eq_zero_iff.mpr fun c hcb => by simp only [Callback.stateRefs, hfinished c hcb]
  have hcurrent : s.heap.sharedState = some sid := by
    by_contra hne
    have hzero := hc.sound.refs sid
    simp only [Heap.refsOf, hsid, if_neg hne, hcallbacks] at hzero
    omega
  have hqueue : u ∈ s.heap.queue := by
    rw [Heap.queue_of_current hcurrent]
    simpa only [Heap.tasksOf, hsid] using hu
  have hplaces := hc.places_nodup
  rw [State.places, List.nodup_append, List.nodup_append, List.nodup_append] at hplaces
  have heq : u = t := hc.unique hs.announced
    (List.mem_append_right _ (List.mem_append_right _ (List.mem_append_left _ hqueue)))
    (List.mem_append_right _ (List.mem_append_right _ (List.mem_append_right _ ht))) hus hts
  exact hplaces.2.1.2.1.2.2 u hqueue t ht heq

theorem emitted_once (hc : Conserved build s) (ha : Announced s) (ch : Nat) :
    (s.emitted.filter (·.task.signal = .dataChannelReceived ch)).length ≤ 1 := by
  have hnodup : ((s.emitted.filter (·.task.signal = .dataChannelReceived ch)).map
      Emission.task).Nodup := by
    have hplaces := hc.places_nodup
    rw [State.places, List.nodup_append] at hplaces
    exact hplaces.1.sublist (List.filter_sublist.map _)
  have hsame : ∀ e ∈ s.emitted.filter (·.task.signal = .dataChannelReceived ch),
      e.task ∈ s.places ∧ e.task.signal = .dataChannelReceived ch := fun e he => by
    obtain ⟨hmem, hsignal⟩ := List.mem_filter.mp he
    exact ⟨List.mem_append_left _ (List.mem_map_of_mem hmem), by simpa using hsignal⟩
  generalize s.emitted.filter (·.task.signal = .dataChannelReceived ch) = l at hnodup hsame ⊢
  rcases l with _ | ⟨e, _ | ⟨g, rest⟩⟩
  · exact Nat.zero_le 1
  · exact le_refl 1
  · -- two emissions would be of the same task
    obtain ⟨he, hes⟩ := hsame e (by simp)
    obtain ⟨hg, hgs⟩ := hsame g (by simp)
    have heq := hc.unique ha he hg hes hgs
    simp [heq] at hnodup

/-- A channel is handed over once at most, and then its queue holds what was
delivered, from the first message on; a channel that is not handed over is held
by its callback or by its task, or closed. One whose announcement a `_close` has
dropped, or that came too late, is never handed over, and it is closed as soon
as no callback is in progress. -/
theorem channels_handed_off (h : Machine.run (step .gdextension) {} es = some s) :
    (∀ ch, (s.emitted.filter (·.task.signal = .dataChannelReceived ch)).length ≤ 1) ∧
    (∀ e ∈ s.emitted, ∀ ch, e.task.signal = .dataChannelReceived ch →
      ∃ k w, e.channel = some k ∧ k.wrapper = some w ∧
        w.object.receiver.packetQueue = (k.incoming.take k.delivered).map buildPacket ∧
        ∀ m ∈ k.incoming.take k.delivered, m.data.length < 2 ^ 32 →
          buildPacket m = ⟨m.data, m.isString⟩) ∧
    (∀ ch < s.heap.channels.length, s.gave ch ∨ s.heldByCallback ch ∨ s.heldByQueue ch ∨
      s.heldByPoll ch ∨ ch ∈ s.heap.closed) ∧
    (∀ t ∈ s.discarded ++ s.gone, ∀ ch, t.signal = .dataChannelReceived ch →
      ¬ s.gave ch ∧ (s.heldByCallback ch ∨ s.heldByQueue ch ∨ ch ∈ s.heap.closed) ∧
        ((∀ c ∈ s.callbacks, c.pc = .finished) → ch ∈ s.heap.closed)) := by
  have hc := run_conserved h
  have hs := run_handedOver h
  refine ⟨emitted_once hc hs.announced, fun e he ch hsignal => ?_, fun ch => hs.cases,
    fun t ht ch hsignal => ?_⟩
  · obtain ⟨k, hk, w, hw, hqueue⟩ := hs.contents.emissions e he ch hsignal
    exact ⟨k, w, hk, hw, hqueue, fun m _ hlen => buildPacket_of_lt hlen⟩
  · have hplace : t ∈ s.waiting ++ (s.heap.queue ++ (s.discarded ++ s.gone)) :=
      List.mem_append_right _ (List.mem_append_right _ ht)
    have hngave := hc.not_gave hs.announced hplace hsignal
    have hlt : ch < s.heap.channels.length := by
      obtain ⟨c, hcb, -, htask⟩ := hc.distinct.made t
        (hc.places_perm.subset (List.mem_append_right _ hplace))
      exact hs.announced.known hcb (signal_taskOf.mp (htask ▸ hsignal))
    have hheld : s.heldByCallback ch ∨ s.heldByQueue ch ∨ ch ∈ s.heap.closed := by
      rcases hs.cases hlt with hgave | hcallback | hqueue | hpoll | hclosed
      · exact absurd hgave hngave
      · exact .inl hcallback
      · exact .inr (.inl hqueue)
      · exact absurd hpoll (not_heldByPoll hc hs ht hsignal hngave)
      · exact .inr (.inr hclosed)
    refine ⟨hngave, hheld, fun hfinished => ?_⟩
    rcases hheld with ⟨c, hcb, -, hpc⟩ | hqueue | hclosed
    · exact absurd (hfinished c hcb) hpc
    · exact absurd hqueue (not_heldByQueue hc hs ht hsignal hfinished)
    · exact hclosed

/-- One channel is announced and handed over; another one's callback makes its
wrapper before a `_close` and locks its weak pointer after. -/
def announcedAroundClose : List Event :=
  connect ++ [.invoke 0 (.dataChannel 0), .arrive 0 (.binary [1]), .prepare 0, .deliver 0, .lock 0,
    .push 0, .finish 0, .arrive 0 (.string [104, 105]), .deliver 0, .poll, .emit, .retain 0,
    .getPacket 0, .handlerReturn, .pollReturn, .invoke 0 (.dataChannel 1), .prepare 1, .close,
    .lock 1, .push 1, .finish 1]

theorem channels_handed_off_announcedAroundClose :
    ∃ s, Machine.run (step .gdextension) {} announcedAroundClose = some s ∧
      s.emitted.map (·.task.signal) = [.dataChannelReceived 0] ∧ s.gone.map Task.id = [1] ∧
      s.heap.closed = [1] ∧
      (s.emitted.filter (·.task.signal = .dataChannelReceived 0)).length ≤ 1 ∧
      ∃ e ∈ s.emitted, ∃ k w, e.channel = some k ∧ k.wrapper = some w ∧
        w.object.receiver.packetQueue = [⟨[1], false⟩, ⟨[104, 105], true⟩] := by
  have hrun : (Machine.run (step .gdextension) {} announcedAroundClose).map
      (fun s => (s.emitted.map fun e => (e.task.signal, e.channel.map fun k =>
        k.incoming.take k.delivered), s.gone.map Task.id, s.heap.closed)) =
      some ([(.dataChannelReceived 0, some [.binary [1], .string [104, 105]])], [1], [1]) := by decide
  obtain ⟨s, hs, hv⟩ := Option.map_eq_some_iff.mp hrun
  simp only [Prod.mk.injEq] at hv
  obtain ⟨hemitted, hgone, hclosed⟩ := hv
  obtain ⟨e, he, hone⟩ := List.map_eq_singleton_iff.mp hemitted
  obtain ⟨hsignal, hchannel⟩ := Prod.mk.inj hone
  obtain ⟨honce, hqueues, -⟩ := channels_handed_off hs
  obtain ⟨k, w, hk, hw, hqueue, -⟩ := hqueues e (by simp [he]) 0 hsignal
  rw [hk, Option.map_some, Option.some_inj] at hchannel
  rw [hchannel] at hqueue
  exact ⟨s, hs, by simp [he, hsignal], hgone, hclosed, honce 0, e, by simp [he], k, w, hk, hw, hqueue⟩

end WebRtc.PeerConnection.Signals
