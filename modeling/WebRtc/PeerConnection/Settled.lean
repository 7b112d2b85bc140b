import WebRtc.PeerConnection.Agreement
import WebRtc.PeerConnection.Progress

/-!
# A negotiation does not get stuck

Every description that a connection announces is emitted in the end, and the
other peer is given every description that is emitted. So when nothing is left
to do and nothing has failed, the negotiation is over.
-/

namespace WebRtc.PeerConnection.Negotiation

open Signals (taskOf)

variable {L : Type} {build : Build} {engine : Engine} {api : PeerApi L} {view : L → Connection}
  {read : Description → Description} {s : State L}

-- ---------------------------------------------------------------------------
-- Nothing left to do
-- ---------------------------------------------------------------------------

/-- The library owes nothing, no callback and no poll is in progress, no signal
waits, and every description that was emitted has been taken. -/
structure Idle (view : L → Connection) (p : Peer L) : Prop where
  owed : (view p.lib).owed = []
  callbacks : ∀ c ∈ p.signals.callbacks, c.pc = .finished
  stack : p.signals.stack = []
  queue : p.signals.heap.queue = []
  taken : ∀ e ∈ p.signals.emitted, p.described e.task.id = none

instance (view : L → Connection) (p : Peer L) : Decidable (Idle view p) :=
  decidable_of_iff ((view p.lib).owed = [] ∧ (∀ c ∈ p.signals.callbacks, c.pc = .finished) ∧
      p.signals.stack = [] ∧ p.signals.heap.queue = [] ∧
      ∀ e ∈ p.signals.emitted, p.described e.task.id = none)
    ⟨fun ⟨owed, callbacks, stack, queue, taken⟩ => ⟨owed, callbacks, stack, queue, taken⟩,
      fun ⟨owed, callbacks, stack, queue, taken⟩ => ⟨owed, callbacks, stack, queue, taken⟩⟩

/-- Every description that was announced has been taken to the other peer. -/
theorem Sane.taken_of_idle {p : Peer L} (hp : Sane build view type p) (hidle : Idle view p)
    (hget : (announcements p.signals)[i]? = some (.localDescription d)) : i ∈ p.taken := by
  obtain ⟨es, hes⟩ := hp.reached
  obtain ⟨c, hc, hann⟩ : ∃ c, p.signals.callbacks[i]? = some c ∧
      c.announcement = .localDescription d := by
    simpa [announcements] using hget
  have hemitted : taskOf build i c ∈ p.signals.emitted.map Signals.Emission.task := by
    -- there was no `_close` to drop it
    have hcount := Signals.announced_once hes hidle.callbacks hidle.stack hc (hp.unclosed ▸ Nat.zero_le _)
    rw [hidle.queue, List.append_nil] at hcount
    exact List.count_pos_iff.mp (hcount ▸ Nat.one_pos)
  obtain ⟨e, he, htask⟩ := List.mem_map.mp hemitted
  have hid : e.task.id = i := by rw [htask, taskOf]
  have hnone := hidle.taken e he
  rw [hid] at hnone
  by_contra htaken
  obtain ⟨e', hfind⟩ : ∃ e', p.signals.emitted.find? (·.task.id = i) = some e' := by
    rw [← Option.isSome_iff_exists, List.find?_isSome]
    exact ⟨e, he, by simp [hid]⟩
  have hid' : e'.task.id = i := by simpa using List.find?_some hfind
  obtain ⟨c', hc', htask'⟩ := emitted_made hes (List.mem_of_find?_eq_some hfind)
  rw [hid'] at hc' htask'
  cases Option.some.inj (hc.symm.trans hc')
  have hsignal : e'.task.signal = c.announcement.signal build := congrArg Task.signal htask'
  rw [hann] at hsignal
  simp [Peer.described, htaken, hfind, hsignal, Announcement.signal] at hnone

theorem Sane.underway_idle {p : Peer L} (hp : Sane build view type p) (hidle : Idle view p) :
    underway view p = 0 := by
  refine Multiset.eq_zero_of_forall_notMem fun d hd => ?_
  rw [underway, hidle.owed, Multiset.coe_nil, add_zero, Multiset.mem_filterMap] at hd
  obtain ⟨a, ha, had⟩ := hd
  obtain ⟨i, htaken, hget⟩ := Outbox.mem_rest.mp ha
  cases a with
  | localDescription => exact absurd (hp.taken_of_idle hidle hget) htaken
  | localCandidate | dataChannel => cases had

theorem settled_of_idle (hs : Sound build view s) (hphase : OfferAnswer.Phase (abs view read s))
    (hok : s.failed = false) (hidle : ∀ side, Idle view (s.peers side)) (side : Side) :
    (s.peers side).reports view = .stable := by
  have hnone (side : Side) : (underway view (s.peers side)).map read = 0 := by
    rw [(hs side).underway_idle (hidle side), Multiset.map_zero]
  have hstable : (abs view read s).offerer.standing = .stable := by
    by_contra hunstable
    rcases hphase.underway hok hunstable with hoffers | hanswers
    · exact hoffers (hnone .offerer)
    · exact hanswers (hnone .answerer)
  obtain ⟨hstable', -⟩ := hphase.rest_of_stable hstable
  cases side with
  | offerer => exact (hs .offerer).reports_stable.mpr (standing_stable.mp hstable)
  | answerer => exact (hs .answerer).reports_stable.mpr (standing_stable.mp hstable')

/-- When nothing is left to do at either peer and no description was lost or
refused, both report that they are stable. -/
theorem negotiation_settles (ho : OffersAndAnswers api view read) (h₁ : view l₁ = {})
    (h₂ : view l₂ = {}) (h : Machine.run (step build engine api view) (start l₁ l₂) es = some s)
    (hok : s.failed = false) (hidle : ∀ side, Idle view (s.peers side)) (side : Side) :
    (s.peers side).reports view = .stable := by
  obtain ⟨hs, hphase⟩ := run_phase ho h₁ h₂ h
  exact settled_of_idle hs hphase hok hidle side

theorem negotiation_settles_exchange :
    ∃ s, Machine.run (step .gdextension Containment.plainEngine Bargain.peerApi id) (start {} {})
        exchange = some s ∧ ∀ side, (s.peers side).reports id = .stable := by
  have hrun : (Machine.run (step .gdextension Containment.plainEngine Bargain.peerApi id) (start {} {})
      exchange).map (fun s => (s.failed, decide (Idle id (s.peers .offerer)),
        decide (Idle id (s.peers .answerer)))) = some (false, true, true) := by decide +kernel
  obtain ⟨s, hs, hv⟩ := Option.map_eq_some_iff.mp hrun
  simp only [Prod.mk.injEq, decide_eq_true_eq] at hv
  obtain ⟨hok, hofferer, hanswerer⟩ := hv
  refine ⟨s, hs, negotiation_settles Bargain.offersAndAnswers rfl rfl hs hok ?_⟩
  rintro (_ | _)
  · exact hofferer
  · exact hanswerer

end WebRtc.PeerConnection.Negotiation
