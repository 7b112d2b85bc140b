import WebRtc.PeerConnection.Settled

/-!
# A negotiation completes

From any state of the two peers a bounded number of steps is left until nothing
is underway, however they are scheduled: the descriptions that are owed are
announced, the callbacks and the polls end, what is queued is polled, and each
description is taken to the other peer. As long as one of these steps is left it
can be taken. So a negotiation in which nothing fails ends with both peers
stable.
-/

namespace WebRtc.PeerConnection.Negotiation

open ListSum (total)
open Signals (taskOf)

variable {L : Type} {build : Build} {engine : Engine} {api : PeerApi L} {view : L → Connection}
  {read : Description → Description}

-- ---------------------------------------------------------------------------
-- What is left at one peer
-- ---------------------------------------------------------------------------

/-- The tasks that are queued, and those that are still to be queued. -/
def unpolled (s : Signals.State) : Nat :=
  total (fun c => if c.pc.past then 0 else 1) s.callbacks + s.heap.queue.length

/-- The steps that are left at an object; a poll of the queue and its return are
counted with each task it takes. -/
def pace (s : Signals.State) : Nat := s.work + 4 * unpolled s

theorem unpolled_setPc {s t : Signals.State} (hcb : s.callbacks[i]? = some c)
    (hcallbacks : t.callbacks = (s.setPc i pc).callbacks)
    (hle : t.heap.queue.length + (if pc.past then 0 else 1) ≤
      s.heap.queue.length + if c.pc.past then 0 else 1) : unpolled t ≤ unpolled s := by
  have htotal : total (fun c => if c.pc.past then 0 else 1) (s.setPc i pc).callbacks +
      (if c.pc.past then 0 else 1) =
        total (fun c => if c.pc.past then 0 else 1) s.callbacks + if pc.past then 0 else 1 :=
    ListSum.total_modify _ hcb
  unfold unpolled
  rw [hcallbacks]
  omega

theorem step_unpolled (hs : Signals.Sound s) (he : e.finishes = true) (hstays : aside e = true)
    (h : Signals.step build s e = some t) : unpolled t ≤ unpolled s := by
  have hsame {t : Signals.State} (hcallbacks : t.callbacks = s.callbacks)
      (hqueue : t.heap.queue = s.heap.queue) : unpolled t ≤ unpolled s := by
    rw [unpolled, unpolled, hcallbacks, hqueue]
  cases Signals.step_cases h with
  | emit => exact hsame rfl (Heap.retain_same ..).queue
  | handlerReturn => exact hsame rfl ((Heap.release_same ..).trans (Heap.release_same ..)).queue
  | pollReturn => exact hsame rfl rfl
  | prepare hcb hpc =>
    refine unpolled_setPc hcb rfl ?_
    rw [(Signals.prepareArgs_same ..).queue, hpc]
    exact le_refl _
  | lock hcb hpc =>
    refine unpolled_setPc hcb rfl ?_
    rw [Signals.lockState_queue, (Heap.retain_same ..).queue, hpc]
    exact le_refl _
  | lockExpired hcb hpc =>
    refine unpolled_setPc hcb rfl ?_
    rw [(Heap.retain_same ..).queue, hpc]
    exact le_refl _
  | push hcb hpc =>
    refine unpolled_setPc hcb rfl ?_
    rw [Signals.pushTask_queue (hs.inRange hcb hpc).2, hpc, List.length_append, Nat.add_assoc]
    refine Nat.add_le_add_left ?_ _
    split
    · exact le_refl 1
    · exact Nat.zero_le 1
  | pushExpired hcb hpc =>
    refine unpolled_setPc hcb rfl ?_
    rw [hpc]
    exact Nat.le_succ _
  | finish hcb hpc =>
    refine unpolled_setPc hcb rfl ?_
    rw [hs.finish_queue hcb hpc, hpc]
    exact le_refl _
  | connect | connectFails => cases hstays
  | _ => cases he

theorem step_pace (hs : Signals.Sound s) (he : e.finishes = true) (hstays : aside e = true)
    (h : Signals.step build s e = some t) : pace t < pace s := by
  have hwork := Signals.step_work he h
  have hunpolled := step_unpolled hs he hstays h
  unfold pace
  omega

/-- A poll that finds something in the queue. -/
theorem poll_pace {s t : Signals.State} (hqueue : s.heap.queue ≠ [])
    (hopen : s.heap.peerConnection ≠ none) (h : Signals.step build s .poll = some t) :
    pace t < pace s := by
  have hpos := List.length_pos_iff.mpr hqueue
  cases Signals.step_cases h with
  | pollUnconfigured _ unconfigured => exact absurd unconfigured hopen
  | poll =>
    simp only [pace, unpolled, Signals.State.work, Signals.swapQueue_queue, ListSum.total_cons,
      Signals.Frame.left, Signals.Frame.waiting, List.length_nil, Bool.false_eq_true, ↓reduceIte]
    omega

theorem invoke_pace {s t : Signals.State} (h : Signals.step build s (.invoke conn a) = some t) :
    pace t = pace s + 8 := by
  cases Signals.step_cases h with
  | invoke _ hannounce =>
    simp only [pace, unpolled, Signals.State.work, (Signals.announce_same hannounce).queue,
      ListSum.total_append, ListSum.total_cons, ListSum.total_nil, Signals.CallbackPc.left,
      Signals.CallbackPc.past, Bool.false_eq_true, ↓reduceIte]
    omega

-- ---------------------------------------------------------------------------
-- What is left of the negotiation
-- ---------------------------------------------------------------------------

variable {s t : State L}

/-- What it takes to give the other peer a description that was announced. An
offer is answered, and the answer is announced first. -/
def Side.weight : Side → Nat
  | .offerer => 11
  | .answerer => 1

def Peer.left (view : L → Connection) (side : Side) (p : Peer L) : Nat :=
  side.weight * (underway view p).card + 9 * (view p.lib).owed.length + pace p.signals

def left (view : L → Connection) (s : State L) : Nat :=
  (s.peers .offerer).left view .offerer + (s.peers .answerer).left view .answerer

theorem left_eq (view : L → Connection) (s : State L) (side : Side) :
    left view s = (s.peers side).left view side + (s.peers side.other).left view side.other := by
  cases side with
  | offerer => rfl
  | answerer => exact Nat.add_comm _ _

theorem left_set (side : Side) (p : Peer L) :
    left view (s.set side p) = p.left view side + (s.peers side.other).left view side.other := by
  cases side <;> simp [left, State.set, Side.other, Nat.add_comm]

/-- The steps that bring the negotiation on. -/
def Finishes (s : State L) : Event L → Prop
  | .announce _ _ | .relay _ _ => True
  | .signals side e => e.finishes = true ∨ e = .poll ∧ (s.peers side).signals.heap.queue ≠ []
  | .createOffer | .lose _ _ | .call _ _ | .library _ _ => False

instance (s : State L) : DecidablePred (Finishes s)
  | .announce _ _ | .relay _ _ => isTrue trivial
  | .signals side e => inferInstanceAs
    (Decidable (e.finishes = true ∨ e = .poll ∧ (s.peers side).signals.heap.queue ≠ []))
  | .createOffer | .lose _ _ | .call _ _ | .library _ _ => isFalse id

theorem Peer.left_take {p : Peer L} (side : Side)
    (hget : (announcements p.signals)[i]? = some (.localDescription d)) (htaken : i ∉ p.taken) :
    (p.take i).left view side + side.weight = p.left view side := by
  have hsignals : (p.take i).signals = p.signals := rfl
  simp only [Peer.left, underway_take view hget htaken, Multiset.card_cons, Peer.lib_take, hsignals]
  ring

theorem Peer.left_lib {p : Peer L} (side : Side) (h : (view l).owed = (view p.lib).owed) :
    Peer.left view side { p with lib := l } = p.left view side := by
  simp only [Peer.left, underway_lib h, h]

theorem Peer.left_made {p : Peer L} (side : Side) (h : (view l).owed = (view p.lib).owed ++ [d]) :
    Peer.left view side { p with lib := l } = p.left view side + (side.weight + 9) := by
  simp only [Peer.left, underway_made h, h, Multiset.card_cons, List.length_append,
    List.length_singleton]
  ring

theorem Sane.left_announce {p : Peer L} (hp : Sane build view type p) (side : Side)
    (h : Signals.step build p.signals (.invoke conn (.localDescription d)) = some next)
    (howes : (view p.lib).owed = d :: later) (hpaid : (view l).owed = later) :
    Peer.left view side { p with lib := l, signals := next } < p.left view side := by
  simp only [Peer.left, hp.underway_announce h howes hpaid, invoke_pace h, howes, hpaid,
    List.length_cons]
  omega

theorem Sane.left_signals {p : Peer L} (hp : Sane build view type p) (side : Side)
    (h : Signals.step build p.signals e = some next) (hstays : aside e = true)
    (hfinishes : Finishes s (.signals side e)) (hpeer : s.peers side = p) :
    Peer.left view side { p with signals := next } < p.left view side := by
  have hpace : pace next < pace p.signals := by
    obtain ⟨es, hes⟩ := hp.reached
    have hs := Signals.run_sound hes
    rcases hfinishes with he | ⟨rfl, hqueue⟩
    · exact step_pace hs he hstays h
    · exact poll_pace (hpeer ▸ hqueue) hp.opened h
  simp only [Peer.left, hp.underway_signals h hstays]
  omega

/-- A description that is taken makes less work than it was. -/
theorem left_relay (hget : (announcements (s.peers side).signals)[i]? = some (.localDescription d))
    (htaken : i ∉ (s.peers side).taken) {w : World L Heap}
    (hself : w.self = (s.peers side.other).signals.heap) (ok : Bool)
    (howed : (view w.lib).owed = (view (s.peers side.other).lib).owed ∨
      side = .offerer ∧ ∃ a, (view w.lib).owed = (view (s.peers side.other).lib).owed ++ [a]) :
    left view (s.relay side i ok w) < left view s := by
  have htake : ((s.peers side).take i).left view side + side.weight = (s.peers side).left view side :=
    Peer.left_take side hget htaken
  have hrelay : left view (s.relay side i ok w) = ((s.peers side).take i).left view side +
      Peer.left view side.other { s.peers side.other with lib := w.lib } := by
    rw [State.relay_eq hself]
    cases side <;> simp [left, State.set, Side.other, Nat.add_comm]
  rw [hrelay, left_eq view s side]
  rcases howed with hsame | ⟨rfl, a, hmade⟩
  · have hweight : 0 < side.weight := by cases side <;> decide
    rw [Peer.left_lib _ hsame]
    omega
  · rw [Peer.left_made _ hmade]
    simp only [Side.weight, Side.other] at htake ⊢
    omega

theorem step_left (ho : OffersAndAnswers api view read) (hs : Sound build view s)
    (he : Finishes s e) (h : step build engine api view s e = some t) : left view t < left view s := by
  cases step_cases h with
  | createOffer | lose | call | library => exact he.elim
  | @announce side d owed l conn next howes hpaid hinvoked =>
    have howed : (view l).owed = owed := by rw [hpaid]
    rw [left_set, left_eq view s side]
    exact Nat.add_lt_add_right ((hs side).left_announce side hinvoked howes howed) _
  | @signals e side next hstays hstepped =>
    rw [left_set, left_eq view s side]
    exact Nat.add_lt_add_right ((hs side).left_signals side hstepped hstays he rfl) _
  | @relay side i name sdp r w hdescribed hcall =>
    obtain ⟨d, err, asked, hd, hget, htaken, rfl, hself, hsdp, houtcome⟩ :=
      hs.relayed hdescribed hcall
    refine left_relay hget htaken hself _ ?_
    cases side with
    | offerer => exact (outcome_offer ho hd hsdp houtcome).owed.imp_right fun h => ⟨rfl, h⟩
    | answerer => exact .inl (outcome_answer ho hd hsdp houtcome).owed

-- ---------------------------------------------------------------------------
-- No stall
-- ---------------------------------------------------------------------------

/-- The object is there, and so is a connection of its own. -/
structure Steady (s : Signals.State) : Prop where
  alive : s.alive = true
  initialized : s.initializing = false
  connection : ∃ conn, s.heap.peerConnection = some conn ∧ conn < s.heap.conns.length

theorem connected_steady : Steady connected := ⟨rfl, rfl, 0, rfl, by decide⟩

theorem Stays.steady {s t : Signals.State} (h : Stays s t) (hs : Steady s) : Steady t where
  alive := h.alive.trans hs.alive
  initialized := h.initializing.trans hs.initialized
  connection := by
    rw [h.shape.peerConnection, h.shape.conns]
    exact hs.connection

def Lasts (s : State L) : Prop := ∀ side, Steady (s.peers side).signals

theorem Lasts.set (hs : Lasts s) {side : Side} {p : Peer L} (hp : Steady p.signals) :
    Lasts (s.set side p) := by
  intro k
  rcases eq_or_ne k side with rfl | hne
  · simpa [State.set] using hp
  · simpa [State.set, hne] using hs k

theorem start_lasts (l₁ l₂ : L) : Lasts (start l₁ l₂) := by
  intro side
  cases side <;> exact connected_steady

theorem step_lasts (hs : Lasts s) (h : step build engine api view s e = some t) : Lasts t := by
  cases step_cases h with
  | @relay side i name sdp r w hdescribed hcall =>
    rw [State.relay_eq (setRemoteDescription_self hcall)]
    have hsent : Lasts (s.set side ((s.peers side).take i)) := hs.set (hs side)
    exact fun k => hsent.set (p := { s.peers side.other with lib := w.lib }) (hs side.other) k
  | @announce side d owed l conn next howes hpaid hinvoked =>
    exact hs.set ((step_stays hinvoked rfl).steady (hs side))
  | @signals e side next hstays hstepped =>
    exact hs.set ((step_stays hstepped (lasting_of_aside hstays)).steady (hs side))
  | createOffer =>
    rw [Peer.after_eq (Calls.createOffer_keeps (s.peers .offerer).world)]
    exact hs.set (hs .offerer)
  | @call op side hleaves =>
    rw [Peer.after_eq (leaves_heap hleaves _)]
    exact hs.set (hs side)
  | @lose side | @library l side => exact hs.set (hs side)

/-- The library can announce what it owes. -/
def Announces (view : L → Connection) : Prop :=
  ∀ l d owed, (view l).owed = d :: owed → ∃ l₁, view l₁ = { view l with owed := owed }

/-- No step of what has begun can be taken. -/
def Stalled (build : Build) (engine : Engine) (api : PeerApi L) (view : L → Connection)
    (s : State L) : Prop :=
  ∀ e, Finishes s e → step build engine api view s e = none

theorem Stalled.signals (h : Stalled build engine api view s) {side : Side} (he : aside e = true)
    (hfinishes : Finishes s (.signals side e)) :
    Signals.step build (s.peers side).signals e = none := by
  have hnone := h _ hfinishes
  simpa only [step, he, ↓reduceIte, Option.map_eq_none_iff] using hnone

theorem Stalled.quiescent (h : Stalled build engine api view s) (hs : Sound build view s)
    (hl : Lasts s) (side : Side) : Signals.Quiescent (s.peers side).signals := by
  obtain ⟨es, hes⟩ := (hs side).reached
  have hnone : ∀ e : Signals.Event, e.finishes = true →
      Signals.step build (s.peers side).signals e = none := by
    intro e he
    cases haside : aside e with
    | true => exact h.signals haside (.inl he)
    | false =>
      cases e with
      | createPc ok => simp [Signals.step, (hl side).initialized]
      | close | initializePc | destroy | invoke => cases he
      | _ => cases haside
  exact Signals.quiescent_of_stalled (Signals.run_nested hes) hnone

theorem Stalled.ready (h : Stalled build engine api view s) (hs : Sound build view s)
    (hl : Lasts s) (side : Side) : (s.peers side).signals.ready = true := by
  have hquiet := h.quiescent hs hl side
  simp [Signals.State.ready, (hl side).alive, (hl side).initialized, hquiet.stack]

theorem Stalled.idle (h : Stalled build engine api view s) (hpays : Announces view)
    (hs : Sound build view s) (hl : Lasts s) (side : Side) : Idle view (s.peers side) where
  owed := by
    cases howed : (view (s.peers side).lib).owed with
    | nil => rfl
    | cons d owed =>
      obtain ⟨l, hl'⟩ := hpays _ d owed howed
      obtain ⟨conn, hconn, hlt⟩ := (hl side).connection
      have hnone := h (.announce side l) trivial
      simp [step, hconn, howed, hl', Signals.step, hlt, Signals.announce] at hnone
  callbacks := (h.quiescent hs hl side).callbacks
  stack := (h.quiescent hs hl side).stack
  queue := by
    by_contra hqueue
    have hready := h.ready hs hl side
    obtain ⟨conn, hconn, -⟩ := (hl side).connection
    have hnone := h.signals (e := .poll) rfl (.inr ⟨rfl, hqueue⟩)
    simp [Signals.step, hready, hconn] at hnone
  taken e he := by
    cases hdescribed : (s.peers side).described e.task.id with
    | none => rfl
    | some text =>
      have hready := h.ready hs hl side.other
      have hnone := h (.relay side e.task.id) trivial
      simp [step, hdescribed, hready] at hnone

-- ---------------------------------------------------------------------------
-- Every schedule
-- ---------------------------------------------------------------------------

/-- From any state of the two peers a bounded number of steps is left, however
they are scheduled: as long as something is underway one of them can be taken,
and then both peers are stable, unless a description was lost or refused. -/
theorem negotiation_completes (ho : OffersAndAnswers api view read) (hpays : Announces view)
    (h₁ : view l₁ = {}) (h₂ : view l₂ = {})
    (h : Machine.run (step build engine api view) (start l₁ l₂) es = some s)
    (hfs : Machine.run (step build engine api view) s fs = some t)
    (hfinishes : Machine.Guarded (step build engine api view) Finishes s fs) :
    fs.length ≤ left view s ∧
    ((∃ e, Finishes t e ∧ step build engine api view t e ≠ none) ∨
      (∀ side, Idle view (t.peers side)) ∧
        (t.failed = false → ∀ side, (t.peers side).reports view = .stable)) := by
  have hrun : Machine.run (step build engine api view) (start l₁ l₂) (es ++ fs) = some t :=
    Machine.run_append.mpr ⟨s, h, hfs⟩
  obtain ⟨hs, -⟩ := run_phase ho h₁ h₂ h
  obtain ⟨ht, hphase⟩ := run_phase ho h₁ h₂ hrun
  have hlasts : Lasts t := Machine.run_invariant step_lasts hrun (start_lasts l₁ l₂)
  refine ⟨?_, ?_⟩
  · obtain ⟨-, hle⟩ := Machine.Guarded.length_le_measure (I := Sound build view)
      (fun hs he hstep => ⟨(step_sim ho hs hstep).1, step_left ho hs he hstep⟩) hfinishes hfs hs
    omega
  by_cases hsteps : ∃ e, Finishes t e ∧ step build engine api view t e ≠ none
  · exact .inl hsteps
  have hstalled : Stalled build engine api view t := by
    intro e he
    by_contra hstep
    exact hsteps ⟨e, he, hstep⟩
  have hidle := hstalled.idle hpays ht hlasts
  exact .inr ⟨hidle, fun hok => settled_of_idle ht hphase hok hidle⟩

theorem Bargain.announces : Announces id :=
  fun l _ owed _ => ⟨{ l with owed := owed }, rfl⟩

/-- An offer is made, and the exchange is all that is left. -/
theorem negotiation_completes_exchange :
    ∃ s t, Machine.run (step .gdextension Containment.plainEngine Bargain.peerApi id) (start {} {})
        [.createOffer] = some s ∧
      Machine.run (step .gdextension Containment.plainEngine Bargain.peerApi id) s exchange.tail =
        some t ∧ exchange.tail.length ≤ left id s ∧
      ((∃ e, Finishes t e ∧ step .gdextension Containment.plainEngine Bargain.peerApi id t e ≠ none) ∨
        (∀ side, Idle id (t.peers side)) ∧
          (t.failed = false → ∀ side, (t.peers side).reports id = .stable)) := by
  have hrun : (Machine.run (step .gdextension Containment.plainEngine Bargain.peerApi id) (start {} {})
      [.createOffer]).map (fun s =>
        (decide (Machine.Guarded (step .gdextension Containment.plainEngine Bargain.peerApi id)
            Finishes s exchange.tail),
          (Machine.run (step .gdextension Containment.plainEngine Bargain.peerApi id) s
            exchange.tail).isSome)) = some (true, true) := by decide +kernel
  obtain ⟨s, hs, hv⟩ := Option.map_eq_some_iff.mp hrun
  simp only [Prod.mk.injEq, decide_eq_true_eq] at hv
  obtain ⟨hguarded, hsome⟩ := hv
  obtain ⟨t, ht⟩ := Option.isSome_iff_exists.mp hsome
  exact ⟨s, t, hs, ht, negotiation_completes Bargain.offersAndAnswers Bargain.announces rfl rfl hs ht
    hguarded⟩

end WebRtc.PeerConnection.Negotiation
