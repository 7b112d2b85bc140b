import WebRtc.PeerConnection.Underway

/-!
# The peers agree

Every step of the two peers is a run of the machine of `Lib.OfferAnswer`, with
what is underway on its way: so whenever the offering peer is stable, both ends
have what the other one made.
-/

namespace WebRtc.PeerConnection.Negotiation

open Signals (taskOf)
open Containment (PeerOp)

variable {L : Type} {build : Build} {engine : Engine} {api : PeerApi L} {view : L → Connection}
  {read : Description → Description} {s t : State L}

-- ---------------------------------------------------------------------------
-- The two peers as an offer and its answer
-- ---------------------------------------------------------------------------

def standing : SignalingState → Standing
  | .stable => .stable
  | .haveLocalOffer => .offering
  | _ => .pending

theorem standing_stable : standing state = .stable ↔ state = .stable := by cases state <;> simp [standing]

/-- The local description, as it reads at the other peer. -/
def endOf (read : Description → Description) (c : Connection) : End Description :=
  ⟨standing c.signalingState, c.localDescription.map read, c.remoteDescription⟩

def abs (view : L → Connection) (read : Description → Description) (s : State L) :
    OfferAnswer Description where
  offerer := endOf read (view (s.peers .offerer).lib)
  answerer := endOf read (view (s.peers .answerer).lib)
  offers := (underway view (s.peers .offerer)).map read
  answers := (underway view (s.peers .answerer)).map read
  failed := s.failed

def Sound (build : Build) (view : L → Connection) (s : State L) : Prop :=
  ∀ side : Side, Sane build view side.makes (s.peers side)

theorem Sound.set (hs : Sound build view s) {side : Side} {p : Peer L}
    (hp : Sane build view side.makes p) : Sound build view (s.set side p) := by
  intro k
  rcases eq_or_ne k side with rfl | hne
  · simpa [State.set] using hp
  · simpa [State.set, hne] using hs k

theorem abs_set {side : Side} {p : Peer L}
    (hend : endOf read (view p.lib) = endOf read (view (s.peers side).lib))
    (hunder : underway view p = underway view (s.peers side)) :
    abs view read (s.set side p) = abs view read s := by
  cases side <;> simp [abs, State.set, hend, hunder]

/-- A step of one peer that the other machine does not see. -/
theorem silent (hs : Sound build view s) {side : Side} {p : Peer L}
    (hp : Sane build view side.makes p)
    (hend : endOf read (view p.lib) = endOf read (view (s.peers side).lib))
    (hunder : underway view p = underway view (s.peers side)) :
    Sound build view (s.set side p) ∧ ∃ ops, Machine.run OfferAnswer.step (abs view read s) ops =
      some (abs view read (s.set side p)) :=
  ⟨hs.set hp, [], by rw [abs_set hend hunder]; rfl⟩

theorem silent_lib (hs : Sound build view s) {side : Side} (h : view l = view (s.peers side).lib) :
    Sound build view (s.set side { s.peers side with lib := l }) ∧
      ∃ ops, Machine.run OfferAnswer.step (abs view read s) ops =
        some (abs view read (s.set side { s.peers side with lib := l })) := by
  have howed : (view l).owed = (view (s.peers side).lib).owed := congrArg Connection.owed h
  refine silent hs ((hs side).lib_eq howed) ?_ (underway_lib howed)
  rw [h]

-- ---------------------------------------------------------------------------
-- One lemma for each step
-- ---------------------------------------------------------------------------

theorem sim_createOffer (hs : Sound build view s) (h : Offers view (s.peers .offerer).lib l) :
    Sound build view (s.set .offerer { s.peers .offerer with lib := l }) ∧
      ∃ ops, Machine.run OfferAnswer.step (abs view read s) ops =
        some (abs view read (s.set .offerer { s.peers .offerer with lib := l })) := by
  rcases h with hsame | ⟨hstable, d, hd, hview⟩
  · exact silent_lib hs hsame
  · have howed : (view l).owed = (view (s.peers .offerer).lib).owed ++ [d] := by rw [hview]
    refine ⟨hs.set ((hs .offerer).lib_made howed hd), [.offer (read d)], ?_⟩
    have hstanding : (abs view read s).offerer.standing = .stable := standing_stable.mpr hstable
    rw [Machine.run_singleton, OfferAnswer.step, if_pos hstanding]
    simp [abs, State.set, underway_made howed, hview, endOf, standing]

theorem sim_lose (hs : Sound build view s) {side : Side}
    (hdescribed : (s.peers side).described i = some text) :
    Sound build view (s.lose side i) ∧ ∃ ops, Machine.run OfferAnswer.step (abs view read s) ops =
      some (abs view read (s.lose side i)) := by
  obtain ⟨d, -, hget, htaken, -, -⟩ := (hs side).described hdescribed
  have hunder := underway_take view hget htaken
  refine ⟨hs.set ((hs side).take hget), ?_⟩
  cases side with
  | offerer =>
    refine ⟨[.loseOffer (read d)], ?_⟩
    have hoffers : (abs view read s).offers =
        read d ::ₘ (underway view ((s.peers .offerer).take i)).map read := by
      rw [abs, hunder, Multiset.map_cons]
    rw [Machine.run_singleton, OfferAnswer.step, hoffers, if_pos (Multiset.mem_cons_self _ _),
      Multiset.erase_cons_head]
    rfl
  | answerer =>
    refine ⟨[.loseAnswer (read d)], ?_⟩
    have hanswers : (abs view read s).answers =
        read d ::ₘ (underway view ((s.peers .answerer).take i)).map read := by
      rw [abs, hunder, Multiset.map_cons]
    rw [Machine.run_singleton, OfferAnswer.step, hanswers, if_pos (Multiset.mem_cons_self _ _),
      Multiset.erase_cons_head]
    rfl

theorem State.relay_eq {side : Side} {w : World L Heap} (h : w.self = (s.peers side.other).signals.heap)
    (i : Nat) (ok : Bool) : s.relay side i ok w =
      { (s.set side ((s.peers side).take i)).set side.other
          { s.peers side.other with lib := w.lib } with failed := s.failed || !ok } := by
  rw [State.relay, Peer.after_eq h]

theorem sim_relayOffer (hs : Sound build view s)
    (hget : (announcements (s.peers .offerer).signals)[i]? = some (.localDescription d))
    (htaken : i ∉ (s.peers .offerer).taken) {w : World L Heap}
    (hself : w.self = (s.peers .answerer).signals.heap)
    (h : OfferTaken view (read d) (s.peers .answerer).lib w.lib err) :
    Sound build view (s.relay .offerer i (succeeded (.ok err)) w) ∧
      ∃ ops, Machine.run OfferAnswer.step (abs view read s) ops =
        some (abs view read (s.relay .offerer i (succeeded (.ok err)) w)) := by
  have hunder := underway_take view hget htaken
  have hoffers : (abs view read s).offers =
      read d ::ₘ (underway view ((s.peers .offerer).take i)).map read := by
    rw [abs, hunder, Multiset.map_cons]
  have hsent : read d ∈ (abs view read s).offers := hoffers ▸ Multiset.mem_cons_self _ _
  have hsender : Sane build view Side.offerer.makes ((s.peers .offerer).take i) := (hs .offerer).take hget
  rw [State.relay_eq hself]
  cases h with
  | rejected same =>
    have howed : (view w.lib).owed = (view (s.peers .answerer).lib).owed := by rw [same]
    refine ⟨(hs.set hsender).set ((hs .answerer).lib_eq howed), [.loseOffer (read d)], ?_⟩
    rw [Machine.run_singleton, OfferAnswer.step, if_pos hsent, hoffers, Multiset.erase_cons_head]
    simp [abs, State.set, Side.other, succeeded, same, underway_lib howed]
  | refused state remote owed =>
    refine ⟨(hs.set hsender).set ((hs .answerer).lib_eq owed),
      [.refuse (read d) ((view w.lib).localDescription.map read)], ?_⟩
    rw [Machine.run_singleton, OfferAnswer.step, if_pos hsent, hoffers, Multiset.erase_cons_head]
    simp [abs, State.set, Side.other, succeeded, endOf, state, remote, standing, underway_lib owed]
  | @answered a answer state local' remote owed =>
    refine ⟨(hs.set hsender).set ((hs .answerer).lib_made owed answer),
      [.accept (read d) (read a)], ?_⟩
    rw [Machine.run_singleton, OfferAnswer.step, if_pos hsent, hoffers, Multiset.erase_cons_head]
    simp [abs, State.set, Side.other, succeeded, endOf, state, local', remote, standing,
      underway_made owed]

theorem sim_relayAnswer (hs : Sound build view s)
    (hget : (announcements (s.peers .answerer).signals)[i]? = some (.localDescription d))
    (htaken : i ∉ (s.peers .answerer).taken) {w : World L Heap}
    (hself : w.self = (s.peers .offerer).signals.heap)
    (h : AnswerTaken view (read d) (s.peers .offerer).lib w.lib err) :
    Sound build view (s.relay .answerer i (succeeded (.ok err)) w) ∧
      ∃ ops, Machine.run OfferAnswer.step (abs view read s) ops =
        some (abs view read (s.relay .answerer i (succeeded (.ok err)) w)) := by
  have hunder := underway_take view hget htaken
  have hanswers : (abs view read s).answers =
      read d ::ₘ (underway view ((s.peers .answerer).take i)).map read := by
    rw [abs, hunder, Multiset.map_cons]
  have hsent : read d ∈ (abs view read s).answers := hanswers ▸ Multiset.mem_cons_self _ _
  have hsender : Sane build view Side.answerer.makes ((s.peers .answerer).take i) := (hs .answerer).take hget
  have howed := h.owed
  have hreceiver := (hs .offerer).lib_eq howed
  rw [State.relay_eq hself]
  cases h with
  | rejected same =>
    refine ⟨(hs.set hsender).set hreceiver, [.loseAnswer (read d)], ?_⟩
    rw [Machine.run_singleton, OfferAnswer.step, if_pos hsent, hanswers, Multiset.erase_cons_head]
    simp [abs, State.set, Side.other, succeeded, same, underway_lib howed]
  | concluded view' =>
    refine ⟨(hs.set hsender).set hreceiver, [.conclude (read d)], ?_⟩
    rw [Machine.run_singleton, OfferAnswer.step, if_pos hsent, hanswers, Multiset.erase_cons_head]
    simp [abs, State.set, Side.other, succeeded, endOf, view', standing, underway_lib howed]

/-- What is taken to the other peer is what was announced, and its library has
been asked for it. -/
theorem Sound.relayed (hs : Sound build view s) {w : World L Heap}
    (hdescribed : (s.peers side).described i = some (name, sdp))
    (hcall : setRemoteDescription api name sdp (s.peers side.other).world = (r, w)) :
    ∃ d err asked, Made side.makes d ∧
      (announcements (s.peers side).signals)[i]? = some (.localDescription d) ∧
      i ∉ (s.peers side).taken ∧ r = .ok err ∧ w.self = (s.peers side.other).signals.heap ∧
      cString (utf8 sdp) = d.sdp ∧
      Outcome api (typeName side.makes) sdp (s.peers side.other).lib err w.lib asked := by
  obtain ⟨d, hd, hget, htaken, rfl, rfl⟩ := (hs side).described hdescribed
  obtain ⟨err, w', asked, hreturns, houtcome, -⟩ :=
    setRemoteDescription_outcome api (w := (s.peers side.other).world) (hs side.other).opened
      (typeName side.makes) (stringOfCString build d.sdp)
  cases hreturns.symm.trans hcall
  exact ⟨d, err, asked, hd, hget, htaken, rfl, setRemoteDescription_self hcall,
    cString_utf8_stringOfCString_iff.mpr (.of_ascii hd.plain build), houtcome⟩

theorem step_sim (ho : OffersAndAnswers api view read) (hs : Sound build view s)
    (h : step build engine api view s e = some t) : Sound build view t ∧
      ∃ ops, Machine.run OfferAnswer.step (abs view read s) ops = some (abs view read t) := by
  cases step_cases h with
  | createOffer =>
    rw [Peer.after_eq (Calls.createOffer_keeps (s.peers .offerer).world)]
    exact sim_createOffer hs (createOffer_offers ho (s.peers .offerer).world)
  | @relay side i name sdp r w hdescribed hcall =>
    obtain ⟨d, err, asked, hd, hget, htaken, rfl, hself, hsdp, houtcome⟩ :=
      hs.relayed hdescribed hcall
    cases side with
    | offerer => exact sim_relayOffer hs hget htaken hself (outcome_offer ho hd hsdp houtcome)
    | answerer => exact sim_relayAnswer hs hget htaken hself (outcome_answer ho hd hsdp houtcome)
  | lose hdescribed => exact sim_lose hs hdescribed
  | @announce side d owed l conn next howes hpaid hinvoked =>
    have howed : (view l).owed = owed := by rw [hpaid]
    refine silent hs ((hs side).announce hinvoked howes howed) ?_
      ((hs side).underway_announce hinvoked howes howed)
    dsimp only
    rw [hpaid]
    rfl
  | @signals e side next hstays hstepped =>
    have hsane := (hs side).signals hstepped (step_peerConnection hstepped hstays)
      fun d hd => absurd hd (announcedBy_aside hstays d)
    exact silent hs hsane rfl ((hs side).underway_signals hstepped hstays)
  | call hleaves =>
    rw [Peer.after_eq (leaves_heap hleaves _)]
    exact silent_lib hs (leaves_view ho hleaves _)
  | library same => exact silent_lib hs same

/-- Two new objects. -/
def start (l₁ l₂ : L) : State L where
  peers
    | .offerer => { lib := l₁ }
    | .answerer => { lib := l₂ }

theorem start_sound (h₁ : view l₁ = {}) (h₂ : view l₂ = {}) : Sound build view (start l₁ l₂) := by
  intro side
  cases side with
  | offerer => exact sane_connected h₁
  | answerer => exact sane_connected h₂

theorem abs_start (h₁ : view l₁ = {}) (h₂ : view l₂ = {}) : abs view read (start l₁ l₂) = {} := by
  simp [abs, start, underway_connected h₁, underway_connected h₂, h₁, h₂, endOf, standing]

theorem simulation (ho : OffersAndAnswers api view read) :
    Machine.Simulation (step build engine api view) (fun _ _ => True) OfferAnswer.step
      (fun _ _ => True) (abs view read) (Sound build view) where
  inv hs h := (step_sim ho hs h).1
  sim hs h := by
    obtain ⟨-, ops, hops⟩ := step_sim ho hs h
    exact ⟨ops, hops, fun _ => Machine.guarded_true ..⟩

theorem run_phase (ho : OffersAndAnswers api view read) (h₁ : view l₁ = {}) (h₂ : view l₂ = {})
    (h : Machine.run (step build engine api view) (start l₁ l₂) es = some s) :
    Sound build view s ∧ OfferAnswer.Phase (abs view read s) := by
  have hstart : Sound build view (start l₁ l₂) := start_sound h₁ h₂
  obtain ⟨ops, hops, -⟩ := (simulation ho).run h hstart
  rw [abs_start h₁ h₂] at hops
  exact ⟨Machine.run_invariant (fun hs he => (step_sim ho hs he).1) h hstart,
    OfferAnswer.run_phase hops⟩

-- ---------------------------------------------------------------------------
-- A library that negotiates
-- ---------------------------------------------------------------------------

namespace Bargain

def setRemoteDescription (desc : Description) : Call Connection Unit := fun c =>
  match desc.type, c.signalingState with
  | .offer, .stable =>
    (.ok (), { c with signalingState := .haveRemoteOffer, remoteDescription := some desc })
  | .answer, .haveLocalOffer =>
    (.ok (), { c with signalingState := .stable, remoteDescription := some desc })
  | _, _ => (.error "Unexpected remote description", c)

def make (state : SignalingState) (d : Description) (c : Connection) : Connection :=
  { c with signalingState := state, localDescription := some d, owed := c.owed ++ [d] }

def setLocalDescription (type : DescriptionType) : Call Connection Unit := fun c =>
  if type = .offer ∧ c.signalingState = .stable then
    (.ok (), make .haveLocalOffer ⟨utf8 "v=0", .offer⟩ c)
  else if type = .answer ∧ c.signalingState = .haveRemoteOffer then
    (.ok (), make .stable ⟨utf8 "v=0", .answer⟩ c)
  else (.ok (), c)

def peerApi : PeerApi Connection := { PeerApi.sink Connection with
  description := fun sdp name c => (.ok ⟨sdp, Session.typeOf name⟩, c)
  setRemoteDescription := setRemoteDescription
  setLocalDescription := setLocalDescription }

theorem made (type : DescriptionType) : Made type ⟨utf8 "v=0", type⟩ :=
  ⟨rfl, fun b hb => by
    have hall : (utf8 "v=0").all fun b => b ≠ 0 ∧ b.toNat < 128 := rfl
    exact of_decide_eq_true (List.all_eq_true.mp hall b hb)⟩

theorem offersAndAnswers : OffersAndAnswers peerApi id id where
  description h := by cases h; rfl
  reads {d _ _ _} htype h := by
    cases h
    have htypeOf : Session.typeOf (utf8 (typeName d.type)) = d.type := by
      rcases htype with h | h <;> rw [h] <;> rfl
    exact congrArg (Description.mk d.sdp) htypeOf
  readType := rfl
  remoteOffer h htype := by
    simp only [peerApi, setRemoteDescription] at h
    split at h <;> cases h
    · exact ⟨rfl, rfl, rfl⟩
    · simp_all
  remoteAnswer h htype := by
    simp only [peerApi, setRemoteDescription] at h
    split at h <;> cases h
    · simp_all
    · rfl
  setRemoteThrew h := by
    simp only [peerApi, setRemoteDescription] at h
    split at h <;> cases h
    rfl
  localOffer h := by
    simp only [peerApi, setLocalDescription] at h
    split at h
    · rename_i hstable
      cases h
      exact .inr ⟨hstable.2, _, made .offer, rfl⟩
    · cases h
      exact .inl rfl
  localAnswer {l _} h hstate := by
    have hstate : l.signalingState = .haveRemoteOffer := hstate
    simp only [peerApi, setLocalDescription, hstate] at h
    cases h
    exact ⟨_, made .answer, rfl⟩
  setLocalThrew h := by
    simp only [peerApi, setLocalDescription] at h
    repeat' split at h
    all_goals cases h
  createDataChannel h := by cases h; rfl
  candidate h := by cases h; rfl
  addRemoteCandidate h := by cases h; rfl

end Bargain

-- ---------------------------------------------------------------------------
-- Agreement
-- ---------------------------------------------------------------------------

def Peer.reports (view : L → Connection) (p : Peer L) : ReportedSignalingState :=
  getSignalingState (fun l => (view l).signalingState) p.world

theorem Sane.reports_stable {p : Peer L} (hp : Sane build view type p) :
    p.reports view = .stable ↔ (view p.lib).signalingState = .stable :=
  getSignalingState_stable hp.opened

/-- Whenever the offering peer reports that it is stable, so does the other
peer, nothing is underway, and each has what the other one made. -/
theorem negotiation_agrees (ho : OffersAndAnswers api view read) (h₁ : view l₁ = {})
    (h₂ : view l₂ = {}) (h : Machine.run (step build engine api view) (start l₁ l₂) es = some s)
    (hstable : (s.peers .offerer).reports view = .stable) :
    (s.peers .answerer).reports view = .stable ∧
    (∀ side, underway view (s.peers side) = 0) ∧
    ∀ side : Side, (view (s.peers side.other).lib).remoteDescription =
      (view (s.peers side).lib).localDescription.map read := by
  obtain ⟨hs, hphase⟩ := run_phase ho h₁ h₂ h
  have hrest : (abs view read s).offerer.standing = .stable :=
    standing_stable.mpr ((hs .offerer).reports_stable.mp hstable)
  obtain ⟨hstable', hoffers, hanswers, hagreed, hagreed'⟩ := hphase.rest_of_stable hrest
  refine ⟨(hs .answerer).reports_stable.mpr (standing_stable.mp hstable'), ?_, ?_⟩
  · rintro (_ | _)
    · exact Multiset.map_eq_zero.mp hoffers
    · exact Multiset.map_eq_zero.mp hanswers
  · rintro (_ | _)
    · exact hagreed.symm
    · exact hagreed'

/-- The library of the side announces the description it owes, and a poll emits
the signal, whose handler takes it to the other peer. -/
def carry (side : Side) (paid : Connection) : List (Event Connection) :=
  [.announce side paid, .signals side (.prepare 0), .signals side (.lock 0), .signals side (.push 0),
    .signals side (.finish 0), .signals side .poll, .signals side .emit, .relay side 0,
    .signals side .handlerReturn, .signals side .pollReturn]

def exchange : List (Event Connection) :=
  .createOffer ::
    (carry .offerer ⟨.haveLocalOffer, some ⟨utf8 "v=0", .offer⟩, none, []⟩ ++
      carry .answerer ⟨.stable, some ⟨utf8 "v=0", .answer⟩, some ⟨utf8 "v=0", .offer⟩, []⟩)

theorem negotiation_agrees_exchange :
    ∃ s, Machine.run (step .gdextension Containment.plainEngine Bargain.peerApi id) (start {} {})
        exchange = some s ∧
      (s.peers .offerer).lib.localDescription = some ⟨utf8 "v=0", .offer⟩ ∧
      (s.peers .answerer).lib.remoteDescription = some ⟨utf8 "v=0", .offer⟩ := by
  have hrun : (Machine.run (step .gdextension Containment.plainEngine Bargain.peerApi id) (start {} {})
      exchange).map (fun s =>
        ((s.peers .offerer).reports id, (s.peers .offerer).lib.localDescription)) =
      some (.stable, some ⟨utf8 "v=0", .offer⟩) := by decide +kernel
  obtain ⟨s, hs, hv⟩ := Option.map_eq_some_iff.mp hrun
  obtain ⟨hstable, hlocal⟩ := Prod.mk.inj hv
  obtain ⟨-, -, hsame⟩ := negotiation_agrees Bargain.offersAndAnswers rfl rfl hs hstable
  refine ⟨s, hs, hlocal, (hsame .offerer).trans ?_⟩
  rw [id_eq, hlocal]
  rfl

end WebRtc.PeerConnection.Negotiation
