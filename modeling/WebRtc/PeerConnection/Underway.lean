import WebRtc.PeerConnection.Negotiation

/-!
# Descriptions underway

What the library of a peer has made and the other peer has not been given is
`underway`. What a step or a call does to it, and to the connection, one peer
at a time.
-/

namespace WebRtc.PeerConnection.Negotiation

open Signals (taskOf)
open Containment (PeerOp)

variable {L : Type} {build : Build} {engine : Engine} {api : PeerApi L} {view : L → Connection}
  {read : Description → Description}

-- ---------------------------------------------------------------------------
-- The callbacks
-- ---------------------------------------------------------------------------

def announcements (s : Signals.State) : List Announcement :=
  s.callbacks.map Signals.Callback.announcement

theorem announcements_setPc (s : Signals.State) (i : Nat) (pc : Signals.CallbackPc) :
    announcements (s.setPc i pc) = announcements s := by
  simp only [announcements, Signals.State.setPc]
  induction s.callbacks generalizing i with
  | nil => simp
  | cons c cs ih => cases i <;> simp_all

/-- What the event announces. -/
def announcedBy : Signals.Event → List Announcement
  | .invoke _ a => [a]
  | _ => []

theorem step_announcements (h : Signals.step build s e = some t) :
    announcements t = announcements s ++ announcedBy e := by
  cases Signals.step_cases h with
  | invoke => simp [announcements, announcedBy]
  | prepare | lock | lockExpired | push | pushExpired | finish =>
    exact (announcements_setPc ..).trans (List.append_nil _).symm
  | _ => exact (List.append_nil _).symm

/-- The object stays, and so does its connection. -/
def lasting : Signals.Event → Bool
  | .close | .initializePc | .createPc _ | .destroy => false
  | _ => true

theorem lasting_of_aside (he : aside e = true) : lasting e = true := by
  cases e with
  | close | initializePc | createPc | destroy => cases he
  | _ => rfl

structure Stays (s t : Signals.State) : Prop where
  shape : Heap.SameShape s.heap t.heap
  alive : t.alive = s.alive
  initializing : t.initializing = s.initializing
  closedBelow : t.closedBelow = s.closedBelow

theorem step_stays (h : Signals.step build s e = some t) (he : lasting e = true) : Stays s t := by
  cases Signals.step_cases h with
  | pollUnconfigured | pollReturn | closeChannel => exact ⟨.refl _, rfl, rfl, rfl⟩
  | poll => exact ⟨Heap.swapQueue_shape _, rfl, rfl, rfl⟩
  | emit => exact ⟨(Heap.retain_same ..).shape, rfl, rfl, rfl⟩
  | handlerReturn =>
    exact ⟨((Heap.release_same ..).trans (Heap.release_same ..)).shape, rfl, rfl, rfl⟩
  | close | initializePc | connect | connectFails | destroy => cases he
  | invoke _ hannounce => exact ⟨(Signals.announce_same hannounce).shape, rfl, rfl, rfl⟩
  | prepare => exact ⟨(Signals.prepareArgs_same ..).shape, rfl, rfl, rfl⟩
  | lock => exact ⟨(Heap.retain_same ..).shape.trans (Heap.modifyState_shape ..), rfl, rfl, rfl⟩
  | lockExpired => exact ⟨(Heap.retain_same ..).shape, rfl, rfl, rfl⟩
  | push => exact ⟨Heap.pushTask_shape .., rfl, rfl, rfl⟩
  | pushExpired => exact ⟨.refl _, rfl, rfl, rfl⟩
  | finish =>
    exact ⟨((Heap.release_same ..).shape.trans (Heap.releaseState?_shape ..)).trans
      (Heap.release_same ..).shape, rfl, rfl, rfl⟩
  | retain | getPacket | arrive | deliver =>
    exact ⟨(Heap.modifyChannel_same ..).shape, rfl, rfl, rfl⟩
  | drop => exact ⟨(Heap.releaseChannel_same ..).shape, rfl, rfl, rfl⟩

theorem step_peerConnection (h : Signals.step build s e = some t) (he : aside e = true) :
    t.heap.peerConnection = s.heap.peerConnection ∧ t.closedBelow = s.closedBelow :=
  have hstays := step_stays h (lasting_of_aside he)
  ⟨hstays.shape.peerConnection, hstays.closedBelow⟩

-- ---------------------------------------------------------------------------
-- One peer
-- ---------------------------------------------------------------------------

structure Sane (build : Build) (view : L → Connection) (type : DescriptionType) (p : Peer L) :
    Prop where
  reached : ∃ es, Machine.run (Signals.step build) {} es = some p.signals
  opened : p.signals.heap.peerConnection ≠ none
  unclosed : p.signals.closedBelow = 0
  taken : ∀ i ∈ p.taken, i < (announcements p.signals).length
  announced : ∀ d, .localDescription d ∈ announcements p.signals → Made type d
  owed : ∀ d ∈ (view p.lib).owed, Made type d

def description? : Announcement → Option Description
  | .localDescription d => some d
  | _ => none

/-- Made by the library, and not taken to the other peer yet. -/
def underway (view : L → Connection) (p : Peer L) : Multiset Description :=
  (Outbox.rest (announcements p.signals) p.taken).filterMap description? + (view p.lib).owed

theorem sane_connected (hview : view l = {}) : Sane build view type { lib := l } where
  reached := ⟨_, run_connected build⟩
  opened := Option.some_ne_none 0
  unclosed := rfl
  taken := by simp
  announced := by simp [announcements, connected]
  owed := by simp [hview]

theorem underway_connected (hview : view l = {}) : underway view { lib := l } = 0 := by
  simp [underway, announcements, connected, hview]

variable {p : Peer L} {type : DescriptionType}

theorem Sane.lib (hp : Sane build view type p) (h : ∀ d ∈ (view l).owed, Made type d) :
    Sane build view type { p with lib := l } :=
  { hp with owed := h }

theorem Sane.lib_eq (hp : Sane build view type p) (h : (view l).owed = (view p.lib).owed) :
    Sane build view type { p with lib := l } :=
  hp.lib (h ▸ hp.owed)

theorem Sane.lib_made (hp : Sane build view type p) (h : (view l).owed = (view p.lib).owed ++ [d])
    (hd : Made type d) : Sane build view type { p with lib := l } := by
  refine hp.lib fun e he => ?_
  rw [h] at he
  rcases List.mem_append.mp he with he | he
  · exact hp.owed e he
  · exact List.mem_singleton.mp he ▸ hd

theorem Sane.signals (hp : Sane build view type p)
    (h : Signals.step build p.signals e = some next)
    (hstays : next.heap.peerConnection = p.signals.heap.peerConnection ∧
      next.closedBelow = p.signals.closedBelow)
    (hmade : ∀ d, .localDescription d ∈ announcedBy e → Made type d) :
    Sane build view type { p with signals := next } where
  reached := by
    obtain ⟨es, hes⟩ := hp.reached
    exact ⟨es ++ [e], Machine.run_snoc.mpr ⟨_, hes, h⟩⟩
  opened := hstays.1 ▸ hp.opened
  unclosed := hstays.2.trans hp.unclosed
  taken i hi := by
    rw [step_announcements h, List.length_append]
    exact Nat.lt_add_right _ (hp.taken i hi)
  announced d hd := by
    rw [step_announcements h] at hd
    exact (List.mem_append.mp hd).elim (hp.announced d) (hmade d)
  owed := hp.owed

theorem announcedBy_aside (he : aside e = true) (d : Description) :
    .localDescription d ∉ announcedBy e := by
  cases e with
  | invoke conn a =>
    cases a with
    | localDescription => cases he
    | localCandidate | dataChannel => simp [announcedBy]
  | _ => simp [announcedBy]

theorem underway_lib (h : (view l).owed = (view p.lib).owed) :
    underway view { p with lib := l } = underway view p := by
  simp only [underway, h]

theorem underway_made (h : (view l).owed = (view p.lib).owed ++ [d]) :
    underway view { p with lib := l } = d ::ₘ underway view p := by
  simp only [underway, h, ← Multiset.coe_add, ← add_assoc]
  exact Multiset.add_comm _ {d}

theorem Sane.underway_signals (hp : Sane build view type p)
    (h : Signals.step build p.signals e = some next) (he : aside e = true) :
    underway view { p with signals := next } = underway view p := by
  simp only [underway, step_announcements h]
  cases e with
  | invoke conn a =>
    rw [announcedBy, Outbox.rest_append hp.taken, Multiset.filterMap_cons_none]
    cases a with
    | localDescription => cases he
    | localCandidate | dataChannel => rfl
  | _ => simp only [announcedBy, List.append_nil]

/-- The description moves from the library into a callback. -/
theorem Sane.underway_announce (hp : Sane build view type p)
    (h : Signals.step build p.signals (.invoke conn (.localDescription d)) = some next)
    (howes : (view p.lib).owed = d :: later) (hpaid : (view l).owed = later) :
    underway view { p with lib := l, signals := next } = underway view p := by
  simp only [underway, step_announcements h, announcedBy, howes, hpaid]
  rw [Outbox.rest_append hp.taken, Multiset.filterMap_cons_some (b := d), ← Multiset.cons_coe,
    Multiset.add_cons, Multiset.cons_add]
  rfl

theorem Sane.announce (hp : Sane build view type p)
    (h : Signals.step build p.signals (.invoke conn (.localDescription d)) = some next)
    (howes : (view p.lib).owed = d :: later) (hpaid : (view l).owed = later) :
    Sane build view type { p with lib := l, signals := next } := by
  have hmade : ∀ e ∈ d :: later, Made type e := howes ▸ hp.owed
  have hstays := step_stays h rfl
  refine (hp.signals h ⟨hstays.shape.peerConnection, hstays.closedBelow⟩ fun e he => ?_).lib
    fun e he => hmade e (List.mem_cons_of_mem _ (hpaid ▸ he))
  cases List.mem_singleton.mp he
  exact hmade _ List.mem_cons_self

theorem Sane.described (hp : Sane build view type p) (h : p.described i = some (name, sdp)) :
    ∃ d, Made type d ∧ (announcements p.signals)[i]? = some (.localDescription d) ∧ i ∉ p.taken ∧
      name = typeName type ∧ sdp = stringOfCString build d.sdp := by
  unfold Peer.described at h
  split at h
  · cases h
  rename_i htaken
  simp only [Option.bind_eq_bind, Option.bind_eq_some_iff] at h
  obtain ⟨e, he, hsignal⟩ := h
  have hid : e.task.id = i := by simpa using List.find?_some he
  obtain ⟨es, hes⟩ := hp.reached
  obtain ⟨c, hc, htask⟩ := emitted_made hes (List.mem_of_find?_eq_some he)
  rw [hid] at hc
  have hget : (announcements p.signals)[i]? = some c.announcement := by simp [announcements, hc]
  have hmade : e.task.signal = c.announcement.signal build := congrArg Task.signal htask
  rw [hmade] at hsignal
  cases hann : c.announcement with
  | localDescription d =>
    rw [hann] at hsignal hget
    cases hsignal
    have hd : Made type d := hp.announced d (List.mem_of_getElem? hget)
    exact ⟨d, hd, hget, htaken, by rw [← hd.type]; rfl, rfl⟩
  | localCandidate | dataChannel =>
    rw [hann] at hsignal
    cases hsignal

theorem Sane.take (hp : Sane build view type p) (h : (announcements p.signals)[i]? = some a) :
    Sane build view type (p.take i) :=
  { hp with
    taken := fun j hj => by
      rcases Finset.mem_insert.mp hj with rfl | hj
      · exact (List.getElem?_eq_some_iff.mp h).1
      · exact hp.taken j hj }

theorem underway_take (view : L → Connection)
    (h : (announcements p.signals)[i]? = some (.localDescription d)) (htaken : i ∉ p.taken) :
    underway view p = d ::ₘ underway view (p.take i) := by
  unfold underway
  rw [Outbox.rest_take h htaken, Multiset.filterMap_cons_some (b := d), Multiset.cons_add]
  · rfl
  · rfl

theorem Peer.after_eq {w : World L Heap} (h : w.self = p.signals.heap) :
    p.after w = { p with lib := w.lib } := by
  unfold Peer.after
  rw [h]

-- ---------------------------------------------------------------------------
-- What the calls do to the connection
-- ---------------------------------------------------------------------------

/-- `_create_offer` makes an offer, or nothing. -/
def Offers (view : L → Connection) (l l₁ : L) : Prop :=
  view l₁ = view l ∨ (view l).signalingState = .stable ∧ ∃ d, Made .offer d ∧
    view l₁ = { view l with
      signalingState := .haveLocalOffer
      localDescription := some d
      owed := (view l).owed ++ [d] }

theorem createOffer_offers (ho : OffersAndAnswers api view read) (w : World L Heap) :
    Offers view w.lib (createOffer api w).2.lib := by
  have hsame : ∀ v : World L Heap, v.lib = w.lib → Offers view w.lib v.lib :=
    fun v hv => .inl (congrArg view hv)
  refine (Eff.sat_always fun v : World L Heap => Offers view w.lib v.lib).mp ?_
  refine Method.sat_tryStd (F := fun _ v => Offers view w.lib v.lib) ?_ fun _ _ h => .pure h
  refine .bind (Method.sat_self (Q := fun _ v => v.lib = w.lib) rfl) fun h v hv => ?_
  split
  · exact .pure (hsame v hv)
  refine .bind (.get (Q := fun _ u => u.lib = w.lib) hv) fun _ u hu => ?_
  split
  · exact .pure (hsame u hu)
  refine .bind (Method.sat_call (Q := fun _ u => Offers view w.lib u.lib) ?_ ?_) fun _ u h => .pure h
  · intro _ l hl
    rw [hu] at hl
    exact ho.localOffer hl
  · intro e l hl
    rw [hu] at hl
    exact ⟨e, rfl, .inl (ho.setLocalThrew hl)⟩

theorem call_keeps_view {f : Call L α} (h : ∀ l, view (f l).2 = view l) (name : CallName) :
    Eff.Keeps (fun w : World L Heap => view w.lib) (Method.call name f : Method L Heap α) := by
  intro w
  have hl := h w.lib
  unfold Method.call
  rcases hf : f w.lib with ⟨_ | _, l⟩ <;> rw [hf] at hl <;> exact hl

theorem leaves_view (ho : OffersAndAnswers api view read) {op : PeerOp L} (hop : leaves op = true)
    (w : World L Heap) : view (op.exec engine api w).2.lib = view w.lib := by
  revert w
  change Eff.Keeps (fun w : World L Heap => view w.lib) (op.exec engine api)
  cases op with
  | createDataChannel p_channel p_channel_config =>
    refine .bind ?_ fun _ => .pure _
    refine .tryCatch (.bind (fun _ => rfl) fun h => ?_) fun e => by cases e <;> exact fun _ => rfl
    split
    · exact .pure _
    dsimp only
    split
    · exact .pure _
    refine .bind (call_keeps_view (fun l => ho.createDataChannel rfl) _) fun ch => ?_
    cases ch with
    | none => exact .pure _
    | some ch => exact .bind (fun _ => rfl) fun l => .pure _
  | setLocalDescription p_type p_sdp =>
    refine .bind (.bind (fun _ => rfl) fun h => ?_) fun _ => .pure _
    split <;> exact .pure _
  | addIceCandidate sdpMidName sdpMlineIndexName sdpName =>
    refine .bind ?_ fun _ => .pure _
    refine .tryCatch (.bind (fun _ => rfl) fun h => ?_) fun e => by cases e <;> exact fun _ => rfl
    split
    · exact .pure _
    refine .bind (call_keeps_view (fun l => ho.candidate rfl) _) fun c => ?_
    exact .bind (call_keeps_view (fun l => ho.addRemoteCandidate rfl) _) fun _ => .pure _
  | _ => cases hop

theorem leaves_heap {op : PeerOp L} (hop : leaves op = true) (w : World L Heap) :
    (op.exec engine api w).2.self = w.self := by
  revert w
  change Method.Keeps id (op.exec engine api)
  cases op with
  | createDataChannel p_channel p_channel_config =>
    exact .bind (Calls.createDataChannel_keeps p_channel p_channel_config) fun _ => .pure _
  | setLocalDescription p_type p_sdp =>
    exact .bind (Calls.setLocalDescription_keeps p_type p_sdp) fun _ => .pure _
  | addIceCandidate sdpMidName sdpMlineIndexName sdpName =>
    exact .bind (Calls.addIceCandidate_keeps sdpMidName sdpMlineIndexName sdpName) fun _ => .pure _
  | _ => cases hop

/-- What becomes of an offer that is taken to the other peer. -/
inductive OfferTaken (view : L → Connection) (d : Description) (l l₁ : L) : Error → Prop
  | rejected (same : view l₁ = view l) : OfferTaken view d l l₁ .failed
  | refused (state : (view l₁).signalingState = .haveRemoteOffer)
      (remote : (view l₁).remoteDescription = some d) (owed : (view l₁).owed = (view l).owed) :
      OfferTaken view d l l₁ .failed
  | answered (answer : Made .answer a) (state : (view l₁).signalingState = .stable)
      (local' : (view l₁).localDescription = some a)
      (remote : (view l₁).remoteDescription = some d)
      (owed : (view l₁).owed = (view l).owed ++ [a]) : OfferTaken view d l l₁ .ok

inductive AnswerTaken (view : L → Connection) (d : Description) (l l₁ : L) : Error → Prop
  | rejected (same : view l₁ = view l) : AnswerTaken view d l l₁ .failed
  | concluded (view' : view l₁ =
      { view l with signalingState := .stable, remoteDescription := some d }) :
      AnswerTaken view d l l₁ .ok

theorem OfferTaken.owed (h : OfferTaken view d l l₁ err) :
    (view l₁).owed = (view l).owed ∨ ∃ a, (view l₁).owed = (view l).owed ++ [a] := by
  cases h with
  | rejected same => exact .inl (congrArg Connection.owed same)
  | refused _ _ owed => exact .inl owed
  | answered _ _ _ _ owed => exact .inr ⟨_, owed⟩

theorem AnswerTaken.owed (h : AnswerTaken view d l l₁ err) : (view l₁).owed = (view l).owed := by
  cases h with
  | rejected same => rw [same]
  | concluded view' => rw [view']

theorem setRemoteDescription_self {w w₁ : World L Heap}
    (h : setRemoteDescription api p_type p_sdp w = (r, w₁)) : w₁.self = w.self := by
  have hkeeps : Method.Keeps id (setRemoteDescription api p_type p_sdp) :=
    Calls.setRemoteDescription_keeps p_type p_sdp
  replace hkeeps := hkeeps w
  rw [h] at hkeeps
  exact hkeeps

theorem OffersAndAnswers.described (ho : OffersAndAnswers api view read) (hd : Made type d)
    (htype : type = .offer ∨ type = .answer) (hsdp : cString (utf8 p_sdp) = d.sdp)
    (h : Described api (typeName type) p_sdp l desc l₁) : desc = read d ∧ view l₁ = view l := by
  refine ⟨?_, ho.description h⟩
  unfold Described at h
  rw [hsdp, cString_typeName, ← hd.type] at h
  exact ho.reads (hd.type ▸ htype) h

theorem outcome_offer (ho : OffersAndAnswers api view read) (hd : Made .offer d)
    (hsdp : cString (utf8 p_sdp) = d.sdp)
    (h : Outcome api (typeName .offer) p_sdp l err l₁ asked) : OfferTaken view (read d) l l₁ err := by
  have hread {desc k} (hk : Described api (typeName .offer) p_sdp l desc k) :=
    ho.described hd (.inl rfl) hsdp hk
  have htype : (read d).type = .offer := ho.readType.trans hd.type
  have happlied : ∀ {desc k}, Applied api (typeName .offer) p_sdp l desc k →
      (view k).signalingState = .haveRemoteOffer ∧ (view k).remoteDescription = some (read d) ∧
        (view k).owed = (view l).owed := by
    rintro desc k ⟨m, hm, hset⟩
    obtain ⟨rfl, hview⟩ := hread hm
    obtain ⟨hstate, hremote, howed⟩ := ho.remoteOffer hset htype
    exact ⟨hstate, hremote, hview ▸ howed⟩
  cases h with
  | notDescribed threw => exact .rejected (ho.description threw)
  | notApplied described threw =>
    exact .rejected ((ho.setRemoteThrew threw).trans (hread described).2)
  | notAnswered applied _ threw =>
    obtain ⟨hstate, hremote, howed⟩ := happlied applied
    rw [← ho.setLocalThrew threw] at hstate hremote howed
    exact .refused hstate hremote howed
  | answered applied _ answer =>
    obtain ⟨hstate, hremote, howed⟩ := happlied applied
    obtain ⟨a, ha, hview⟩ := ho.localAnswer answer hstate
    refine .answered ha ?_ ?_ ?_ ?_ <;> rw [hview]
    · exact hremote
    · simp only [howed]
  | applied _ other => exact absurd rfl other

theorem outcome_answer (ho : OffersAndAnswers api view read) (hd : Made .answer d)
    (hsdp : cString (utf8 p_sdp) = d.sdp)
    (h : Outcome api (typeName .answer) p_sdp l err l₁ asked) :
    AnswerTaken view (read d) l l₁ err := by
  have hread {desc k} (hk : Described api (typeName .answer) p_sdp l desc k) :=
    ho.described hd (.inr rfl) hsdp hk
  cases h with
  | notDescribed threw => exact .rejected (ho.description threw)
  | notApplied described threw =>
    exact .rejected ((ho.setRemoteThrew threw).trans (hread described).2)
  | notAnswered _ offer | answered _ offer => exact absurd offer (by decide)
  | applied applied _ =>
    obtain ⟨m, hm, hset⟩ := applied
    obtain ⟨rfl, hview⟩ := hread hm
    refine .concluded ?_
    rw [ho.remoteAnswer hset (ho.readType.trans hd.type), hview]

end WebRtc.PeerConnection.Negotiation
