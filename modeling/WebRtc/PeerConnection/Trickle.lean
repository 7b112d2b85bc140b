import WebRtc.PeerConnection.Progress
import WebRtc.PeerConnection.Underway

/-!
# Candidates trickle

A connection announces its candidates one at a time, and each time that
`ice_candidate_created` is emitted the application calls `add_ice_candidate` at
the other peer; the call may also be lost on its way, or come to a peer that has
no connection. Meanwhile anything is done to both objects: the sender may be
closed and made anew, the receiver called in other ways. The application only
follows the emissions: that no candidate is made up or taken twice, and none of
a current connection forgotten, is the sender's doing.
-/

namespace WebRtc.PeerConnection.Trickle

open Containment (PeerOp)
open Signals (taskOf)
open Negotiation (announcements announcedBy step_announcements)

variable {L σ α : Type} {build : Build} {engine : Engine} {api : PeerApi L}

-- ---------------------------------------------------------------------------
-- What the library is given
-- ---------------------------------------------------------------------------

def text? : Request → Option (Bytes × Bytes)
  | .candidate candidate mid => some (candidate, mid)
  | _ => none

/-- The texts that the library is to make candidates of. -/
def given (made : List Request) : List (Bytes × Bytes) := made.filterMap text?

theorem given_append (made more : List Request) : given (made ++ more) = given made ++ given more :=
  List.filterMap_append

/-- The calls other than `add_ice_candidate`; a poll is cut into what its
handlers do and what happens in between. -/
def besides : PeerOp L → Bool
  | .addIceCandidate _ _ _ | .poll _ => false
  | _ => true

theorem initializePc_unseen (p_config : Dictionary) :
    Unseen text? (initializePc engine api.recorded p_config) := by
  refine .bind (close_unseen rfl fun _ => rfl) fun _ =>
    .bind (parseIceServers_unseen (fun _ => rfl) _ _) ?_
  rintro ⟨err, config⟩
  dsimp only
  split
  · exact .pure _
  · exact createPc_unseen (fun _ => rfl) _

theorem besides_unseen {op : PeerOp (L × List Request)} (hop : besides op = true) :
    Unseen text? (op.exec engine api.recorded) := by
  cases op with
  | initializePc p_config => exact .bind (initializePc_unseen _) fun _ => .pure _
  | createDataChannel p_channel p_channel_config =>
    exact .bind (createDataChannel_unseen (fun _ _ => rfl) _ _) fun _ => .pure _
  | createOffer => exact .bind (createOffer_unseen fun _ => rfl) fun _ => .pure _
  | setRemoteDescription p_type p_sdp =>
    exact .bind (setRemoteDescription_unseen (fun _ _ => rfl) (fun _ => rfl) (fun _ => rfl) _ _)
      fun _ => .pure _
  | setLocalDescription p_type p_sdp =>
    exact .bind (setLocalDescription_unseen _ _) fun _ => .pure _
  | close => exact .bind (close_unseen rfl fun _ => rfl) fun _ => .pure _
  | addIceCandidate | poll => cases hop

/-- What the library is given for a candidate that was announced. -/
def text (build : Build) (c : Candidate) : Bytes × Bytes :=
  (cString (utf8 (stringOfCString build c.candidate)), cString (utf8 (stringOfCString build c.mid)))

theorem text_eq_iff {c : Candidate} :
    text build c = (c.candidate, c.mid) ↔ Survives build (.localCandidate c) := by
  unfold text Survives
  rw [Prod.mk.injEq, cString_utf8_stringOfCString_iff, cString_utf8_stringOfCString_iff]

theorem addIceCandidate_given {w : World (L × List Request) Heap}
    (hopen : w.self.peerConnection ≠ none) (c : Candidate) (index : Int) :
    given (addIceCandidate api.recorded (stringOfCString build c.mid) index
      (stringOfCString build c.candidate) w).2.lib.2 = given w.lib.2 ++ [text build c] := by
  have hgiven (made : List Request) (d : Candidate) :
      given (made ++ [.candidate (text build c).1 (text build c).2] ++ [.addRemoteCandidate d]) =
        given made ++ [text build c] := by
    rw [given_append, given_append]
    exact List.append_nil _
  rw [addIceCandidate_eq hopen]
  simp only [PeerApi.recorded, record]
  rcases api.candidate (cString (utf8 (stringOfCString build c.candidate)))
    (cString (utf8 (stringOfCString build c.mid))) w.lib.1 with ⟨_ | d, l₁⟩
  · exact given_append _ _
  dsimp only
  rcases api.addRemoteCandidate d l₁ with ⟨_ | _, l₂⟩ <;> exact hgiven _ _

theorem addIceCandidate_unconfigured {w : World (L × List Request) Heap}
    (hclosed : w.self.peerConnection = none) (mid : String) (index : Int) (candidate : String) :
    given (addIceCandidate api.recorded mid index candidate w).2.lib.2 = given w.lib.2 := by
  unfold addIceCandidate Method.tryStd Eff.tryCatch
  rw [Eff.bind_apply, Method.self_apply]
  simp only [hclosed, Option.isNone_none, ↓reduceIte]
  rfl

-- ---------------------------------------------------------------------------
-- The two peers
-- ---------------------------------------------------------------------------

structure State (L : Type) where
  sender : Signals.State := {}
  receiver : World (L × List Request) Heap
  /-- The emissions whose candidate the receiver's library was given, in order. -/
  taken : List Nat := []
  /-- The emissions whose candidate it was not given. -/
  missed : List Nat := []

/-- The candidate that an emission has brought, until the application has called
`add_ice_candidate` for it. -/
def State.carries (s : State L) (k : Nat) : Option (String × Int × String) :=
  if k ∈ s.taken ++ s.missed then none
  else do
    let e ← s.sender.emitted[k]?
    match e.task.signal with
    | .iceCandidateCreated mid index candidate => some (mid, index, candidate)
    | _ => none

/-- The callback whose task an emission is of. -/
def State.callback (s : State L) (k : Nat) : Option Nat := s.sender.emitted[k]?.map (·.task.id)

inductive Event (L : Type)
  | signals (e : Signals.Event)
  /-- The candidate of an emission goes to the receiver. -/
  | relay (k : Nat)
  | lose (k : Nat)
  | call (op : PeerOp (L × List Request))
  /-- What the receiver's library, callbacks and polls do by themselves. -/
  | elsewhere (lib : L) (self : Heap)

variable (build engine api)

def step (s : State L) : Event L → Option (State L)
  | .signals e =>
    (Signals.step build s.sender e).map fun sender => { s with sender := sender }
  | .relay k => match s.carries k with
    | some (mid, index, candidate) =>
      let s' := { s with
        receiver := (addIceCandidate api.recorded mid index candidate s.receiver).2 }
      if s.receiver.self.peerConnection.isNone then some { s' with missed := s.missed ++ [k] }
      else some { s' with taken := s.taken ++ [k] }
    | none => none
  | .lose k =>
    if (s.carries k).isSome then some { s with missed := s.missed ++ [k] } else none
  | .call op =>
    if besides op then some { s with receiver := (op.exec engine api.recorded s.receiver).2 }
    else none
  | .elsewhere lib self =>
    some { s with receiver := { s.receiver with lib := (lib, s.receiver.lib.2), self := self } }

/-- A new sender, and a receiver whose library has been given nothing yet. -/
def start (w : World L Heap) : State L := { receiver := w.recorded }

inductive Step (s : State L) : Event L → State L → Prop
  | signals (stepped : Signals.step build s.sender e = some sender) :
      Step s (.signals e) { s with sender := sender }
  | relay (carried : s.carries k = some (mid, index, candidate))
      (opened : s.receiver.self.peerConnection ≠ none) :
      Step s (.relay k) { s with
        receiver := (addIceCandidate api.recorded mid index candidate s.receiver).2
        taken := s.taken ++ [k] }
  | refused (carried : s.carries k = some (mid, index, candidate))
      (unconfigured : s.receiver.self.peerConnection = none) :
      Step s (.relay k) { s with
        receiver := (addIceCandidate api.recorded mid index candidate s.receiver).2
        missed := s.missed ++ [k] }
  | lose (carried : s.carries k = some candidate) :
      Step s (.lose k) { s with missed := s.missed ++ [k] }
  | call (other : besides op = true) :
      Step s (.call op) { s with receiver := (op.exec engine api.recorded s.receiver).2 }
  | elsewhere : Step s (.elsewhere lib self)
      { s with receiver := { s.receiver with lib := (lib, s.receiver.lib.2), self := self } }

variable {build engine api}

theorem step_cases {s t : State L} (h : step build engine api s e = some t) :
    Step build engine api s e t := by
  cases e with
  | signals e =>
    obtain ⟨sender, hsender, rfl⟩ := Option.map_eq_some_iff.mp h
    exact .signals hsender
  | relay k =>
    simp only [step] at h
    cases hcarries : s.carries k with
    | none =>
      rw [hcarries] at h
      cases h
    | some carried =>
      obtain ⟨mid, index, candidate⟩ := carried
      rw [hcarries] at h
      dsimp only at h
      split at h
      · rename_i hclosed
        cases h
        exact .refused hcarries (Option.isNone_iff_eq_none.mp hclosed)
      · rename_i hopen
        cases h
        exact .relay hcarries (by simpa using hopen)
  | lose k =>
    simp only [step] at h
    split at h
    · rename_i hsome
      cases h
      obtain ⟨carried, hcarries⟩ := Option.isSome_iff_exists.mp hsome
      exact .lose hcarries
    · cases h
  | call op =>
    simp only [step] at h
    split at h
    · cases h
      exact .call (by assumption)
    · cases h
  | elsewhere lib self =>
    cases h
    exact .elsewhere

-- ---------------------------------------------------------------------------
-- What an emission brings
-- ---------------------------------------------------------------------------

/-- An emission brings what a callback was called with. -/
structure Brings (build : Build) (sender : Signals.State) (k : Nat) (c : Candidate) (i : Nat) :
    Prop where
  emitted : ∃ e, sender.emitted[k]? = some e ∧ e.task.id = i
  announced : (announcements sender)[i]? = some (.localCandidate c)

theorem Brings.lt (h : Brings build sender k c i) : k < sender.emitted.length := by
  obtain ⟨e, he, -⟩ := h.emitted
  exact (List.getElem?_eq_some_iff.mp he).1

theorem Brings.later {t : Signals.State} (h : Brings build sender k c i)
    (hstep : Signals.step build sender e = some t) : Brings build t k c i := by
  obtain ⟨⟨d, hd, hid⟩, hget⟩ := h
  refine ⟨⟨d, ?_, hid⟩, ?_⟩
  · obtain ⟨more, hmore⟩ := Signals.step_emitted hstep
    rw [← hmore]
    exact (List.getElem?_append_left (List.getElem?_eq_some_iff.mp hd).1).trans hd
  · rw [step_announcements hstep]
    exact (List.getElem?_append_left (List.getElem?_eq_some_iff.mp hget).1).trans hget

theorem State.carries_eq {s : State L} (hrun : Machine.run (Signals.step build) {} es = some s.sender)
    (h : s.carries k = some (mid, index, candidate)) :
    k ∉ s.taken ++ s.missed ∧ ∃ c i, Brings build s.sender k c i ∧
      mid = stringOfCString build c.mid ∧ candidate = stringOfCString build c.candidate := by
  unfold State.carries at h
  split at h
  · cases h
  rename_i hnew
  simp only [Option.bind_eq_bind, Option.bind_eq_some_iff] at h
  obtain ⟨e, he, hsignal⟩ := h
  obtain ⟨cb, hcb, htask⟩ := emitted_made hrun (List.mem_of_getElem? he)
  have hmade : e.task.signal = cb.announcement.signal build := congrArg Task.signal htask
  rw [hmade] at hsignal
  have hget : (announcements s.sender)[e.task.id]? = some cb.announcement := by
    simp [announcements, hcb]
  refine ⟨hnew, ?_⟩
  cases hann : cb.announcement with
  | localCandidate c =>
    rw [hann] at hsignal hget
    cases hsignal
    exact ⟨c, e.task.id, ⟨⟨e, he, rfl⟩, hget⟩, rfl, rfl⟩
  | localDescription | dataChannel =>
    rw [hann] at hsignal
    cases hsignal

/-- The emission of a candidate is with the application until it is taken or
missed. -/
theorem State.carries_of_emitted {s : State L} (hk : s.sender.emitted[k]? = some e)
    (htask : e.task = taskOf build i cb) (hann : cb.announcement = .localCandidate c)
    (hnew : k ∉ s.taken ++ s.missed) : (s.carries k).isSome := by
  have hsignal : e.task.signal = cb.announcement.signal build := congrArg Task.signal htask
  rw [hann] at hsignal
  unfold State.carries
  rw [if_neg hnew]
  simp [hk, hsignal, Announcement.signal]

-- ---------------------------------------------------------------------------
-- The invariant
-- ---------------------------------------------------------------------------

/-- The emission has brought a candidate, and this is what it comes to. -/
def Comes (build : Build) (sender : Signals.State) (k : Nat) (new : Bytes × Bytes) : Prop :=
  ∃ c i, Brings build sender k c i ∧ new = text build c

theorem Comes.later {t : Signals.State} (h : Comes build sender k new)
    (hstep : Signals.step build sender e = some t) : Comes build t k new := by
  obtain ⟨c, i, hbrings, hnew⟩ := h
  exact ⟨c, i, hbrings.later hstep, hnew⟩

structure Sound (build : Build) (s : State L) : Prop where
  reached : ∃ es, Machine.run (Signals.step build) {} es = some s.sender
  distinct : (s.taken ++ s.missed).Nodup
  emitted : ∀ k ∈ s.taken ++ s.missed, k < s.sender.emitted.length
  given : List.Forall₂ (Comes build s.sender) s.taken (given s.receiver.lib.2)

theorem start_sound (build : Build) (w : World L Heap) : Sound build (start w) where
  reached := ⟨[], rfl⟩
  distinct := List.nodup_nil
  emitted := by simp [start]
  given := .nil

theorem Sound.miss (hs : Sound build s) (hnew : k ∉ s.taken ++ s.missed)
    (hk : k < s.sender.emitted.length) : Sound build { s with missed := s.missed ++ [k] } := by
  refine { hs with distinct := ?_, emitted := fun j hj => ?_ }
  · rw [← List.append_assoc]
    exact hs.distinct.append (List.nodup_singleton k) (List.disjoint_singleton.mpr hnew)
  · rw [← List.append_assoc] at hj
    rcases List.mem_append.mp hj with hj | hj
    · exact hs.emitted j hj
    · exact List.mem_singleton.mp hj ▸ hk

theorem Sound.take (hs : Sound build s) (hnew : k ∉ s.taken ++ s.missed)
    (hk : k < s.sender.emitted.length) (w : World (L × List Request) Heap)
    (hcomes : Comes build s.sender k new)
    (hgiven : Trickle.given w.lib.2 = Trickle.given s.receiver.lib.2 ++ [new]) :
    Sound build { s with receiver := w, taken := s.taken ++ [k] } := by
  have hperm : (s.taken ++ [k] ++ s.missed).Perm (k :: (s.taken ++ s.missed)) := by
    rw [List.append_assoc]
    exact List.perm_middle
  refine ⟨hs.reached, ?_, fun j hj => ?_, ?_⟩
  · exact hperm.nodup_iff.mpr (List.nodup_cons.mpr ⟨hnew, hs.distinct⟩)
  · rcases List.mem_cons.mp (hperm.subset hj) with rfl | hj
    · exact hk
    · exact hs.emitted j hj
  · rw [hgiven]
    exact List.rel_append hs.given (.cons hcomes .nil)

theorem Sound.receive (hs : Sound build s) (w : World (L × List Request) Heap)
    (hgiven : Trickle.given w.lib.2 = Trickle.given s.receiver.lib.2) :
    Sound build { s with receiver := w } :=
  { hs with given := hgiven ▸ hs.given }

theorem Sound.later (hs : Sound build s) (h : Signals.step build s.sender e = some sender) :
    Sound build { s with sender := sender } where
  reached := by
    obtain ⟨es, hes⟩ := hs.reached
    exact ⟨es ++ [e], Machine.run_snoc.mpr ⟨_, hes, h⟩⟩
  distinct := hs.distinct
  emitted k hk := (hs.emitted k hk).trans_le (Signals.step_emitted h).length_le
  given := hs.given.imp fun _ _ hcomes => hcomes.later h

theorem step_sound (hs : Sound build s) (h : step build engine api s e = some t) : Sound build t := by
  obtain ⟨es, hes⟩ := hs.reached
  cases step_cases h with
  | signals hstep => exact hs.later hstep
  | relay hcarries hopen =>
    obtain ⟨hnew, c, i, hbrings, rfl, rfl⟩ := State.carries_eq hes hcarries
    exact hs.take hnew hbrings.lt _ ⟨c, i, hbrings, rfl⟩ (addIceCandidate_given hopen c _)
  | refused hcarries hclosed =>
    obtain ⟨hnew, c, i, hbrings, -⟩ := State.carries_eq hes hcarries
    exact (hs.receive _ (addIceCandidate_unconfigured hclosed ..)).miss hnew hbrings.lt
  | @lose k carried hcarries =>
    obtain ⟨mid, index, candidate⟩ := carried
    obtain ⟨hnew, c, i, hbrings, -⟩ := State.carries_eq hes hcarries
    exact hs.miss hnew hbrings.lt
  | call hother => exact hs.receive _ (besides_unseen hother _)
  | elsewhere => exact hs.receive _ rfl

theorem run_sound (h : Machine.run (step build engine api) (start w) es = some s) : Sound build s :=
  Machine.run_invariant step_sound h (start_sound build w)

-- ---------------------------------------------------------------------------
-- Every run
-- ---------------------------------------------------------------------------

/-- The sender emits a callback's candidate only once. -/
theorem Sound.callbacks_nodup (hs : Sound build s) : ((s.taken ++ s.missed).map s.callback).Nodup := by
  obtain ⟨es, hes⟩ := hs.reached
  refine hs.distinct.map_on fun j hj k hk hsame => ?_
  have hd := List.getElem?_eq_getElem (hs.emitted j hj)
  have he := List.getElem?_eq_getElem (hs.emitted k hk)
  simp only [State.callback, hd, he, Option.map_some, Option.some_inj] at hsame
  exact emitted_unique hes hd he hsame

/-- The candidate of no callback is handed over twice. The receiver's library is
given what the sender's announced, one text for each emission taken and in that
order, and as it was announced if it survives being a `String`. Once nothing is
in progress at the sender, each candidate of a connection that is not closed was
taken, was missed, or is still with the application. -/
theorem candidates_exchanged (h : Machine.run (step build engine api) (start w) es = some s) :
    ((s.taken ++ s.missed).map s.callback).Nodup ∧
    List.Forall₂ (fun k new => ∃ i c, s.callback k = some i ∧
      (announcements s.sender)[i]? = some (.localCandidate c) ∧
      (new = (c.candidate, c.mid) ↔ Survives build (.localCandidate c)))
        s.taken (given s.receiver.lib.2) ∧
    (Signals.Quiescent s.sender → s.sender.heap.queue = [] →
      ∀ (i : Nat) cb c, s.sender.callbacks[i]? = some cb → cb.announcement = .localCandidate c →
        s.sender.closedBelow ≤ cb.conn → ∃ k, s.callback k = some i ∧
          (k ∈ s.taken ∨ k ∈ s.missed ∨ (s.carries k).isSome)) := by
  have hs := run_sound h
  obtain ⟨es', hes⟩ := hs.reached
  refine ⟨hs.callbacks_nodup, hs.given.imp ?_, ?_⟩
  · rintro k new ⟨c, i, ⟨⟨e, he, hid⟩, hget⟩, rfl⟩
    exact ⟨i, c, by simp [State.callback, he, hid], hget, text_eq_iff⟩
  · intro hq hqueue i cb c hcb hann hcurrent
    have hcount := Signals.announced_once hes hq.callbacks hq.stack hcb hcurrent
    rw [hqueue, List.append_nil] at hcount
    have hemitted : taskOf build i cb ∈ s.sender.emitted.map Signals.Emission.task :=
      List.count_pos_iff.mp (hcount ▸ Nat.one_pos)
    obtain ⟨e, he, htask⟩ := List.mem_map.mp hemitted
    obtain ⟨k, hk⟩ := List.mem_iff_getElem?.mp he
    refine ⟨k, by simp [State.callback, hk, htask, taskOf], ?_⟩
    by_cases hold : k ∈ s.taken ++ s.missed
    · rcases List.mem_append.mp hold with htaken | hmissed
      · exact .inl htaken
      · exact .inr (.inl hmissed)
    · exact .inr (.inr (State.carries_of_emitted hk htask hann hold))

/-- A candidate is announced, emitted, and taken to a peer that then offers. -/
def trickled : List (Event Unit) :=
  candidateEmitted.map .signals ++ [.relay 0, .call .createOffer, .signals .handlerReturn]

theorem candidates_exchanged_trickled :
    ∃ s, Machine.run (step .gdextension Containment.plainEngine (PeerApi.sink Unit))
        (start ⟨(), { peerConnection := some 0 }, []⟩) trickled = some s ∧ s.taken = [0] ∧
      given s.receiver.lib.2 = [(hostCandidate.candidate, hostCandidate.mid)] := by
  obtain ⟨s, hrun, hs⟩ := Option.map_eq_some_iff.mp (show
    (Machine.run (step .gdextension Containment.plainEngine (PeerApi.sink Unit))
      (start ⟨(), { peerConnection := some 0 }, []⟩) trickled).map
      (fun s => (s.taken, s.callback 0, announcements s.sender)) =
        some ([0], some 0, [.localCandidate hostCandidate]) by rfl)
  obtain ⟨htaken, hs⟩ := Prod.mk.inj hs
  obtain ⟨hcallback, hannounced⟩ := Prod.mk.inj hs
  obtain ⟨-, hgiven, -⟩ := candidates_exchanged hrun
  rw [htaken, hannounced] at hgiven
  refine ⟨s, hrun, htaken, ?_⟩
  generalize given s.receiver.lib.2 = made at hgiven ⊢
  cases hgiven with
  | cons hnew hnone =>
    obtain ⟨i, c, hi, hget, hverbatim⟩ := hnew
    cases hcallback.symm.trans hi
    cases hget
    cases hnone
    rw [hverbatim.mpr hostCandidate_survives]

end WebRtc.PeerConnection.Trickle
