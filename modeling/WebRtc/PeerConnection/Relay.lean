import WebRtc.PeerConnection.Containment
import WebRtc.PeerConnection.Conservation
import WebRtc.PeerConnection.RemoteDescription

/-!
# Signalling carried to the other peer

What a peer's library announces reaches the other peer's library as text: a
callback makes a `String` of it, the application carries the arguments of the
signal over, and the other peer's member function makes bytes of them again.
-/

namespace WebRtc.PeerConnection

open Containment (PeerOp Reply)
open Signals (step taskOf)

variable {L : Type} {engine : Engine} {api : PeerApi L}

def relay : Signal → Option (PeerOp L)
  | .sessionDescriptionCreated type sdp => some (.setRemoteDescription type sdp)
  | .iceCandidateCreated mid index candidate => some (.addIceCandidate mid index candidate)
  | .dataChannelReceived _ => none

/-- The name a session description travels under. -/
def typeName (type : DescriptionType) : String := if type = .offer then "offer" else "answer"

def carried : Announcement → Option Request
  | .localDescription description => some (.description description.sdp (utf8 (typeName description.type)))
  | .localCandidate candidate => some (.candidate candidate.candidate candidate.mid)
  | .dataChannel _ => none

/-- The announced bytes are themselves again after a `String` of the build. -/
def Survives (build : Build) : Announcement → Prop
  | .localDescription description => Transparent build description.sdp
  | .localCandidate candidate => Transparent build candidate.candidate ∧ Transparent build candidate.mid
  | .dataChannel _ => True

-- ---------------------------------------------------------------------------
-- What the other peer's library is asked for
-- ---------------------------------------------------------------------------

theorem requests_setRemoteDescription {w : World L Heap} (hopen : w.self.peerConnection ≠ none)
    (p_type p_sdp : String) :
    (requests (setRemoteDescription api.recorded p_type p_sdp) w).head? =
      some (.description (cString (utf8 p_sdp)) (cString (utf8 p_type))) := by
  unfold requests
  rw [setRemoteDescription_eq (w := w.recorded) hopen]
  simp only [PeerApi.recorded, record, World.recorded, List.nil_append]
  rcases api.description (cString (utf8 p_sdp)) (cString (utf8 p_type)) w.lib with ⟨_ | desc, l₁⟩
  · rfl
  dsimp only
  rcases api.setRemoteDescription desc l₁ with ⟨_ | _, l₂⟩
  · rfl
  dsimp only
  split
  · rcases api.setLocalDescription .answer l₂ with ⟨_ | _, l₃⟩ <;> rfl
  · rfl

theorem addIceCandidate_eq {w : World L Heap} (hopen : w.self.peerConnection ≠ none)
    (sdpMidName : String) (sdpMlineIndexName : Int) (sdpName : String) :
    addIceCandidate api sdpMidName sdpMlineIndexName sdpName w =
      match api.candidate (cString (utf8 sdpName)) (cString (utf8 sdpMidName)) w.lib with
      | (.error _, l₁) => (.ok .failed, { w with lib := l₁, log := w.log ++ [⟨.candidate, true⟩] })
      | (.ok candidate, l₁) => match api.addRemoteCandidate candidate l₁ with
        | (.error _, l₂) => (.ok .failed, { w with
            lib := l₂
            log := w.log ++ [⟨.candidate, false⟩] ++ [⟨.addRemoteCandidate, true⟩] })
        | (.ok _, l₂) => (.ok .ok, { w with
            lib := l₂
            log := w.log ++ [⟨.candidate, false⟩] ++ [⟨.addRemoteCandidate, false⟩] }) := by
  obtain ⟨conn, hconn⟩ := Option.ne_none_iff_exists'.mp hopen
  unfold addIceCandidate Method.tryStd Eff.tryCatch
  rw [Eff.bind_apply, Method.self_apply]
  simp only [hconn, Option.isNone_some, Bool.false_eq_true, ↓reduceIte, Eff.bind_apply, Method.call]
  rcases api.candidate (cString (utf8 sdpName)) (cString (utf8 sdpMidName)) w.lib
    with ⟨_ | candidate, l₁⟩
  · rfl
  dsimp only
  rcases api.addRemoteCandidate candidate l₁ with ⟨_ | _, l₂⟩ <;> rfl

theorem requests_addIceCandidate {w : World L Heap} (hopen : w.self.peerConnection ≠ none)
    (sdpMidName : String) (sdpMlineIndexName : Int) (sdpName : String) :
    (requests (addIceCandidate api.recorded sdpMidName sdpMlineIndexName sdpName) w).head? =
      some (.candidate (cString (utf8 sdpName)) (cString (utf8 sdpMidName))) := by
  unfold requests
  rw [addIceCandidate_eq (w := w.recorded) hopen]
  simp only [PeerApi.recorded, record, World.recorded, List.nil_append]
  rcases api.candidate (cString (utf8 sdpName)) (cString (utf8 sdpMidName)) w.lib
    with ⟨_ | candidate, l₁⟩
  · rfl
  dsimp only
  rcases api.addRemoteCandidate candidate l₁ with ⟨_ | _, l₂⟩ <;> rfl

theorem requests_map {α β : Type} (m : Method (L × List Request) Heap α) (f : α → β)
    (w : World L Heap) : requests (m >>= fun a => pure (f a)) w = requests m w := by
  unfold requests
  rw [Eff.bind_apply]
  rcases m w.recorded with ⟨_ | _, w'⟩ <;> rfl

-- ---------------------------------------------------------------------------
-- There and back
-- ---------------------------------------------------------------------------

theorem cString_typeName (type : DescriptionType) :
    cString (utf8 (typeName type)) = utf8 (typeName type) := by
  unfold typeName
  split <;> exact cString_utf8 (by decide)

theorem relay_signal_iff {w : World L Heap} (hopen : w.self.peerConnection ≠ none) {a : Announcement}
    {op : PeerOp (L × List Request)} (hop : relay (a.signal build) = some op) :
    (requests (op.exec engine api.recorded) w).head? = carried a ↔ Survives build a := by
  cases a with
  | localDescription description =>
    cases hop
    unfold PeerOp.exec carried Survives
    rw [requests_map, requests_setRemoteDescription hopen, Option.some_inj, Request.description.injEq,
      cString_utf8_stringOfCString_iff]
    exact and_iff_left (cString_typeName description.type)
  | localCandidate candidate =>
    cases hop
    unfold PeerOp.exec carried Survives
    rw [requests_map, requests_addIceCandidate hopen, Option.some_inj, Request.candidate.injEq,
      cString_utf8_stringOfCString_iff, cString_utf8_stringOfCString_iff]
  | dataChannel ch => cases hop

theorem emitted_made (h : Machine.run (step build) {} es = some s) (he : e ∈ s.emitted) :
    ∃ c, s.callbacks[e.task.id]? = some c ∧ e.task = taskOf build e.task.id c := by
  have hs := Signals.run_conserved h
  have hplace : e.task ∈ s.places := List.mem_append_left _ (List.mem_map_of_mem he)
  obtain ⟨c, hc, -, htask⟩ := hs.distinct.made e.task (hs.places_perm.subset hplace)
  exact ⟨c, hc, htask⟩

/-- No callback's task is emitted twice. -/
theorem emitted_unique {d e : Signals.Emission} {j k : Nat}
    (h : Machine.run (step build) {} es = some s) (hj : s.emitted[j]? = some d)
    (hk : s.emitted[k]? = some e) (hid : d.task.id = e.task.id) : j = k := by
  have hnodup : (s.emitted.map Signals.Emission.task).Nodup := by
    have hplaces := (Signals.run_conserved h).places_nodup
    rw [Signals.State.places] at hplaces
    exact (List.nodup_append.mp hplaces).1
  obtain ⟨c, hc, hd⟩ := emitted_made h (List.mem_of_getElem? hj)
  obtain ⟨c', hc', he⟩ := emitted_made h (List.mem_of_getElem? hk)
  have htask : d.task = e.task := by
    rw [hid] at hc hd
    cases Option.some.inj (hc.symm.trans hc')
    exact hd.trans he.symm
  have hlt : j < (s.emitted.map Signals.Emission.task).length := by
    rw [List.length_map]
    exact (List.getElem?_eq_some_iff.mp hj).1
  refine (List.getElem?_inj hlt hnodup).mp ?_
  rw [List.getElem?_map, List.getElem?_map, hj, hk, Option.map_some, Option.map_some, htask]

/-- Whatever the interleaving, an emitted signal carries what one callback was
called with, and the other peer's library is given just that if and only if it
survives being a `String`. -/
theorem signalling_carried_iff (h : Machine.run (step build) {} es = some s) (he : e ∈ s.emitted) :
    ∃ c, s.callbacks[e.task.id]? = some c ∧ c.conn = e.task.conn ∧
      ∀ (L : Type) (engine : Engine) (api : PeerApi L) (w : World L Heap)
        (op : PeerOp (L × List Request)), w.self.peerConnection ≠ none →
        relay e.task.signal = some op →
        ((requests (op.exec engine api.recorded) w).head? = carried c.announcement ↔
          Survives build c.announcement) := by
  obtain ⟨c, hc, htask⟩ := emitted_made h he
  have hsignal : e.task.signal = c.announcement.signal build := congrArg Task.signal htask
  refine ⟨c, hc, (congrArg Task.conn htask).symm, fun L engine api w op hopen hop => ?_⟩
  rw [hsignal] at hop
  exact relay_signal_iff hopen hop

def hostCandidate : Candidate := ⟨utf8 "candidate:1 1 UDP 2122317823 10.0.0.1 5000 typ host", utf8 "0"⟩

theorem hostCandidate_survives : Survives .gdextension (.localCandidate hostCandidate) := by
  have hascii (bytes : Bytes) (h : bytes.all fun b => b ≠ 0 ∧ b.toNat < 128) :
      Transparent .gdextension bytes :=
    fun b hb => of_decide_eq_true (List.all_eq_true.mp h b hb)
  exact ⟨hascii _ rfl, hascii _ rfl⟩

/-- A connection announces the candidate, and it is emitted. -/
def candidateEmitted : List Signals.Event :=
  [.initializePc, .createPc true, .invoke 0 (.localCandidate hostCandidate), .prepare 0, .lock 0,
    .push 0, .poll, .emit]

theorem signalling_carried_iff_hostCandidate :
    (requests ((PeerOp.addIceCandidate (stringOfCString .gdextension hostCandidate.mid) 0
        (stringOfCString .gdextension hostCandidate.candidate)).exec Containment.plainEngine
          (PeerApi.sink Unit).recorded) ⟨(), { peerConnection := some 0 }, []⟩).head? =
      some (.candidate hostCandidate.candidate hostCandidate.mid) := by
  obtain ⟨s, hrun⟩ : ∃ s, Machine.run (step .gdextension) {} candidateEmitted = some s := ⟨_, rfl⟩
  obtain ⟨e, hemitted⟩ : ∃ e, s.emitted = [e] := by cases hrun; exact ⟨_, rfl⟩
  have hcarried := signalling_carried_iff hrun (hemitted ▸ List.mem_singleton_self e)
  cases hrun
  cases hemitted
  obtain ⟨c, hc, -, hiff⟩ := hcarried
  cases hc
  exact (hiff Unit Containment.plainEngine (PeerApi.sink Unit) ⟨(), { peerConnection := some 0 }, []⟩
    _ (Option.some_ne_none 0) rfl).mpr hostCandidate_survives

end WebRtc.PeerConnection
