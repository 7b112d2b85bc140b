import WebRtc.PeerConnection.Calls
import WebRtc.PeerConnection.Lifetime
import WebRtc.PeerConnection.Requests

/-!
# Whose channel is closed

`Heap.closed` lists the channels whose wrapper a heap operation has destroyed.
Here it is compared with the calls that the library gets: what the member
functions ask it to close are those channels, in that order, whatever it throws.
-/

namespace WebRtc.PeerConnection.Closings

open Containment (PeerOp)
open Calls (execAll emitCalls)

variable {L : Type} {engine : Engine} {api : PeerApi L} {build : Build}

def channel? : Request → Option Nat
  | .closeChannel ch => some ch
  | _ => none

/-- The channels that the library was asked to close. -/
def closings (made : List Request) : List Nat := made.filterMap channel?

/-- The wrappers destroyed so far and the calls their destructors have made. -/
def Accounted (w : World (L × List Request) Heap) : Prop := closings w.lib.2 = w.self.closed

/-- What the library throws, a destructor ignores. -/
theorem closeChannels_closings (chs : List Nat) (w : World (L × List Request) Heap) :
    closings (closeChannels api.recorded chs w).2.lib.2 = closings w.lib.2 ++ chs := by
  induction chs generalizing w with
  | nil => exact (List.append_nil _).symm
  | cons ch chs ih =>
    have hone (made : List Request) : closings (made ++ [.closeChannel ch]) = closings made ++ [ch] :=
      List.filterMap_append
    simp only [closeChannels, Eff.bind_apply, Method.tryAll, Eff.tryCatch, Method.call,
      PeerApi.recorded, record]
    rcases api.closeChannel ch w.lib.1 with ⟨_ | _, l⟩ <;>
      exact (ih _).trans (by rw [hone, List.append_assoc]; rfl)

/-- A heap operation that destroys wrappers: the library is asked to close the
channels of just these. -/
theorem updateHeap_closings (f : Heap → Heap) (w : World (L × List Request) Heap)
    (hnew : (f w.self).closed = w.self.closed ++ chs) :
    closings (updateHeap api.recorded f w).2.lib.2 = closings w.lib.2 ++ chs := by
  have hdrop : (f w.self).closed.drop w.self.closed.length = chs := by
    rw [hnew, List.drop_left]
  exact (closeChannels_closings _ _).trans (congrArg (closings w.lib.2 ++ ·) hdrop)

-- ---------------------------------------------------------------------------
-- The member functions
-- ---------------------------------------------------------------------------

theorem updateHeap_accounted (f : Heap → Heap) (hf : ∀ h, h.closed <+: (f h).closed) :
    Eff.Preserves Accounted (updateHeap api.recorded f) := by
  intro w hw
  obtain ⟨chs, hchs⟩ := hf w.self
  have hself : (updateHeap api.recorded f w).2.self = f w.self :=
    (Eff.sat_always fun w' => w'.self = f w.self).mp
      ((Calls.updateHeap_sat f w).imp (fun _ _ h => h) fun _ _ h => h.elim)
  unfold Accounted at hw ⊢
  rw [updateHeap_closings f w hchs.symm, hself, hw, hchs]

theorem accounted_of_unseen {m : Method (L × List Request) Heap α} (hm : Unseen channel? m)
    (hclosed : Method.Keeps Heap.closed m) : Eff.Preserves Accounted m :=
  fun w hw => (hm w).trans (hw.trans (hclosed w).symm)

theorem accounted_of_keeps {m : Method (L × List Request) Heap α} (hm : Unseen channel? m)
    (hk : Method.Keeps id m) : Eff.Preserves Accounted m :=
  accounted_of_unseen hm fun w => congrArg Heap.closed (hk w)

theorem close_accounted : Eff.Preserves Accounted (close api.recorded) := by
  have hcall : Eff.Preserves Accounted
      (Method.tryAll (Method.call .close api.recorded.close) :
        Method (L × List Request) Heap Unit) :=
    accounted_of_unseen (.tryAll (.call _ _ rfl)) (.tryAll (.call _ _))
  refine .bind (accounted_of_unseen .self .self) fun h => ?_
  split
  · exact .bind hcall fun _ => updateHeap_accounted _ Heap.replaceState_closed
  · exact updateHeap_accounted _ Heap.replaceState_closed

theorem createPc_accounted (r_config : Configuration) :
    Eff.Preserves Accounted (createPc api.recorded r_config) := by
  refine accounted_of_unseen (createPc_unseen (fun _ => rfl) _) ?_
  exact .tryStd (.bind (.call _ _) fun _ => .bind (.update fun _ => rfl) fun _ => .pure _)
    fun _ => .pure _

theorem initializePc_accounted (p_config : Dictionary) :
    Eff.Preserves Accounted (initializePc engine api.recorded p_config) := by
  refine .bind close_accounted fun _ => .bind (accounted_of_keeps
    (parseIceServers_unseen (fun _ => rfl) _ _) (Calls.parseIceServers_keeps _ _ _ _)) ?_
  rintro ⟨err, config⟩
  dsimp only
  split
  · exact .pure _
  · exact createPc_accounted _

/-- The handlers of a signal may close channels too. -/
def HandlersAccounted (emit : EmitSignal (L × List Request)) : Prop :=
  ∀ t lib self, Accounted ⟨lib, self, []⟩ →
    Accounted ⟨(emit t (lib, self)).1, (emit t (lib, self)).2, []⟩

theorem emitAll_accounted {emit : EmitSignal (L × List Request)} (hemit : HandlersAccounted emit)
    (tasks : List Task) : Eff.Preserves Accounted (emitAll api.recorded emit tasks) := by
  induction tasks with
  | nil => exact .pure ()
  | cons t tasks ih =>
    have hretain : Eff.Preserves Accounted
        (Method.update (Heap.retain · t) : Method (L × List Request) Heap Unit) :=
      accounted_of_unseen (.update _) (.update fun h => h.retain_closed t)
    have hrelease : Eff.Preserves Accounted (updateHeap api.recorded (Heap.release · t)) :=
      updateHeap_accounted _ fun h => h.release_closed t
    exact .bind hretain fun _ => .bind (fun w hw => hemit t w.lib w.self hw) fun _ =>
      .bind hrelease fun _ => .bind hrelease fun _ => ih

theorem poll_accounted {emit : EmitSignal (L × List Request)} (hemit : HandlersAccounted emit) :
    Eff.Preserves Accounted (poll api.recorded emit) := by
  have hself : Eff.Preserves Accounted (Method.self : Method (L × List Request) Heap Heap) :=
    accounted_of_unseen .self .self
  refine .bind hself fun h => ?_
  split
  · exact .pure _
  · exact .bind hself fun _ => .bind (accounted_of_unseen (.update _)
      (.update fun h => h.swapQueue_closed)) fun _ => .bind (emitAll_accounted hemit _) fun _ => .pure _

theorem peerOp_accounted {op : PeerOp (L × List Request)}
    (hop : ∀ emit, op = .poll emit → HandlersAccounted emit) :
    Eff.Preserves Accounted (op.exec engine api.recorded) := by
  cases op with
  | initializePc p_config => exact .bind (initializePc_accounted _) fun _ => .pure _
  | createDataChannel p_channel p_channel_config =>
    exact .bind (accounted_of_keeps (createDataChannel_unseen (fun _ _ => rfl) _ _)
      (Calls.createDataChannel_keeps _ _)) fun _ => .pure _
  | createOffer =>
    exact .bind (accounted_of_keeps (createOffer_unseen fun _ => rfl) Calls.createOffer_keeps)
      fun _ => .pure _
  | setRemoteDescription p_type p_sdp =>
    exact .bind (accounted_of_keeps
      (setRemoteDescription_unseen (fun _ _ => rfl) (fun _ => rfl) (fun _ => rfl) _ _)
      (Calls.setRemoteDescription_keeps _ _)) fun _ => .pure _
  | setLocalDescription p_type p_sdp =>
    exact .bind (accounted_of_keeps (setLocalDescription_unseen _ _)
      (Calls.setLocalDescription_keeps _ _)) fun _ => .pure _
  | addIceCandidate sdpMidName sdpMlineIndexName sdpName =>
    exact .bind (accounted_of_keeps (addIceCandidate_unseen (fun _ _ => rfl) (fun _ => rfl) _ _ _)
      (Calls.addIceCandidate_keeps _ _ _)) fun _ => .pure _
  | poll emit => exact .bind (poll_accounted (hop emit rfl)) fun _ => .pure _
  | close => exact .bind close_accounted fun _ => .pure _

-- ---------------------------------------------------------------------------
-- Sequences of calls
-- ---------------------------------------------------------------------------

theorem execAll_accounted (ops : List (PeerOp (L × List Request)))
    (hops : ∀ op ∈ ops, ∀ emit, op = .poll emit → HandlersAccounted emit)
    (w : World (L × List Request) Heap) (hw : Accounted w) :
    Accounted (execAll engine api.recorded ops w) := by
  induction ops generalizing w with
  | nil => exact hw
  | cons op ops ih =>
    exact ih (fun op hop => hops op (List.mem_cons_of_mem _ hop)) _
      (peerOp_accounted (hops op (by simp)) w hw)

theorem emitCalls_accounted (handlers : Task → List (PeerOp (L × List Request)))
    (hops : ∀ t, ∀ op ∈ handlers t, ∀ emit, op = .poll emit → HandlersAccounted emit) :
    HandlersAccounted (emitCalls engine api.recorded handlers) :=
  fun t lib self hw => execAll_accounted (handlers t) (hops t) ⟨lib, self, []⟩ hw

/-- Whatever is called on a new object, the library is asked to close a channel
only when its wrapper is destroyed, and once. -/
theorem calls_close_once (ops : List (PeerOp (L × List Request)))
    (hbehave : ∀ op ∈ ops, Calls.HandlersBehave build op)
    (hops : ∀ op ∈ ops, ∀ emit, op = .poll emit → HandlersAccounted emit) (l : L) :
    let w := execAll engine api.recorded ops ⟨(l, []), {}, []⟩
    closings w.lib.2 = w.self.closed ∧ (closings w.lib.2).Nodup := by
  have haccounted : Accounted (execAll engine api.recorded ops ⟨(l, []), {}, []⟩) :=
    execAll_accounted ops hops _ rfl
  obtain ⟨es, s, hrun, hheap⟩ :=
    @Calls.calls_are_runs _ engine api.recorded build ops hbehave (l, [])
  have hnodup := (Signals.run_destroyedOnce hrun).nodup
  rw [hheap] at hnodup
  unfold Accounted at haccounted
  exact ⟨haccounted, haccounted ▸ hnodup⟩

end WebRtc.PeerConnection.Closings
