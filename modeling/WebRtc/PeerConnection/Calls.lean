import WebRtc.PeerConnection.Containment
import WebRtc.PeerConnection.Signals

/-!
# The member functions are runs

What a member function of `WebRTCLibPeerConnection` does to the heap, whatever
it returns or throws, is what a run of the machine of `PeerConnection.Signals`
does, provided the same is true of the signal handlers that `_poll` runs.
-/

namespace WebRtc.PeerConnection.Calls

open Signals (State Event Frame step)
open Containment (PeerOp Reply)

variable {L : Type} {engine : Engine} {api : PeerApi L} {build : Build}

/-- From `s`, a run that comes back to the same polls leads to the heap `h`. -/
def Reaches (build : Build) (s : State) (h : Heap) : Prop :=
  ∃ es t, Machine.run (step build) s es = some t ∧ t.heap = h ∧ t.stack = s.stack ∧
    t.ready = true

/-- What the method has done to the heap, however it ends, is a run. -/
def IsRun (build : Build) (m : Method L Heap α) : Prop :=
  ∀ s w, s.ready = true → w.self = s.heap → Reaches build s (m w).2.self

/-- The handlers of a signal do to the heap what a run does. -/
def Behaves (build : Build) (emit : EmitSignal L) : Prop :=
  ∀ s t l, s.ready = true → Reaches build s (emit t (l, s.heap)).2

theorem Reaches.refl (ready : s.ready = true) : Reaches build s s.heap :=
  ⟨[], s, Machine.run_nil.mpr rfl, rfl, rfl, ready⟩

theorem Reaches.of_run (hrun : Machine.run (step build) s es = some m) (hstack : m.stack = s.stack)
    (h : Reaches build m heap) : Reaches build s heap := by
  obtain ⟨fs, t, hfs, hheap, hback, ready⟩ := h
  exact ⟨es ++ fs, t, Machine.run_append.mpr ⟨m, hrun, hfs⟩, hheap, hback.trans hstack, ready⟩

-- ---------------------------------------------------------------------------
-- Calls that leave the heap alone
-- ---------------------------------------------------------------------------

theorem isRun_of_keeps {m : Method L Heap α} (hm : Method.Keeps id m) : IsRun build m := by
  intro s w ready hw
  have hself : (m w).2.self = s.heap := (hm w).trans hw
  exact hself ▸ .refl ready

theorem createDataChannel_keeps (p_channel : String) (p_channel_config : Dictionary) :
    Method.Keeps id (createDataChannel engine api p_channel p_channel_config) := by
  refine .tryStd (.bind .self fun h => ?_) fun _ => .pure _
  split
  · exact .pure _
  dsimp only
  split
  · exact .pure _
  refine .bind (.call _ _) fun ch => ?_
  cases ch with
  | none => exact .pure _
  | some ch => exact .bind .lib fun l => .pure _

theorem createOffer_keeps : Method.Keeps id (createOffer api) := by
  refine .tryStd (.bind .self fun h => ?_) fun _ => .pure _
  split
  · exact .pure _
  refine .bind (fun w => rfl) fun w => ?_
  split
  · exact .pure _
  · exact .bind (.call _ _) fun _ => .pure _

theorem setRemoteDescription_keeps (p_type p_sdp : String) :
    Method.Keeps id (setRemoteDescription api p_type p_sdp) := by
  refine .tryStd (.bind .self fun h => ?_) fun _ => .pure _
  split
  · exact .pure _
  refine .bind (.call _ _) fun desc => .bind (.call _ _) fun _ => ?_
  split
  · exact .bind (.call _ _) fun _ => .pure _
  · exact .pure _

theorem setLocalDescription_keeps (p_type p_sdp : String) :
    Method.Keeps id (setLocalDescription p_type p_sdp : Method L Heap Error) := by
  refine .bind .self fun h => ?_
  split <;> exact .pure _

theorem addIceCandidate_keeps (sdpMidName : String) (sdpMlineIndexName : Int) (sdpName : String) :
    Method.Keeps id (addIceCandidate api sdpMidName sdpMlineIndexName sdpName) := by
  refine .tryStd (.bind .self fun h => ?_) fun _ => .pure _
  split
  · exact .pure _
  · exact .bind (.call _ _) fun candidate => .bind (.call _ _) fun _ => .pure _

-- ---------------------------------------------------------------------------
-- Closing and connecting
-- ---------------------------------------------------------------------------

theorem closeChannels_sat (chs : List Nat) (w : World L Heap) :
    Eff.Sat (closeChannels api chs) w (fun _ w' => w'.self = w.self) fun _ _ => False := by
  induction chs generalizing w with
  | nil => exact .pure rfl
  | cons ch chs ih =>
    have hclose : Eff.Sat (Method.call .close (api.closeChannel ch)) w
        (fun _ v => v.self = w.self) fun _ v => v.self = w.self :=
      Method.sat_call (fun _ _ _ => rfl) fun _ _ _ => rfl
    refine .bind (Method.sat_tryAll hclose fun _ _ h => h) fun _ v hv => ?_
    exact (ih v).imp (fun _ _ h => h.trans hv) fun _ _ h => h

theorem updateHeap_sat (f : Heap → Heap) (w : World L Heap) :
    Eff.Sat (updateHeap api f) w (fun _ w' => w'.self = f w.self) fun _ _ => False := by
  refine .bind (Method.sat_self (Q := fun _ v => v = w) rfl) fun before v hv => ?_
  subst hv
  refine .bind (Method.sat_update (Q := fun _ v' => v'.self = f v.self) rfl) fun _ v₁ h₁ => ?_
  refine .bind (Method.sat_self (Q := fun _ v' => v' = v₁) rfl) fun after v₂ h₂ => ?_
  subst h₂
  exact (closeChannels_sat _ v₂).imp (fun _ _ h => h.trans h₁) fun _ _ h => h

theorem close_sat (w : World L Heap) :
    Eff.Sat (close api) w (fun _ w' => w'.self = w.self.replaceState) fun _ _ => False := by
  refine .bind (Method.sat_self (Q := fun _ v => v.self = w.self) rfl) fun h v hv => ?_
  rw [← hv]
  split
  · have hclose : Eff.Sat (Method.call .close api.close) v (fun _ v' => v'.self = v.self)
        fun _ v' => v'.self = v.self := Method.sat_call (fun _ _ _ => rfl) fun _ _ _ => rfl
    refine .bind (Method.sat_tryAll hclose fun _ _ h => h) fun _ v' hv' => ?_
    exact hv' ▸ updateHeap_sat _ v'
  · exact updateHeap_sat _ v

/-- `_initialize` from its `_close` to its end. -/
theorem reaches_initialized {s : State} (ready : s.ready = true) (ok : Bool) :
    Reaches build s (if ok then s.heap.replaceState.newConnection else s.heap.replaceState) := by
  refine ⟨[.initializePc, .createPc ok], { s.close with
    heap := if ok then s.heap.replaceState.newConnection else s.heap.replaceState
    initializing := false }, ?_, rfl, rfl, State.ready_of_eq ready rfl rfl rfl⟩
  refine Machine.run_cons.mpr ⟨{ s.close with initializing := true }, ?_, ?_⟩
  · simp only [step, ready, ↓reduceIte]
  · simp [step, State.close]

theorem addServers_keeps (username credential : String) (urls : List Variant)
    (config : Configuration) :
    Method.Keeps id (addServers engine api username credential urls config) := by
  induction urls generalizing config with
  | nil => exact .pure _
  | cons url urls ih => exact .bind (.call _ _) fun _ => ih _

theorem parseIceServer_keeps (r_config : Configuration) (p_server : Dictionary) :
    Method.Keeps id (parseIceServer engine api r_config p_server) := by
  unfold parseIceServer
  split
  · exact .pure _
  · exact .bind (addServers_keeps _ _ _ _) fun config => .pure _

theorem parseIceServers_keeps (engine : Engine) (api : PeerApi L) (servers : List Variant)
    (config : Configuration) : Method.Keeps id (parseIceServers engine api servers config) := by
  induction servers generalizing config with
  | nil => exact .pure _
  | cons server servers ih =>
    unfold parseIceServers
    split
    · exact .pure _
    · refine .bind (parseIceServer_keeps _ _) fun r => ?_
      obtain ⟨err, config⟩ := r
      dsimp only
      split
      · exact .pure _
      · exact ih config

theorem createPc_sat (r_config : Configuration) (w : World L Heap) :
    Eff.Sat (createPc api r_config) w
      (fun code w' => w'.self = if code = .ok then w.self.newConnection else w.self)
      fun _ _ => False := by
  refine Method.sat_tryStd (F := fun _ w' => w'.self = w.self)
    (.bind (Method.sat_call (Q := fun _ w' => w'.self = w.self) (fun _ _ _ => rfl) ?_) ?_) ?_
  · exact fun e _ _ => ⟨e, rfl, rfl⟩
  · intro _ v hv
    exact .bind (Method.sat_update (Q := fun _ w' => w'.self = w.self.newConnection)
      (congrArg Heap.newConnection hv)) fun _ v' hv' => .pure (by simpa using hv')
  · intro _ v hv
    exact .pure (by simpa using hv)

theorem initializePc_isRun (p_config : Dictionary) :
    IsRun build (initializePc engine api p_config) := by
  intro s w ready hw
  refine (Eff.sat_always fun w' : World L Heap => Reaches build s w'.self).mp ?_
  have hfails : Reaches build s s.heap.replaceState := reaches_initialized ready false
  have hconnects : Reaches build s s.heap.replaceState.newConnection :=
    reaches_initialized ready true
  refine .bind ((close_sat w).imp (fun _ _ h => h) fun _ _ h => h.elim) fun _ w₁ h₁ => ?_
  rw [hw] at h₁
  have hparse := Eff.Keeps.sat (v := fun w' : World L Heap => w'.self)
    (parseIceServers_keeps engine api (iceServersOf p_config) {}) h₁
  refine .bind (hparse.imp (fun _ _ h => h) fun _ w' h => h ▸ hfails) fun r w₂ h₂ => ?_
  obtain ⟨err, config⟩ := r
  dsimp only
  split
  · exact .pure (h₂ ▸ hfails)
  · refine (createPc_sat _ w₂).imp (fun code w₃ h₃ => ?_) fun _ _ h => h.elim
    rw [h₃, h₂]
    split
    · exact hconnects
    · exact hfails

theorem close_isRun : IsRun build (close api) := by
  intro s w ready hw
  refine (Eff.sat_always fun w' : World L Heap => Reaches build s w'.self).mp ?_
  refine (close_sat w).imp (fun _ w' h => ?_) fun _ _ h => h.elim
  rw [h, hw]
  have hclose : step build s .close = some s.close := by simp [step, ready]
  have ready' : s.close.ready = true :=
    State.ready_of_eq ready rfl (State.ready_not_initializing ready) rfl
  exact ⟨[.close], s.close, Machine.run_singleton.trans hclose, rfl, rfl, ready'⟩

-- ---------------------------------------------------------------------------
-- Polling
-- ---------------------------------------------------------------------------

theorem emitAll_run (hbehaves : Behaves build emit) (tasks : List Task) (s : State)
    (w : World L Heap) (hw : w.self = s.heap) (halive : s.alive = true)
    (hinit : s.initializing = false) (hstack : s.stack = f :: rest) (idle : f.emitting = false)
    (hqueue : f.localQueue = tasks) :
    Eff.Sat (emitAll api emit tasks) w
      (fun _ w' => ∃ es t, Machine.run (step build) s es = some t ∧ t.heap = w'.self ∧
        t.alive = true ∧ t.initializing = false ∧
        t.stack = { f with localQueue := [] } :: rest)
      fun _ _ => False := by
  induction tasks generalizing s w f with
  | nil =>
    refine .pure ⟨[], s, Machine.run_nil.mpr rfl, hw.symm, halive, hinit, ?_⟩
    rw [hstack, ← hqueue]
  | cons u tasks ih =>
    let s₁ : State := { s with
      heap := s.heap.retain u
      stack := { f with emitting := true } :: rest
      emitted := s.emitted ++ [⟨f.id, u, s.closedBelow, s.channelOf u⟩] }
    have h₁ : step build s .emit = some s₁ := by simp [step, hstack, idle, hqueue, s₁]
    have ready₁ : s₁.ready = true := by simp [State.ready, halive, hinit, s₁]
    obtain ⟨es, s₂, hes, hheap₂, hstack₂, ready₂⟩ := hbehaves s₁ u w.lib ready₁
    have hinit₂ : s₂.initializing = false := State.ready_not_initializing ready₂
    have halive₂ : s₂.alive = true := State.alive_of_ready ready₂
    let s₃ : State := { s₂ with
      heap := (s₂.heap.release u).release u
      stack := { f with localQueue := tasks, emitting := false } :: rest }
    have h₃ : step build s₂ .handlerReturn = some s₃ := by
      simp [step, hinit₂, hstack₂, hqueue, s₁, s₃]
    have hrun₃ : Machine.run (step build) s (.emit :: (es ++ [.handlerReturn])) = some s₃ :=
      Machine.run_cons.mpr ⟨s₁, h₁, Machine.run_snoc.mpr ⟨s₂, hes, h₃⟩⟩
    refine .bind (Method.sat_update (Q := fun _ v => v.lib = w.lib ∧ v.self = s₁.heap)
      ⟨rfl, congrArg (Heap.retain · u) hw⟩) ?_
    rintro _ v₁ ⟨hlib₁, hv₁⟩
    refine .bind (.modify (Q := fun _ v => v.self = s₂.heap) ?_) fun _ v₂ hv₂ => ?_
    · change (emit u (v₁.lib, v₁.self)).2 = s₂.heap
      rw [hlib₁, hv₁, hheap₂]
    refine .bind (updateHeap_sat _ v₂) fun _ v₃ hv₃ => ?_
    refine .bind (updateHeap_sat _ v₃) fun _ v₄ hv₄ => ?_
    have hself : v₄.self = s₃.heap := by rw [hv₄, hv₃, hv₂]
    refine (ih s₃ v₄ hself halive₂ hinit₂ rfl rfl rfl).imp ?_ fun _ _ h => h
    rintro _ w' ⟨fs, t, hfs, hheap, halive, hinit, hback⟩
    refine ⟨.emit :: (es ++ [.handlerReturn]) ++ fs, t, Machine.run_append.mpr ⟨s₃, hrun₃, hfs⟩,
      hheap, halive, hinit, ?_⟩
    rw [hback, ← idle]

theorem poll_isRun (hbehaves : Behaves build emit) : IsRun build (poll api emit) := by
  intro s w ready hw
  refine (Eff.sat_always fun w' : World L Heap => Reaches build s w'.self).mp ?_
  refine .bind (Method.sat_self (Q := fun h v => h = s.heap ∧ v.self = s.heap) ⟨hw, hw⟩) ?_
  rintro _ v ⟨rfl, hv⟩
  split
  · exact .pure (hv ▸ .refl ready)
  · rename_i hconf
    let s₁ : State := { s with
      heap := s.heap.swapQueue
      stack := ⟨s.polls, s.heap.queue, false, s.heap.queue⟩ :: s.stack
      polls := s.polls + 1 }
    have h₁ : step build s .poll = some s₁ := by
      simp only [step, ready, hconf, Bool.not_true, Bool.false_eq_true, ↓reduceIte, s₁]
    refine .bind (Method.sat_self (Q := fun h v => h = s.heap ∧ v.self = s.heap) ⟨hv, hv⟩) ?_
    rintro _ v₁ ⟨rfl, hv₁⟩
    refine .bind (Method.sat_update (Q := fun _ v => v.self = s₁.heap)
      (congrArg Heap.swapQueue hv₁)) fun _ v₂ hv₂ => ?_
    have halive₁ : s.alive = true := State.alive_of_ready ready
    have hinit₁ : s.initializing = false := State.ready_not_initializing ready
    refine .bind ((emitAll_run hbehaves s.heap.queue s₁ v₂ hv₂ halive₁ hinit₁ rfl rfl rfl).imp
      (fun _ _ h => h) fun _ _ h => h.elim) ?_
    rintro _ w' ⟨es, t, hes, hheap, halive, hinit, hstack⟩
    -- the local queue is empty
    let u : State := { t with
      stack := s.stack
      returned := t.returned ++ [⟨s.polls, [], false, s.heap.queue⟩] }
    have hreturn : step build t .pollReturn = some u := by simp [step, hstack, u]
    have hrun : Machine.run (step build) s (.poll :: (es ++ [.pollReturn])) = some u :=
      Machine.run_cons.mpr ⟨s₁, h₁, Machine.run_snoc.mpr ⟨t, hes, hreturn⟩⟩
    exact .pure ⟨_, u, hrun, hheap, rfl, State.ready_of_eq ready
      (halive.trans (State.alive_of_ready ready).symm) hinit rfl⟩

-- ---------------------------------------------------------------------------
-- Every call
-- ---------------------------------------------------------------------------

/-- The handlers of the operation, if it runs any, behave. -/
def HandlersBehave (build : Build) (op : PeerOp L) : Prop :=
  ∀ emit, op = .poll emit → Behaves build emit

theorem IsRun.map {m : Method L Heap α} (hm : IsRun build m) (f : α → β) :
    IsRun build (m >>= fun a => pure (f a)) := by
  intro s w ready hw
  have h := hm s w ready hw
  rw [Eff.bind_apply]
  rcases hr : m w with ⟨e | a, w'⟩ <;> rw [hr] at h <;> exact h

theorem peerOp_isRun (engine : Engine) (api : PeerApi L) (op : PeerOp L)
    (hop : HandlersBehave build op) : IsRun build (op.exec engine api) := by
  cases op with
  | initializePc p_config => exact (initializePc_isRun p_config).map _
  | createDataChannel p_channel p_channel_config =>
    exact (isRun_of_keeps (createDataChannel_keeps p_channel p_channel_config)).map _
  | createOffer => exact (isRun_of_keeps createOffer_keeps).map _
  | setRemoteDescription p_type p_sdp =>
    exact (isRun_of_keeps (setRemoteDescription_keeps p_type p_sdp)).map _
  | setLocalDescription p_type p_sdp =>
    exact (isRun_of_keeps (setLocalDescription_keeps p_type p_sdp)).map _
  | addIceCandidate sdpMidName sdpMlineIndexName sdpName =>
    exact (isRun_of_keeps (addIceCandidate_keeps sdpMidName sdpMlineIndexName sdpName)).map _
  | poll emit => exact (poll_isRun (hop emit rfl)).map _
  | close => exact close_isRun.map _

-- ---------------------------------------------------------------------------
-- Sequences of calls
-- ---------------------------------------------------------------------------

/-- One call after another; the application catches what they throw. -/
def execAll (engine : Engine) (api : PeerApi L) : List (PeerOp L) → World L Heap → World L Heap
  | [], w => w
  | op :: ops, w => execAll engine api ops (op.exec engine api w).2

theorem execAll_reaches (engine : Engine) (api : PeerApi L) (ops : List (PeerOp L))
    (hops : ∀ op ∈ ops, HandlersBehave build op) (s : State) (w : World L Heap)
    (ready : s.ready = true) (hw : w.self = s.heap) : Reaches build s (execAll engine api ops w).self := by
  induction ops generalizing s w with
  | nil => exact hw ▸ .refl ready
  | cons op ops ih =>
    obtain ⟨es, m, hrun, hheap, hstack, ready'⟩ :=
      peerOp_isRun engine api op (hops op (by simp)) s w ready hw
    exact .of_run hrun hstack
      (ih (fun op hop => hops op (List.mem_cons_of_mem _ hop)) m _ ready' hheap.symm)

/-- Handlers that call the object again. -/
def emitCalls (engine : Engine) (api : PeerApi L) (handlers : Task → List (PeerOp L)) :
    EmitSignal L := fun t (lib, self) =>
  let w := execAll engine api (handlers t) ⟨lib, self, []⟩
  (w.lib, w.self)

theorem emitCalls_behaves (handlers : Task → List (PeerOp L))
    (hops : ∀ t, ∀ op ∈ handlers t, HandlersBehave build op) :
    Behaves build (emitCalls engine api handlers) :=
  fun s t l ready => execAll_reaches engine api (handlers t) (hops t) s ⟨l, s.heap, []⟩ ready rfl

/-- What the application can do to a new object, to any depth of polls inside
handlers, is a run. -/
theorem calls_are_runs (ops : List (PeerOp L)) (hops : ∀ op ∈ ops, HandlersBehave build op)
    (l : L) : ∃ es s, Machine.run (step build) {} es = some s ∧
      s.heap = (execAll engine api ops ⟨l, {}, []⟩).self := by
  obtain ⟨es, s, hrun, hheap, -⟩ :=
    execAll_reaches engine api ops hops {} ⟨l, {}, []⟩ rfl rfl
  exact ⟨es, s, hrun, hheap⟩

end WebRtc.PeerConnection.Calls
