import WebRtc.PeerConnection

/-!
# What the library is asked for

`PeerApi.recorded` is the library with a record of the calls made to it and of
what they are given. The member functions do not look at the record: run on the
recorded library they do what they do on the library itself.
-/

namespace WebRtc

inductive Request
  | iceServer (url : Bytes)
  | peerConnection (config : Configuration)
  | createDataChannel (label : Bytes) (init : DataChannelInit)
  | setLocalDescription (type : DescriptionType)
  | description (sdp type : Bytes)
  | setRemoteDescription (description : Description)
  | candidate (candidate mid : Bytes)
  | addRemoteCandidate (candidate : Candidate)
  | close
  | closeChannel (ch : Nat)
  deriving DecidableEq, Repr

variable {L σ α β : Type}

def record (request : Request) (f : Call L α) : Call (L × List Request) α := fun l =>
  ((f l.1).1, (f l.1).2, l.2 ++ [request])

def PeerApi.recorded (api : PeerApi L) : PeerApi (L × List Request) where
  iceServer url := record (.iceServer url) (api.iceServer url)
  peerConnection config := record (.peerConnection config) (api.peerConnection config)
  state l := api.state l.1
  createDataChannel label init :=
    record (.createDataChannel label init) (api.createDataChannel label init)
  channelId ch l := api.channelId ch l.1
  setLocalDescription type := record (.setLocalDescription type) (api.setLocalDescription type)
  description sdp type := record (.description sdp type) (api.description sdp type)
  setRemoteDescription description :=
    record (.setRemoteDescription description) (api.setRemoteDescription description)
  candidate candidate mid := record (.candidate candidate mid) (api.candidate candidate mid)
  addRemoteCandidate candidate :=
    record (.addRemoteCandidate candidate) (api.addRemoteCandidate candidate)
  close := record .close api.close
  closeChannel ch := record (.closeChannel ch) (api.closeChannel ch)

/-- The world with an empty record. -/
def World.recorded (w : World L σ) : World (L × List Request) σ :=
  { lib := (w.lib, []), self := w.self, log := w.log }

def World.unrecorded (w : World (L × List Request) σ) : World L σ :=
  { lib := w.lib.1, self := w.self, log := w.log }

/-- The calls a method makes, in order. -/
def requests (m : Method (L × List Request) σ α) (w : World L σ) : List Request :=
  (m w.recorded).2.lib.2

def Request.configuration? : Request → Option Configuration
  | .peerConnection config => some config
  | _ => none

/-- The configurations that connections are made with. -/
def configurations (made : List Request) : List Configuration :=
  made.filterMap Request.configuration?

-- ---------------------------------------------------------------------------
-- Erasing the record
-- ---------------------------------------------------------------------------

/-- On the recorded library `n` does what `m` does on the library. -/
def Records (n : Method (L × List Request) σ α) (m : Method L σ α) : Prop :=
  Eff.Erases World.unrecorded n m

namespace Records

variable {n : Method (L × List Request) σ α} {m : Method L σ α}

theorem pure (a : α) : Records (pure a) (pure a : Method L σ α) := Eff.Erases.pure a

theorem bind {n' : α → Method (L × List Request) σ β} {m' : α → Method L σ β}
    (hm : Records n m) (hk : ∀ a, Records (n' a) (m' a)) : Records (n >>= n') (m >>= m') :=
  Eff.Erases.bind hm hk

theorem self : Records Method.self (Method.self : Method L σ σ) := fun _ => rfl

theorem update (f : σ → σ) : Records (Method.update f) (Method.update f : Method L σ Unit) :=
  fun _ => rfl

theorem call (name : CallName) (request : Request) (f : Call L α) :
    Records (Method.call name (record request f)) (Method.call name f : Method L σ α) := by
  intro w
  unfold Method.call record World.unrecorded
  rcases f w.lib.1 with ⟨_ | _, l⟩ <;> rfl

theorem tryStd {handler : StdException → Method L σ α}
    {handler' : StdException → Method (L × List Request) σ α} (hm : Records n m)
    (hh : ∀ e, Records (handler' e) (handler e)) :
    Records (Method.tryStd n handler') (Method.tryStd m handler) := by
  refine Eff.Erases.tryCatch hm fun thrown => ?_
  cases thrown with
  | std e => exact hh e
  | other => exact .throw Thrown.other

theorem tryAll {n : Method (L × List Request) σ Unit} {m : Method L σ Unit} (hm : Records n m) :
    Records (Method.tryAll n) (Method.tryAll m) :=
  Eff.Erases.tryCatch hm fun _ => .pure ()

theorem ite {c : Prop} [Decidable c] {n₁ n₂ : Method (L × List Request) σ α}
    {m₁ m₂ : Method L σ α} (h₁ : Records n₁ m₁) (h₂ : Records n₂ m₂) :
    Records (if c then n₁ else n₂) (if c then m₁ else m₂) := by
  split <;> assumption

theorem result_eq (h : Records n m) (w : World L σ) : (n w.recorded).1 = (m w).1 :=
  (congrArg Prod.fst (h w.recorded)).symm

end Records

namespace PeerConnection

variable {api : PeerApi L}

theorem closeChannels_records (chs : List Nat) :
    Records (closeChannels api.recorded chs) (closeChannels api chs) := by
  induction chs with
  | nil => exact .pure ()
  | cons ch chs ih => exact .bind (.tryAll (.call _ _ _)) fun _ => ih

theorem close_records : Records (close api.recorded) (close api) := by
  have hupdate : Records (updateHeap api.recorded Heap.replaceState)
      (updateHeap api Heap.replaceState) :=
    .bind .self fun _ => .bind (.update _) fun _ => .bind .self fun _ => closeChannels_records _
  refine .bind .self fun h => ?_
  split
  · exact .bind (.tryAll (.call _ _ _)) fun _ => hupdate
  · exact hupdate

end PeerConnection

-- ---------------------------------------------------------------------------
-- Calls that are not looked at
-- ---------------------------------------------------------------------------

/-- The method makes no call that `view` sees. -/
def Unseen (view : Request → Option β) (m : Method (L × List Request) σ α) : Prop :=
  Eff.Keeps (fun w => w.lib.2.filterMap view) m

variable {view : Request → Option β}

namespace Unseen

theorem pure (a : α) : Unseen view (pure a : Method (L × List Request) σ α) := fun _ => rfl

theorem self : Unseen view (Method.self : Method (L × List Request) σ σ) := fun _ => rfl

theorem get : Unseen view (Eff.get : Method (L × List Request) σ (World (L × List Request) σ)) :=
  fun _ => rfl

theorem lib : Unseen view (Method.lib : Method (L × List Request) σ (L × List Request)) :=
  fun _ => rfl

theorem update (f : σ → σ) : Unseen view (Method.update f : Method (L × List Request) σ Unit) :=
  fun _ => rfl

theorem bind {γ : Type} {m : Method (L × List Request) σ α}
    {k : α → Method (L × List Request) σ γ} (hm : Unseen view m) (hk : ∀ a, Unseen view (k a)) :
    Unseen view (m >>= k) :=
  Eff.Keeps.bind hm hk

theorem tryAll {m : Method (L × List Request) σ Unit} (hm : Unseen view m) :
    Unseen view (Method.tryAll m) :=
  Eff.Keeps.tryCatch hm fun _ => .pure ()

theorem tryStd {m : Method (L × List Request) σ α}
    {handler : StdException → Method (L × List Request) σ α} (hm : Unseen view m)
    (hh : ∀ e, Unseen view (handler e)) : Unseen view (Method.tryStd m handler) := by
  refine Eff.Keeps.tryCatch hm ?_
  rintro (e | _)
  · exact hh e
  · exact Eff.Keeps.throw _

theorem call (name : CallName) {request : Request} (f : Call L α) (hr : view request = none) :
    Unseen view (Method.call name (record request f) : Method (L × List Request) σ α) := by
  intro w
  have hmade : (w.lib.2 ++ [request]).filterMap view = w.lib.2.filterMap view := by
    simp [List.filterMap_append, hr]
  unfold Method.call record
  rcases f w.lib.1 with ⟨_ | _, l⟩ <;> exact hmade

end Unseen

namespace PeerConnection

variable {engine : Engine} {api : PeerApi L}

theorem closeChannels_unseen (hview : ∀ ch, view (.closeChannel ch) = none) (chs : List Nat) :
    Unseen view (closeChannels api.recorded chs) := by
  induction chs with
  | nil => exact .pure ()
  | cons ch chs ih => exact .bind (.tryAll (.call _ _ (hview ch))) fun _ => ih

theorem close_unseen (hclose : view .close = none) (hview : ∀ ch, view (.closeChannel ch) = none) :
    Unseen view (close api.recorded) := by
  have hupdate : Unseen view (updateHeap api.recorded Heap.replaceState) :=
    .bind .self fun _ => .bind (.update _) fun _ => .bind .self fun _ => closeChannels_unseen hview _
  refine .bind .self fun h => ?_
  split
  · exact .bind (.tryAll (.call _ _ hclose)) fun _ => hupdate
  · exact hupdate

theorem addServers_unseen (hview : ∀ url, view (.iceServer url) = none) (username credential : String)
    (urls : List Variant) (config : Configuration) :
    Unseen view (addServers engine api.recorded username credential urls config) := by
  induction urls generalizing config with
  | nil => exact .pure config
  | cons url urls ih => exact .bind (.call _ _ (hview _)) fun _ => ih _

theorem parseIceServers_unseen (hview : ∀ url, view (.iceServer url) = none) (servers : List Variant)
    (config : Configuration) : Unseen view (parseIceServers engine api.recorded servers config) := by
  induction servers generalizing config with
  | nil => exact .pure _
  | cons server servers ih =>
    have hserver : Unseen view (parseIceServer engine api.recorded config server.toDictionary) := by
      unfold parseIceServer
      split
      · exact .pure _
      · exact .bind (addServers_unseen hview _ _ _ _) fun _ => .pure _
    unfold parseIceServers
    split
    · exact .pure _
    refine .bind hserver ?_
    rintro ⟨err, config⟩
    dsimp only
    split
    · exact .pure _
    · exact ih config

theorem createPc_unseen (hview : ∀ config, view (.peerConnection config) = none)
    (config : Configuration) : Unseen view (createPc api.recorded config) :=
  .tryStd (.bind (.call _ _ (hview _)) fun _ => .bind (.update _) fun _ => .pure _) fun _ => .pure _

theorem createDataChannel_unseen (hview : ∀ label init, view (.createDataChannel label init) = none)
    (p_channel : String) (p_channel_config : Dictionary) :
    Unseen view (createDataChannel engine api.recorded p_channel p_channel_config) := by
  refine .tryStd (.bind .self fun h => ?_) fun _ => .pure _
  split
  · exact .pure _
  dsimp only
  split
  · exact .pure _
  refine .bind (.call _ _ (hview _ _)) ?_
  rintro (_ | ch)
  · exact .pure _
  · exact .bind .lib fun _ => .pure _

theorem createOffer_unseen (hview : ∀ type, view (.setLocalDescription type) = none) :
    Unseen view (createOffer api.recorded) := by
  refine .tryStd (.bind .self fun h => ?_) fun _ => .pure _
  split
  · exact .pure _
  refine .bind .get fun w => ?_
  split
  · exact .pure _
  · exact .bind (.call _ _ (hview _)) fun _ => .pure _

theorem setRemoteDescription_unseen (hdescription : ∀ sdp type, view (.description sdp type) = none)
    (hremote : ∀ desc, view (.setRemoteDescription desc) = none)
    (hlocal : ∀ type, view (.setLocalDescription type) = none) (p_type p_sdp : String) :
    Unseen view (setRemoteDescription api.recorded p_type p_sdp) := by
  refine .tryStd (.bind .self fun h => ?_) fun _ => .pure _
  split
  · exact .pure _
  refine .bind (.call _ _ (hdescription _ _)) fun desc => .bind (.call _ _ (hremote _)) fun _ => ?_
  split
  · exact .bind (.call _ _ (hlocal _)) fun _ => .pure _
  · exact .pure _

theorem setLocalDescription_unseen (p_type p_sdp : String) :
    Unseen view (setLocalDescription p_type p_sdp : Method (L × List Request) Heap Error) := by
  refine .bind .self fun h => ?_
  split <;> exact .pure _

theorem addIceCandidate_unseen (hcandidate : ∀ cand mid, view (.candidate cand mid) = none)
    (hview : ∀ c, view (.addRemoteCandidate c) = none) (sdpMidName : String)
    (sdpMlineIndexName : Int) (sdpName : String) :
    Unseen view (addIceCandidate api.recorded sdpMidName sdpMlineIndexName sdpName) := by
  refine .tryStd (.bind .self fun h => ?_) fun _ => .pure _
  split
  · exact .pure _
  · exact .bind (.call _ _ (hcandidate _ _)) fun c => .bind (.call _ _ (hview c)) fun _ => .pure _

end PeerConnection

end WebRtc
