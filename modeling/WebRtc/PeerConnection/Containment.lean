import WebRtc.PeerConnection

/-!
# Exceptions at the engine boundary

The library throws where it likes. `Quiet` methods run with no throw but those
of `close`, which every caller swallows; `Clean` methods run quietly or throw a
`std::exception`; a `Clean` method under a handler is `Contained`. All of the
public operations but one are built so. `_initialize` parses its ICE servers
outside of any handler: `accept` follows the constructor of `rtc::IceServer`
along the URLs it reaches.
-/

namespace WebRtc.Containment

variable {L σ α β : Type}

/-- The operation returns, and if a library call it made has thrown, other than
to close something, then its result says so. -/
def Contained (m : Method L σ α) (w : World L σ) (reports : α → Prop) : Prop :=
  ∃ a w' made, m w = (.ok a, w') ∧ w'.log = w.log ++ made ∧
    ((∃ e ∈ made, e.threw = true ∧ e.name ≠ .close) → reports a)

-- ---------------------------------------------------------------------------
-- Methods that run quietly
-- ---------------------------------------------------------------------------

/-- From `w` to `w'` nothing threw, but to close something. -/
def QuietFrom (w w' : World L σ) : Prop :=
  ∃ made, w'.log = w.log ++ made ∧ ∀ e ∈ made, e.threw = true → e.name = .close

/-- The method throws a `std::exception`, its calls recorded. -/
def RaisesFrom (w : World L σ) (thrown : Thrown) (w' : World L σ) : Prop :=
  (∃ e, thrown = .std e) ∧ ∃ made, w'.log = w.log ++ made

def Quiet (m : Method L σ α) : Prop := ∀ w, Eff.Sat m w (fun _ => QuietFrom w) fun _ _ => False

def Clean (m : Method L σ α) : Prop := ∀ w, Eff.Sat m w (fun _ => QuietFrom w) (RaisesFrom w)

theorem QuietFrom.refl (w : World L σ) : QuietFrom w w := ⟨[], by simp, by simp⟩

theorem QuietFrom.of_log {w w' : World L σ} (h : w'.log = w.log) : QuietFrom w w' :=
  ⟨[], by simp [h], by simp⟩

theorem QuietFrom.trans {w₁ w₂ w₃ : World L σ} (h₁ : QuietFrom w₁ w₂) (h₂ : QuietFrom w₂ w₃) :
    QuietFrom w₁ w₃ := by
  obtain ⟨made, hmade, hquiet⟩ := h₁
  obtain ⟨more, hmore, hquiet'⟩ := h₂
  refine ⟨made ++ more, by simp [hmore, hmade], fun e he => ?_⟩
  rcases List.mem_append.mp he with he | he
  · exact hquiet e he
  · exact hquiet' e he

theorem QuietFrom.raises {w₁ w₂ w₃ : World L σ} (h₁ : QuietFrom w₁ w₂)
    (h₂ : RaisesFrom w₂ thrown w₃) : RaisesFrom w₁ thrown w₃ := by
  obtain ⟨made, hmade, -⟩ := h₁
  obtain ⟨hstd, more, hmore⟩ := h₂
  exact ⟨hstd, made ++ more, by simp [hmore, hmade]⟩

variable {m : Method L σ α} {k : α → Method L σ β}

theorem Quiet.clean (hm : Quiet m) : Clean m := fun w =>
  (hm w).imp (fun _ _ h => h) fun _ _ h => h.elim

theorem Quiet.pure (a : α) : Quiet (pure a : Method L σ α) := fun w => .pure (.refl w)

theorem Quiet.self : Quiet (Method.self : Method L σ σ) := fun w => Method.sat_self (.refl w)

theorem Quiet.lib : Quiet (Method.lib : Method L σ L) := fun w => Method.sat_lib (.refl w)

theorem Quiet.get : Quiet (Eff.get : Method L σ (World L σ)) := fun w => .get (.refl w)

theorem Quiet.modify {f : World L σ → World L σ} (h : ∀ w, (f w).log = w.log) :
    Quiet (Eff.modify f : Method L σ Unit) := fun w => .modify (.of_log (h w))

theorem Quiet.update (f : σ → σ) : Quiet (Method.update f : Method L σ Unit) :=
  .modify fun _ => rfl

theorem Quiet.tryClose (f : Call L Unit) :
    Quiet (Method.tryAll (Method.call .close f) : Method L σ Unit) := by
  intro w
  refine Method.sat_tryAll (F := fun _ => QuietFrom w) (Method.sat_call ?_ ?_) fun _ _ h => h
  · exact fun _ _ _ => ⟨[⟨.close, false⟩], rfl, by simp⟩
  · exact fun _ _ _ => ⟨[⟨.close, true⟩], rfl, by simp⟩

theorem Quiet.bind (hm : Quiet m) (hk : ∀ a, Quiet (k a)) : Quiet (m >>= k) := fun w =>
  (hm w).bind fun a w' h => (hk a w').imp (fun _ _ => h.trans) fun _ _ h => h

theorem Clean.bind (hm : Clean m) (hk : ∀ a, Clean (k a)) : Clean (m >>= k) := fun w =>
  (hm w).bind fun a w' h => (hk a w').imp (fun _ _ => h.trans) fun _ _ => h.raises

theorem Clean.pure (a : α) : Clean (pure a : Method L σ α) := (Quiet.pure a).clean

theorem Clean.call (name : CallName) (f : Call L α) :
    Clean (Method.call name f : Method L σ α) := fun _ =>
  Method.sat_call (fun _ _ _ => ⟨_, rfl, by simp⟩) fun e _ _ => ⟨⟨e, rfl⟩, _, rfl⟩

theorem Quiet.ite {c : Prop} [Decidable c] {m₁ m₂ : Method L σ α} (h₁ : Quiet m₁) (h₂ : Quiet m₂) :
    Quiet (if c then m₁ else m₂) := by split <;> assumption

theorem Clean.ite {c : Prop} [Decidable c] {m₁ m₂ : Method L σ α} (h₁ : Clean m₁) (h₂ : Clean m₂) :
    Clean (if c then m₁ else m₂) := by split <;> assumption

-- ---------------------------------------------------------------------------
-- Methods that are contained
-- ---------------------------------------------------------------------------

/-- Nothing threw on the way to `w'`, or the result says so. -/
def Reported (reports : α → Prop) (w : World L σ) (a : α) (w' : World L σ) : Prop :=
  QuietFrom w w' ∨ (reports a ∧ ∃ made, w'.log = w.log ++ made)

variable {reports : α → Prop}

theorem QuietFrom.reported {w₁ w₂ w₃ : World L σ} (h₁ : QuietFrom w₁ w₂)
    (h₂ : Reported reports w₂ a w₃) : Reported reports w₁ a w₃ := by
  rcases h₂ with h₂ | ⟨hreports, more, hmore⟩
  · exact .inl (h₁.trans h₂)
  · obtain ⟨made, hmade, -⟩ := h₁
    exact .inr ⟨hreports, made ++ more, by simp [hmore, hmade]⟩

theorem Reported.contained {w w' : World L σ} (hr : m w = (.ok a, w'))
    (h : Reported reports w a w') : Contained m w reports := by
  rcases h with ⟨made, hmade, hquiet⟩ | ⟨hreports, made, hmade⟩
  · refine ⟨a, w', made, hr, hmade, ?_⟩
    rintro ⟨e, he, hthrew, hname⟩
    exact absurd (hquiet e he hthrew) hname
  · exact ⟨a, w', made, hr, hmade, fun _ => hreports⟩

theorem contained_of_sat {w : World L σ}
    (h : Eff.Sat m w (Reported reports w) fun _ _ => False) : Contained m w reports := by
  unfold Eff.Sat at h
  rcases hr : m w with ⟨e | a, w'⟩ <;> rw [hr] at h
  · exact h.elim
  · exact h.contained hr

theorem Quiet.contained (hm : Quiet m) (w : World L σ) : Contained m w reports :=
  contained_of_sat ((hm w).imp (fun _ _ => .inl) fun _ _ h => h)

theorem Clean.handled (hm : Clean m) (hb : reports b) (w : World L σ) :
    Eff.Sat (Method.tryStd m fun _ => Pure.pure b) w (Reported reports w) fun _ _ => False := by
  refine Method.sat_tryStd (F := fun _ w' => ∃ made, w'.log = w.log ++ made) ?_ ?_
  · exact (hm w).imp (fun _ _ => .inl) fun _ _ ⟨⟨e, he⟩, hmade⟩ => ⟨e, he, hmade⟩
  · exact fun _ _ hmade => .pure (.inr ⟨hb, hmade⟩)

theorem Clean.contained (hm : Clean m) (hb : reports b) (w : World L σ) :
    Contained (Method.tryStd m fun _ => Pure.pure b) w reports :=
  contained_of_sat (hm.handled hb w)

theorem Contained.map {w : World L σ} {f : α → β} {reports : β → Prop}
    (h : Contained m w fun a => reports (f a)) :
    Contained (m >>= fun a => Pure.pure (f a)) w reports := by
  obtain ⟨a, w', made, hr, hmade, hreports⟩ := h
  exact ⟨f a, w', made, by rw [Eff.bind_apply, hr]; rfl, hmade, hreports⟩

theorem Contained.of_map {w : World L σ} {f : α → β} {reports : β → Prop}
    (h : Contained (m >>= fun a => Pure.pure (f a)) w reports) :
    Contained m w fun a => reports (f a) := by
  obtain ⟨b, w', made, hr, hmade, hreports⟩ := h
  rw [Eff.bind_apply] at hr
  rcases hm : m w with ⟨e | a, w''⟩ <;> rw [hm] at hr
  · cases hr
  · cases hr
    exact ⟨a, w', made, hm, hmade, hreports⟩

-- ---------------------------------------------------------------------------
-- The members of `WebRTCLibDataChannel`
-- ---------------------------------------------------------------------------

theorem channelClose_quiet (api : DataChannelApi L) : Quiet (DataChannel.close api) := by
  intro w
  refine Method.sat_tryAll (F := fun _ => QuietFrom w)
    (.bind (Method.sat_self (Q := fun _ => QuietFrom w) (.refl w)) ?_) fun _ _ h => h
  intro d w' hw
  split
  · refine Method.sat_call (fun _ _ _ => hw.trans ?_) fun _ _ _ => hw.trans ?_
    · exact ⟨[⟨.close, false⟩], rfl, by simp⟩
    · exact ⟨[⟨.close, true⟩], rfl, by simp⟩
  · exact .pure hw

theorem putPacket_contained (api : DataChannelApi L) (p_buffer : Bytes)
    (w : World L DataChannel) : Contained (DataChannel.putPacket api p_buffer) w (· ≠ .ok) := by
  refine Clean.contained (.bind Quiet.self.clean fun d => ?_) (by decide) w
  refine .ite (.pure _) (.bind Quiet.lib.clean fun l => .ite (.pure _) ?_)
  split
  · exact .bind (.call _ _) fun _ => .pure _
  · exact .bind (.call _ _) fun _ => .pure _
  · exact .pure _

theorem getPacket_quiet : Quiet (DataChannel.getPacket : Method L DataChannel Error) :=
  fun w => QuietFrom.of_log (w := w) rfl

-- ---------------------------------------------------------------------------
-- The members of `WebRTCLibPeerConnection`
-- ---------------------------------------------------------------------------

section
variable {engine : Engine} {api : PeerApi L}

open PeerConnection

theorem closeChannels_quiet (chs : List Nat) : Quiet (closeChannels api chs) := by
  induction chs with
  | nil => exact .pure ()
  | cons ch chs ih => exact .bind (.tryClose _) fun _ => ih

theorem updateHeap_quiet (f : Heap → Heap) : Quiet (updateHeap api f) :=
  .bind .self fun _ => .bind (.update f) fun _ => .bind .self fun _ => closeChannels_quiet _

theorem close_quiet : Quiet (close api) := by
  refine .bind .self fun h => ?_
  split
  · exact .bind (.tryClose _) fun _ => updateHeap_quiet _
  · exact updateHeap_quiet _

theorem emitAll_quiet (emit : EmitSignal L) (local_queue : List Task) :
    Quiet (emitAll api emit local_queue) := by
  induction local_queue with
  | nil => exact .pure ()
  | cons f local_queue ih =>
    refine .bind (.update _) fun _ => .bind (.modify fun w => rfl) fun _ => ?_
    exact .bind (updateHeap_quiet _) fun _ => .bind (updateHeap_quiet _) fun _ => ih

theorem poll_quiet (emit : EmitSignal L) : Quiet (poll api emit) := by
  refine .bind .self fun h => .ite (.pure _) ?_
  exact .bind .self fun h => .bind (.update _) fun _ => .bind (emitAll_quiet emit _) fun _ => .pure _

theorem createPc_handled (r_config : Configuration) (w : World L Heap) :
    Eff.Sat (createPc api r_config) w (Reported (· ≠ .ok) w) fun _ _ => False := by
  refine Clean.handled (.bind (.call _ _) fun _ => ?_) (by decide) w
  exact .bind (Quiet.update _).clean fun _ => .pure _

theorem createDataChannel_contained (p_channel : String) (p_channel_config : Dictionary)
    (w : World L Heap) :
    Contained (createDataChannel engine api p_channel p_channel_config) w (· = none) := by
  refine @Clean.contained _ _ _ _ (· = none) none (.bind Quiet.self.clean fun h => ?_) rfl w
  split
  · exact .pure _
  split
  split
  · exact .pure _
  refine .bind (.call _ _) fun ch => ?_
  split
  · exact .pure _
  · exact .bind Quiet.lib.clean fun _ => .pure _

theorem createOffer_contained (w : World L Heap) : Contained (createOffer api) w (· ≠ .ok) := by
  refine Clean.contained (.bind Quiet.self.clean fun _ => .ite (.pure _) ?_) (by decide) w
  refine .bind Quiet.get.clean fun _ => .ite (.pure _) ?_
  exact .bind (.call _ _) fun _ => .pure _

theorem setRemoteDescription_contained (p_type p_sdp : String) (w : World L Heap) :
    Contained (setRemoteDescription api p_type p_sdp) w (· ≠ .ok) := by
  refine Clean.contained (.bind Quiet.self.clean fun _ => .ite (.pure _) ?_) (by decide) w
  refine .bind (.call _ _) fun _ => .bind (.call _ _) fun _ => ?_
  exact .ite (.bind (.call _ _) fun _ => .pure _) (.pure _)

theorem setLocalDescription_quiet (p_type p_sdp : String) :
    Quiet (setLocalDescription p_type p_sdp : Method L Heap Error) :=
  .bind .self fun _ => .ite (.pure _) (.pure _)

theorem addIceCandidate_contained (sdpMidName : String) (sdpMlineIndexName : Int)
    (sdpName : String) (w : World L Heap) :
    Contained (addIceCandidate api sdpMidName sdpMlineIndexName sdpName) w (· ≠ .ok) := by
  refine Clean.contained (.bind Quiet.self.clean fun _ => .ite (.pure _) ?_) (by decide) w
  exact .bind (.call _ _) fun _ => .bind (.call _ _) fun _ => .pure _

-- ---------------------------------------------------------------------------
-- The URLs of a configuration
-- ---------------------------------------------------------------------------

/-- Construct an `rtc::IceServer` from each URL in turn; none as soon as one is
rejected. -/
def accept (api : PeerApi L) : List Bytes → L → Option L
  | [], l => some l
  | url :: urls, l => match api.iceServer url l with
    | (.ok _, l) => accept api urls l
    | (.error _, _) => none

theorem accept_append (urls more : List Bytes) (l : L) :
    accept api (urls ++ more) l = (accept api urls l).bind (accept api more) := by
  induction urls generalizing l with
  | nil => rfl
  | cons url urls ih =>
    simp only [List.cons_append, accept]
    split
    · exact ih _
    · rfl

/-- The URLs of a server entry as `rtc::IceServer` is given them. -/
def entryUrls (engine : Engine) (p_server : Dictionary) : Option (List Bytes) :=
  (serverUrls p_server).map (List.map fun url => cString (utf8 (url.toStr engine)))

/-- The URLs of the entries before the first malformed one. -/
def reachedUrls (engine : Engine) : List Variant → List Bytes
  | [] => []
  | server :: servers =>
    if server.getType ≠ .dictionary then []
    else match entryUrls engine server.toDictionary with
      | none => []
      | some urls => urls ++ reachedUrls engine servers

def allUrls (engine : Engine) (servers : List Variant) : List Bytes :=
  servers.flatMap fun server =>
    if server.getType ≠ .dictionary then [] else (entryUrls engine server.toDictionary).getD []

/-- The constructor rejects the URL, in any state of the library. -/
def Rejects (api : PeerApi L) (url : Bytes) : Prop :=
  ∀ l, ∃ e l', api.iceServer url l = (.error e, l')

theorem not_accept_of_rejects (hr : Rejects api url) (hurl : url ∈ urls) (l : L) :
    accept api urls l = none := by
  induction urls generalizing l with
  | nil => cases hurl
  | cons u urls ih =>
    obtain ⟨e, l', he⟩ := hr l
    rcases List.mem_cons.mp hurl with rfl | hurl
    · simp [accept, he]
    · simp only [accept]
      split
      · exact ih hurl _
      · rfl

-- ---------------------------------------------------------------------------
-- `_initialize`
-- ---------------------------------------------------------------------------

theorem addServers_sat (username credential : String) (urls : List Variant)
    (r_config : Configuration) (w : World L Heap) :
    Eff.Sat (addServers engine api username credential urls r_config) w
      (fun _ w' => QuietFrom w w' ∧
        accept api (urls.map fun url => cString (utf8 (url.toStr engine))) w.lib = some w'.lib)
      fun _ _ => accept api (urls.map fun url => cString (utf8 (url.toStr engine))) w.lib = none := by
  induction urls generalizing r_config w with
  | nil => exact .pure ⟨.refl w, rfl⟩
  | cons url urls ih =>
    simp only [List.map_cons]
    refine .bind (Method.sat_call (Q := fun _ w' => QuietFrom w w' ∧ ∃ a,
      api.iceServer (cString (utf8 (url.toStr engine))) w.lib = (.ok a, w'.lib)) ?_ ?_) ?_
    · exact fun a l h => ⟨⟨[⟨.iceServer, false⟩], rfl, by simp⟩, a, h⟩
    · exact fun e l h => by simp [accept, h]
    · rintro a w' ⟨hquiet, a', ha⟩
      refine (ih _ w').imp ?_ ?_
      · rintro _ w'' ⟨hquiet', haccept⟩
        exact ⟨hquiet.trans hquiet', by simpa [accept, ha] using haccept⟩
      · exact fun _ _ hnone => by simpa [accept, ha] using hnone

theorem parseIceServer_sat (r_config : Configuration) (p_server : Dictionary) (w : World L Heap) :
    Eff.Sat (parseIceServer engine api r_config p_server) w
      (fun r w' => QuietFrom w w' ∧ match entryUrls engine p_server with
        | none => r.1 ≠ .ok ∧ w'.lib = w.lib
        | some urls => r.1 = .ok ∧ accept api urls w.lib = some w'.lib)
      fun _ _ => ∃ urls, entryUrls engine p_server = some urls ∧ accept api urls w.lib = none := by
  unfold parseIceServer entryUrls
  cases serverUrls p_server with
  | none => exact .pure ⟨.refl w, by simp⟩
  | some urls =>
    refine .bind ((addServers_sat _ _ urls r_config w).imp (fun _ _ h => h) ?_) ?_
    · exact fun _ _ hnone => ⟨_, rfl, hnone⟩
    · exact fun _ w' ⟨hquiet, haccept⟩ => .pure ⟨hquiet, rfl, haccept⟩

theorem parseIceServers_sat (servers : List Variant) (config : Configuration) (w : World L Heap) :
    Eff.Sat (parseIceServers engine api servers config) w
      (fun r w' => QuietFrom w w' ∧ (accept api (reachedUrls engine servers) w.lib).isSome ∧
        (r.1 = .ok → reachedUrls engine servers = allUrls engine servers))
      fun _ _ => accept api (reachedUrls engine servers) w.lib = none := by
  induction servers generalizing config w with
  | nil => exact .pure ⟨.refl w, rfl, fun _ => rfl⟩
  | cons server servers ih =>
    unfold parseIceServers reachedUrls
    by_cases htype : server.getType = .dictionary
    · simp only [htype, ne_eq, not_true_eq_false, ↓reduceIte]
      refine .bind ((parseIceServer_sat config _ w).imp (fun _ _ h => h) ?_) ?_
      · rintro _ _ ⟨urls, hurls, hnone⟩
        simp [hurls, accept_append, hnone]
      rintro ⟨err, config'⟩ w' ⟨hquiet, hentry⟩
      cases hurls : entryUrls engine server.toDictionary with
      | none =>
        simp only [hurls] at hentry
        simp only [hentry.1, not_false_eq_true, ↓reduceIte]
        exact .pure ⟨hquiet, rfl, by simp⟩
      | some urls =>
        simp only [hurls] at hentry
        simp only [hentry.1, not_true_eq_false, ↓reduceIte, accept_append, hentry.2,
          Option.bind_some]
        refine (ih config' w').imp ?_ fun _ _ h => h
        rintro r w'' ⟨hquiet', hsome, hall⟩
        exact ⟨hquiet.trans hquiet', hsome, fun hok => by simp [allUrls, htype, hurls, hall hok]⟩
    · simp only [htype, ne_eq, not_false_eq_true, ↓reduceIte]
      exact .pure ⟨.refl w, rfl, by simp⟩

theorem initializePc_sat (engine : Engine) (api : PeerApi L) (p_config : Dictionary)
    (w : World L Heap) : Eff.Sat (initializePc engine api p_config) w
      (fun code w' => Reported (· ≠ .ok) w code w' ∧
        (accept api (reachedUrls engine (iceServersOf p_config)) (close api w).2.lib).isSome ∧
        (code = .ok → reachedUrls engine (iceServersOf p_config) =
          allUrls engine (iceServersOf p_config)))
      fun _ _ =>
        accept api (reachedUrls engine (iceServersOf p_config)) (close api w).2.lib = none := by
  refine .bind ((close_quiet w).final.imp (fun _ _ h => h) fun _ _ h => h.1.elim) ?_
  rintro _ w₁ ⟨hquiet₁, hclose⟩
  rw [hclose]
  refine (parseIceServers_sat _ _ w₁).bind ?_
  rintro ⟨err, config⟩ w₂ ⟨hquiet₂, hsome, hall⟩
  have hquiet := hquiet₁.trans hquiet₂
  dsimp only
  split
  · rename_i herr
    exact .pure ⟨.inl hquiet, hsome, fun hok => absurd hok herr⟩
  · rename_i herr
    refine (createPc_handled _ w₂).imp (fun code w₃ h => ?_) fun _ _ h => h.elim
    exact ⟨hquiet.reported h, hsome, fun _ => hall (not_not.mp herr)⟩

end

-- ---------------------------------------------------------------------------
-- Every operation
-- ---------------------------------------------------------------------------

/-- What an operation returns to the engine. -/
inductive Reply
  | code (err : Error)
  | channel (ch : Option (Nat × DataChannel))
  | nothing

/-- The reply to a call in which the library threw; `_close` does not tell. -/
def Reply.Reports : Reply → Prop
  | .code err => err ≠ .ok
  | .channel ch => ch = none
  | .nothing => True

theorem Contained.code {m : Method L σ Error} {w : World L σ} (h : Contained m w (· ≠ .ok)) :
    Contained (m >>= fun err => Pure.pure (Reply.code err)) w Reply.Reports :=
  @Contained.map L σ Error Reply m w Reply.code Reply.Reports h

inductive PeerOp (L : Type)
  | initializePc (p_config : Dictionary)
  | createDataChannel (p_channel : String) (p_channel_config : Dictionary)
  | createOffer
  | setRemoteDescription (p_type p_sdp : String)
  | setLocalDescription (p_type p_sdp : String)
  | addIceCandidate (sdpMidName : String) (sdpMlineIndexName : Int) (sdpName : String)
  | poll (emit : PeerConnection.EmitSignal L)
  | close

def PeerOp.exec (engine : Engine) (api : PeerApi L) : PeerOp L → Method L Heap Reply
  | .initializePc p_config => do return .code (← PeerConnection.initializePc engine api p_config)
  | .createDataChannel p_channel p_channel_config => do
    return .channel (← PeerConnection.createDataChannel engine api p_channel p_channel_config)
  | .createOffer => do return .code (← PeerConnection.createOffer api)
  | .setRemoteDescription p_type p_sdp => do
    return .code (← PeerConnection.setRemoteDescription api p_type p_sdp)
  | .setLocalDescription p_type p_sdp => do
    return .code (← PeerConnection.setLocalDescription p_type p_sdp)
  | .addIceCandidate sdpMidName sdpMlineIndexName sdpName => do
    return .code (← PeerConnection.addIceCandidate api sdpMidName sdpMlineIndexName sdpName)
  | .poll emit => do return .code (← PeerConnection.poll api emit)
  | .close => do let _ ← PeerConnection.close api; return .nothing

inductive ChannelOp
  | putPacket (p_buffer : Bytes)
  | getPacket
  | close

def ChannelOp.exec (api : DataChannelApi L) : ChannelOp → Method L DataChannel Reply
  | .putPacket p_buffer => do return .code (← DataChannel.putPacket api p_buffer)
  | .getPacket => do return .code (← DataChannel.getPacket)
  | .close => do let _ ← DataChannel.close api; return .nothing

variable {engine : Engine} {api : PeerApi L}

/-- `_initialize` is only asked for URLs that the library accepts: those before
the first malformed entry. -/
def PeerOp.Accepted (engine : Engine) (api : PeerApi L) (op : PeerOp L) (w : World L Heap) : Prop :=
  ∀ p_config, op = .initializePc p_config →
    (accept api (reachedUrls engine (PeerConnection.iceServersOf p_config))
      (PeerConnection.close api w).2.lib).isSome

theorem initializePc_contained_iff (engine : Engine) (api : PeerApi L) (p_config : Dictionary)
    (w : World L Heap) : Contained (PeerConnection.initializePc engine api p_config) w (· ≠ .ok) ↔
      (accept api (reachedUrls engine (PeerConnection.iceServersOf p_config))
        (PeerConnection.close api w).2.lib).isSome := by
  have hsat := initializePc_sat engine api p_config w
  unfold Eff.Sat at hsat
  rcases hr : PeerConnection.initializePc engine api p_config w with ⟨e | code, w'⟩ <;>
    rw [hr] at hsat
  · constructor
    · rintro ⟨a, w'', made, hok, -⟩
      simp [hr] at hok
    · intro haccept
      simp [hsat] at haccept
  · exact ⟨fun _ => hsat.2.1, fun _ => hsat.1.contained hr⟩

/-- A URL that the library always rejects is past a malformed entry, or it is
reached and the exception escapes. -/
theorem initializePc_rejects (p_config : Dictionary) (w : World L Heap)
    (hurl : url ∈ allUrls engine (PeerConnection.iceServersOf p_config)) (hr : Rejects api url) :
    (PeerConnection.initializePc engine api p_config w).1 ≠ .ok .ok := by
  have hsat := initializePc_sat engine api p_config w
  unfold Eff.Sat at hsat
  rcases hi : PeerConnection.initializePc engine api p_config w with ⟨e | code, w'⟩ <;>
    rw [hi] at hsat
  · simp
  · rintro ⟨⟩
    rw [hsat.2.2 rfl, not_accept_of_rejects hr hurl] at hsat
    simp at hsat

theorem peerOp_contained_iff (op : PeerOp L) (w : World L Heap) :
    Contained (op.exec engine api) w Reply.Reports ↔ op.Accepted engine api w := by
  have hother (hop : ∀ p_config, op ≠ .initializePc p_config) : op.Accepted engine api w :=
    fun p_config h => absurd h (hop p_config)
  cases op with
  | initializePc p_config =>
    have hiff := initializePc_contained_iff engine api p_config w
    simp only [PeerOp.Accepted, PeerOp.initializePc.injEq, forall_eq']
    exact ⟨fun h => hiff.mp h.of_map, fun h => (hiff.mpr h).code⟩
  | createDataChannel p_channel p_channel_config =>
    exact iff_of_true (createDataChannel_contained p_channel p_channel_config w).map
      (hother (by simp))
  | createOffer => exact iff_of_true (createOffer_contained w).code (hother (by simp))
  | setRemoteDescription p_type p_sdp =>
    exact iff_of_true (setRemoteDescription_contained p_type p_sdp w).code (hother (by simp))
  | setLocalDescription p_type p_sdp =>
    exact iff_of_true ((setLocalDescription_quiet p_type p_sdp).contained w).code (hother (by simp))
  | addIceCandidate sdpMidName sdpMlineIndexName sdpName =>
    exact iff_of_true (addIceCandidate_contained sdpMidName sdpMlineIndexName sdpName w).code
      (hother (by simp))
  | poll emit => exact iff_of_true ((poll_quiet emit).contained w).code (hother (by simp))
  | close => exact iff_of_true ((close_quiet.bind fun _ => .pure _).contained w) (hother (by simp))

theorem channelOp_contained (capi : DataChannelApi L) (op : ChannelOp) (w : World L DataChannel) :
    Contained (op.exec capi) w Reply.Reports := by
  cases op with
  | putPacket p_buffer => exact (putPacket_contained capi p_buffer w).code
  | getPacket => exact (getPacket_quiet.contained w).code
  | close => exact ((channelClose_quiet capi).bind fun _ => .pure _).contained w

/-- Every operation of the two classes is contained exactly when it is not an
`_initialize` that reaches a URL which the library rejects; and no `_initialize`
with such a URL anywhere returns OK. -/
theorem exceptions_contained_iff (engine : Engine) (api : PeerApi L) (capi : DataChannelApi L) :
    (∀ (op : PeerOp L) (w : World L Heap),
      Contained (op.exec engine api) w Reply.Reports ↔ op.Accepted engine api w) ∧
    (∀ (op : ChannelOp) (w : World L DataChannel),
      Contained (op.exec capi) w Reply.Reports) ∧
    ∀ (p_config : Dictionary) (w : World L Heap) (url : Bytes),
      url ∈ allUrls engine (PeerConnection.iceServersOf p_config) → Rejects api url →
      (PeerConnection.initializePc engine api p_config w).1 ≠ .ok .ok :=
  ⟨peerOp_contained_iff, channelOp_contained capi, fun p_config w _ => initializePc_rejects p_config w⟩

/-- A library whose calls all return, but that takes only STUN URLs. -/
def stunOnly : PeerApi Unit where
  iceServer url l := if (utf8 "stun:").isPrefixOf url then (.ok (), l)
    else (.error "Invalid ICE server URL", l)
  peerConnection _ l := (.ok (), l)
  state _ := .new
  createDataChannel _ _ l := (.ok none, l)
  channelId _ _ := none
  setLocalDescription _ l := (.ok (), l)
  description sdp _ l := (.ok ⟨sdp, .unspec⟩, l)
  setRemoteDescription _ l := (.ok (), l)
  candidate cand mid l := (.ok ⟨cand, mid⟩, l)
  addRemoteCandidate _ l := (.ok (), l)
  close l := (.ok (), l)
  closeChannel _ l := (.ok (), l)

def plainEngine : Engine := ⟨fun _ => false, fun _ => 0, fun _ => ""⟩

def httpServer : Dictionary :=
  [("iceServers", .array [.dictionary [("urls", .string "http://example.org")]])]

theorem rejected_url_escapes :
    (PeerConnection.initializePc plainEngine stunOnly httpServer ⟨(), {}, []⟩).1 =
        .error (.std "Invalid ICE server URL") ∧
      ¬ Contained ((PeerOp.initializePc httpServer).exec plainEngine stunOnly) ⟨(), {}, []⟩
        Reply.Reports := by
  have hthrows : (PeerConnection.initializePc plainEngine stunOnly httpServer ⟨(), {}, []⟩).1 =
      .error (.std "Invalid ICE server URL") := rfl
  refine ⟨hthrows, fun h => ?_⟩
  obtain ⟨a, w', made, hok, -⟩ :=
    @Contained.of_map Unit Heap Error Reply (PeerConnection.initializePc plainEngine stunOnly httpServer)
      _ Reply.code Reply.Reports h
  rw [hok] at hthrows
  cases hthrows

end WebRtc.Containment
