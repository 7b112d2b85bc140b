import WebRtc.DataChannel.Receive
import WebRtc.PeerConnection.Announced
import WebRtc.PeerConnection.Channels
import WebRtc.PeerConnection.Containment
import WebRtc.Text

/-!
# The two wrappers of a channel

The peer that opens a channel wraps it in `_create_data_channel`, the other one
in its `onDataChannel` callback. What the getters of both return is compared
with what the channel was opened with.
-/

namespace WebRtc

-- ---------------------------------------------------------------------------
-- What a wrapper keeps
-- ---------------------------------------------------------------------------

namespace DataChannel.Receive

variable {L : Type} {checked : Bool} {capi : DataChannelApi L}

/-- Nothing that the library or the application does to a wrapper changes its
channel pointer or its flag. -/
theorem step_keeps_flag (h : step checked capi s e = some t) :
    (t.object.channel, t.object.negotiated) = (s.object.channel, s.object.negotiated) := by
  cases (step_cases h).2 with
  | @call c =>
    exact State.exec_keeps (f := fun d => (d.channel, d.negotiated)) (fun _ _ => rfl) capi c
      { lib := s.lib, self := s.object }
  | _ => rfl

theorem run_keeps_flag (h : Machine.run (step checked capi) s es = some t) :
    (t.object.channel, t.object.negotiated) = (s.object.channel, s.object.negotiated) :=
  Machine.run_induction (P := fun _ t => (t.object.channel, t.object.negotiated) =
    (s.object.channel, s.object.negotiated)) rfl (fun _ hm he => (step_keeps_flag he).trans hm) h

theorem run_isNegotiated (h : Machine.run (step checked capi) s es = some t) :
    t.object.isNegotiated = s.object.isNegotiated := by
  obtain ⟨hchannel, hnegotiated⟩ := Prod.mk.inj (run_keeps_flag h)
  rw [isNegotiated, isNegotiated, hchannel, hnegotiated]

end DataChannel.Receive

namespace PeerConnection.Signals

open Heap (SameContents)

variable {build : Build} {s t : State}

/-- The wrappers of remotely opened channels are bound, and not as negotiated ones. -/
def Received (h : Heap) : Prop :=
  ∀ (ch : Nat) c w, h.channels[ch]? = some c → c.wrapper = some w →
    w.object.channel = true ∧ w.object.negotiated = false

theorem Received.frame (hr : Received h) (hh : SameContents h k) : Received k := by
  intro ch c w hc hw
  obtain ⟨d, hd, hkept⟩ := hh.channel ch c hc
  obtain ⟨v, hv, hvw⟩ := hkept.object w hw
  exact hvw ▸ hr ch d v hd hv

theorem Received.modify (hr : Received h) (ch : Nat) {f : Channel → Channel}
    (hf : ∀ c w, (f c).wrapper = some w →
      (∃ v, c.wrapper = some v ∧ w.object.channel = v.object.channel ∧
        w.object.negotiated = v.object.negotiated) ∨
      w.object.channel = true ∧ w.object.negotiated = false) : Received (h.modifyChannel ch f) := by
  intro k c w hc hw
  rw [Heap.getElem?_modifyChannel] at hc
  split at hc
  · obtain ⟨d, hd, rfl⟩ := Option.map_eq_some_iff.mp hc
    rcases hf d w hw with ⟨v, hv, hchannel, hnegotiated⟩ | hnew
    · rw [hchannel, hnegotiated]
      exact hr k d v hd hv
    · exact hnew
  · exact hr k c w hc hw

theorem step_received (hr : Received s.heap) (h : step build s e = some t) : Received t.heap := by
  cases step_cases h with
  | invoke _ hannounce =>
    intro ch c w hc hw
    rcases getElem?_announce hannounce hc with hc | rfl
    · exact hr ch c w hc hw
    · cases hw
  | @prepare _ c hcb hpc =>
    cases hc : c.channel? with
    | none => exact hr.frame (.of_eq (by rw [prepareArgs_of_none hc]))
    | some ch =>
      dsimp only
      rw [prepareArgs_of_channel hc]
      refine hr.modify ch fun k w hw => .inr ?_
      cases hw
      exact ⟨rfl, rfl⟩
  | getPacket | deliver =>
    refine hr.modify _ fun k w hw => .inl ?_
    obtain ⟨v, hv, rfl⟩ := Option.map_eq_some_iff.mp hw
    exact ⟨v, hv, rfl, rfl⟩
  | arrive => exact hr.modify _ fun k w hw => .inl ⟨w, hw, rfl, rfl⟩
  | _ => exact hr.frame (step_sameContents h rfl)

theorem run_received (h : Machine.run (step build) {} es = some t) : Received t.heap :=
  Machine.run_invariant (I := fun t : State => Received t.heap) step_received h fun ch c w hc => by
    simp at hc

/-- A wrapper that an `onDataChannel` callback has made, in some run. -/
def ReceivedWrapper (build : Build) (wrapper : Wrapper) : Prop :=
  ∃ (es : List Event) (t : State) (ch : Nat) (c : Channel),
    Machine.run (step build) {} es = some t ∧ t.heap.channels[ch]? = some c ∧
    c.wrapper = some wrapper

theorem ReceivedWrapper.object {wrapper : Wrapper} (hw : ReceivedWrapper build wrapper) :
    wrapper.object.channel = true ∧ wrapper.object.negotiated = false := by
  obtain ⟨es, t, ch, c, hrun, hc, hwrapper⟩ := hw
  exact run_received hrun ch c wrapper hc hwrapper

end PeerConnection.Signals

-- ---------------------------------------------------------------------------
-- The negotiated flag
-- ---------------------------------------------------------------------------

namespace PeerConnection

open DataChannel Signals

variable {L : Type} {engine : Engine} {api : PeerApi L}

def Asks (engine : Engine) (p_channel_config : Dictionary) : Prop :=
  (p_channel_config.lookup "negotiated").any (·.toBool engine) = true

theorem isNegotiated_created {established : L → Bool} (hids : AssignsIds api established)
    (h : Created engine api p_channel p_channel_config w ch object w') :
    object.isNegotiated = true ↔ Asks engine p_channel_config ∨ established w.lib = true := by
  obtain ⟨⟨hid, -⟩, hmade, rfl⟩ := h
  have hflag : (bindChannel {} (api.channelId ch w'.lib).isSome).isNegotiated =
    (api.channelId ch w'.lib).isSome := rfl
  rw [hflag, Asks, hid]
  cases hn : p_channel_config.lookup "id" with
  | none =>
    have hnone : (channelInit engine p_channel_config).id = none := by simp [channelInit, hn]
    simp [hids.assigned hmade hnone]
  | some v =>
    have hsome : (channelInit engine p_channel_config).id =
      some (FixedWidth.toUnsigned 16 (v.toInt32 engine)) := by simp [channelInit, hn]
    simp [hids.given hmade hsome]

/-- The flag of a locally opened channel is right unless the channel is opened
without asking for negotiation on an established connection; that of a remotely
opened one is false. -/
theorem negotiated_flag_iff {established : L → Bool} (hids : AssignsIds api established)
    (engine : Engine) :
    (∀ p_channel p_channel_config w ch object w' checked (capi : DataChannelApi L) events s,
      createDataChannel engine api p_channel p_channel_config w = (.ok (some (ch, object)), w') →
      Machine.run (Receive.step checked capi) { lib := w'.lib, object := object } events = some s →
      ((s.object.isNegotiated = true ↔ Asks engine p_channel_config) ↔
        (Asks engine p_channel_config ∨ established w.lib = false))) ∧
    ∀ build wrapper (R : Type) checked (capi : DataChannelApi R) r events s,
      ReceivedWrapper build wrapper →
      Machine.run (Receive.step checked capi) { lib := r, object := wrapper.object } events = some s →
      s.object.isNegotiated = false := by
  refine ⟨fun p_channel p_channel_config w ch object w' checked capi events s hcreate hrun => ?_,
    fun build wrapper R checked capi r events s hwrapper hrun => ?_⟩
  · have hkept := Receive.run_isNegotiated hrun
    have hflag := isNegotiated_created hids (createDataChannel_created hcreate)
    rw [← hkept] at hflag
    rw [hflag]
    cases established w.lib <;> simp
  · obtain ⟨hchannel, hnegotiated⟩ := hwrapper.object
    rw [Receive.run_isNegotiated hrun, isNegotiated, hchannel, hnegotiated]
    rfl

/-- Opened before the connection is established, and assigned an id later. -/
theorem negotiated_flag_iff_assignedLater :
    (Receive.State.initial ({ channels := [(utf8 "chat", { id := some 0 })] } : Store)
      false).object.isNegotiated = true ↔ Asks Containment.plainEngine [] :=
  ((negotiated_flag_iff Store.assignsIds Containment.plainEngine).1 "chat" []
    ⟨{}, { peerConnection := some 0 }, []⟩ 0 (bindChannel {} false) _ false (Store.channel 0)
    [.library { channels := [(utf8 "chat", { id := some 0 })] }] _ rfl rfl).mpr (.inr rfl)

theorem established_channel_reports_negotiated :
    (createDataChannel Containment.plainEngine Store.peerApi "chat" []
      ⟨{ established := true }, { peerConnection := some 0 }, []⟩).1 =
        .ok (some (0, bindChannel {} true)) ∧
    (bindChannel {} true).isNegotiated = true ∧ ¬ Asks Containment.plainEngine [] :=
  ⟨rfl, rfl, Bool.false_ne_true⟩

-- ---------------------------------------------------------------------------
-- Label and protocol
-- ---------------------------------------------------------------------------

theorem channelInit_protocol (h : p_channel_config.lookup "protocol" = some (.string p)) :
    (channelInit engine p_channel_config).protocol = cString (utf8 p) := by
  simp [channelInit, h, Variant.toStr]

/-- `_get_label` and `_get_protocol` return these texts. -/
def Reads (capi : DataChannelApi L) (build : Build) (w : World L DataChannel)
    (label protocol : String) : Prop :=
  getLabel capi build w = label ∧ getProtocol capi build w = protocol

theorem reads_iff {capi : DataChannelApi L} {w : World L DataChannel} {label protocol : String}
    (hbound : w.self.channel = true) (hlabel : '\x00' ∉ label.toList)
    (hprotocol : '\x00' ∉ protocol.toList) (hl : capi.label w.lib = cString (utf8 label))
    (hp : capi.protocol w.lib = cString (utf8 protocol)) : Reads capi build w label protocol ↔
      build = .gdnative ∨ ∀ c ∈ label.toList ++ protocol.toList, Utf8.IsAscii c := by
  have hreads : Reads capi build w label protocol ↔
      stringOfCString build (cString (utf8 label)) = label ∧
        stringOfCString build (cString (utf8 protocol)) = protocol := by
    simp [Reads, getLabel, getProtocol, hbound, hl, hp]
  rw [hreads, stringOfCString_utf8_iff hlabel, stringOfCString_utf8_iff hprotocol,
    List.forall_mem_append, or_and_left]

/-- Label and protocol come back at both ends if both builds decode UTF-8, or
if they are ASCII, and not otherwise. -/
theorem text_round_trip_iff {channels : Nat → DataChannelApi L} {later : L → L → Prop}
    (hkeeps : KeepsInit api channels later) {R : Type} (rapi : DataChannelApi R) {r : R}
    {p_channel p : String} (hlabel : '\x00' ∉ p_channel.toList) (hprotocol : '\x00' ∉ p.toList)
    (hp : p_channel_config.lookup "protocol" = some (.string p))
    (hcreate : createDataChannel engine api p_channel p_channel_config w =
      (.ok (some (ch, object)), w')) (hlater : later w'.lib l)
    (hreceived : ReceivedWrapper remoteBuild wrapper)
    (hsent : rapi.label r = (channels ch).label l ∧ rapi.protocol r = (channels ch).protocol l) :
    Reads (channels ch) build ⟨l, object, []⟩ p_channel p ∧
        Reads rapi remoteBuild ⟨r, wrapper.object, []⟩ p_channel p ↔
      build = .gdnative ∧ remoteBuild = .gdnative ∨
        ∀ c ∈ p_channel.toList ++ p.toList, Utf8.IsAscii c := by
  obtain ⟨-, hmade, rfl⟩ := createDataChannel_created hcreate
  have hl := hkeeps.label hmade hlater
  have hpr := (hkeeps.protocol hmade hlater).trans (channelInit_protocol hp)
  rw [reads_iff rfl hlabel hprotocol hl hpr,
    reads_iff hreceived.object.1 hlabel hprotocol (hsent.1.trans hl) (hsent.2.trans hpr),
    ← and_or_right]

theorem receivedWrapper_first (build : Build) : ReceivedWrapper build ⟨1, bindChannel {} false⟩ :=
  ⟨[.initializePc, .createPc true, .invoke 0 (.dataChannel 0), .prepare 0], _, 0, _, rfl, rfl, rfl⟩

/-- The remote peer's library: it has the label and the protocol it was sent. -/
def remote : DataChannelApi (Bytes × Bytes) where
  isClosed _ := false
  label := Prod.fst
  protocol := Prod.snd
  reliability _ := {}
  id _ := none
  bufferedAmount _ := 0
  send _ r := (.ok true, r)
  close r := (.ok (), r)

theorem text_round_trip_iff_ascii :
    Reads (Store.channel 0) .gdextension
        ⟨{ channels := [(utf8 "chat", { protocol := utf8 "json" })] }, bindChannel {} false, []⟩
        "chat" "json" ∧
      Reads remote .gdextension ⟨(utf8 "chat", utf8 "json"), bindChannel {} false, []⟩
        "chat" "json" := by
  have hprotocol : [("protocol", Variant.string "json")].lookup "protocol" =
    some (.string "json") := rfl
  have hcreate : createDataChannel Containment.plainEngine Store.peerApi "chat"
      [("protocol", .string "json")] ⟨{}, { peerConnection := some 0 }, []⟩ =
    (.ok (some (0, bindChannel {} false)),
      ⟨{ channels := [(utf8 "chat", { protocol := utf8 "json" })] }, { peerConnection := some 0 },
        [⟨.createDataChannel, false⟩]⟩) := rfl
  refine (text_round_trip_iff Store.keepsInit remote ?_ ?_ hprotocol hcreate (List.prefix_refl _)
    (receivedWrapper_first .gdextension) ?_).mpr (.inr ?_)
  · decide
  · decide
  · exact ⟨rfl, rfl⟩
  · simp [Utf8.IsAscii]

theorem accented_label_is_garbled :
    (createDataChannel Containment.plainEngine Store.peerApi "é" [("protocol", .string "json")]
      ⟨{}, { peerConnection := some 0 }, []⟩).1 = .ok (some (0, bindChannel {} false)) ∧
    getLabel (Store.channel 0) .gdextension
      ⟨(createDataChannel Containment.plainEngine Store.peerApi "é" [("protocol", .string "json")]
        ⟨{}, { peerConnection := some 0 }, []⟩).2.lib, bindChannel {} false, []⟩ = "Ã©" :=
  ⟨rfl, by decide⟩

end PeerConnection

end WebRtc