import WebRtc.PeerConnection.Requests

/-!
# Locally created channels

What `_create_data_channel` comes to, in one lemma for each outcome, and what
is assumed of the library about the channels it makes. `Store` is a library
that meets the assumptions.
-/

namespace WebRtc.PeerConnection

variable {L : Type} {engine : Engine} {api : PeerApi L}

-- ---------------------------------------------------------------------------
-- `_parse_channel_config`
-- ---------------------------------------------------------------------------

/-- The options that the dictionary stands for. -/
def channelInit (engine : Engine) (p_dict : Dictionary) : DataChannelInit where
  reliability :=
    { unordered := (p_dict.lookup "ordered").any fun v => !v.toBool engine
      maxPacketLifeTime := (p_dict.lookup "maxPacketLifeTime").map (·.toInt32 engine)
      maxRetransmits := (p_dict.lookup "maxRetransmits").map fun v =>
        FixedWidth.toUnsigned 32 (v.toInt32 engine) }
  negotiated := (p_dict.lookup "negotiated").any (·.toBool engine)
  id := (p_dict.lookup "id").map fun v => FixedWidth.toUnsigned 16 (v.toInt32 engine)
  protocol := (p_dict.lookup "protocol").elim [] fun v => cString (utf8 (v.toStr engine))

/-- An id if and only if negotiated, and at most one limit. -/
def Consistent (engine : Engine) (p_dict : Dictionary) : Prop :=
  (p_dict.lookup "negotiated").any (·.toBool engine) = (p_dict.lookup "id").isSome ∧
    ¬ ((p_dict.lookup "maxPacketLifeTime").isSome ∧ (p_dict.lookup "maxRetransmits").isSome)

instance (engine : Engine) (p_dict : Dictionary) : Decidable (Consistent engine p_dict) :=
  inferInstanceAs (Decidable (_ ∧ _))

/-- The flag and the id are written first, and looked at before the other options. -/
theorem parseChannelConfig_start (engine : Engine) (p_dict : Dictionary) :
    (let r_config : DataChannelInit := if p_dict.has "negotiated" then
        { ({} : DataChannelInit) with negotiated := (p_dict.get "negotiated").toBool engine } else {}
      if p_dict.has "id" then
        { r_config with id := some (FixedWidth.toUnsigned 16 ((p_dict.get "id").toInt32 engine)) }
      else r_config) =
    { negotiated := (channelInit engine p_dict).negotiated
      id := (channelInit engine p_dict).id } := by
  unfold Dictionary.has Dictionary.get channelInit
  cases p_dict.lookup "negotiated" <;> cases p_dict.lookup "id" <;> rfl

theorem parseChannelConfig_eq (p_dict : Dictionary) : parseChannelConfig engine {} p_dict =
    if Consistent engine p_dict then (.ok, channelInit engine p_dict)
    else (.invalidParameter, {
      negotiated := (channelInit engine p_dict).negotiated
      id := (channelInit engine p_dict).id }) := by
  have hstart := parseChannelConfig_start engine p_dict
  dsimp only at hstart
  unfold parseChannelConfig
  dsimp only
  rw [hstart]
  unfold Dictionary.has Dictionary.get
  have hid : (channelInit engine p_dict).id.isSome = (p_dict.lookup "id").isSome := Option.isSome_map
  by_cases h : Consistent engine p_dict
  · rw [if_pos h, if_neg (by rw [hid]; exact not_not.mpr h.1), if_neg h.2]
    have hlimits := h.2
    revert hlimits
    unfold channelInit
    cases p_dict.lookup "maxPacketLifeTime" <;> cases p_dict.lookup "maxRetransmits" <;>
      cases p_dict.lookup "ordered" <;> cases p_dict.lookup "protocol" <;> simp
    all_goals split <;> rename_i hordered <;> simp [hordered]
  · rw [if_neg h]
    rcases not_and_or.mp h with h | h
    · rw [if_pos (by rw [hid]; exact h)]
    · rw [if_pos (not_not.mp h)]
      exact ite_self _

theorem parseChannelConfig_ok_iff :
    parseChannelConfig engine {} p_dict = (.ok, config) ↔
      Consistent engine p_dict ∧ channelInit engine p_dict = config := by
  rw [parseChannelConfig_eq]
  split <;> rename_i h <;> simp [h]

-- ---------------------------------------------------------------------------
-- `_create_data_channel`
-- ---------------------------------------------------------------------------

theorem createDataChannel_unconfigured (h : w.self.peerConnection = none) (p_channel : String)
    (p_channel_config : Dictionary) :
    createDataChannel engine api p_channel p_channel_config w = (.ok none, w) := by
  unfold createDataChannel Method.tryStd Eff.tryCatch
  rw [Eff.bind_apply, Method.self_apply]
  simp [h, Eff.pure_apply]

theorem createDataChannel_inconsistent (h : ¬ Consistent engine p_channel_config)
    (p_channel : String) (w : World L Heap) :
    createDataChannel engine api p_channel p_channel_config w = (.ok none, w) := by
  unfold createDataChannel Method.tryStd Eff.tryCatch
  rw [parseChannelConfig_eq, if_neg h, Eff.bind_apply, Method.self_apply]
  cases w.self.peerConnection <;> simp [Eff.pure_apply]

theorem createDataChannel_consistent (h : Consistent engine p_channel_config)
    (hopen : w.self.peerConnection ≠ none) (p_channel : String) :
    createDataChannel engine api p_channel p_channel_config w =
      match api.createDataChannel (cString (utf8 p_channel)) (channelInit engine p_channel_config)
        w.lib with
      | (.ok none, l) =>
        (.ok none, { w with lib := l, log := w.log ++ [⟨.createDataChannel, false⟩] })
      | (.ok (some ch), l) =>
        (.ok (some (ch, DataChannel.bindChannel {} (api.channelId ch l).isSome)),
          { w with lib := l, log := w.log ++ [⟨.createDataChannel, false⟩] })
      | (.error _, l) =>
        (.ok none, { w with lib := l, log := w.log ++ [⟨.createDataChannel, true⟩] }) := by
  obtain ⟨conn, hconn⟩ := Option.ne_none_iff_exists'.mp hopen
  unfold createDataChannel Method.tryStd Eff.tryCatch
  rw [parseChannelConfig_eq, if_pos h, Eff.bind_apply, Method.self_apply]
  simp only [hconn, Option.isNone_some, Bool.false_eq_true, ↓reduceIte, ne_eq, not_true_eq_false,
    Eff.bind_apply, Method.call]
  rcases api.createDataChannel (cString (utf8 p_channel)) (channelInit engine p_channel_config) w.lib
    with ⟨_ | _ | ch, l⟩ <;> rfl

theorem requests_createDataChannel (h : Consistent engine p_channel_config)
    (hopen : w.self.peerConnection ≠ none) (p_channel : String) :
    requests (createDataChannel engine api.recorded p_channel p_channel_config) w =
      [.createDataChannel (cString (utf8 p_channel)) (channelInit engine p_channel_config)] := by
  unfold requests
  rw [createDataChannel_consistent (w := w.recorded) h hopen]
  simp only [PeerApi.recorded, record, World.recorded, List.nil_append]
  rcases api.createDataChannel (cString (utf8 p_channel)) (channelInit engine p_channel_config) w.lib
    with ⟨_ | _ | ch, l⟩ <;> rfl

/-- Where a wrapper comes from. -/
structure Created (engine : Engine) (api : PeerApi L) (p_channel : String)
    (p_channel_config : Dictionary) (w : World L Heap) (ch : Nat) (object : DataChannel)
    (w' : World L Heap) : Prop where
  consistent : Consistent engine p_channel_config
  made : api.createDataChannel (cString (utf8 p_channel)) (channelInit engine p_channel_config)
    w.lib = (.ok (some ch), w'.lib)
  wrapped : object = DataChannel.bindChannel {} (api.channelId ch w'.lib).isSome

theorem createDataChannel_created
    (h : createDataChannel engine api p_channel p_channel_config w = (.ok (some (ch, object)), w')) :
    Created engine api p_channel p_channel_config w ch object w' := by
  by_cases hc : Consistent engine p_channel_config
  · by_cases hopen : w.self.peerConnection = none
    · rw [createDataChannel_unconfigured hopen] at h
      cases h
    · rw [createDataChannel_consistent hc hopen] at h
      split at h <;> cases h
      rename_i hr
      exact ⟨hc, hr, rfl⟩
  · rw [createDataChannel_inconsistent hc] at h
    cases h

-- ---------------------------------------------------------------------------
-- The library's channels
-- ---------------------------------------------------------------------------

/-- The library keeps the label and the init that a channel is made with, in
every later state; `channels` are the channels behind its pointers. -/
structure KeepsInit (api : PeerApi L) (channels : Nat → DataChannelApi L) (later : L → L → Prop) :
    Prop where
  label : api.createDataChannel text init l₀ = (.ok (some ch), l₁) → later l₁ l₂ →
    (channels ch).label l₂ = text
  protocol : api.createDataChannel text init l₀ = (.ok (some ch), l₁) → later l₁ l₂ →
    (channels ch).protocol l₂ = init.protocol
  reliability : api.createDataChannel text init l₀ = (.ok (some ch), l₁) → later l₁ l₂ →
    (channels ch).reliability l₂ = init.reliability
  id : api.createDataChannel text init l₀ = (.ok (some ch), l₁) → later l₁ l₂ →
    init.id = some n → (channels ch).id l₂ = some n

/-- A new channel has the id it is given; without one it is assigned one at once
if the connection is established, and is left without if it is not. The plugin
reads the id in the state that `createDataChannel` leaves: the library assigns
none on another thread before the wrapper is made. -/
structure AssignsIds (api : PeerApi L) (established : L → Bool) : Prop where
  given : api.createDataChannel text init l₀ = (.ok (some ch), l₁) → init.id = some n →
    api.channelId ch l₁ = some n
  assigned : api.createDataChannel text init l₀ = (.ok (some ch), l₁) → init.id = none →
    (api.channelId ch l₁).isSome = established l₀

/-- A library that only keeps its channels. -/
structure Store where
  established : Bool := false
  channels : List (Bytes × DataChannelInit) := []

namespace Store

/-- A channel without an id gets an even one once the connection is established. -/
def assign (s : Store) (init : DataChannelInit) : DataChannelInit :=
  { init with id := init.id.or (if s.established then some (2 * s.channels.length) else none) }

def peerApi : PeerApi Store := { PeerApi.sink Store with
  state := fun s => if s.established then .connected else .new
  createDataChannel := fun label init s =>
    (.ok (some s.channels.length), { s with channels := s.channels ++ [(label, s.assign init)] })
  channelId := fun ch s => s.channels[ch]?.bind (·.2.id) }

def channel (ch : Nat) : DataChannelApi Store where
  isClosed _ := false
  label s := (s.channels[ch]?.map (·.1)).getD []
  protocol s := (s.channels[ch]?.map (·.2.protocol)).getD []
  reliability s := (s.channels[ch]?.map (·.2.reliability)).getD {}
  id s := s.channels[ch]?.bind (·.2.id)
  bufferedAmount _ := 0
  send _ s := (.ok true, s)
  close s := (.ok (), s)

def later (s t : Store) : Prop := s.channels <+: t.channels

theorem getElem?_created {s : Store} (h : peerApi.createDataChannel label init s = (.ok (some ch), t))
    (hl : later t u) : u.channels[ch]? = some (label, s.assign init) := by
  cases h
  obtain ⟨more, hmore⟩ := hl
  rw [← hmore]
  simp

theorem keepsInit : KeepsInit peerApi channel later where
  label h hl := by simp [channel, getElem?_created h hl]
  protocol h hl := by simp [channel, getElem?_created h hl, assign]
  reliability h hl := by simp [channel, getElem?_created h hl, assign]
  id h hl hid := by simp [channel, getElem?_created h hl, assign, hid]

theorem assignsIds : AssignsIds peerApi established where
  given h hid := by simp [peerApi, getElem?_created h (List.prefix_refl _), assign, hid]
  assigned h hid := by
    rename_i s _ _
    simp only [peerApi, getElem?_created h (List.prefix_refl _), assign, hid, Option.bind_some,
      Option.none_or]
    cases s.established <;> rfl

end Store

end WebRtc.PeerConnection
