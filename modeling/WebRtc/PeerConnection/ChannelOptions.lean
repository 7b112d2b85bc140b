import WebRtc.PeerConnection.Channels
import WebRtc.PeerConnection.Containment

/-!
# The options of a channel

From the dictionary that `_create_data_channel` is given, through the
conversions into the library's `DataChannelInit`, to what the getters of the
wrapper return: when that is the way there and back, and when it is not.
-/

namespace WebRtc.PeerConnection

open FixedWidth

variable {L : Type} {engine : Engine} {api : PeerApi L}

-- ---------------------------------------------------------------------------
-- The getters
-- ---------------------------------------------------------------------------

section
variable {capi : DataChannelApi L} {v : World L DataChannel}

theorem getMaxPacketLifeTime_eq (hbound : v.self.channel = true) :
    DataChannel.getMaxPacketLifeTime capi v =
      (capi.reliability v.lib).maxPacketLifeTime.elim (-1) (toSigned 32) := by
  unfold DataChannel.getMaxPacketLifeTime
  rw [hbound]
  cases (capi.reliability v.lib).maxPacketLifeTime <;> rfl

/-- The default goes through `unsigned int` and comes back as -1. -/
theorem getMaxRetransmits_eq (hbound : v.self.channel = true) :
    DataChannel.getMaxRetransmits capi v =
      (capi.reliability v.lib).maxRetransmits.elim (-1) fun n => toSigned 32 n := by
  unfold DataChannel.getMaxRetransmits
  rw [hbound]
  cases (capi.reliability v.lib).maxRetransmits with
  | none =>
    simp only [Bool.not_true, Bool.false_eq_true, ↓reduceIte, Option.getD_none, Option.elim_none]
    rw [toSigned_toUnsigned, toSigned_eq_iff]
    decide
  | some n =>
    rw [Option.elim_some, Option.getD_some]
    exact if_neg (by decide)

theorem isOrdered_eq (hbound : v.self.channel = true) :
    DataChannel.isOrdered capi v = !(capi.reliability v.lib).unordered := by
  unfold DataChannel.isOrdered
  rw [hbound]
  cases (capi.reliability v.lib).unordered <;> rfl

theorem getId_eq (hbound : v.self.channel = true) (hid : capi.id v.lib = some n) :
    DataChannel.getId capi v = n := by
  unfold DataChannel.getId
  simp [hbound, hid]

end

-- ---------------------------------------------------------------------------
-- The conversions
-- ---------------------------------------------------------------------------

theorem channelInit_id (h : p_dict.lookup "id" = some (.int n)) :
    (channelInit engine p_dict).id = some (toUnsigned 16 n) := by
  have hinit : (channelInit engine p_dict).id =
      some (toUnsigned 16 ((Variant.int n).toInt32 engine)) := by simp [channelInit, h]
  rw [hinit, Variant.toInt32, toUnsigned_toSigned (by decide)]

theorem channelInit_maxPacketLifeTime (h : p_dict.lookup "maxPacketLifeTime" = some (.int n)) :
    (channelInit engine p_dict).reliability.maxPacketLifeTime = some (toSigned 32 n) := by
  simp only [channelInit, h, Option.map_some, Variant.toInt32]

theorem channelInit_maxRetransmits (h : p_dict.lookup "maxRetransmits" = some (.int n)) :
    (channelInit engine p_dict).reliability.maxRetransmits = some (toUnsigned 32 n) := by
  have hinit : (channelInit engine p_dict).reliability.maxRetransmits =
      some (toUnsigned 32 ((Variant.int n).toInt32 engine)) := by simp [channelInit, h]
  rw [hinit, Variant.toInt32, toUnsigned_toSigned (Nat.le_refl 32)]

section
variable {capi : DataChannelApi L} {v : World L DataChannel}

theorem maxPacketLifeTime_reported (engine : Engine) (hbound : v.self.channel = true)
    (hr : capi.reliability v.lib = (channelInit engine p_dict).reliability)
    (hn : p_dict.lookup "maxPacketLifeTime" = some (.int n)) :
    DataChannel.getMaxPacketLifeTime capi v = toSigned 32 n := by
  rw [getMaxPacketLifeTime_eq hbound, hr, channelInit_maxPacketLifeTime hn, Option.elim_some,
    toSigned_toSigned]

theorem maxRetransmits_reported (engine : Engine) (hbound : v.self.channel = true)
    (hr : capi.reliability v.lib = (channelInit engine p_dict).reliability)
    (hn : p_dict.lookup "maxRetransmits" = some (.int n)) :
    DataChannel.getMaxRetransmits capi v = toSigned 32 n := by
  rw [getMaxRetransmits_eq hbound, hr, channelInit_maxRetransmits hn, Option.elim_some,
    toSigned_toUnsigned]

end

-- ---------------------------------------------------------------------------
-- Dictionaries
-- ---------------------------------------------------------------------------

/-- Options of the types and in the ranges they are meant to have. -/
structure ChannelDictionary (p_dict : Dictionary) : Prop where
  negotiated : p_dict.lookup "negotiated" = some v → ∃ b, v = .bool b
  id : p_dict.lookup "id" = some v → ∃ n, v = .int n ∧ 0 ≤ n ∧ n ≤ 65534
  maxPacketLifeTime :
    p_dict.lookup "maxPacketLifeTime" = some v → ∃ n, v = .int n ∧ 0 ≤ n ∧ n < 2 ^ 31
  maxRetransmits : p_dict.lookup "maxRetransmits" = some v → ∃ n, v = .int n ∧ 0 ≤ n ∧ n < 2 ^ 31
  ordered : p_dict.lookup "ordered" = some v → ∃ b, v = .bool b
  protocol : p_dict.lookup "protocol" = some v → ∃ s, v = .string s

/-- The limit, or -1 when the key is absent. -/
def limitIn (p_dict : Dictionary) (key : String) : Int :=
  match p_dict.lookup key with
  | some (.int n) => n
  | _ => -1

/-- Negotiated if and only if there is an id, and not both limits. -/
def Allowed (p_dict : Dictionary) : Prop :=
  (p_dict.lookup "negotiated" = some (.bool true) ↔ (p_dict.lookup "id").isSome) ∧
    ¬ ((p_dict.lookup "maxPacketLifeTime").isSome ∧ (p_dict.lookup "maxRetransmits").isSome)

theorem consistent_iff (engine : Engine) (hd : ChannelDictionary p_dict) :
    Consistent engine p_dict ↔ Allowed p_dict := by
  unfold Consistent Allowed
  refine and_congr_left fun _ => ?_
  rw [Bool.eq_iff_iff]
  refine iff_congr ?_ .rfl
  cases hn : p_dict.lookup "negotiated" with
  | none => simp
  | some v =>
    obtain ⟨b, rfl⟩ := hd.negotiated hn
    simp [Variant.toBool]

theorem toSigned_of_nonneg {n : Int} (hnonneg : 0 ≤ n) (hlt : n < 2 ^ 31) : toSigned 32 n = n :=
  toSigned_eq_iff.mpr ⟨by omega, hlt⟩

/-- What the getters return of the options. -/
structure Inverts (engine : Engine) (p_dict : Dictionary) (capi : DataChannelApi L)
    (v : World L DataChannel) : Prop where
  maxPacketLifeTime : DataChannel.getMaxPacketLifeTime capi v = limitIn p_dict "maxPacketLifeTime"
  maxRetransmits : DataChannel.getMaxRetransmits capi v = limitIn p_dict "maxRetransmits"
  ordered : DataChannel.isOrdered capi v = false ↔ p_dict.lookup "ordered" = some (.bool false)
  id : p_dict.lookup "id" = some (.int n) → DataChannel.getId capi v = n

theorem inverts_of_channelInit (hd : ChannelDictionary p_dict) {capi : DataChannelApi L}
    {v : World L DataChannel} (hbound : v.self.channel = true)
    (hr : capi.reliability v.lib = (channelInit engine p_dict).reliability)
    (hid : ∀ n, (channelInit engine p_dict).id = some n → capi.id v.lib = some n) :
    Inverts engine p_dict capi v where
  maxPacketLifeTime := by
    rw [limitIn]
    cases hv : p_dict.lookup "maxPacketLifeTime" with
    | none => rw [getMaxPacketLifeTime_eq hbound, hr]; simp [channelInit, hv]
    | some v =>
      obtain ⟨n, rfl, hnonneg, hlt⟩ := hd.maxPacketLifeTime hv
      rw [maxPacketLifeTime_reported engine hbound hr hv, toSigned_of_nonneg hnonneg hlt]
  maxRetransmits := by
    rw [limitIn]
    cases hv : p_dict.lookup "maxRetransmits" with
    | none => rw [getMaxRetransmits_eq hbound, hr]; simp [channelInit, hv]
    | some v =>
      obtain ⟨n, rfl, hnonneg, hlt⟩ := hd.maxRetransmits hv
      rw [maxRetransmits_reported engine hbound hr hv, toSigned_of_nonneg hnonneg hlt]
  ordered := by
    rw [isOrdered_eq hbound, hr]
    cases hv : p_dict.lookup "ordered" with
    | none => simp [channelInit, hv]
    | some v =>
      obtain ⟨b, rfl⟩ := hd.ordered hv
      simp [channelInit, hv, Variant.toBool]
  id hn := by
    rename_i n
    obtain ⟨m, hm, hnonneg, hle⟩ := hd.id hn
    cases hm
    rw [getId_eq hbound (hid _ (channelInit_id hn)), toUnsigned_eq_iff]
    omega

def channelKeys : List String :=
  ["negotiated", "id", "maxPacketLifeTime", "maxRetransmits", "ordered", "protocol"]

theorem parseChannelConfig_congr {p_dict p_other : Dictionary}
    (h : ∀ key ∈ channelKeys, p_other.lookup key = p_dict.lookup key) :
    parseChannelConfig engine {} p_other = parseChannelConfig engine {} p_dict := by
  simp only [channelKeys, List.forall_mem_cons, List.not_mem_nil, false_implies, implies_true,
    and_true] at h
  obtain ⟨hnegotiated, hid, hlifeTime, hretransmits, hordered, hprotocol⟩ := h
  unfold parseChannelConfig Dictionary.has Dictionary.get
  rw [hnegotiated, hid, hlifeTime, hretransmits, hordered, hprotocol]

/-- The library is asked for a channel when the dictionary is allowed, and the
channel it makes is returned in a wrapper; it is not touched when the dictionary
is not; the getters of the wrapper return the options; and other keys make no
difference. -/
theorem channel_dictionary_semantics {channels : Nat → DataChannelApi L} {later : L → L → Prop}
    (hkeeps : KeepsInit api channels later) (p_channel : String)
    (hd : ChannelDictionary p_dict) :
    (∀ w : World L Heap, w.self.peerConnection ≠ none →
      (Allowed p_dict →
        requests (createDataChannel engine api.recorded p_channel p_dict) w =
          [.createDataChannel (cString (utf8 p_channel)) (channelInit engine p_dict)] ∧
        ∀ ch l, api.createDataChannel (cString (utf8 p_channel)) (channelInit engine p_dict) w.lib =
          (.ok (some ch), l) → ∃ object w', w'.lib = l ∧
            createDataChannel engine api p_channel p_dict w = (.ok (some (ch, object)), w')) ∧
      (¬ Allowed p_dict →
        createDataChannel engine api p_channel p_dict w = (.ok none, w) ∧
        requests (createDataChannel engine api.recorded p_channel p_dict) w = [])) ∧
    (∀ w ch object w' l,
      createDataChannel engine api p_channel p_dict w = (.ok (some (ch, object)), w') →
      later w'.lib l →
      Inverts engine p_dict (channels ch) ⟨l, object, []⟩ ∧
      (limitIn p_dict "maxPacketLifeTime" = -1 ∨ limitIn p_dict "maxRetransmits" = -1)) ∧
    ∀ p_other, (∀ key ∈ channelKeys, p_other.lookup key = p_dict.lookup key) →
      createDataChannel engine api p_channel p_other =
        createDataChannel engine api p_channel p_dict := by
  refine ⟨fun w hopen => ⟨fun h => ?_, fun h => ?_⟩, fun w ch object w' l h hl => ?_,
    fun p_other h => ?_⟩
  · have hc := (consistent_iff engine hd).mpr h
    refine ⟨requests_createDataChannel hc hopen p_channel, fun ch l hmade => ?_⟩
    refine ⟨DataChannel.bindChannel {} (api.channelId ch l).isSome,
      { w with lib := l, log := w.log ++ [⟨.createDataChannel, false⟩] }, rfl, ?_⟩
    rw [createDataChannel_consistent hc hopen, hmade]
  · have hbad := mt (consistent_iff engine hd).mp h
    refine ⟨createDataChannel_inconsistent hbad p_channel w, ?_⟩
    unfold requests
    rw [createDataChannel_inconsistent hbad p_channel w.recorded]
    rfl
  · obtain ⟨hc, hmade, rfl⟩ := createDataChannel_created h
    refine ⟨inverts_of_channelInit hd rfl (hkeeps.reliability hmade hl)
      fun n hn => hkeeps.id hmade hl hn, ?_⟩
    rcases not_and_or.mp hc.2 with hnone | hnone
    · rw [Option.not_isSome_iff_eq_none] at hnone
      exact .inl (by rw [limitIn, hnone])
    · rw [Option.not_isSome_iff_eq_none] at hnone
      exact .inr (by rw [limitIn, hnone])
  · unfold createDataChannel
    rw [parseChannelConfig_congr h]

def gameChannel : Dictionary :=
  [("negotiated", .bool true), ("id", .int 7), ("maxRetransmits", .int 3), ("ordered", .bool false),
    ("color", .string "red")]

theorem channel_dictionary_semantics_gameChannel :
    ∃ object w', createDataChannel Containment.plainEngine Store.peerApi "game" gameChannel
        ⟨{}, { peerConnection := some 0 }, []⟩ = (.ok (some (0, object)), w') ∧
      Inverts Containment.plainEngine gameChannel (Store.channel 0) ⟨w'.lib, object, []⟩ := by
  have hd : ChannelDictionary gameChannel := by
    constructor <;> simp +decide [gameChannel, List.lookup_cons]
  have hallowed : Allowed gameChannel := by
    constructor <;> simp +decide [gameChannel]
  obtain ⟨hmakes, hgetters, -⟩ := channel_dictionary_semantics Store.keepsInit "game" hd
  obtain ⟨object, w', -, hw'⟩ :=
    ((hmakes ⟨{}, { peerConnection := some 0 }, []⟩ nofun).1 hallowed).2 0 _ rfl
  exact ⟨object, w', hw', (hgetters _ _ _ _ _ hw' (List.prefix_refl _)).1⟩

-- ---------------------------------------------------------------------------
-- Integers of any size
-- ---------------------------------------------------------------------------

/-- The options of the configuration are the integers of the dictionary. -/
structure OptionsExact (p_dict : Dictionary) (config : DataChannelInit) : Prop where
  id : p_dict.lookup "id" = some (.int n) → ∃ m, config.id = some m ∧ (m : Int) = n
  maxPacketLifeTime : p_dict.lookup "maxPacketLifeTime" = some (.int n) →
    config.reliability.maxPacketLifeTime = some n
  maxRetransmits : p_dict.lookup "maxRetransmits" = some (.int n) →
    ∃ m, config.reliability.maxRetransmits = some m ∧ (m : Int) = n

/-- A limit of the dictionary is not reported as missing by the getters. -/
def LimitsReported (p_dict : Dictionary) (config : DataChannelInit) : Prop :=
  ∀ (L : Type) (capi : DataChannelApi L) (v : World L DataChannel),
    v.self.channel = true → capi.reliability v.lib = config.reliability →
    ((p_dict.lookup "maxPacketLifeTime").isSome → DataChannel.getMaxPacketLifeTime capi v ≠ -1) ∧
    ((p_dict.lookup "maxRetransmits").isSome → DataChannel.getMaxRetransmits capi v ≠ -1)

structure OptionsInRange (p_dict : Dictionary) : Prop where
  id : p_dict.lookup "id" = some (.int n) → 0 ≤ n ∧ n < 2 ^ 16
  maxPacketLifeTime : p_dict.lookup "maxPacketLifeTime" = some (.int n) →
    -2 ^ 31 ≤ n ∧ n < 2 ^ 31 ∧ n ≠ -1
  maxRetransmits : p_dict.lookup "maxRetransmits" = some (.int n) → 0 ≤ n ∧ n < 2 ^ 32 - 1

/-- What is accepted is kept, and is reported. -/
def OptionsKept (engine : Engine) (p_dict : Dictionary) : Prop :=
  ∀ config, parseChannelConfig engine {} p_dict = (.ok, config) →
    OptionsExact p_dict config ∧ LimitsReported p_dict config

theorem toSigned_eq_neg_one_iff {n : Int} : toSigned 32 n = -1 ↔ n % 2 ^ 32 = 2 ^ 32 - 1 := by
  have hneg : toSigned 32 (-1) = -1 := toSigned_eq_iff.mpr (by decide)
  rw [← hneg, toSigned_inj]
  exact .rfl

theorem limitsReported_channelInit_iff (engine : Engine)
    (hints : ∀ key ∈ ["id", "maxPacketLifeTime", "maxRetransmits"], ∀ v,
      p_dict.lookup key = some v → ∃ n, v = .int n) :
    LimitsReported p_dict (channelInit engine p_dict) ↔
      (∀ n, p_dict.lookup "maxPacketLifeTime" = some (.int n) → toSigned 32 n ≠ -1) ∧
      ∀ n, p_dict.lookup "maxRetransmits" = some (.int n) → toSigned 32 n ≠ -1 := by
  constructor
  · intro h
    -- a library that does nothing but keep the limits
    have hgetters := h Unit { DataChannelApi.sink with
      reliability := fun _ => (channelInit engine p_dict).reliability }
      ⟨(), DataChannel.bindChannel {} false, []⟩ rfl rfl
    refine ⟨fun n hn => ?_, fun n hn => ?_⟩
    · have hreported := hgetters.1 (by rw [hn]; rfl)
      rwa [maxPacketLifeTime_reported engine rfl rfl hn] at hreported
    · have hreported := hgetters.2 (by rw [hn]; rfl)
      rwa [maxRetransmits_reported engine rfl rfl hn] at hreported
  · rintro ⟨hlifeTime, hretransmits⟩ L capi v hbound hr
    refine ⟨fun hv => ?_, fun hv => ?_⟩
    · obtain ⟨v, hv⟩ := Option.isSome_iff_exists.mp hv
      obtain ⟨n, rfl⟩ := hints _ (by simp) v hv
      rw [maxPacketLifeTime_reported engine hbound hr hv]
      exact hlifeTime n hv
    · obtain ⟨v, hv⟩ := Option.isSome_iff_exists.mp hv
      obtain ⟨n, rfl⟩ := hints _ (by simp) v hv
      rw [maxRetransmits_reported engine hbound hr hv]
      exact hretransmits n hv

theorem optionsExact_channelInit_iff (engine : Engine) :
    OptionsExact p_dict (channelInit engine p_dict) ↔
    (∀ n, p_dict.lookup "id" = some (.int n) → 0 ≤ n ∧ n < 2 ^ 16) ∧
    (∀ n, p_dict.lookup "maxPacketLifeTime" = some (.int n) → -2 ^ 31 ≤ n ∧ n < 2 ^ 31) ∧
    ∀ n, p_dict.lookup "maxRetransmits" = some (.int n) → 0 ≤ n ∧ n < 2 ^ 32 := by
  constructor
  · intro h
    refine ⟨fun n hn => ?_, fun n hn => ?_, fun n hn => ?_⟩
    · obtain ⟨m, hm, hmn⟩ := h.id hn
      rw [channelInit_id hn] at hm
      cases hm
      exact toUnsigned_eq_iff.mp hmn
    · have hkept := h.maxPacketLifeTime hn
      rw [channelInit_maxPacketLifeTime hn] at hkept
      exact toSigned_eq_iff.mp (Option.some.inj hkept)
    · obtain ⟨m, hm, hmn⟩ := h.maxRetransmits hn
      rw [channelInit_maxRetransmits hn] at hm
      cases hm
      exact toUnsigned_eq_iff.mp hmn
  · rintro ⟨hid, hlifeTime, hretransmits⟩
    refine ⟨fun hn => ?_, fun hn => ?_, fun hn => ?_⟩
    · exact ⟨_, channelInit_id hn, toUnsigned_eq_iff.mpr (hid _ hn)⟩
    · rw [channelInit_maxPacketLifeTime hn, toSigned_eq_iff.mpr (hlifeTime _ hn)]
    · exact ⟨_, channelInit_maxRetransmits hn, toUnsigned_eq_iff.mpr (hretransmits _ hn)⟩

theorem optionsInRange_iff : OptionsInRange p_dict ↔
    ((∀ n, p_dict.lookup "id" = some (.int n) → 0 ≤ n ∧ n < 2 ^ 16) ∧
      (∀ n, p_dict.lookup "maxPacketLifeTime" = some (.int n) → -2 ^ 31 ≤ n ∧ n < 2 ^ 31) ∧
      ∀ n, p_dict.lookup "maxRetransmits" = some (.int n) → 0 ≤ n ∧ n < 2 ^ 32) ∧
    (∀ n, p_dict.lookup "maxPacketLifeTime" = some (.int n) → toSigned 32 n ≠ -1) ∧
    ∀ n, p_dict.lookup "maxRetransmits" = some (.int n) → toSigned 32 n ≠ -1 := by
  simp only [ne_eq, toSigned_eq_neg_one_iff]
  constructor
  · intro h
    refine ⟨⟨fun n hn => h.id hn, fun n hn => ?_, fun n hn => ?_⟩, fun n hn => ?_, fun n hn => ?_⟩
    · exact ⟨(h.maxPacketLifeTime hn).1, (h.maxPacketLifeTime hn).2.1⟩
    · have := h.maxRetransmits hn
      omega
    · have := h.maxPacketLifeTime hn
      omega
    · have := h.maxRetransmits hn
      omega
  · rintro ⟨⟨hid, hlifeTime, hretransmits⟩, hlifeTime', hretransmits'⟩
    refine ⟨fun hn => hid _ hn, fun hn => ?_, fun hn => ?_⟩
    · have := hlifeTime _ hn
      have := hlifeTime' _ hn
      omega
    · have := hretransmits _ hn
      have := hretransmits' _ hn
      omega

/-- The dictionaries whose accepted options are kept are the inconsistent ones
and those with every option in its range; and accepted ids share a stream when
they are congruent. -/
theorem options_kept_iff (engine : Engine) {p_dict : Dictionary}
    (hints : ∀ key ∈ ["id", "maxPacketLifeTime", "maxRetransmits"], ∀ v,
      p_dict.lookup key = some v → ∃ n, v = .int n) :
    (OptionsKept engine p_dict ↔ ¬ Consistent engine p_dict ∨ OptionsInRange p_dict) ∧
    ∀ p_other config config' n m,
      parseChannelConfig engine {} p_dict = (.ok, config) →
      parseChannelConfig engine {} p_other = (.ok, config') →
      p_dict.lookup "id" = some (.int n) → p_other.lookup "id" = some (.int m) →
      (config.id = config'.id ↔ n % 2 ^ 16 = m % 2 ^ 16) := by
  refine ⟨?_, fun p_other config config' n m h h' hn hm => ?_⟩
  · rw [optionsInRange_iff, ← optionsExact_channelInit_iff engine,
      ← limitsReported_channelInit_iff engine hints, ← imp_iff_not_or]
    constructor
    · intro h hc
      exact h _ (parseChannelConfig_ok_iff.mpr ⟨hc, rfl⟩)
    · intro h config hconfig
      obtain ⟨hc, rfl⟩ := parseChannelConfig_ok_iff.mp hconfig
      exact h hc
  · obtain ⟨-, rfl⟩ := parseChannelConfig_ok_iff.mp h
    obtain ⟨-, rfl⟩ := parseChannelConfig_ok_iff.mp h'
    rw [channelInit_id hn, channelInit_id hm, Option.some_inj, toUnsigned_inj]

def negotiatedWith (id : Int) : Dictionary := [("negotiated", .bool true), ("id", .int id)]

theorem options_kept_iff_usual : OptionsKept Containment.plainEngine (negotiatedWith 7) := by
  refine (options_kept_iff Containment.plainEngine ?_).1.mpr (.inr ?_)
  · simp [negotiatedWith, List.lookup_cons]
  · constructor <;> simp +decide [negotiatedWith, List.lookup_cons]

/-- Two peers that mean different streams, and are on the same one. -/
theorem wide_ids_share_a_stream :
    (parseChannelConfig Containment.plainEngine {} (negotiatedWith 7)).1 = .ok ∧
    (parseChannelConfig Containment.plainEngine {} (negotiatedWith 65543)).1 = .ok ∧
    (parseChannelConfig Containment.plainEngine {} (negotiatedWith 65543)).2.id =
      (parseChannelConfig Containment.plainEngine {} (negotiatedWith 7)).2.id ∧
    ¬ OptionsKept Containment.plainEngine (negotiatedWith 65543) := by
  refine ⟨rfl, rfl, rfl, fun h => ?_⟩
  obtain ⟨m, hm, hmn⟩ := (h _ rfl).1.id rfl
  cases hm
  exact absurd hmn (by decide)

end WebRtc.PeerConnection
