import WebRtc.PeerConnection.Containment
import WebRtc.PeerConnection.Requests

/-!
# The configuration of a connection

What `_initialize` makes of its dictionary. The two loops over the servers come
down to one constructor call for each URL they reach and a pure result,
`translate`: the servers of the entries before the first malformed one, and
what that entry is answered with.
-/

namespace WebRtc.PeerConnection

open FixedWidth
open Containment (reachedUrls)

variable {L : Type} {engine : Engine} {api : PeerApi L}

-- ---------------------------------------------------------------------------
-- Server entries
-- ---------------------------------------------------------------------------

def WellFormed (server : Variant) : Prop :=
  ∃ entry urls, server = .dictionary entry ∧ entry.lookup "urls" = some urls ∧
    (urls.getType = .string ∨ urls.getType = .array)

def urlsIn (entry : Dictionary) : List Variant :=
  match entry.lookup "urls" with
  | some (.string url) => [.string url]
  | some (.array urls) => urls
  | _ => []

def credentialIn (entry : Dictionary) (key : String) : String :=
  match entry.lookup key with
  | some (.string credential) => credential
  | _ => ""

/-- One server for each URL of the entry. -/
def serversOf (engine : Engine) : Variant → List IceServer
  | .dictionary entry => (urlsIn entry).map fun url =>
    { url := cString (utf8 (url.toStr engine))
      username := cString (utf8 (credentialIn entry "username"))
      password := cString (utf8 (credentialIn entry "credential")) }
  | _ => []

/-- The code for the first malformed entry, and the servers of those before it. -/
def translate (engine : Engine) : List Variant → Error × List IceServer
  | [] => (.ok, [])
  | .dictionary entry :: servers =>
    if (serverUrls entry).isNone then (.failed, [])
    else ((translate engine servers).1,
      serversOf engine (.dictionary entry) ++ (translate engine servers).2)
  | _ :: _ => (.invalidParameter, [])

theorem serverUrls_eq (entry : Dictionary) :
    serverUrls entry = none ∧ ¬ WellFormed (.dictionary entry) ∨
      serverUrls entry = some (urlsIn entry) ∧ WellFormed (.dictionary entry) := by
  have hwell : WellFormed (.dictionary entry) ↔
      ∃ urls, entry.lookup "urls" = some urls ∧ (urls.getType = .string ∨ urls.getType = .array) := by
    simp [WellFormed]
  rw [hwell]
  unfold serverUrls urlsIn Dictionary.has Dictionary.get
  cases entry.lookup "urls" with
  | none => simp
  | some urls => cases urls <;> simp [Variant.getType, Variant.toArray]

theorem credentialOf_eq (entry : Dictionary) (key : String) :
    credentialOf engine entry key = credentialIn entry key := by
  unfold credentialOf credentialIn Dictionary.has Dictionary.get
  rcases entry.lookup key with _ | credential
  · simp
  · cases credential <;> simp [Variant.getType, Variant.toStr]

theorem translate_append (engine : Engine) (before after : List Variant)
    (h : ∀ server ∈ before, WellFormed server) :
    translate engine (before ++ after) =
      ((translate engine after).1,
        before.flatMap (serversOf engine) ++ (translate engine after).2) := by
  induction before with
  | nil => rfl
  | cons server before ih =>
    obtain ⟨hserver, hbefore⟩ := List.forall_mem_cons.mp h
    obtain ⟨entry, -, rfl, -⟩ := id hserver
    rcases serverUrls_eq entry with ⟨-, hmalformed⟩ | ⟨hurls, -⟩
    · exact absurd hserver hmalformed
    · simp [translate, hurls, ih hbefore]

theorem translate_wellFormed {servers : List Variant} (h : ∀ server ∈ servers, WellFormed server) :
    translate engine servers = (.ok, servers.flatMap (serversOf engine)) := by
  have := translate_append engine servers [] h
  simpa [translate] using this

theorem translate_malformed {server : Variant} (h : ¬ WellFormed server) (after : List Variant) :
    translate engine (server :: after) =
      (if server.getType = .dictionary then .failed else .invalidParameter, []) := by
  cases server with
  | dictionary entry =>
    rcases serverUrls_eq entry with ⟨hurls, -⟩ | ⟨-, hwell⟩
    · simp [translate, hurls, Variant.getType]
    · exact absurd hwell h
  | _ => rfl

theorem translate_ok_iff (engine : Engine) (servers : List Variant) :
    (translate engine servers).1 = .ok ↔ ∀ server ∈ servers, WellFormed server := by
  refine ⟨fun h => ?_, fun h => by rw [translate_wellFormed h]⟩
  induction servers with
  | nil => simp
  | cons server servers ih =>
    by_cases hserver : WellFormed server
    · have htail := translate_append engine [server] servers (by simpa using hserver)
      rw [List.singleton_append] at htail
      rw [htail] at h
      exact List.forall_mem_cons.mpr ⟨hserver, ih h⟩
    · rw [translate_malformed hserver] at h
      dsimp only at h
      split at h <;> cases h

theorem reachedUrls_eq (servers : List Variant) :
    reachedUrls engine servers = (translate engine servers).2.map IceServer.url := by
  induction servers with
  | nil => rfl
  | cons server servers ih =>
    cases server with
    | dictionary entry =>
      unfold reachedUrls translate Containment.entryUrls
      rcases serverUrls_eq entry with ⟨hurls, -⟩ | ⟨hurls, -⟩
      · simp [hurls, Variant.getType, Variant.toDictionary]
      · simp [hurls, ih, serversOf, Variant.getType, Variant.toDictionary, Function.comp_def]
    | _ => rfl

-- ---------------------------------------------------------------------------
-- The loops
-- ---------------------------------------------------------------------------

def constructServers (api : PeerApi L) : List Bytes → Method L Heap Unit
  | [] => pure ()
  | url :: urls => do
    let _ ← Method.call .iceServer (api.iceServer url)
    constructServers api urls

theorem constructServers_append (urls more : List Bytes) : constructServers api (urls ++ more) = (do
    constructServers api urls
    constructServers api more) := by
  induction urls with
  | nil => rfl
  | cons url urls ih => simp [constructServers, ih]

theorem addServers_eq (username credential : String) (urls : List Variant)
    (r_config : Configuration) : addServers engine api username credential urls r_config = (do
    constructServers api (urls.map fun url => cString (utf8 (url.toStr engine)))
    pure { r_config with iceServers := r_config.iceServers ++ urls.map fun url =>
      ⟨cString (utf8 (url.toStr engine)), cString (utf8 username), cString (utf8 credential)⟩ }) := by
  induction urls generalizing r_config with
  | nil => simp [addServers, constructServers]
  | cons url urls ih => simp [addServers, constructServers, ih]

theorem parseIceServer_eq {entry : Dictionary} (hurls : serverUrls entry = some (urlsIn entry))
    (r_config : Configuration) : parseIceServer engine api r_config entry = (do
    constructServers api ((serversOf engine (.dictionary entry)).map IceServer.url)
    pure (.ok, { r_config with
      iceServers := r_config.iceServers ++ serversOf engine (.dictionary entry) })) := by
  simp [parseIceServer, hurls, addServers_eq, credentialOf_eq, serversOf, Function.comp_def]

theorem parseIceServers_eq (servers : List Variant) (config : Configuration) :
    parseIceServers engine api servers config = (do
      constructServers api ((translate engine servers).2.map IceServer.url)
      pure ((translate engine servers).1, { config with
        iceServers := config.iceServers ++ (translate engine servers).2 })) := by
  induction servers generalizing config with
  | nil => simp [parseIceServers, translate, constructServers]
  | cons server servers ih =>
    cases server with
    | dictionary entry =>
      rcases serverUrls_eq entry with ⟨hurls, -⟩ | ⟨hurls, -⟩
      · simp [parseIceServers, translate, hurls, parseIceServer, constructServers, Variant.getType,
          Variant.toDictionary]
      · simp [parseIceServers, translate, hurls, parseIceServer_eq hurls, ih,
          constructServers_append, Variant.getType, Variant.toDictionary]
    | _ => simp [parseIceServers, translate, constructServers, Variant.getType]

/-- What `_create_pc` is given, when no entry is malformed. -/
def configurationOf (engine : Engine) (p_config : Dictionary) : Configuration :=
  let config : Configuration := { iceServers := (translate engine (iceServersOf p_config)).2 }
  if p_config.has "libdatachannel" ∧ (p_config.get "libdatachannel").getType = .dictionary then
    parseLibdatachannel engine config (p_config.get "libdatachannel").toDictionary
  else config

theorem initializePc_eq (p_config : Dictionary) : initializePc engine api p_config = (do
    close api
    constructServers api ((translate engine (iceServersOf p_config)).2.map IceServer.url)
    if (translate engine (iceServersOf p_config)).1 ≠ .ok then
      pure (translate engine (iceServersOf p_config)).1
    else createPc api (configurationOf engine p_config)) := by
  simp [initializePc, parseIceServers_eq, configurationOf]

-- ---------------------------------------------------------------------------
-- What is asked of the library
-- ---------------------------------------------------------------------------

/-- The constructor of `rtc::IceServer` takes the URL, in any state of the library. -/
def Accepts (api : PeerApi L) (url : Bytes) : Prop :=
  ∀ l, ∃ a l', api.iceServer url l = (.ok a, l')

theorem constructServers_sat (haccept : ∀ url ∈ urls, Accepts api url) (w : World L Heap) :
    Eff.Sat (constructServers api urls) w (fun _ w' => w'.self = w.self) fun _ _ => False := by
  induction urls generalizing w with
  | nil => exact .pure rfl
  | cons url urls ih =>
    obtain ⟨hurl, hurls⟩ := List.forall_mem_cons.mp haccept
    refine .bind (Method.sat_call (Q := fun _ w' => w'.self = w.self) ?_ ?_) ?_
    · exact fun _ _ _ => rfl
    · intro e l he
      obtain ⟨a, l', ha⟩ := hurl w.lib
      rw [ha] at he
      cases he
    · exact fun _ w' hw => (ih hurls w').imp (fun _ _ h => h.trans hw) fun _ _ h => h

theorem constructServers_records (urls : List Bytes) :
    Records (constructServers api.recorded urls) (constructServers api urls) := by
  induction urls with
  | nil => exact .pure ()
  | cons url urls ih => exact .bind (.call _ _ _) fun _ => ih

theorem constructServers_unseen {view : Request → Option β} (hview : ∀ url, view (.iceServer url) = none)
    (urls : List Bytes) : Unseen view (constructServers api.recorded urls) := by
  induction urls with
  | nil => exact .pure ()
  | cons url urls ih => exact .bind (.call _ _ (hview url)) fun _ => ih

theorem createPc_records (config : Configuration) :
    Records (createPc api.recorded config) (createPc api config) :=
  .tryStd (.bind (.call _ _ _) fun _ => .bind (.update _) fun _ => .pure _) fun _ => .pure _

theorem initializePc_records (engine : Engine) (api : PeerApi L) (p_config : Dictionary) :
    Records (initializePc engine api.recorded p_config) (initializePc engine api p_config) := by
  rw [initializePc_eq, initializePc_eq]
  exact .bind close_records fun _ => .bind (constructServers_records _) fun _ =>
    .ite (.pure _) (createPc_records _)

/-- `_create_pc` makes one connection, or tries to. -/
theorem createPc_made (config : Configuration) (w : World (L × List Request) Heap) :
    Eff.Sat (createPc api.recorded config) w
      (fun _ w' => configurations w'.lib.2 =
        configurations w.lib.2 ++ [{ config with disableAutoNegotiation := true }])
      fun _ _ => False := by
  have hmade : configurations (w.lib.2 ++
      [.peerConnection { config with disableAutoNegotiation := true }]) =
        configurations w.lib.2 ++ [{ config with disableAutoNegotiation := true }] :=
    List.filterMap_append
  unfold Eff.Sat createPc Method.tryStd Eff.tryCatch
  simp only [Eff.bind_apply, Method.call, PeerApi.recorded, record]
  rcases api.peerConnection { config with disableAutoNegotiation := true } w.lib.1
    with ⟨_ | _, l⟩ <;> exact hmade

/-- The configuration that the new connection gets. -/
def passedTo (engine : Engine) (p_config : Dictionary) : Configuration :=
  { configurationOf engine p_config with disableAutoNegotiation := true }

/-- What the recorded run of `_initialize` comes to. -/
theorem initializePc_made (engine : Engine) (api : PeerApi L) (p_config : Dictionary)
    (w : World L Heap) : Eff.Sat (initializePc engine api.recorded p_config) w.recorded
      (fun code w' =>
        if (translate engine (iceServersOf p_config)).1 = .ok then
          configurations w'.lib.2 = [passedTo engine p_config]
        else code = (translate engine (iceServersOf p_config)).1 ∧
          configurations w'.lib.2 = [])
      fun _ w' => configurations w'.lib.2 = [] := by
  rw [initializePc_eq]
  have hclose : Unseen Request.configuration? (close api.recorded) := close_unseen rfl fun _ => rfl
  refine .bind (hclose.sat rfl) fun _ w₁ h₁ => ?_
  refine .bind (Eff.Keeps.sat (constructServers_unseen (fun _ => rfl) _) h₁) fun _ w₂ h₂ => ?_
  by_cases hok : (translate engine (iceServersOf p_config)).1 = .ok
  · simp only [hok, ne_eq, not_true_eq_false, ↓reduceIte]
    refine (createPc_made _ w₂).imp (fun _ w' h => ?_) fun _ _ h => h.elim
    rw [h, h₂]
    rfl
  · simp only [hok, ne_eq, not_false_eq_true, ↓reduceIte]
    exact .pure ⟨rfl, h₂⟩

theorem initializePc_returns
    (haccept : ∀ url ∈ reachedUrls engine (iceServersOf p_config), Accepts api url)
    (w : World L Heap) : Eff.Sat (initializePc engine api p_config) w
      (fun code w' => (translate engine (iceServersOf p_config)).1 ≠ .ok →
        code = (translate engine (iceServersOf p_config)).1 ∧ w'.self = (close api w).2.self)
      fun _ _ => False := by
  rw [reachedUrls_eq] at haccept
  rw [initializePc_eq]
  refine .bind ((Containment.close_quiet w).final.imp (fun _ _ h => h) fun _ _ h => h.1.elim) ?_
  rintro _ w₁ ⟨-, hclose⟩
  refine .bind (constructServers_sat haccept w₁) fun _ w₂ h₂ => ?_
  by_cases hok : (translate engine (iceServersOf p_config)).1 = .ok
  · simp only [hok, ne_eq, not_true_eq_false, ↓reduceIte]
    exact (Containment.createPc_handled _ w₂).imp (fun _ _ _ h => h.elim) fun _ _ h => h
  · simp only [ne_eq, hok, not_false_eq_true, ↓reduceIte]
    exact .pure fun _ => ⟨rfl, by rw [h₂, hclose]⟩

theorem configurations_initializePc
    (haccept : ∀ url ∈ reachedUrls engine (iceServersOf p_config), Accepts api url)
    (w : World L Heap) : configurations (requests (initializePc engine api.recorded p_config) w) =
      if (translate engine (iceServersOf p_config)).1 = .ok then [passedTo engine p_config]
      else [] := by
  obtain ⟨code, w', hr, -⟩ := (initializePc_returns haccept w).returns
  have hcode := (initializePc_records engine api p_config).result_eq w
  have hmade := initializePc_made engine api p_config w
  unfold Eff.Sat at hmade
  unfold requests
  rw [hr] at hcode
  split at hmade <;> rename_i heq <;> rw [heq] at hcode ⊢
  · split at hmade <;> simp_all
  · cases hcode

theorem iceServers_passedTo (engine : Engine) (p_config : Dictionary) :
    (passedTo engine p_config).iceServers = (translate engine (iceServersOf p_config)).2 := by
  unfold passedTo configurationOf parseLibdatachannel
  dsimp only
  split <;> rfl

theorem iceServersOf_array (h : p_config.lookup "iceServers" = some (.array servers)) :
    iceServersOf p_config = servers := by
  simp [iceServersOf, Dictionary.has, Dictionary.get, h, Variant.getType, Variant.toArray]

/-- Well-formed entries are translated in order, one server for each URL; the
first malformed one decides the code, and nothing of the others is left; and a
call owes nothing to an earlier one. -/
theorem ice_servers_translated (engine : Engine) (api : PeerApi L) (p_config : Dictionary)
    (servers : List Variant) (harray : p_config.lookup "iceServers" = some (.array servers))
    (haccept : ∀ url ∈ reachedUrls engine servers, Accepts api url) :
    ((∀ server ∈ servers, WellFormed server) → ∀ w, ∃ config,
      configurations (requests (initializePc engine api.recorded p_config) w) = [config] ∧
      config.iceServers = servers.flatMap (serversOf engine)) ∧
    (∀ before server after, servers = before ++ server :: after →
      (∀ earlier ∈ before, WellFormed earlier) → ¬ WellFormed server → ∀ w,
      (initializePc engine api p_config w).1 =
        .ok (if server.getType = .dictionary then .failed else .invalidParameter) ∧
      configurations (requests (initializePc engine api.recorded p_config) w) = [] ∧
      (initializePc engine api p_config w).2.self = (close api w).2.self) ∧
    ∀ p_earlier w,
      configurations (requests (initializePc engine api.recorded p_config)
        (initializePc engine api p_earlier w).2) =
      configurations (requests (initializePc engine api.recorded p_config) w) := by
  rw [← iceServersOf_array harray] at haccept
  have hmade := configurations_initializePc haccept
  have hpassed := iceServers_passedTo engine p_config
  rw [iceServersOf_array harray] at hmade hpassed
  refine ⟨fun hwell w => ?_, fun before server after hservers hbefore hserver w => ?_,
    fun p_earlier w => (hmade _).trans (hmade w).symm⟩
  · rw [translate_wellFormed hwell] at hmade hpassed
    exact ⟨_, by rw [hmade w, if_pos rfl], hpassed⟩
  · have htranslate : (translate engine servers).1 =
        if server.getType = .dictionary then .failed else .invalidParameter := by
      rw [hservers, translate_append _ _ _ hbefore, translate_malformed hserver]
    have hbad : (translate engine servers).1 ≠ .ok := by rw [htranslate]; split <;> simp
    obtain ⟨code, w', hr, hend⟩ := (initializePc_returns haccept w).returns
    rw [iceServersOf_array harray] at hend
    obtain ⟨hcode, hself⟩ := hend hbad
    rw [hr, hmade w, if_neg hbad, ← htranslate]
    exact ⟨congrArg Except.ok hcode, rfl, hself⟩

def turnAndStun : List Variant :=
  [.dictionary [("urls", .array [.string "turn:a", .string "turn:b"]), ("username", .string "u"),
      ("credential", .string "p")],
    .dictionary [("urls", .array [])],
    .dictionary [("urls", .string "stun:c"), ("username", .int 1)]]

theorem ice_servers_translated_turnAndStun :
    ∃ config, configurations (requests
        (initializePc Containment.plainEngine (PeerApi.sink Unit).recorded
          [("iceServers", .array turnAndStun)]) ⟨(), {}, []⟩) = [config] ∧
      config.iceServers =
        [⟨utf8 "turn:a", utf8 "u", utf8 "p"⟩, ⟨utf8 "turn:b", utf8 "u", utf8 "p"⟩,
          ⟨utf8 "stun:c", [], []⟩] := by
  have h := ice_servers_translated Containment.plainEngine (PeerApi.sink Unit)
    [("iceServers", .array turnAndStun)] turnAndStun rfl fun url _ l => ⟨(), l, rfl⟩
  refine h.1 ?_ ⟨(), {}, []⟩
  simp only [turnAndStun, List.forall_mem_cons, List.not_mem_nil, false_implies, implies_true,
    and_true]
  exact ⟨⟨_, _, rfl, rfl, .inr rfl⟩, ⟨_, _, rfl, rfl, .inr rfl⟩, ⟨_, _, rfl, rfl, .inl rfl⟩⟩

-- ---------------------------------------------------------------------------
-- The settings
-- ---------------------------------------------------------------------------

/-- An integer variant; it has 64 bits. -/
def IsInt (v : Variant) : Prop := ∃ n, v = .int n ∧ -2 ^ 63 ≤ n ∧ n < 2 ^ 63

/-- The settings of the configuration are the integers of the dictionary. -/
structure Exact (lib_cfg : Dictionary) (config : Configuration) : Prop where
  portRangeBegin : lib_cfg.lookup "portRangeBegin" = some (.int n) → (config.portRangeBegin : Int) = n
  portRangeEnd : lib_cfg.lookup "portRangeEnd" = some (.int n) → (config.portRangeEnd : Int) = n
  mtu : lib_cfg.lookup "mtu" = some (.int n) → ∃ m, config.mtu = some m ∧ (m : Int) = n

structure InRange (lib_cfg : Dictionary) : Prop where
  portRangeBegin : lib_cfg.lookup "portRangeBegin" = some (.int n) → 0 ≤ n ∧ n < 2 ^ 16
  portRangeEnd : lib_cfg.lookup "portRangeEnd" = some (.int n) → 0 ≤ n ∧ n < 2 ^ 16
  mtu : lib_cfg.lookup "mtu" = some (.int n) → 0 ≤ n ∧ n < 2 ^ 31

theorem parseLibdatachannel_settings (engine : Engine) (config : Configuration)
    (lib_cfg : Dictionary) :
    (lib_cfg.lookup "portRangeBegin" = some (.int n) →
      (parseLibdatachannel engine config lib_cfg).portRangeBegin = toUnsigned 16 n) ∧
    (lib_cfg.lookup "portRangeEnd" = some (.int n) →
      (parseLibdatachannel engine config lib_cfg).portRangeEnd = toUnsigned 16 n) ∧
    (lib_cfg.lookup "mtu" = some (.int n) →
      (parseLibdatachannel engine config lib_cfg).mtu = some (toUnsigned 64 (toSigned 32 n))) := by
  refine ⟨fun h => ?_, fun h => ?_, fun h => ?_⟩ <;>
    simp [parseLibdatachannel, Dictionary.has, Dictionary.get, h, Variant.getType, Variant.toInt32,
      toUnsigned_toSigned]

/-- `size_t(int(n))` is `n` as long as the `int` is, and is not negative. -/
theorem mtu_eq_iff (hmin : -2 ^ 63 ≤ n) (hmax : n < 2 ^ 63) :
    (toUnsigned 64 (toSigned 32 n) : Int) = n ↔ 0 ≤ n ∧ n < 2 ^ 31 := by
  constructor
  · intro h
    have hint : -2 ^ 31 ≤ toSigned 32 n ∧ toSigned 32 n < 2 ^ 31 := toSigned_bounds 31 n
    rw [toUnsigned_cast] at h
    omega
  · rintro ⟨hnonneg, hlt⟩
    rw [toSigned_eq_iff.mpr ⟨by omega, hlt⟩, toUnsigned_eq_iff]
    omega

theorem exact_iff (engine : Engine) {lib_cfg : Dictionary}
    (hints : ∀ key ∈ ["portRangeBegin", "portRangeEnd", "mtu"], ∀ v,
      lib_cfg.lookup key = some v → IsInt v) (config : Configuration) :
    Exact lib_cfg (parseLibdatachannel engine config lib_cfg) ↔ InRange lib_cfg := by
  have hsettings := fun n => parseLibdatachannel_settings (n := n) engine config lib_cfg
  constructor
  · intro h
    refine ⟨fun hn => ?_, fun hn => ?_, fun hn => ?_⟩
    · exact toUnsigned_eq_iff.mp ((hsettings _).1 hn ▸ h.portRangeBegin hn)
    · exact toUnsigned_eq_iff.mp ((hsettings _).2.1 hn ▸ h.portRangeEnd hn)
    · obtain ⟨n, ⟨⟩, hmin, hmax⟩ := hints "mtu" (by simp) _ hn
      obtain ⟨m, hm, hmn⟩ := h.mtu hn
      rw [(hsettings _).2.2 hn] at hm
      cases hm
      exact (mtu_eq_iff hmin hmax).mp hmn
  · intro h
    refine ⟨fun hn => ?_, fun hn => ?_, fun hn => ?_⟩
    · rw [(hsettings _).1 hn]
      exact toUnsigned_eq_iff.mpr (h.portRangeBegin hn)
    · rw [(hsettings _).2.1 hn]
      exact toUnsigned_eq_iff.mpr (h.portRangeEnd hn)
    · obtain ⟨n, ⟨⟩, hmin, hmax⟩ := hints "mtu" (by simp) _ hn
      exact ⟨_, (hsettings _).2.2 hn, (mtu_eq_iff hmin hmax).mpr (h.mtu hn)⟩

theorem exact_passedTo_iff (engine : Engine) {lib_cfg : Dictionary}
    (hlib : p_config.lookup "libdatachannel" = some (.dictionary lib_cfg))
    (hints : ∀ key ∈ ["portRangeBegin", "portRangeEnd", "mtu"], ∀ v,
      lib_cfg.lookup key = some v → IsInt v) :
    Exact lib_cfg (passedTo engine p_config) ↔ InRange lib_cfg := by
  have hconfig : configurationOf engine p_config = parseLibdatachannel engine
      { iceServers := (translate engine (iceServersOf p_config)).2 } lib_cfg := by
    simp [configurationOf, Dictionary.has, Dictionary.get, hlib, Variant.getType,
      Variant.toDictionary]
  rw [← exact_iff engine hints, ← hconfig]
  exact ⟨fun ⟨hbegin, hend, hmtu⟩ => ⟨hbegin, hend, hmtu⟩,
    fun ⟨hbegin, hend, hmtu⟩ => ⟨hbegin, hend, hmtu⟩⟩

theorem initializePc_ok {w : World L Heap} (h : (initializePc engine api p_config w).1 = .ok .ok) :
    configurations (requests (initializePc engine api.recorded p_config) w) =
      [passedTo engine p_config] ∧ ∀ server ∈ iceServersOf p_config, WellFormed server := by
  have hmade := initializePc_made engine api p_config w
  rw [← (initializePc_records engine api p_config).result_eq w] at h
  unfold Eff.Sat at hmade
  unfold requests
  rw [← translate_ok_iff engine]
  split at hmade <;> rename_i heq <;> rw [heq] at h ⊢
  · cases h
    split at hmade
    · exact ⟨hmade, by assumption⟩
    · exact absurd hmade.1.symm (by assumption)
  · cases h

theorem initializePc_sink (hwell : ∀ server ∈ iceServersOf p_config, WellFormed server)
    (w : World Unit Heap) : (initializePc engine (PeerApi.sink Unit) p_config w).1 = .ok .ok := by
  have hend : Eff.Sat (initializePc engine (PeerApi.sink Unit) p_config) w (fun code _ => code = .ok)
      fun _ _ => False := by
    rw [initializePc_eq, translate_wellFormed hwell]
    refine .bind (Containment.close_quiet w) fun _ w₁ _ => ?_
    exact (constructServers_sat (fun _ _ l => ⟨(), l, rfl⟩) w₁).bind fun _ _ _ => rfl
  obtain ⟨code, w', hr, rfl⟩ := hend.returns
  rw [hr]

/-- A call that returns OK has passed the settings as they were given. -/
def Passes (engine : Engine) (api : PeerApi L) (p_config lib_cfg : Dictionary) (w : World L Heap) :
    Prop :=
  (initializePc engine api p_config w).1 = .ok .ok → ∃ config,
    configurations (requests (initializePc engine api.recorded p_config) w) = [config] ∧
    Exact lib_cfg config

/-- The dictionaries that are never wrapped silently are those with a malformed
server and those with every setting in its range; and of the others no call
that returns OK passes the settings. -/
theorem settings_passed_iff (engine : Engine) {p_config lib_cfg : Dictionary}
    (hlib : p_config.lookup "libdatachannel" = some (.dictionary lib_cfg))
    (hints : ∀ key ∈ ["portRangeBegin", "portRangeEnd", "mtu"], ∀ v,
      lib_cfg.lookup key = some v → IsInt v) :
    ((∀ (L : Type) (api : PeerApi L) (w : World L Heap), Passes engine api p_config lib_cfg w) ↔
      (∃ server ∈ iceServersOf p_config, ¬ WellFormed server) ∨ InRange lib_cfg) ∧
    ∀ (L : Type) (api : PeerApi L) (w : World L Heap),
      (initializePc engine api p_config w).1 = .ok .ok →
      (Passes engine api p_config lib_cfg w ↔ InRange lib_cfg) := by
  have hexact := exact_passedTo_iff engine hlib hints
  have hpasses (L : Type) (api : PeerApi L) (w : World L Heap)
      (hok : (initializePc engine api p_config w).1 = .ok .ok) :
      Passes engine api p_config lib_cfg w ↔ InRange lib_cfg := by
    rw [← hexact]
    have hmade := (initializePc_ok hok).1
    refine ⟨fun h => ?_, fun h _ => ⟨_, hmade, h⟩⟩
    obtain ⟨config, hconfig, hexact⟩ := h hok
    rw [hmade] at hconfig
    exact List.singleton_inj.mp hconfig ▸ hexact
  refine ⟨⟨fun h => ?_, fun h L api w hok => ?_⟩, hpasses⟩
  · by_cases hwell : ∀ server ∈ iceServersOf p_config, WellFormed server
    · exact .inr ((hpasses _ (PeerApi.sink Unit) _ (initializePc_sink hwell ⟨(), {}, []⟩)).mp
        (h Unit (PeerApi.sink Unit) ⟨(), {}, []⟩))
    · obtain ⟨server, hserver⟩ := not_forall.mp hwell
      exact .inl ⟨server, Classical.not_imp.mp hserver⟩
  · rcases h with ⟨server, hmem, hmalformed⟩ | hrange
    · exact absurd ((initializePc_ok hok).2 server hmem) hmalformed
    · exact (hpasses L api w hok).mpr hrange hok

def settings (portRangeBegin portRangeEnd mtu : Int) : Dictionary :=
  [("portRangeBegin", .int portRangeBegin), ("portRangeEnd", .int portRangeEnd), ("mtu", .int mtu)]

theorem settings_passed_iff_usual :
    (initializePc Containment.plainEngine (PeerApi.sink Unit)
      [("libdatachannel", .dictionary (settings 5000 5100 1400))] ⟨(), {}, []⟩).1 = .ok .ok ∧
    ∃ config, configurations (requests (initializePc Containment.plainEngine
        (PeerApi.sink Unit).recorded
        [("libdatachannel", .dictionary (settings 5000 5100 1400))]) ⟨(), {}, []⟩) = [config] ∧
      Exact (settings 5000 5100 1400) config ∧
      config.portRangeBegin = 5000 ∧ config.portRangeEnd = 5100 ∧ config.mtu = some 1400 := by
  have hpasses : Passes Containment.plainEngine (PeerApi.sink Unit)
      [("libdatachannel", .dictionary (settings 5000 5100 1400))] (settings 5000 5100 1400)
      ⟨(), {}, []⟩ := by
    refine (settings_passed_iff Containment.plainEngine rfl ?_).1.mpr (.inr ?_) Unit
      (PeerApi.sink Unit) _
    · simp [settings, IsInt, List.lookup_cons]
    · constructor <;> (rintro n ⟨⟩; decide)
  obtain ⟨config, hmade, hexact⟩ := hpasses rfl
  refine ⟨rfl, config, hmade, hexact, ?_⟩
  cases hmade
  exact ⟨rfl, rfl, rfl⟩

theorem wide_port_range_wraps :
    (initializePc Containment.plainEngine (PeerApi.sink Unit)
      [("libdatachannel", .dictionary (settings 70000 80000 (-1)))] ⟨(), {}, []⟩).1 = .ok .ok ∧
    (configurations (requests (initializePc Containment.plainEngine (PeerApi.sink Unit).recorded
      [("libdatachannel", .dictionary (settings 70000 80000 (-1)))]) ⟨(), {}, []⟩)).map
        (fun config => (config.portRangeBegin, config.portRangeEnd, config.mtu)) =
      [(4464, 14464, some (2 ^ 64 - 1))] ∧
    ¬ Passes Containment.plainEngine (PeerApi.sink Unit)
      [("libdatachannel", .dictionary (settings 70000 80000 (-1)))] (settings 70000 80000 (-1))
      ⟨(), {}, []⟩ := by
  refine ⟨rfl, rfl, fun h => ?_⟩
  obtain ⟨config, hmade, hexact⟩ := h rfl
  cases hmade
  exact absurd (hexact.portRangeBegin rfl) (by decide)

end WebRtc.PeerConnection
