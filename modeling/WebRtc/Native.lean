import WebRtc.Engine
import WebRtc.Lib.Machine

/-!
# The GDNative entry points

From `init_gdnative.cpp`: the plugin finds the engine's networking functions,
registers itself as the WebRTC library, makes connections when the engine asks
it to, and unregisters when it is unloaded. The engine and godot-cpp are
parameters, and other plugins register and unregister meanwhile. As long as the
engine does not turn down the library it has, the plugin's static variables agree
with it: the engine is never given a null pointer to call, and is not left with
the functions of an unloaded library.
-/

namespace WebRtc.Native

-- ---------------------------------------------------------------------------
-- What the engine gives
-- ---------------------------------------------------------------------------

/-- Pointers are numbers; the null pointer is `none`. -/
abbrev Pointer := Nat

structure ApiVersion where
  major : Nat
  minor : Nat
  deriving DecidableEq, Repr

inductive ApiType
  | net
  | other (type : Nat)
  deriving DecidableEq, Repr

structure Extension where
  type : ApiType
  next : Option (ApiVersion × Pointer)
  deriving DecidableEq, Repr

structure CoreApi where
  extensions : List Extension
  getClassConstructor : String → Option Pointer
  methodBindGetMethod : String → String → Option Pointer

inductive Library
  | ours
  | other (plugin : Nat)
  deriving DecidableEq, Repr

structure NetApi (E : Type) where
  library : E → Option Library
  /-- `godot_net_set_webrtc_library`: its code, and whose `unregistered` it calls. -/
  setWebrtcLibrary : Option Library → E → Error × Option Library × E

/-- A library that is replaced is told so; a call that is turned down changes
nothing, and none is while the library is ours. -/
structure NetApi.Lawful {E : Type} (net : NetApi E) : Prop where
  replaces : net.setWebrtcLibrary p e = (.ok, told, e') →
    net.library e' = p ∧ told = net.library e
  turnedDown : net.setWebrtcLibrary p e = (code, told, e') → code ≠ .ok →
    net.library e' = net.library e ∧ told = none
  accepts : net.library e = some .ours → (net.setWebrtcLibrary p e).1 = .ok

-- ---------------------------------------------------------------------------
-- What godot-cpp keeps
-- ---------------------------------------------------------------------------

structure Bindings where
  gdnlib : Option Pointer := none
  api : Option CoreApi := none

structure Godot where
  gdnativeInit : CoreApi → Option Pointer → Bindings → Bindings
  gdnativeTerminate : Bindings → Bindings

/-- It keeps what it is given, and may forget it when it is told to terminate. -/
structure Godot.Lawful (godot : Godot) : Prop where
  initializes : ∀ apiStruct gdNativeLibrary b,
    godot.gdnativeInit apiStruct gdNativeLibrary b = ⟨gdNativeLibrary, some apiStruct⟩
  terminates : ∀ b, godot.gdnativeTerminate b = b ∨ godot.gdnativeTerminate b = {}

-- ---------------------------------------------------------------------------
-- The entry points
-- ---------------------------------------------------------------------------

structure Statics where
  netApi : Option Pointer := none
  singleton : Bool := false
  singletonLib : Option Pointer := none
  singletonApi : Option CoreApi := none
  createNsCb : Option Pointer := none
  setScriptMb : Option Pointer := none
  setClassNameMb : Option Pointer := none
  setLibraryMb : Option Pointer := none

/-- The loop of `godot_gdnative_init`. -/
def findNetApi : List Extension → Option Pointer → Option Pointer
  | [], netApi => netApi
  | extension :: extensions, netApi =>
    if extension.type ≠ .net then findNetApi extensions netApi
    else match extension.next with
      | none => netApi
      | some (version, next) =>
        findNetApi extensions (if version = ⟨3, 2⟩ then some next else netApi)

/-- The lookups of `godot_gdnative_singleton`, up to the first that fails. -/
def lookUp (api : CoreApi) (s : Statics) : Bool × Statics :=
  let s := { s with createNsCb := api.getClassConstructor "NativeScript" }
  if s.createNsCb.isNone then (false, s) else
  let s := { s with setScriptMb := api.methodBindGetMethod "Object" "set_script" }
  if s.setScriptMb.isNone then (false, s) else
  let s := { s with setClassNameMb := api.methodBindGetMethod "NativeScript" "set_class_name" }
  if s.setClassNameMb.isNone then (false, s) else
  let s := { s with setLibraryMb := api.methodBindGetMethod "NativeScript" "set_library" }
  (s.setLibraryMb.isSome, s)

def unregistered (s : Statics) : Statics := { s with singleton := false }

structure State (E : Type) where
  engine : E
  statics : Statics := {}
  bindings : Bindings := {}

variable {E : Type}

def gdnativeInit (godot : Godot) (apiStruct : CoreApi) (gdNativeLibrary : Option Pointer)
    (s : State E) : State E :=
  { s with
    statics := { s.statics with netApi := findNetApi apiStruct.extensions s.statics.netApi }
    bindings := godot.gdnativeInit apiStruct gdNativeLibrary s.bindings }

/-- The engine runs `unregistered` before it returns. -/
def setWebrtcLibrary (net : NetApi E) (p : Option Library) (s : State E) : Error × State E :=
  let (code, told, engine) := net.setWebrtcLibrary p s.engine
  (code, { s with
    engine := engine
    statics := if told = some .ours then unregistered s.statics else s.statics })

def gdnativeSingleton (net : NetApi E) (s : State E) : State E :=
  if s.statics.netApi.isNone then s
  else if s.bindings.gdnlib.isNone then s
  else
    let statics := { s.statics with singletonLib := s.bindings.gdnlib }
    match s.bindings.api with
    | none => { s with statics := statics }
    | some api =>
      let (found, statics) := lookUp api { statics with singletonApi := some api }
      if !found then { s with statics := statics }
      else
        let (code, s) := setWebrtcLibrary net (some .ours) { s with statics := statics }
        { s with statics := { s.statics with singleton := code = .ok } }

/-- `none` when it calls a null pointer. -/
def unregister (net : NetApi E) (s : State E) : Option (State E) :=
  if s.statics.singleton then do
    let _ ← s.statics.netApi
    some (setWebrtcLibrary net none s).2
  else some s

def gdnativeTerminate (net : NetApi E) (godot : Godot) (s : State E) : Option (State E) :=
  (unregister net s).map fun s => { s with bindings := godot.gdnativeTerminate s.bindings }

structure Bound where
  script : Pointer
  library : Option Pointer
  className : String
  deriving DecidableEq, Repr

/-- `create_peer_connection_wp`, where the constructor it calls returns `script`. -/
def createPeerConnection (script : Option Pointer) (s : Statics) : Option (Error × Option Bound) :=
  if !s.singleton then some (.failed, none)
  else do
    let _ ← s.createNsCb
    match script with
    | none => some (.failed, none)
    | some script =>
      let _ ← s.singletonApi
      let _ ← s.setLibraryMb
      let _ ← s.setClassNameMb
      let _ ← s.setScriptMb
      some (.ok, some ⟨script, s.singletonLib, "WebRTCLibPeerConnection"⟩)

-- ---------------------------------------------------------------------------
-- The machine
-- ---------------------------------------------------------------------------

inductive Event
  | init (gdNativeLibrary : Option Pointer)
  | singleton
  | terminate
  /-- Another plugin registers, or the one that has registered unregisters. -/
  | elsewhere (plugin : Option Nat)
  deriving DecidableEq, Repr

def step (net : NetApi E) (godot : Godot) (api : CoreApi) (s : State E) : Event → Option (State E)
  | .init gdNativeLibrary => some (gdnativeInit godot api gdNativeLibrary s)
  | .singleton => some (gdnativeSingleton net s)
  | .terminate => gdnativeTerminate net godot s
  | .elsewhere plugin => some (setWebrtcLibrary net (plugin.map .other) s).2

-- ---------------------------------------------------------------------------
-- The networking functions
-- ---------------------------------------------------------------------------

/-- The networking extensions of version 3.2, up to one with nothing behind it. -/
def supported (extensions : List Extension) : List Pointer :=
  ((extensions.filter (·.type = .net)).takeWhile (·.next.isSome)).filterMap fun extension =>
    extension.next.bind fun (version, next) => if version = ⟨3, 2⟩ then some next else none

theorem findNetApi_eq (extensions : List Extension) (netApi : Option Pointer) :
    findNetApi extensions netApi = (supported extensions).getLast?.or netApi := by
  induction extensions generalizing netApi with
  | nil => rfl
  | cons extension extensions ih =>
    unfold findNetApi
    by_cases htype : extension.type = .net
    · rw [if_neg (not_not.mpr htype)]
      cases hnext : extension.next with
      | none => simp [supported, htype, hnext]
      | some pair =>
        obtain ⟨version, next⟩ := pair
        dsimp only
        rw [ih]
        by_cases hversion : version = ⟨3, 2⟩
        · simp [supported, htype, hnext, hversion, List.getLast?_cons]
        · simp [supported, htype, hnext, hversion]
    · rw [if_pos htype, ih]
      simp [supported, htype]

-- ---------------------------------------------------------------------------
-- The lookups
-- ---------------------------------------------------------------------------

def CoreApi.complete (api : CoreApi) : Bool :=
  (api.getClassConstructor "NativeScript").isSome &&
    (api.methodBindGetMethod "Object" "set_script").isSome &&
    (api.methodBindGetMethod "NativeScript" "set_class_name").isSome &&
    (api.methodBindGetMethod "NativeScript" "set_library").isSome

theorem lookUp_complete (api : CoreApi) (s : Statics) : (lookUp api s).1 = api.complete := by
  unfold lookUp CoreApi.complete
  dsimp only
  cases api.getClassConstructor "NativeScript" with
  | none => rfl
  | some createNsCb =>
    cases api.methodBindGetMethod "Object" "set_script" with
    | none => rfl
    | some setScriptMb =>
      cases api.methodBindGetMethod "NativeScript" "set_class_name" with
      | none => rfl
      | some setClassNameMb => rfl

theorem lookUp_found {s : Statics} (hcomplete : api.complete = true) :
    (lookUp api s).2 = { s with
      createNsCb := api.getClassConstructor "NativeScript"
      setScriptMb := api.methodBindGetMethod "Object" "set_script"
      setClassNameMb := api.methodBindGetMethod "NativeScript" "set_class_name"
      setLibraryMb := api.methodBindGetMethod "NativeScript" "set_library" } := by
  simp only [CoreApi.complete, Bool.and_eq_true, Option.isSome_iff_ne_none, ne_eq] at hcomplete
  obtain ⟨⟨⟨hcreate, hscript⟩, hclass⟩, -⟩ := hcomplete
  simp [lookUp, hcreate, hscript, hclass]

theorem lookUp_keeps (api : CoreApi) (s : Statics) :
    (lookUp api s).2.netApi = s.netApi ∧ (lookUp api s).2.singletonLib = s.singletonLib ∧
      (lookUp api s).2.singleton = s.singleton := by
  unfold lookUp
  dsimp only
  repeat' split
  all_goals exact ⟨rfl, rfl, rfl⟩

/-- The ways through `godot_gdnative_singleton`. -/
inductive Singleton (net : NetApi E) (s : State E) : State E → Prop
  | absent : Singleton net s s
  | unbound (lib : s.bindings.gdnlib.isSome) (api : s.bindings.api = none) :
      Singleton net s { s with statics := { s.statics with singletonLib := s.bindings.gdnlib } }
  | incomplete (netApi : s.statics.netApi.isSome) (lib : s.bindings.gdnlib.isSome)
      (api : s.bindings.api = some coreApi)
      (lookedUp : lookUp coreApi { s.statics with
        singletonLib := s.bindings.gdnlib, singletonApi := some coreApi } = (false, statics)) :
      Singleton net s { s with statics := statics }
  | answered (netApi : s.statics.netApi.isSome) (lib : s.bindings.gdnlib.isSome)
      (api : s.bindings.api = some coreApi)
      (lookedUp : lookUp coreApi { s.statics with
        singletonLib := s.bindings.gdnlib, singletonApi := some coreApi } = (true, statics))
      (called : setWebrtcLibrary net (some .ours) { s with statics := statics } = (code, s')) :
      Singleton net s { s' with statics := { s'.statics with singleton := code = .ok } }

theorem gdnativeSingleton_cases (net : NetApi E) (s : State E) :
    Singleton net s (gdnativeSingleton net s) := by
  unfold gdnativeSingleton
  split
  · exact .absent
  rename_i hnetApi
  split
  · exact .absent
  rename_i hlib
  rw [Option.isNone_iff_eq_none, ← ne_eq, Option.ne_none_iff_isSome] at hnetApi hlib
  dsimp only
  split
  · exact .unbound hlib (by assumption)
  rename_i api hapi
  rcases hlookUp : lookUp api { s.statics with
    singletonLib := s.bindings.gdnlib, singletonApi := some api } with ⟨_ | _, statics⟩
  · exact .incomplete hnetApi hlib hapi hlookUp
  · exact .answered hnetApi hlib hapi hlookUp rfl

-- ---------------------------------------------------------------------------
-- The invariant
-- ---------------------------------------------------------------------------

/-- Every pointer that is called while the plugin is registered is there. -/
structure Found (s : Statics) : Prop where
  netApi : s.netApi.isSome
  lib : s.singletonLib.isSome
  api : s.singletonApi.isSome
  createNsCb : s.createNsCb.isSome
  setScriptMb : s.setScriptMb.isSome
  setClassNameMb : s.setClassNameMb.isSome
  setLibraryMb : s.setLibraryMb.isSome

/-- The static variables agree with the engine. -/
structure Registered (net : NetApi E) (api : CoreApi) (s : State E) : Prop where
  singleton : s.statics.singleton = true ↔ net.library s.engine = some .ours
  complete : s.statics.singleton = true → api.complete = true
  found : s.statics.singleton = true → Found s.statics
  initialized : s.bindings.api = none ∨ s.bindings.api = some api
  network : s.statics.netApi.isSome → supported api.extensions ≠ []

/-- A call that is accepted leaves the plugin told that it is not registered,
whoever is; one that is turned down finds it so. -/
theorem setWebrtcLibrary_cases {s : State E} (hnet : net.Lawful)
    (hs : s.statics.singleton = true ↔ net.library s.engine = some .ours)
    (h : setWebrtcLibrary net p s = (code, s')) : s'.bindings = s.bindings ∧
    ((code = .ok ∧ net.library s'.engine = p ∧ s'.statics = { s.statics with singleton := false }) ∨
    (code ≠ .ok ∧ net.library s'.engine = net.library s.engine ∧
      s.statics.singleton = false ∧ s'.statics = s.statics)) := by
  rcases hcall : net.setWebrtcLibrary p s.engine with ⟨code', told, engine⟩
  simp only [setWebrtcLibrary, hcall, Prod.mk.injEq] at h
  obtain ⟨rfl, rfl⟩ := h
  refine ⟨rfl, ?_⟩
  by_cases hcode : code' = .ok
  · subst hcode
    obtain ⟨hlibrary, htold⟩ := hnet.replaces hcall
    refine Or.inl ⟨rfl, hlibrary, ?_⟩
    by_cases hours : told = some .ours
    · rw [if_pos hours]
      rfl
    · have hfree : s.statics.singleton = false := by
        rw [← Bool.not_eq_true, hs, ← htold]
        exact hours
      rw [if_neg hours, ← hfree]
  · obtain ⟨hlibrary, rfl⟩ := hnet.turnedDown hcall hcode
    have hfree : s.statics.singleton = false := by
      rw [← Bool.not_eq_true, hs]
      intro hours
      have haccepts := hnet.accepts (p := p) hours
      rw [hcall] at haccepts
      exact hcode haccepts
    exact Or.inr ⟨hcode, hlibrary, hfree, rfl⟩

theorem Registered.replaced (hnet : net.Lawful) (hs : Registered net api s)
    (hp : p ≠ some .ours) : Registered net api (setWebrtcLibrary net p s).2 := by
  rcases hcall : setWebrtcLibrary net p s with ⟨code, s'⟩
  obtain ⟨hbindings, ⟨-, hlibrary, hstatics⟩ | ⟨-, hlibrary, hfree, hstatics⟩⟩ :=
    setWebrtcLibrary_cases hnet hs.singleton hcall
  · constructor <;> simp only [hstatics, hlibrary, hbindings]
    · simp [hp]
    · nofun
    · nofun
    · exact hs.initialized
    · exact hs.network
  · constructor <;> simp only [hstatics, hlibrary, hbindings]
    · exact hs.singleton
    · exact hs.complete
    · exact hs.found
    · exact hs.initialized
    · exact hs.network

theorem Registered.init (hgodot : godot.Lawful) (hs : Registered net api s) :
    Registered net api (gdnativeInit godot api gdNativeLibrary s) where
  singleton := hs.singleton
  complete := hs.complete
  found hsingleton :=
    { hs.found hsingleton with
      netApi := by
        have hnet := (hs.found hsingleton).netApi
        simp [gdnativeInit, findNetApi_eq, hnet] }
  initialized := Or.inr (by simp only [gdnativeInit, hgodot.initializes])
  network := by
    intro hnet
    by_cases hsupported : supported api.extensions = []
    · simp only [gdnativeInit, findNetApi_eq, hsupported] at hnet
      exact hs.network hnet
    · exact hsupported

theorem Registered.lookUp (hs : Registered net api s) (hnetApi : s.statics.netApi.isSome)
    (hlib : s.bindings.gdnlib.isSome)
    (hlookUp : lookUp api { s.statics with
      singletonLib := s.bindings.gdnlib, singletonApi := some api } = (b, statics)) :
    (api.complete = true → Found statics) ∧ Registered net api { s with statics := statics } := by
  obtain ⟨-, -, hkept⟩ := lookUp_keeps api
    { s.statics with singletonLib := s.bindings.gdnlib, singletonApi := some api }
  have hfound : api.complete = true → Found statics := by
    intro hcomplete
    have hstatics := (congrArg Prod.snd hlookUp).symm.trans (lookUp_found hcomplete)
    simp only [CoreApi.complete, Bool.and_eq_true] at hcomplete
    obtain ⟨⟨⟨hcreate, hscript⟩, hclass⟩, hlibrary⟩ := hcomplete
    change statics = _ at hstatics
    rw [hstatics]
    exact ⟨hnetApi, hlib, rfl, hcreate, hscript, hclass, hlibrary⟩
  rw [hlookUp] at hkept
  refine ⟨hfound, ?_, ?_, ?_, hs.initialized, ?_⟩
  · rw [hkept]
    exact hs.singleton
  · rw [hkept]
    exact hs.complete
  · rw [hkept]
    intro hsingleton
    exact hfound (hs.complete hsingleton)
  · intro _
    exact hs.network hnetApi

theorem Registered.answered (hnet : net.Lawful) (hs : Registered net api s)
    (hcomplete : api.complete = true) (hfound : Found s.statics)
    (hcall : setWebrtcLibrary net (some .ours) s = (code, s')) :
    Registered net api { s' with statics := { s'.statics with singleton := code = .ok } } := by
  obtain ⟨hbindings, ⟨rfl, hlibrary, hkept⟩ | ⟨hcode, hlibrary, hfree, hkept⟩⟩ :=
    setWebrtcLibrary_cases hnet hs.singleton hcall
  · constructor <;> simp only [hkept, hlibrary, hbindings]
    · simp
    · intro _
      exact hcomplete
    · intro _
      exact { hfound with }
    · exact hs.initialized
    · exact hs.network
  · constructor <;> simp only [hkept, hlibrary, hcode, hbindings]
    · have hours := hs.singleton
      rw [hfree] at hours
      simpa using hours
    · nofun
    · nofun
    · exact hs.initialized
    · exact hs.network

theorem Registered.only (hs : Registered net api s) (hapi : s.bindings.api = some coreApi) :
    coreApi = api := by
  rcases hs.initialized with hnone | hinit
  · cases hapi.symm.trans hnone
  · exact Option.some.inj (hapi.symm.trans hinit)

theorem Registered.registers (hnet : net.Lawful) (hs : Registered net api s) :
    Registered net api (gdnativeSingleton net s) := by
  have hways := gdnativeSingleton_cases net s
  generalize gdnativeSingleton net s = t at hways ⊢
  cases hways with
  | absent => exact hs
  | unbound hlib =>
    -- Not after a `godot_gdnative_init`; what is registered keeps its pointers.
    refine ⟨hs.singleton, hs.complete, ?_, hs.initialized, hs.network⟩
    intro hsingleton
    exact { hs.found hsingleton with lib := hlib }
  | incomplete hnetApi hlib hapi hlookUp =>
    obtain rfl := hs.only hapi
    exact (hs.lookUp hnetApi hlib hlookUp).2
  | answered hnetApi hlib hapi hlookUp hcall =>
    obtain rfl := hs.only hapi
    obtain ⟨hfound, hwritten⟩ := hs.lookUp hnetApi hlib hlookUp
    have hcomplete := lookUp_complete _ _ ▸ congrArg Prod.fst hlookUp
    exact hwritten.answered hnet hcomplete (hfound hcomplete) hcall

theorem Registered.terminated {godot : Godot} (hgodot : godot.Lawful) (hs : Registered net api s) :
    Registered net api { s with bindings := godot.gdnativeTerminate s.bindings } := by
  refine { hs with initialized := ?_ }
  rcases hgodot.terminates s.bindings with hkept | hforgotten
  · dsimp only
    rw [hkept]
    exact hs.initialized
  · exact Or.inl (congrArg Bindings.api hforgotten)

theorem Registered.unregisters (hnet : net.Lawful) (hgodot : godot.Lawful) (hs : Registered net api s)
    (h : gdnativeTerminate net godot s = some s') : Registered net api s' := by
  obtain ⟨m, hm, rfl⟩ := Option.map_eq_some_iff.mp h
  refine Registered.terminated hgodot ?_
  unfold unregister at hm
  split at hm
  · obtain ⟨netApi, -, hm⟩ := Option.bind_eq_some_iff.mp hm
    cases hm
    exact hs.replaced hnet nofun
  · cases hm
    exact hs

theorem step_registered (hnet : net.Lawful) (hgodot : godot.Lawful) (hs : Registered net api s)
    (h : step net godot api s event = some s') : Registered net api s' := by
  cases event with
  | init gdNativeLibrary =>
    cases h
    exact hs.init hgodot
  | singleton =>
    cases h
    exact hs.registers hnet
  | terminate => exact hs.unregisters hnet hgodot h
  | elsewhere plugin =>
    cases h
    exact hs.replaced hnet (by cases plugin <;> nofun)

theorem run_registered (hnet : net.Lawful) (hgodot : godot.Lawful) (hs : Registered net api s)
    (hrun : Machine.run (step net godot api) s events = some s') : Registered net api s' :=
  Machine.run_invariant (step_registered hnet hgodot) hrun hs

-- ---------------------------------------------------------------------------
-- Whose library is bound
-- ---------------------------------------------------------------------------

/-- The pointers to a library are those that `godot_gdnative_init` was given. -/
structure Own (events : List Event) (s : State E) : Prop where
  kept : s.bindings.gdnlib = some l → .init (some l) ∈ events
  bound : s.statics.singletonLib = some l → .init (some l) ∈ events

theorem setWebrtcLibrary_keeps (net : NetApi E) (p : Option Library) (s : State E) :
    (setWebrtcLibrary net p s).2.bindings = s.bindings ∧
      (setWebrtcLibrary net p s).2.statics.singletonLib = s.statics.singletonLib := by
  unfold setWebrtcLibrary
  dsimp only
  split <;> exact ⟨rfl, rfl⟩

theorem gdnativeSingleton_keeps (net : NetApi E) (s : State E) :
    (gdnativeSingleton net s).bindings = s.bindings ∧
      ((gdnativeSingleton net s).statics.singletonLib = s.statics.singletonLib ∨
        (gdnativeSingleton net s).statics.singletonLib = s.bindings.gdnlib) := by
  have hkept {api b statics} (hlookUp : lookUp api { s.statics with
      singletonLib := s.bindings.gdnlib, singletonApi := some api } = (b, statics)) :
      statics.singletonLib = s.bindings.gdnlib :=
    (congrArg (·.2.singletonLib) hlookUp).symm.trans (lookUp_keeps ..).2.1
  have hways := gdnativeSingleton_cases net s
  generalize gdnativeSingleton net s = t at hways ⊢
  cases hways with
  | absent => exact ⟨rfl, .inl rfl⟩
  | unbound => exact ⟨rfl, .inr rfl⟩
  | incomplete _ _ _ hlookUp => exact ⟨rfl, .inr (hkept hlookUp)⟩
  | @answered _ statics code s' _ _ _ hlookUp hcall =>
    obtain ⟨hbindings, hlib⟩ := setWebrtcLibrary_keeps net (some .ours) { s with statics := statics }
    rw [hcall] at hbindings hlib
    exact ⟨hbindings, .inr (hlib.trans (hkept hlookUp))⟩

theorem Own.of_keeps {s t : State E} (hs : Own events s)
    (hkept : t.bindings.gdnlib = s.bindings.gdnlib ∨ t.bindings.gdnlib = none)
    (hbound : t.statics.singletonLib = s.statics.singletonLib ∨
      t.statics.singletonLib = s.bindings.gdnlib) : Own (events ++ [event]) t where
  kept hl := by
    rcases hkept with h | h
    · exact List.mem_append_left _ (hs.kept (h.symm.trans hl))
    · cases h.symm.trans hl
  bound hl := by
    rcases hbound with h | h
    · exact List.mem_append_left _ (hs.bound (h.symm.trans hl))
    · exact List.mem_append_left _ (hs.kept (h.symm.trans hl))

theorem step_own (hgodot : godot.Lawful) (hs : Own events s) (h : step net godot api s event = some s') :
    Own (events ++ [event]) s' := by
  cases event with
  | init gdNativeLibrary =>
    cases h
    refine ⟨fun hl => ?_, fun hl => List.mem_append_left _ (hs.bound hl)⟩
    simp only [gdnativeInit, hgodot.initializes] at hl
    exact List.mem_append_right _ (hl ▸ List.mem_singleton_self _)
  | singleton =>
    cases h
    obtain ⟨hbindings, hlib⟩ := gdnativeSingleton_keeps net s
    exact hs.of_keeps (.inl (congrArg Bindings.gdnlib hbindings)) hlib
  | terminate =>
    obtain ⟨m, hm, rfl⟩ := Option.map_eq_some_iff.mp h
    have hkept : m.bindings = s.bindings ∧ m.statics.singletonLib = s.statics.singletonLib := by
      unfold unregister at hm
      split at hm
      · obtain ⟨netApi, -, hm⟩ := Option.bind_eq_some_iff.mp hm
        cases hm
        exact setWebrtcLibrary_keeps net none s
      · cases hm
        exact ⟨rfl, rfl⟩
    refine hs.of_keeps ?_ (.inl hkept.2)
    rw [← hkept.1]
    exact (hgodot.terminates m.bindings).imp (congrArg Bindings.gdnlib) (congrArg Bindings.gdnlib)
  | elsewhere plugin =>
    cases h
    obtain ⟨hbindings, hlib⟩ := setWebrtcLibrary_keeps net (plugin.map .other) s
    exact hs.of_keeps (.inl (congrArg Bindings.gdnlib hbindings)) (.inl hlib)

theorem run_own (hgodot : godot.Lawful) {e : E}
    (hrun : Machine.run (step net godot api) ⟨e, {}, {}⟩ events = some s) : Own events s :=
  Machine.run_induction (P := Own) ⟨(by cases ·), (by cases ·)⟩
    (fun _ hs he => step_own hgodot hs he) hrun

-- ---------------------------------------------------------------------------
-- Registration
-- ---------------------------------------------------------------------------

theorem Registered.start (hfree : net.library e ≠ some .ours) :
    Registered net api ⟨e, {}, {}⟩ := by
  refine ⟨?_, nofun, nofun, Or.inl rfl, nofun⟩
  constructor
  · nofun
  · intro hours
    exact absurd hours hfree

theorem Registered.createPeerConnection (hs : Registered net api s) (hown : Own events s)
    (script : Option Pointer) :
    ∃ code bound, createPeerConnection script s.statics = some (code, bound) ∧
      (code = .ok ↔ net.library s.engine = some .ours ∧ script.isSome) ∧
      (code = .ok ↔ bound.isSome) ∧
      ∀ b, bound = some b → b.className = "WebRTCLibPeerConnection" ∧
        b.library = s.statics.singletonLib ∧ ∃ l, b.library = some l ∧ .init (some l) ∈ events := by
  unfold Native.createPeerConnection
  cases hsingleton : s.statics.singleton with
  | false =>
    have hours : net.library s.engine ≠ some .ours := by
      rw [ne_eq, ← hs.singleton, hsingleton]
      nofun
    exact ⟨.failed, none, rfl, by simp [hours], by simp, nofun⟩
  | true =>
    have hours := hs.singleton.mp hsingleton
    have hfound := hs.found hsingleton
    obtain ⟨createNsCb, hcreate⟩ := Option.isSome_iff_exists.mp hfound.createNsCb
    obtain ⟨coreApi, hcore⟩ := Option.isSome_iff_exists.mp hfound.api
    obtain ⟨setLibrary, hsetLibrary⟩ := Option.isSome_iff_exists.mp hfound.setLibraryMb
    obtain ⟨setClassName, hsetClassName⟩ := Option.isSome_iff_exists.mp hfound.setClassNameMb
    obtain ⟨setScript, hsetScript⟩ := Option.isSome_iff_exists.mp hfound.setScriptMb
    cases script with
    | none => exact ⟨.failed, none, by simp [hcreate], by simp, by simp, nofun⟩
    | some script =>
      refine ⟨.ok, some ⟨script, s.statics.singletonLib, "WebRTCLibPeerConnection"⟩, ?_, ?_, ?_, ?_⟩
      · simp [hcreate, hcore, hsetLibrary, hsetClassName, hsetScript]
      · simp [hours]
      · simp
      · rintro b ⟨⟩
        obtain ⟨l, hl⟩ := Option.isSome_iff_exists.mp hfound.lib
        exact ⟨rfl, rfl, l, hl, hown.bound hl⟩

theorem Registered.gdnativeTerminate (hnet : net.Lawful) (hs : Registered net api s) (godot : Godot) :
    ∃ s', gdnativeTerminate net godot s = some s' ∧ net.library s'.engine ≠ some .ours := by
  unfold Native.gdnativeTerminate unregister
  cases hsingleton : s.statics.singleton with
  | false =>
    refine ⟨_, rfl, ?_⟩
    rw [ne_eq, ← hs.singleton, hsingleton]
    nofun
  | true =>
    obtain ⟨netApi, hnetApi⟩ := Option.isSome_iff_exists.mp (hs.found hsingleton).netApi
    rcases hcall : setWebrtcLibrary net none s with ⟨code, s'⟩
    refine ⟨{ s' with bindings := godot.gdnativeTerminate s'.bindings }, by simp [hnetApi], ?_⟩
    obtain ⟨-, ⟨-, hlibrary, -⟩ | ⟨-, -, hfree, -⟩⟩ := setWebrtcLibrary_cases hnet hs.singleton hcall
    · rw [hlibrary]
      nofun
    · exact absurd (hsingleton.symm.trans hfree) nofun

/-- **The static variables agree with the engine.** However plugins come and go,
the plugin takes itself to be registered exactly while it is; a connection is
made exactly then, of the library that `godot_gdnative_init` was given, and no
null pointer is called for it; and when the plugin is unloaded the engine is left
none of its functions. It registers only with an engine that has the functions of
version 3.2 and all that it looks up. -/
theorem registration_sound {net : NetApi E} {godot : Godot} {api : CoreApi} {events : List Event}
    {e : E} {s : State E} (hnet : net.Lawful) (hgodot : godot.Lawful)
    (hfree : net.library e ≠ some .ours)
    (hrun : Machine.run (step net godot api) ⟨e, {}, {}⟩ events = some s) :
    (s.statics.singleton = true ↔ net.library s.engine = some .ours) ∧
    (net.library s.engine = some .ours → supported api.extensions ≠ [] ∧ api.complete = true) ∧
    (∀ event, (step net godot api s event).isSome) ∧
    (∀ script, ∃ code bound, createPeerConnection script s.statics = some (code, bound) ∧
      (code = .ok ↔ net.library s.engine = some .ours ∧ script.isSome) ∧
      (code = .ok ↔ bound.isSome) ∧
      ∀ b, bound = some b → b.className = "WebRTCLibPeerConnection" ∧
        b.library = s.statics.singletonLib ∧ ∃ l, b.library = some l ∧ .init (some l) ∈ events) ∧
    ∃ s', gdnativeTerminate net godot s = some s' ∧ net.library s'.engine ≠ some .ours := by
  have hs := run_registered hnet hgodot (Registered.start hfree) hrun
  have hterminate := hs.gdnativeTerminate hnet godot
  refine ⟨hs.singleton, ?_, ?_, hs.createPeerConnection (run_own hgodot hrun), hterminate⟩
  · intro hours
    have hsingleton := hs.singleton.mpr hours
    exact ⟨hs.network (hs.found hsingleton).netApi, hs.complete hsingleton⟩
  · intro event
    cases event with
    | terminate =>
      obtain ⟨s', hs', -⟩ := hterminate
      simp [step, hs']
    | _ => rfl

-- ---------------------------------------------------------------------------
-- An engine
-- ---------------------------------------------------------------------------

def keeper : NetApi (Option Library) where
  library e := e
  setWebrtcLibrary p e := (.ok, e, p)

theorem keeper_lawful : keeper.Lawful where
  replaces := by
    intro p e told e' h
    cases h
    exact ⟨rfl, rfl⟩
  turnedDown := by
    intro p e code told e' h hcode
    cases h
    exact absurd rfl hcode
  accepts _ := rfl

def godotCpp : Godot where
  gdnativeInit apiStruct gdNativeLibrary _ := ⟨gdNativeLibrary, some apiStruct⟩
  gdnativeTerminate b := b

theorem godotCpp_lawful : godotCpp.Lawful := ⟨fun _ _ _ => rfl, fun _ => .inl rfl⟩

/-- Version 3.1 of the networking functions comes before 3.2. -/
def coreApi : CoreApi where
  extensions := [⟨.other 0, none⟩, ⟨.net, some (⟨3, 1⟩, 1)⟩, ⟨.net, some (⟨3, 2⟩, 2)⟩]
  getClassConstructor name := if name = "NativeScript" then some 3 else none
  methodBindGetMethod _ _ := some 4

/-- Another plugin takes the place of this one, which takes it back. -/
def takenBack : List Event := [.init (some 5), .singleton, .elsewhere (some 0), .singleton]

theorem registration_sound_takenBack :
    ∃ s, Machine.run (step keeper godotCpp coreApi) ⟨none, {}, {}⟩ takenBack = some s ∧
      s.statics.singleton = true ∧ s.statics.netApi = some 2 ∧
      (s.statics.singleton = true ↔ keeper.library s.engine = some .ours) ∧
      (∃ code bound, createPeerConnection (some 6) s.statics = some (code, bound) ∧ code = .ok ∧
        ∀ b, bound = some b → b.library = s.statics.singletonLib) ∧
      ∃ s', gdnativeTerminate keeper godotCpp s = some s' ∧ keeper.library s'.engine ≠ some .ours := by
  obtain ⟨s, hrun, hs⟩ := Option.map_eq_some_iff.mp (show
    (Machine.run (step keeper godotCpp coreApi) ⟨none, {}, {}⟩ takenBack).map
      (fun s => (s.statics.singleton, s.statics.netApi)) = some (true, some 2) by decide)
  obtain ⟨hsingleton, hnetApi⟩ := Prod.mk.inj hs
  have hfree : keeper.library none ≠ some .ours := by decide
  obtain ⟨hours, -, -, hcreate, hterminate⟩ :=
    registration_sound keeper_lawful godotCpp_lawful hfree hrun
  obtain ⟨code, bound, hcode, hok, -, hbound⟩ := hcreate (some 6)
  refine ⟨s, hrun, hsingleton, hnetApi, hours, ⟨code, bound, hcode, ?_, ?_⟩, hterminate⟩
  · exact hok.mpr ⟨hours.mp hsingleton, rfl⟩
  · intro b hb
    exact (hbound b hb).2.1

end WebRtc.Native
