import WebRtc.PeerConnection.Requests
import WebRtc.Text

/-!
# Setting the remote description

`_set_remote_description` makes up to three calls, each of which may throw, and
returns one code. `Outcome` lists the ways such a call can go. What is assumed
of the library is stated on a view of its connection; `Session` is a library
that meets it.
-/

namespace WebRtc.PeerConnection

variable {L : Type} {api : PeerApi L}

-- ---------------------------------------------------------------------------
-- The ways a call can go
-- ---------------------------------------------------------------------------

section
variable (api : PeerApi L) (p_type p_sdp : String) (l : L)

def Described (desc : Description) (l₁ : L) : Prop :=
  api.description (cString (utf8 p_sdp)) (cString (utf8 p_type)) l = (.ok desc, l₁)

def Applied (desc : Description) (l₂ : L) : Prop :=
  ∃ l₁, Described api p_type p_sdp l desc l₁ ∧ api.setRemoteDescription desc l₁ = (.ok (), l₂)

/-- The code of the call, the state it leaves the library in, and whether it has
asked for an answer. -/
inductive Outcome : Error → L → Bool → Prop
  | notDescribed
      (threw : api.description (cString (utf8 p_sdp)) (cString (utf8 p_type)) l = (.error e, l₁)) :
      Outcome .failed l₁ false
  | notApplied (described : Described api p_type p_sdp l desc l₁)
      (threw : api.setRemoteDescription desc l₁ = (.error e, l₂)) : Outcome .failed l₂ false
  | notAnswered (applied : Applied api p_type p_sdp l desc l₂) (offer : p_type = "offer")
      (threw : api.setLocalDescription .answer l₂ = (.error e, l₃)) : Outcome .failed l₃ true
  | answered (applied : Applied api p_type p_sdp l desc l₂) (offer : p_type = "offer")
      (answer : api.setLocalDescription .answer l₂ = (.ok (), l₃)) : Outcome .ok l₃ true
  | applied (applied : Applied api p_type p_sdp l desc l₂) (other : p_type ≠ "offer") :
      Outcome .ok l₂ false

end

theorem setRemoteDescription_unconfigured (h : w.self.peerConnection = none)
    (p_type p_sdp : String) : setRemoteDescription api p_type p_sdp w = (.ok .unconfigured, w) := by
  unfold setRemoteDescription Method.tryStd Eff.tryCatch
  rw [Eff.bind_apply, Method.self_apply]
  simp [h, Eff.pure_apply]

theorem setRemoteDescription_eq {w : World L Heap} (hopen : w.self.peerConnection ≠ none)
    (p_type p_sdp : String) : setRemoteDescription api p_type p_sdp w =
      match api.description (cString (utf8 p_sdp)) (cString (utf8 p_type)) w.lib with
      | (.error _, l₁) =>
        (.ok .failed, { w with lib := l₁, log := w.log ++ [⟨.description, true⟩] })
      | (.ok desc, l₁) => match api.setRemoteDescription desc l₁ with
        | (.error _, l₂) => (.ok .failed, { w with
            lib := l₂
            log := w.log ++ [⟨.description, false⟩] ++ [⟨.setRemoteDescription, true⟩] })
        | (.ok _, l₂) =>
          if p_type = "offer" then match api.setLocalDescription .answer l₂ with
            | (.error _, l₃) => (.ok .failed, { w with
                lib := l₃
                log := w.log ++ [⟨.description, false⟩] ++ [⟨.setRemoteDescription, false⟩] ++
                  [⟨.setLocalDescription, true⟩] })
            | (.ok _, l₃) => (.ok .ok, { w with
                lib := l₃
                log := w.log ++ [⟨.description, false⟩] ++ [⟨.setRemoteDescription, false⟩] ++
                  [⟨.setLocalDescription, false⟩] })
          else (.ok .ok, { w with
            lib := l₂
            log := w.log ++ [⟨.description, false⟩] ++ [⟨.setRemoteDescription, false⟩] }) := by
  obtain ⟨conn, hconn⟩ := Option.ne_none_iff_exists'.mp hopen
  unfold setRemoteDescription Method.tryStd Eff.tryCatch
  rw [Eff.bind_apply, Method.self_apply]
  simp only [hconn, Option.isNone_some, Bool.false_eq_true, ↓reduceIte, Eff.bind_apply, Method.call]
  rcases api.description (cString (utf8 p_sdp)) (cString (utf8 p_type)) w.lib with ⟨_ | desc, l₁⟩
  · rfl
  dsimp only
  rcases api.setRemoteDescription desc l₁ with ⟨_ | _, l₂⟩
  · rfl
  by_cases hoffer : p_type = "offer"
  · simp only [if_pos hoffer, Eff.bind_apply, Method.call]
    rcases api.setLocalDescription .answer l₂ with ⟨_ | _, l₃⟩ <;> rfl
  · simp only [if_neg hoffer]
    rfl

theorem setRemoteDescription_outcome (api : PeerApi L) {w : World L Heap}
    (hopen : w.self.peerConnection ≠ none) (p_type p_sdp : String) : ∃ err w' asked,
      setRemoteDescription api p_type p_sdp w = (.ok err, w') ∧
      Outcome api p_type p_sdp w.lib err w'.lib asked ∧
      (.setLocalDescription .answer ∈ requests (setRemoteDescription api.recorded p_type p_sdp) w ↔
        asked = true) := by
  unfold requests
  rw [setRemoteDescription_eq hopen, setRemoteDescription_eq (w := w.recorded) hopen]
  simp only [PeerApi.recorded, record, World.recorded]
  rcases hd : api.description (cString (utf8 p_sdp)) (cString (utf8 p_type)) w.lib with ⟨e | desc, l₁⟩
  · exact ⟨_, _, false, rfl, .notDescribed hd, by simp⟩
  dsimp only
  rcases hr : api.setRemoteDescription desc l₁ with ⟨e | _, l₂⟩
  · exact ⟨_, _, false, rfl, .notApplied hd hr, by simp⟩
  have happlied : Applied api p_type p_sdp w.lib desc l₂ := ⟨l₁, hd, hr⟩
  dsimp only
  split
  · rename_i hoffer
    rcases hl : api.setLocalDescription .answer l₂ with ⟨e | _, l₃⟩
    · exact ⟨_, _, true, rfl, .notAnswered happlied hoffer hl, by simp⟩
    · exact ⟨_, _, true, rfl, .answered happlied hoffer hl, by simp⟩
  · rename_i hother
    exact ⟨_, _, false, rfl, .applied happlied hother, by simp⟩

-- ---------------------------------------------------------------------------
-- The library's connection
-- ---------------------------------------------------------------------------

inductive SignalingState
  | stable | haveLocalOffer | haveRemoteOffer | haveLocalPranswer | haveRemotePranswer
  deriving DecidableEq, Repr

structure ConnectionView where
  remoteDescription : Option Description := none
  localDescription : Option DescriptionType := none
  signalingState : SignalingState := .stable
  deriving DecidableEq, Repr

/-- Each call does what it is asked for, or throws and leaves the connection as
it was. -/
structure Atomic (api : PeerApi L) (view : L → ConnectionView) : Prop where
  description : api.description sdp name l = (r, l₁) → view l₁ = view l
  setRemote : api.setRemoteDescription desc l = (.ok (), l₁) →
    (view l₁).remoteDescription = some desc
  setRemoteThrew : api.setRemoteDescription desc l = (.error e, l₁) → view l₁ = view l
  setLocal : api.setLocalDescription type l = (.ok (), l₁) →
    (view l₁).localDescription = some type ∧
      (view l₁).remoteDescription = (view l).remoteDescription
  setLocalThrew : api.setLocalDescription type l = (.error e, l₁) → view l₁ = view l

/-- How the library takes a description: `typeOf` is the type it has for a name. -/
structure Negotiates (api : PeerApi L) (view : L → ConnectionView)
    (typeOf : Bytes → DescriptionType) : Prop where
  type : api.description sdp name l = (.ok desc, l₁) → desc.type = typeOf name
  description : api.description sdp name l = (.ok desc, l₁) → view l₁ = view l
  offer : typeOf name = .offer ↔ name = utf8 "offer"
  /-- An unspecified type is an offer in the stable state, and none in the others. -/
  taken : api.setRemoteDescription desc l = (.ok (), l₁) →
    ((view l₁).signalingState = .haveRemoteOffer ↔
      desc.type = .offer ∨ desc.type = .unspec ∧ (view l).signalingState = .stable)

/-- A library with one connection. The answer can be refused, as when the
transports cannot be set up. -/
structure Session where
  view : ConnectionView := {}
  refusesAnswer : Bool := false

namespace Session

def typeOf (name : Bytes) : DescriptionType :=
  if name = utf8 "offer" then .offer
  else if name = utf8 "answer" then .answer
  else if name = utf8 "pranswer" then .pranswer
  else if name = utf8 "rollback" then .rollback
  else .unspec

/-- The state that a remote description leads to. -/
def next : SignalingState → DescriptionType → Option SignalingState
  | .stable, .offer | .stable, .unspec => some .haveRemoteOffer
  | .haveLocalOffer, .offer => some .haveRemoteOffer
  | .haveLocalOffer, .answer | .haveLocalOffer, .unspec => some .stable
  | .haveLocalOffer, .pranswer => some .haveRemotePranswer
  | .haveRemotePranswer, .answer | .haveRemotePranswer, .unspec => some .stable
  | _, _ => none

def setRemoteDescription (desc : Description) : Call Session Unit := fun s =>
  match next s.view.signalingState desc.type with
  | some state => (.ok (), { s with
      view := { s.view with remoteDescription := some desc, signalingState := state } })
  | none => (.error "Unexpected remote description", s)

def setLocalDescription (type : DescriptionType) : Call Session Unit := fun s =>
  if type = .answer ∧ s.refusesAnswer then (.error "Failed to start the transport", s)
  else (.ok (), { s with view := { s.view with
      localDescription := some type
      signalingState := if type = .offer then .haveLocalOffer else .stable } })

def peerApi : PeerApi Session := { PeerApi.sink Session with
  description := fun sdp name s => (.ok ⟨sdp, typeOf name⟩, s)
  setRemoteDescription := setRemoteDescription
  setLocalDescription := setLocalDescription }

theorem setRemoteDescription_ok (h : peerApi.setRemoteDescription desc s = (.ok (), t)) :
    ∃ state, next s.view.signalingState desc.type = some state ∧ t = { s with
      view := { s.view with remoteDescription := some desc, signalingState := state } } := by
  simp only [peerApi, setRemoteDescription] at h
  split at h <;> cases h
  exact ⟨_, by assumption, rfl⟩

theorem setRemoteDescription_error (h : peerApi.setRemoteDescription desc s = (.error e, t)) :
    t = s := by
  simp only [peerApi, setRemoteDescription] at h
  split at h <;> cases h
  rfl

theorem atomic : Atomic peerApi view where
  description h := by cases h; rfl
  setRemote h := by
    obtain ⟨state, -, rfl⟩ := setRemoteDescription_ok h
    rfl
  setRemoteThrew h := by rw [setRemoteDescription_error h]
  setLocal h := by
    simp only [peerApi, setLocalDescription] at h
    split at h <;> cases h
    exact ⟨rfl, rfl⟩
  setLocalThrew h := by
    simp only [peerApi, setLocalDescription] at h
    split at h <;> cases h
    rfl

theorem negotiates : Negotiates peerApi view typeOf where
  type h := by cases h; rfl
  description h := by cases h; rfl
  offer := by
    intro name
    by_cases h : name = utf8 "offer"
    · simp [typeOf, h]
    · refine iff_of_false ?_ h
      rw [typeOf, if_neg h]
      repeat' split
      all_goals simp
  taken h := by
    rename_i desc s _
    obtain ⟨state, hstate, rfl⟩ := setRemoteDescription_ok h
    dsimp only
    revert hstate
    cases s.view.signalingState <;> cases desc.type <;> simp [next] <;> rintro rfl <;> simp

end Session

-- ---------------------------------------------------------------------------
-- What the code says
-- ---------------------------------------------------------------------------

/-- The connection is left with an offer whose automatic answer was refused. -/
def AnswerRefused (api : PeerApi L) (view : L → ConnectionView) (p_type p_sdp : String) (l l' : L) :
    Prop :=
  p_type = "offer" ∧ ∃ desc l₂ e, Applied api p_type p_sdp l desc l₂ ∧
    api.setLocalDescription .answer l₂ = (.error e, l') ∧ (view l').remoteDescription = some desc

variable {view : L → ConnectionView}

theorem Atomic.applied (ha : Atomic api view) (h : Applied api p_type p_sdp l desc l₂) :
    (view l₂).remoteDescription = some desc := by
  obtain ⟨l₁, -, hset⟩ := h
  exact ha.setRemote hset

/-- An error leaves the connection as it was, or with an offer whose answer was
refused; OK means that the description is applied, and an offer answered. -/
theorem set_remote_description_outcomes (ha : Atomic api view) (p_type p_sdp : String)
    (w : World L Heap) : ∃ err w', setRemoteDescription api p_type p_sdp w = (.ok err, w') ∧
      (err ≠ .ok →
        (view w'.lib).remoteDescription = (view w.lib).remoteDescription ∧
          (view w'.lib).signalingState = (view w.lib).signalingState ∨
        AnswerRefused api view p_type p_sdp w.lib w'.lib) ∧
      (err = .ok → ∃ desc l₂, Applied api p_type p_sdp w.lib desc l₂ ∧
        (view w'.lib).remoteDescription = some desc ∧
        (p_type = "offer" → (view w'.lib).localDescription = some .answer)) := by
  by_cases hopen : w.self.peerConnection = none
  · exact ⟨_, _, setRemoteDescription_unconfigured hopen p_type p_sdp, fun _ => .inl ⟨rfl, rfl⟩,
      fun h => by cases h⟩
  obtain ⟨err, w', asked, hr, houtcome, -⟩ :=
    setRemoteDescription_outcome api hopen p_type p_sdp
  refine ⟨err, w', hr, ?_⟩
  generalize w'.lib = l' at houtcome
  cases houtcome with
  | notDescribed threw =>
    rw [ha.description threw]
    exact ⟨fun _ => .inl ⟨rfl, rfl⟩, fun h => by cases h⟩
  | notApplied described threw =>
    rw [ha.setRemoteThrew threw, ha.description described]
    exact ⟨fun _ => .inl ⟨rfl, rfl⟩, fun h => by cases h⟩
  | notAnswered applied offer threw =>
    have hkept := ha.applied applied
    rw [← ha.setLocalThrew threw] at hkept
    exact ⟨fun _ => .inr ⟨offer, _, _, _, applied, threw, hkept⟩, fun h => by cases h⟩
  | answered applied offer answer =>
    obtain ⟨hlocal, hremote⟩ := ha.setLocal answer
    exact ⟨fun h => absurd rfl h,
      fun _ => ⟨_, _, applied, hremote.trans (ha.applied applied), fun _ => hlocal⟩⟩
  | applied applied other =>
    exact ⟨fun h => absurd rfl h,
      fun _ => ⟨_, _, applied, ha.applied applied, fun h => absurd h other⟩⟩

/-- The name the library is given means an offer to it: it is "offer", or of no
known type while the connection is stable. -/
def MeansOffer (view : L → ConnectionView) (typeOf : Bytes → DescriptionType) (p_type : String)
    (l : L) : Prop :=
  cString (utf8 p_type) = utf8 "offer" ∨
    typeOf (cString (utf8 p_type)) = .unspec ∧ (view l).signalingState = .stable

def TakenAsOffer (api : PeerApi L) (view : L → ConnectionView) (p_type p_sdp : String) (l : L) :
    Prop :=
  ∃ desc l₂, Applied api p_type p_sdp l desc l₂ ∧ (view l₂).signalingState = .haveRemoteOffer

theorem Negotiates.applied {typeOf : Bytes → DescriptionType} (hn : Negotiates api view typeOf)
    (h : Applied api p_type p_sdp l desc l₂) :
    (view l₂).signalingState = .haveRemoteOffer ↔ MeansOffer view typeOf p_type l := by
  obtain ⟨l₁, hdesc, hset⟩ := h
  rw [hn.taken hset, hn.type hdesc, hn.offer, hn.description hdesc, MeansOffer]

theorem Negotiates.takenAsOffer {typeOf : Bytes → DescriptionType} (hn : Negotiates api view typeOf)
    (h : Applied api p_type p_sdp l desc l₂) :
    TakenAsOffer api view p_type p_sdp l ↔ MeansOffer view typeOf p_type l := by
  refine ⟨fun ⟨_, _, happlied, htaken⟩ => (hn.applied happlied).mp htaken, fun hmeans => ?_⟩
  exact ⟨desc, l₂, h, (hn.applied h).mpr hmeans⟩

/-- When the call returns OK, exactly the offers have been answered if the type
is "offer" to the letter, or no offer to the library either. -/
theorem offers_answered_iff {typeOf : Bytes → DescriptionType} (hn : Negotiates api view typeOf)
    (hok : (setRemoteDescription api p_type p_sdp w).1 = .ok .ok) :
    ((.setLocalDescription .answer ∈
        requests (setRemoteDescription api.recorded p_type p_sdp) w ↔
      TakenAsOffer api view p_type p_sdp w.lib) ↔
    p_type = "offer" ∨ ¬ MeansOffer view typeOf p_type w.lib) := by
  have hopen : w.self.peerConnection ≠ none := by
    intro h
    rw [setRemoteDescription_unconfigured h] at hok
    cases hok
  obtain ⟨err, w', asked, hr, houtcome, hasked⟩ :=
    setRemoteDescription_outcome api hopen p_type p_sdp
  rw [hr] at hok
  cases hok
  rw [hasked]
  generalize w'.lib = l' at houtcome
  cases houtcome with
  | answered applied offer answer =>
    have hname : cString (utf8 "offer") = utf8 "offer" := cString_utf8 (by decide)
    have hmeans : MeansOffer view typeOf p_type w.lib := .inl (by rw [offer, hname])
    exact iff_of_true (iff_of_true rfl ((hn.takenAsOffer applied).mpr hmeans)) (.inl offer)
  | applied applied other => simp [hn.takenAsOffer applied, other]

def session (refusesAnswer : Bool) : World Session Heap :=
  ⟨{ refusesAnswer := refusesAnswer }, { peerConnection := some 0 }, []⟩

theorem set_remote_description_outcomes_answered :
    ∃ w', setRemoteDescription Session.peerApi "offer" "v=0" (session false) = (.ok .ok, w') ∧
      w'.lib.view.localDescription = some .answer := by
  obtain ⟨err, w', hr, -, hok⟩ :=
    set_remote_description_outcomes Session.atomic "offer" "v=0" (session false)
  have hreturned : (setRemoteDescription Session.peerApi "offer" "v=0" (session false)).1 = .ok .ok :=
    rfl
  rw [hr] at hreturned
  cases hreturned
  obtain ⟨desc, l₂, -, -, hlocal⟩ := hok rfl
  exact ⟨w', hr, hlocal rfl⟩

theorem refused_answer_leaves_offer :
    Atomic Session.peerApi Session.view ∧
    (setRemoteDescription Session.peerApi "offer" "v=0" (session true)).1 = .ok .failed ∧
    (session true).lib.view = {} ∧
    (setRemoteDescription Session.peerApi "offer" "v=0" (session true)).2.lib.view =
      { remoteDescription := some ⟨utf8 "v=0", .offer⟩, signalingState := .haveRemoteOffer } :=
  ⟨Session.atomic, rfl, rfl, rfl⟩

theorem offers_answered_iff_answered :
    (.setLocalDescription .answer ∈
      requests (setRemoteDescription Session.peerApi.recorded "offer" "v=0") (session false) ↔
    TakenAsOffer Session.peerApi Session.view "offer" "v=0" (session false).lib) :=
  (offers_answered_iff Session.negotiates rfl).mpr (.inl rfl)

/-- An offer to the library, and not to the code. -/
theorem untyped_offer_is_not_answered :
    Negotiates Session.peerApi Session.view Session.typeOf ∧
    (setRemoteDescription Session.peerApi "" "v=0" (session false)).1 = .ok .ok ∧
    .setLocalDescription .answer ∉
      requests (setRemoteDescription Session.peerApi.recorded "" "v=0") (session false) ∧
    TakenAsOffer Session.peerApi Session.view "" "v=0" (session false).lib :=
  ⟨Session.negotiates, rfl, by decide, _, _, ⟨_, rfl, rfl⟩, rfl⟩

end WebRtc.PeerConnection
