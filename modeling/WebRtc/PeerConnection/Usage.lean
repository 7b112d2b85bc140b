import WebRtc.Lib.Machine
import WebRtc.PeerConnection.Calls
import WebRtc.PeerConnection.Relay

/-!
# The turns of the library calls

A `WebRTCLibPeerConnection` makes its library calls by turns. It has at most
one connection that it has not asked to close. A description is applied as soon
as it is parsed, an answer is made of an offer just applied, and a candidate is
added as soon as it is parsed. `Usage` follows these turns along the calls.
`Used` is what an application can do with an object: whatever it does, to any
depth of polls inside signal handlers, the calls go by turns.
-/

namespace WebRtc

variable {L σ α : Type}

-- ---------------------------------------------------------------------------
-- The calls and what they give
-- ---------------------------------------------------------------------------

/-- What a call gave; `returned` is a result that no later call is made with. -/
inductive Gave
  | threw
  | returned
  | description (desc : Description)
  | candidate (candidate : Candidate)
  deriving DecidableEq, Repr

structure Turn where
  request : Request
  gave : Gave
  deriving DecidableEq, Repr

def gaveOf (gives : α → Gave) : Except StdException α → Gave
  | .ok a => gives a
  | .error _ => .threw

def takeTurn (request : Request) (gives : α → Gave) (f : Call L α) : Call (L × List Turn) α :=
  fun l => ((f l.1).1, (f l.1).2, l.2 ++ [⟨request, gaveOf gives (f l.1).1⟩])

/-- The library with a record of the calls made to it and what they gave. -/
def PeerApi.byTurns (api : PeerApi L) : PeerApi (L × List Turn) where
  iceServer url := takeTurn (.iceServer url) (fun _ => .returned) (api.iceServer url)
  peerConnection config :=
    takeTurn (.peerConnection config) (fun _ => .returned) (api.peerConnection config)
  state l := api.state l.1
  createDataChannel label init :=
    takeTurn (.createDataChannel label init) (fun _ => .returned) (api.createDataChannel label init)
  channelId ch l := api.channelId ch l.1
  setLocalDescription type :=
    takeTurn (.setLocalDescription type) (fun _ => .returned) (api.setLocalDescription type)
  description sdp type := takeTurn (.description sdp type) .description (api.description sdp type)
  setRemoteDescription desc :=
    takeTurn (.setRemoteDescription desc) (fun _ => .returned) (api.setRemoteDescription desc)
  candidate cand mid := takeTurn (.candidate cand mid) .candidate (api.candidate cand mid)
  addRemoteCandidate c :=
    takeTurn (.addRemoteCandidate c) (fun _ => .returned) (api.addRemoteCandidate c)
  close := takeTurn .close (fun _ => .returned) api.close
  closeChannel ch := takeTurn (.closeChannel ch) (fun _ => .returned) (api.closeChannel ch)

-- ---------------------------------------------------------------------------
-- Whose turn it is
-- ---------------------------------------------------------------------------

/-- The object's connection: there is none yet, or it has one, which it has or
has not asked to close. -/
inductive Link
  | none | live | closed
  deriving DecidableEq, Repr

/-- What the last call leaves to be done. -/
inductive Pending
  | nothing
  | apply (desc : Description) (offer : Bool)
  | answer
  | add (c : Candidate)
  deriving DecidableEq, Repr

def Gave.apply (offer : Bool) : Gave → Pending
  | .description desc => .apply desc offer
  | _ => .nothing

def Gave.add : Gave → Pending
  | .candidate c => .add c
  | _ => .nothing

structure Usage where
  link : Link := .none
  pending : Pending := .nothing
  deriving DecidableEq, Repr

namespace Usage

/-- The calls that finish nothing. -/
def start (u : Usage) (turn : Turn) : Option Usage :=
  match turn.request with
  | .iceServer _ => if u.link = .live then none else some ⟨u.link, .nothing⟩
  | .peerConnection config =>
    if u.link = .live ∨ config.disableAutoNegotiation = false then none
    else some ⟨if turn.gave = .threw then u.link else .live, .nothing⟩
  | .createDataChannel _ _ | .setLocalDescription .offer =>
    if u.link = .none then none else some ⟨u.link, .nothing⟩
  | .description _ type =>
    if u.link = .none then none else some ⟨u.link, turn.gave.apply (type = utf8 "offer")⟩
  | .candidate _ _ => if u.link = .none then none else some ⟨u.link, turn.gave.add⟩
  | .close => if u.link = .none then none else some ⟨.closed, .nothing⟩
  | .closeChannel _ => some ⟨u.link, .nothing⟩
  | .setLocalDescription _ | .setRemoteDescription _ | .addRemoteCandidate _ => none

/-- What has been parsed goes to the connection before anything else. -/
def step (u : Usage) (turn : Turn) : Option Usage :=
  match u.pending with
  | .nothing => u.start turn
  | .apply desc offer =>
    if turn.request = .setRemoteDescription desc then
      some ⟨u.link, if offer ∧ turn.gave ≠ .threw then .answer else .nothing⟩
    else none
  | .answer =>
    if turn.request = .setLocalDescription .answer then some ⟨u.link, .nothing⟩ else u.start turn
  | .add c =>
    if turn.request = .addRemoteCandidate c then some ⟨u.link, .nothing⟩ else none

def settled (u : Usage) : Bool :=
  match u.pending with
  | .nothing | .answer => true
  | .apply _ _ | .add _ => false

theorem step_settled {u : Usage} (h : u.settled = true)
    (hrequest : turn.request ≠ .setLocalDescription .answer) : u.step turn = u.start turn := by
  unfold settled at h
  unfold step
  cases hpending : u.pending with
  | nothing => rfl
  | answer => exact if_neg hrequest
  | apply | add =>
    rw [hpending] at h
    cases h

/-- What a turn can be, and what it leads to. -/
inductive Step (u : Usage) : Turn → Usage → Prop
  | iceServer (unconnected : u.link ≠ .live) : Step u ⟨.iceServer url, gave⟩ ⟨u.link, .nothing⟩
  | connect (unconnected : u.link ≠ .live) (negotiation : config.disableAutoNegotiation = true) :
      Step u ⟨.peerConnection config, gave⟩ ⟨if gave = .threw then u.link else .live, .nothing⟩
  | createDataChannel (connected : u.link ≠ .none) :
      Step u ⟨.createDataChannel label init, gave⟩ ⟨u.link, .nothing⟩
  | offer (connected : u.link ≠ .none) : Step u ⟨.setLocalDescription .offer, gave⟩ ⟨u.link, .nothing⟩
  | description (connected : u.link ≠ .none) :
      Step u ⟨.description sdp type, gave⟩ ⟨u.link, gave.apply (type = utf8 "offer")⟩
  | apply (pending : u.pending = .apply desc offer) : Step u ⟨.setRemoteDescription desc, gave⟩
      ⟨u.link, if offer ∧ gave ≠ .threw then .answer else .nothing⟩
  | answer (pending : u.pending = .answer) :
      Step u ⟨.setLocalDescription .answer, gave⟩ ⟨u.link, .nothing⟩
  | candidate (connected : u.link ≠ .none) : Step u ⟨.candidate cand mid, gave⟩ ⟨u.link, gave.add⟩
  | add (pending : u.pending = .add c) : Step u ⟨.addRemoteCandidate c, gave⟩ ⟨u.link, .nothing⟩
  | close (connected : u.link ≠ .none) : Step u ⟨.close, gave⟩ ⟨.closed, .nothing⟩
  | closeChannel : Step u ⟨.closeChannel ch, gave⟩ ⟨u.link, .nothing⟩

theorem start_cases {u u' : Usage} (h : u.start turn = some u') : Step u turn u' := by
  obtain ⟨request, gave⟩ := turn
  unfold start at h
  cases request with
  | iceServer url =>
    obtain ⟨hlink, rfl⟩ : u.link ≠ .live ∧ _ = u' := by simpa using h
    exact .iceServer hlink
  | peerConnection config =>
    obtain ⟨⟨hlink, hconfig⟩, rfl⟩ : (u.link ≠ .live ∧ config.disableAutoNegotiation = true) ∧ _ = u' := by
      simpa using h
    exact .connect hlink hconfig
  | createDataChannel label init =>
    obtain ⟨hlink, rfl⟩ : u.link ≠ .none ∧ _ = u' := by simpa using h
    exact .createDataChannel hlink
  | setLocalDescription type =>
    cases type with
    | offer =>
      obtain ⟨hlink, rfl⟩ : u.link ≠ .none ∧ _ = u' := by simpa using h
      exact .offer hlink
    | _ => cases h
  | description sdp type =>
    obtain ⟨hlink, rfl⟩ : u.link ≠ .none ∧ _ = u' := by simpa using h
    exact .description hlink
  | candidate cand mid =>
    obtain ⟨hlink, rfl⟩ : u.link ≠ .none ∧ _ = u' := by simpa using h
    exact .candidate hlink
  | close =>
    obtain ⟨hlink, rfl⟩ : u.link ≠ .none ∧ _ = u' := by simpa using h
    exact .close hlink
  | closeChannel ch =>
    cases h
    exact .closeChannel
  | setRemoteDescription | addRemoteCandidate => cases h

theorem step_cases {u u' : Usage} (h : u.step turn = some u') : Step u turn u' := by
  obtain ⟨request, gave⟩ := turn
  unfold step at h
  cases hpending : u.pending with
  | nothing =>
    rw [hpending] at h
    exact start_cases h
  | apply desc offer =>
    rw [hpending] at h
    obtain ⟨rfl, rfl⟩ : request = .setRemoteDescription desc ∧ _ = u' := by simpa using h
    exact .apply hpending
  | answer =>
    rw [hpending] at h
    dsimp only at h
    split at h
    · rename_i hrequest
      cases hrequest
      cases h
      exact .answer hpending
    · exact start_cases h
  | add c =>
    rw [hpending] at h
    obtain ⟨rfl, rfl⟩ : request = .addRemoteCandidate c ∧ _ = u' := by simpa using h
    exact .add hpending

-- ---------------------------------------------------------------------------
-- What has gone before
-- ---------------------------------------------------------------------------

/-- What is pending is pending because of the last turns. -/
def After (turns : List Turn) : Pending → Prop
  | .nothing => True
  | .apply desc offer => ∃ earlier sdp type,
      turns = earlier ++ [⟨.description sdp type, .description desc⟩] ∧
        (offer = true → type = utf8 "offer")
  | .answer => ∃ earlier sdp desc gave, gave ≠ .threw ∧ turns = earlier ++
      [⟨.description sdp (utf8 "offer"), .description desc⟩, ⟨.setRemoteDescription desc, gave⟩]
  | .add c => ∃ earlier cand mid, turns = earlier ++ [⟨.candidate cand mid, .candidate c⟩]

theorem run_after (h : Machine.run step {} turns = some u) : After turns u.pending := by
  refine Machine.run_induction (P := fun turns u => After turns u.pending)
    (show After [] .nothing from trivial) ?_ h
  intro turns m turn u _ hm he
  cases step_cases he with
  | @description sdp type gave =>
    cases gave with
    | description desc => exact ⟨turns, sdp, type, rfl, of_decide_eq_true⟩
    | threw | returned | candidate => trivial
  | @candidate cand mid gave =>
    cases gave with
    | candidate c => exact ⟨turns, cand, mid, rfl⟩
    | threw | returned | description => trivial
  | @apply desc offer gave hpending =>
    rw [hpending] at hm
    obtain ⟨earlier, sdp, type, rfl, htype⟩ := hm
    by_cases hoffer : offer = true ∧ gave ≠ .threw
    · rw [if_pos hoffer]
      refine ⟨earlier, sdp, desc, gave, hoffer.2, ?_⟩
      rw [htype hoffer.1, List.append_assoc]
      rfl
    · rw [if_neg hoffer]
      trivial
  | _ => trivial

/-- A connection lasts until it is asked to close. -/
theorem run_live (h : Machine.run step u turns = some u') (hlive : u.link = .live)
    (hopen : ∀ turn ∈ turns, turn.request ≠ .close) : u'.link = .live := by
  induction turns generalizing u with
  | nil =>
    cases Machine.run_nil.mp h
    exact hlive
  | cons turn turns ih =>
    obtain ⟨m, hm, hrest⟩ := Machine.run_cons.mp h
    refine ih hrest ?_ fun t ht => hopen t (List.mem_cons_of_mem _ ht)
    cases step_cases hm with
    | connect unconnected => exact absurd hlive unconnected
    | close => exact absurd rfl (hopen _ List.mem_cons_self)
    | _ => exact hlive

theorem run_connected (h : Machine.run step {} turns = some u) (hlink : u.link ≠ .none) :
    ∃ config gave, gave ≠ .threw ∧ (⟨.peerConnection config, gave⟩ : Turn) ∈ turns := by
  revert hlink
  refine Machine.run_induction (P := fun turns u => u.link ≠ .none → ∃ config gave, gave ≠ .threw ∧
    (⟨.peerConnection config, gave⟩ : Turn) ∈ turns) (fun hlink => absurd rfl hlink) ?_ h
  intro turns m turn u _ hm he hlink
  have hearlier (hlink : m.link ≠ .none) : ∃ config gave, gave ≠ .threw ∧
      (⟨.peerConnection config, gave⟩ : Turn) ∈ turns ++ [turn] := by
    obtain ⟨config, gave, hgave, hmem⟩ := hm hlink
    exact ⟨config, gave, hgave, List.mem_append_left _ hmem⟩
  cases step_cases he with
  | @connect config gave =>
    by_cases hgave : gave = .threw
    · exact hearlier (by simpa [hgave] using hlink)
    · exact ⟨config, gave, hgave, List.mem_append_right _ (List.mem_singleton_self _)⟩
  | close connected => exact hearlier connected
  | _ => exact hearlier hlink

theorem run_pending (h : Machine.run step {} turns = some u) (hpending : u.pending ≠ .nothing) :
    u.link ≠ .none := by
  revert hpending
  refine Machine.run_induction (P := fun _ u => u.pending ≠ .nothing → u.link ≠ .none)
    (fun hpending => absurd rfl hpending) ?_ h
  intro turns m turn u _ hm he hpending
  cases step_cases he with
  | description connected | candidate connected => exact connected
  | apply happly => exact hm (by rw [happly]; simp)
  | _ => exact absurd rfl hpending

theorem step_applies (hbefore : Machine.run step {} before = some u) (h : u.step turn = some u')
    (hrequest : turn.request = .setRemoteDescription desc) :
    ∃ earlier sdp type, before = earlier ++ [⟨.description sdp type, .description desc⟩] := by
  have hafter := run_after hbefore
  cases step_cases h with
  | apply happly =>
    cases hrequest
    rw [happly] at hafter
    obtain ⟨earlier, sdp, type, hlast, -⟩ := hafter
    exact ⟨earlier, sdp, type, hlast⟩
  | _ => cases hrequest

theorem step_adds (hbefore : Machine.run step {} before = some u) (h : u.step turn = some u')
    (hrequest : turn.request = .addRemoteCandidate c) :
    ∃ earlier cand mid, before = earlier ++ [⟨.candidate cand mid, .candidate c⟩] := by
  have hafter := run_after hbefore
  cases step_cases h with
  | add hadd =>
    cases hrequest
    rw [hadd] at hafter
    exact hafter
  | _ => cases hrequest

theorem step_answers (hbefore : Machine.run step {} before = some u) (h : u.step turn = some u')
    (hrequest : turn.request = .setLocalDescription type) :
    type = .offer ∨ type = .answer ∧ ∃ earlier sdp desc gave, gave ≠ .threw ∧ before = earlier ++
      [⟨.description sdp (utf8 "offer"), .description desc⟩, ⟨.setRemoteDescription desc, gave⟩] := by
  have hafter := run_after hbefore
  cases step_cases h with
  | offer =>
    cases hrequest
    exact .inl rfl
  | answer hanswer =>
    cases hrequest
    rw [hanswer] at hafter
    exact .inr ⟨rfl, hafter⟩
  | _ => cases hrequest

theorem step_connects (hbefore : Machine.run step {} before = some u) (h : u.step turn = some u')
    (hrequest : turn.request = .peerConnection config) :
    config.disableAutoNegotiation = true ∧ ∀ earlier config' gave between, gave ≠ .threw →
      before = earlier ++ ⟨.peerConnection config', gave⟩ :: between →
      ∃ t ∈ between, t.request = .close := by
  cases step_cases h with
  | connect unconnected negotiation =>
    cases hrequest
    refine ⟨negotiation, ?_⟩
    intro earlier config' gave between hgave hbetween
    by_contra hopen
    obtain ⟨k, -, hlast⟩ := Machine.run_append.mp (hbetween ▸ hbefore)
    obtain ⟨k', hmade, hlast⟩ := Machine.run_cons.mp hlast
    refine unconnected (run_live hlast ?_ fun t ht hclose => hopen ⟨t, ht, hclose⟩)
    cases step_cases hmade with
    | connect => exact if_neg hgave
  | _ => cases hrequest

theorem step_connected (hbefore : Machine.run step {} before = some u) (h : u.step turn = some u')
    (hserver : ∀ url, turn.request ≠ .iceServer url)
    (hconnection : ∀ config, turn.request ≠ .peerConnection config)
    (hchannel : ∀ ch, turn.request ≠ .closeChannel ch) :
    ∃ config gave, gave ≠ .threw ∧ (⟨.peerConnection config, gave⟩ : Turn) ∈ before := by
  have hpending := run_pending hbefore
  refine run_connected hbefore ?_
  cases step_cases h with
  | iceServer => exact absurd rfl (hserver _)
  | connect => exact absurd rfl (hconnection _)
  | closeChannel => exact absurd rfl (hchannel _)
  | apply happly => exact hpending (by rw [happly]; simp)
  | answer hanswer => exact hpending (by rw [hanswer]; simp)
  | add hadd => exact hpending (by rw [hadd]; simp)
  | createDataChannel connected | offer connected | description connected | candidate connected
  | close connected => exact connected

end Usage

-- ---------------------------------------------------------------------------
-- Calls in turn
-- ---------------------------------------------------------------------------

namespace PeerConnection

/-- The calls made so far went by turns, and nothing has to follow the last one;
`P` holds of the connection. -/
structure InTurn (P : Link → Prop) (w : World (L × List Turn) Heap) (u : Usage) : Prop where
  run : Machine.run Usage.step {} w.lib.2 = some u
  settled : u.settled = true
  link : u.link = .none ↔ w.self.peerConnection = none
  holds : P u.link

def ByTurns (P : Link → Prop) (w : World (L × List Turn) Heap) : Prop := ∃ u, InTurn P w u

variable {engine : Engine} {api : PeerApi L} {P : Link → Prop} {w : World (L × List Turn) Heap}

theorem InTurn.configured {u : Usage} (h : InTurn P w u) (hconfigured : w.self.peerConnection ≠ none) :
    u.link ≠ .none :=
  fun hnone => hconfigured (h.link.mp hnone)

theorem ByTurns.of_eq {w' : World (L × List Turn) Heap} (h : ByTurns P w) (hturns : w'.lib.2 = w.lib.2)
    (hself : w'.self.peerConnection = w.self.peerConnection) : ByTurns P w' := by
  obtain ⟨u, hu⟩ := h
  exact ⟨u, hturns ▸ hu.run, hu.settled, hself ▸ hu.link, hu.holds⟩

theorem ByTurns.imp {Q : Link → Prop} (h : ByTurns P w) (himp : ∀ link, P link → Q link) :
    ByTurns Q w := by
  obtain ⟨u, hu⟩ := h
  exact ⟨u, { hu with holds := himp _ hu.holds }⟩

/-- From `w`, a call has led to the turn `u`. -/
structure Next (w : World (L × List Turn) Heap) (u : Usage) (w' : World (L × List Turn) Heap) :
    Prop where
  run : Machine.run Usage.step {} w'.lib.2 = some u
  self : w'.self = w.self

theorem Next.byTurns {u : Usage} {w' : World (L × List Turn) Heap} (h : Next w u w')
    (hsettled : u.settled = true) (hlink : u.link = .none ↔ w.self.peerConnection = none)
    (hP : P u.link) : ByTurns P w' :=
  ⟨u, h.run, hsettled, h.self ▸ hlink, hP⟩

theorem sat_turn {gives : α → Gave} {f : Call L α} {u : Usage} {next : Gave → Usage}
    (hrun : Machine.run Usage.step {} w.lib.2 = some u)
    (hstep : ∀ gave, u.step ⟨request, gave⟩ = some (next gave)) :
    Eff.Sat (Method.call name (takeTurn request gives f)) w
      (fun a w' => Next w (next (gives a)) w')
      fun e w' => (∃ what, e = .std what) ∧ Next w (next .threw) w' := by
  refine Method.sat_call ?_ ?_
  · intro a l hcall
    obtain ⟨hr, hl⟩ := Prod.mk.inj hcall
    refine ⟨?_, rfl⟩
    rw [← hl]
    exact Machine.run_snoc.mpr ⟨u, hrun, by rw [hr]; exact hstep _⟩
  · intro e l hcall
    obtain ⟨hr, hl⟩ := Prod.mk.inj hcall
    refine ⟨⟨e, rfl⟩, ?_, rfl⟩
    rw [← hl]
    exact Machine.run_snoc.mpr ⟨u, hrun, by rw [hr]; exact hstep _⟩

theorem closeChannels_byTurns (chs : List Nat) (h : ByTurns P w) :
    Eff.Sat (closeChannels api.byTurns chs) w (fun _ => ByTurns P) fun _ _ => False := by
  induction chs generalizing w with
  | nil => exact .pure h
  | cons ch chs ih =>
    obtain ⟨u, hu⟩ := h
    have hstep (gave : Gave) : u.step ⟨.closeChannel ch, gave⟩ = some ⟨u.link, .nothing⟩ := by
      rw [Usage.step_settled hu.settled (by simp)]
      rfl
    have hclosed {w'} (hnext : Next w ⟨u.link, .nothing⟩ w') : ByTurns P w' :=
      hnext.byTurns rfl hu.link hu.holds
    refine .bind (Method.sat_tryAll (Q := fun _ => ByTurns P) ((sat_turn hu.run hstep).imp
      (fun _ _ => hclosed) fun _ _ hnext => hclosed hnext.2) fun _ _ h => h) ?_
    intro _ w' hw'
    exact ih hw'

theorem updateHeap_byTurns {f : Heap → Heap} (hf : ∀ h, (f h).peerConnection = h.peerConnection)
    (h : ByTurns P w) :
    Eff.Sat (updateHeap api.byTurns f) w (fun _ => ByTurns P) fun _ _ => False := by
  refine .bind (Method.sat_self (Q := fun _ => ByTurns P) h) fun before v hv => ?_
  refine .bind (Method.sat_update (Q := fun _ => ByTurns P) (hv.of_eq rfl (hf _))) fun _ v' hv' => ?_
  refine .bind (Method.sat_self (Q := fun _ => ByTurns P) hv') fun after v'' hv'' => ?_
  exact closeChannels_byTurns _ hv''

theorem replaceState_peerConnection (h : Heap) :
    h.replaceState.peerConnection = h.peerConnection :=
  (Heap.releaseState?_shape _ h.sharedState).peerConnection

theorem close_byTurns (h : ByTurns P w) :
    Eff.Sat (close api.byTurns) w (fun _ => ByTurns (· ≠ .live)) fun _ _ => False := by
  obtain ⟨u, hu⟩ := h
  refine .bind (Method.sat_self (Q := fun self v => v = w ∧ self = w.self) ⟨rfl, rfl⟩) ?_
  rintro _ w ⟨rfl, rfl⟩
  split
  · rename_i hsome
    have hconfigured : w.self.peerConnection ≠ none := Option.isSome_iff_ne_none.mp hsome
    have hstep (gave : Gave) : u.step ⟨.close, gave⟩ = some ⟨.closed, .nothing⟩ := by
      rw [Usage.step_settled hu.settled (by simp)]
      exact if_neg (hu.configured hconfigured)
    have hclosed {w'} (hnext : Next w ⟨.closed, .nothing⟩ w') : ByTurns (· ≠ .live) w' :=
      hnext.byTurns rfl (iff_of_false (by simp) hconfigured) (by simp)
    refine .bind (Method.sat_tryAll (Q := fun _ => ByTurns (· ≠ .live)) ((sat_turn hu.run hstep).imp
      (fun _ _ => hclosed) fun _ _ hnext => hclosed hnext.2) fun _ _ h => h) ?_
    intro _ w' hw'
    exact updateHeap_byTurns replaceState_peerConnection hw'
  · rename_i hnone
    have hlink : u.link = .none := hu.link.mpr (by simpa using hnone)
    refine updateHeap_byTurns replaceState_peerConnection ⟨u, { hu with holds := ?_ }⟩
    rw [hlink]
    decide

-- ---------------------------------------------------------------------------
-- Connecting
-- ---------------------------------------------------------------------------

theorem addServers_byTurns (username credential : String) (urls : List Variant)
    (r_config : Configuration) (h : ByTurns (· ≠ .live) w) :
    Eff.Sat (addServers engine api.byTurns username credential urls r_config) w
      (fun _ => ByTurns (· ≠ .live)) fun _ => ByTurns (· ≠ .live) := by
  induction urls generalizing w r_config with
  | nil => exact .pure h
  | cons url urls ih =>
    obtain ⟨u, hu⟩ := h
    have hstep (gave : Gave) : u.step ⟨.iceServer (cString (utf8 (url.toStr engine))), gave⟩ =
        some ⟨u.link, .nothing⟩ := by
      rw [Usage.step_settled hu.settled (by simp)]
      exact if_neg hu.holds
    have hasked {w'} (hnext : Next w ⟨u.link, .nothing⟩ w') : ByTurns (· ≠ .live) w' :=
      hnext.byTurns rfl hu.link hu.holds
    refine .bind ((sat_turn hu.run hstep).imp (fun _ _ => hasked) fun _ _ hnext => hasked hnext.2) ?_
    intro _ w' hw'
    exact ih _ hw'

theorem parseIceServer_byTurns (r_config : Configuration) (p_server : Dictionary)
    (h : ByTurns (· ≠ .live) w) :
    Eff.Sat (parseIceServer engine api.byTurns r_config p_server) w
      (fun _ => ByTurns (· ≠ .live)) fun _ => ByTurns (· ≠ .live) := by
  unfold parseIceServer
  cases serverUrls p_server with
  | none => exact .pure h
  | some urls => exact (addServers_byTurns _ _ urls r_config h).bind fun _ _ hw' => .pure hw'

theorem parseIceServers_byTurns (servers : List Variant) (config : Configuration)
    (h : ByTurns (· ≠ .live) w) :
    Eff.Sat (parseIceServers engine api.byTurns servers config) w
      (fun _ => ByTurns (· ≠ .live)) fun _ => ByTurns (· ≠ .live) := by
  induction servers generalizing w config with
  | nil => exact .pure h
  | cons server servers ih =>
    unfold parseIceServers
    split
    · exact .pure h
    refine (parseIceServer_byTurns config _ h).bind ?_
    rintro ⟨err, config'⟩ w' hw'
    dsimp only
    split
    · exact .pure hw'
    · exact ih config' hw'

theorem createPc_byTurns (r_config : Configuration) (h : ByTurns (· ≠ .live) w) :
    Eff.Sat (createPc api.byTurns r_config) w (fun _ => ByTurns fun _ => True) fun _ _ => False := by
  obtain ⟨u, hu⟩ := h
  have hstep (gave : Gave) :
      u.step ⟨.peerConnection { r_config with disableAutoNegotiation := true }, gave⟩ =
        some ⟨if gave = .threw then u.link else .live, .nothing⟩ := by
    rw [Usage.step_settled hu.settled (by simp)]
    exact if_neg (by simpa using hu.holds)
  refine Method.sat_tryStd (F := fun _ => ByTurns fun _ => True) (.bind ((sat_turn hu.run hstep).imp
    (fun _ _ hnext => hnext) ?_) ?_) fun _ _ hw' => .pure hw'
  · rintro _ w' ⟨⟨what, rfl⟩, hnext⟩
    exact ⟨what, rfl, hnext.byTurns rfl hu.link trivial⟩
  · intro _ w' hnext
    -- the registrations come with the pointer
    refine .bind (Method.sat_update (Q := fun _ => ByTurns fun _ => True)
      ⟨⟨.live, .nothing⟩, hnext.run, rfl, ?_, trivial⟩) fun _ _ hw' => .pure hw'
    exact iff_of_false (by simp) (Option.some_ne_none _)

theorem initializePc_byTurns (p_config : Dictionary) (h : ByTurns P w) :
    Eff.Sat (initializePc engine api.byTurns p_config) w (fun _ => ByTurns fun _ => True)
      fun _ => ByTurns fun _ => True := by
  refine .bind ((close_byTurns h).imp (fun _ _ h => h) fun _ _ h => h.elim) ?_
  intro _ w₁ hw₁
  refine .bind ((parseIceServers_byTurns _ _ hw₁).imp (fun _ _ h => h) fun _ _ h =>
    h.imp fun _ _ => trivial) ?_
  rintro ⟨err, config⟩ w₂ hw₂
  dsimp only
  split
  · exact .pure (hw₂.imp fun _ _ => trivial)
  · exact (createPc_byTurns _ hw₂).imp (fun _ _ h => h) fun _ _ h => h.elim

-- ---------------------------------------------------------------------------
-- The connection's calls
-- ---------------------------------------------------------------------------

/-- The connection stays as it is, so one more turn is a turn. -/
theorem Next.stays {u : Usage} {w' : World (L × List Turn) Heap} (hu : InTurn P w u)
    (h : Next w ⟨u.link, .nothing⟩ w') : ByTurns P w' :=
  h.byTurns rfl hu.link hu.holds

theorem tryStd_byTurns {m : Method (L × List Turn) Heap α}
    (h : Eff.Sat m w (fun _ => ByTurns P) fun e w' => (∃ what, e = .std what) ∧ ByTurns P w') :
    Eff.Sat (Method.tryStd m fun _ => pure a) w (fun _ => ByTurns P) fun _ _ => False := by
  refine Method.sat_tryStd (F := fun _ => ByTurns P) (h.imp (fun _ _ h => h) ?_) fun _ _ hw' => .pure hw'
  rintro _ w' ⟨⟨what, rfl⟩, hw'⟩
  exact ⟨what, rfl, hw'⟩

theorem createDataChannel_byTurns (p_channel : String) (p_channel_config : Dictionary)
    (h : ByTurns P w) :
    Eff.Sat (createDataChannel engine api.byTurns p_channel p_channel_config) w
      (fun _ => ByTurns P) fun _ _ => False := by
  obtain ⟨u, hu⟩ := h
  refine tryStd_byTurns (.bind (Method.sat_self (Q := fun self v => v = w ∧ self = w.self) ⟨rfl, rfl⟩) ?_)
  rintro _ w ⟨rfl, rfl⟩
  split
  · exact .pure ⟨u, hu⟩
  rename_i hsome
  have hlink : u.link ≠ .none := hu.configured (by simpa using hsome)
  have hstep label init (gave : Gave) :
      u.step ⟨.createDataChannel label init, gave⟩ = some ⟨u.link, .nothing⟩ := by
    rw [Usage.step_settled hu.settled (by simp)]
    exact if_neg hlink
  dsimp only
  split
  · exact .pure ⟨u, hu⟩
  refine .bind ((sat_turn hu.run (hstep _ _)).imp
    (fun _ _ => Next.stays hu) fun _ _ hnext => ⟨hnext.1, hnext.2.stays hu⟩) ?_
  rintro (_ | ch) w' hw'
  · exact .pure hw'
  · exact .bind (Method.sat_lib (Q := fun _ => ByTurns P) hw') fun _ _ hw'' => .pure hw''

theorem createOffer_byTurns (h : ByTurns P w) :
    Eff.Sat (createOffer api.byTurns) w (fun _ => ByTurns P) fun _ _ => False := by
  obtain ⟨u, hu⟩ := h
  refine tryStd_byTurns (.bind (Method.sat_self (Q := fun self v => v = w ∧ self = w.self) ⟨rfl, rfl⟩) ?_)
  rintro _ w ⟨rfl, rfl⟩
  split
  · exact .pure ⟨u, hu⟩
  rename_i hsome
  have hlink : u.link ≠ .none := hu.configured (by simpa using hsome)
  have hstep (gave : Gave) :
      u.step ⟨.setLocalDescription .offer, gave⟩ = some ⟨u.link, .nothing⟩ := by
    rw [Usage.step_settled hu.settled (by simp)]
    exact if_neg hlink
  refine .bind (.get (Q := fun _ v => v = w) rfl) ?_
  rintro _ _ rfl
  split
  · exact .pure ⟨u, hu⟩
  exact .bind ((sat_turn hu.run hstep).imp (fun _ _ => Next.stays hu) fun _ _ hnext =>
    ⟨hnext.1, hnext.2.stays hu⟩) fun _ _ hw' => .pure hw'

theorem addIceCandidate_byTurns (sdpMidName : String) (sdpMlineIndexName : Int) (sdpName : String)
    (h : ByTurns P w) :
    Eff.Sat (addIceCandidate api.byTurns sdpMidName sdpMlineIndexName sdpName) w
      (fun _ => ByTurns P) fun _ _ => False := by
  obtain ⟨u, hu⟩ := h
  refine tryStd_byTurns (.bind (Method.sat_self (Q := fun self v => v = w ∧ self = w.self) ⟨rfl, rfl⟩) ?_)
  rintro _ w ⟨rfl, rfl⟩
  split
  · exact .pure ⟨u, hu⟩
  rename_i hsome
  have hlink : u.link ≠ .none := hu.configured (by simpa using hsome)
  have hparse (gave : Gave) :
      u.step ⟨.candidate (cString (utf8 sdpName)) (cString (utf8 sdpMidName)), gave⟩ =
        some ⟨u.link, gave.add⟩ := by
    rw [Usage.step_settled hu.settled (by simp)]
    exact if_neg hlink
  refine .bind ((sat_turn hu.run hparse).imp (fun _ _ hnext => hnext) fun _ _ hnext =>
    ⟨hnext.1, hnext.2.stays hu⟩) fun c w₁ hnext => ?_
  have hadd (gave : Gave) :
      Usage.step ⟨u.link, .add c⟩ ⟨.addRemoteCandidate c, gave⟩ = some ⟨u.link, .nothing⟩ := if_pos rfl
  have hself := hnext.self
  have hdone {w'} (hnext' : Next w₁ ⟨u.link, .nothing⟩ w') : ByTurns P w' :=
    hnext'.byTurns rfl (hself ▸ hu.link) hu.holds
  exact .bind ((sat_turn hnext.run hadd).imp (fun _ _ => hdone) fun _ _ hnext' =>
    ⟨hnext'.1, hdone hnext'.2⟩) fun _ _ hw' => .pure hw'

theorem setRemoteDescription_byTurns (p_type p_sdp : String) (h : ByTurns P w) :
    Eff.Sat (setRemoteDescription api.byTurns p_type p_sdp) w (fun _ => ByTurns P)
      fun _ _ => False := by
  obtain ⟨u, hu⟩ := h
  refine tryStd_byTurns (.bind (Method.sat_self (Q := fun self v => v = w ∧ self = w.self) ⟨rfl, rfl⟩) ?_)
  rintro _ w ⟨rfl, rfl⟩
  split
  · exact .pure ⟨u, hu⟩
  rename_i hsome
  have hlink : u.link ≠ .none := hu.configured (by simpa using hsome)
  let offer : Bool := cString (utf8 p_type) = utf8 "offer"
  have hparse (gave : Gave) :
      u.step ⟨.description (cString (utf8 p_sdp)) (cString (utf8 p_type)), gave⟩ =
        some ⟨u.link, gave.apply offer⟩ := by
    rw [Usage.step_settled hu.settled (by simp)]
    exact if_neg hlink
  refine .bind ((sat_turn hu.run hparse).imp (fun _ _ hnext => hnext) fun _ _ hnext =>
    ⟨hnext.1, hnext.2.stays hu⟩) fun desc w₁ hnext₁ => ?_
  have happly (gave : Gave) :
      Usage.step ⟨u.link, .apply desc offer⟩ ⟨.setRemoteDescription desc, gave⟩ =
        some ⟨u.link, if offer ∧ gave ≠ .threw then .answer else .nothing⟩ := if_pos rfl
  have hstays {w w' : World (L × List Turn) Heap} {pending : Pending}
      (hlink : u.link = .none ↔ w.self.peerConnection = none)
      (hsettled : Usage.settled ⟨u.link, pending⟩ = true) (hnext : Next w ⟨u.link, pending⟩ w') :
      ByTurns P w' := hnext.byTurns hsettled hlink hu.holds
  have hlink₁ : u.link = .none ↔ w₁.self.peerConnection = none := hnext₁.self ▸ hu.link
  refine .bind ((sat_turn hnext₁.run happly).imp (fun _ _ hnext => hnext) fun _ _ hnext =>
    ⟨hnext.1, hstays hlink₁ (by simp [Usage.settled]) hnext.2⟩) fun _ w₂ hnext₂ => ?_
  have hlink₂ : u.link = .none ↔ w₂.self.peerConnection = none := hnext₂.self ▸ hlink₁
  split
  · rename_i htype
    have hoffer : offer = true := decide_eq_true (by rw [htype]; exact cString_typeName .offer)
    have hanswer (gave : Gave) : Usage.step ⟨u.link, if offer ∧ Gave.returned ≠ .threw then .answer
        else .nothing⟩ ⟨.setLocalDescription .answer, gave⟩ = some ⟨u.link, .nothing⟩ := by
      rw [if_pos ⟨hoffer, by simp⟩]
      rfl
    exact .bind ((sat_turn hnext₂.run hanswer).imp (fun _ _ => hstays hlink₂ rfl) fun _ _ hnext =>
      ⟨hnext.1, hstays hlink₂ rfl hnext.2⟩) fun _ _ hw' => .pure hw'
  · refine .pure (hstays hlink₁ ?_ hnext₂)
    split <;> rfl

-- ---------------------------------------------------------------------------
-- Polls and their handlers
-- ---------------------------------------------------------------------------

def emitted (emit : EmitSignal L) (t : Task) (w : World L Heap) : World L Heap :=
  { w with lib := (emit t (w.lib, w.self)).1, self := (emit t (w.lib, w.self)).2 }

theorem emitAll_byTurns {emit : EmitSignal (L × List Turn)}
    (hemit : ∀ t w, ByTurns P w → ByTurns P (emitted emit t w)) (tasks : List Task)
    (h : ByTurns P w) :
    Eff.Sat (emitAll api.byTurns emit tasks) w (fun _ => ByTurns P) fun _ _ => False := by
  induction tasks generalizing w with
  | nil => exact .pure h
  | cons t tasks ih =>
    have hrelease (h : Heap) : (h.release t).peerConnection = h.peerConnection :=
      (Heap.release_same h t).peerConnection
    refine .bind (Method.sat_update (Q := fun _ => ByTurns P)
      (h.of_eq rfl (Heap.retain_same w.self t).peerConnection)) fun _ w₁ hw₁ => ?_
    refine .bind (.modify (Q := fun _ => ByTurns P) (hemit t w₁ hw₁)) fun _ w₂ hw₂ => ?_
    refine .bind (updateHeap_byTurns hrelease hw₂) fun _ w₃ hw₃ => ?_
    refine .bind (updateHeap_byTurns hrelease hw₃) fun _ w₄ hw₄ => ?_
    exact ih hw₄

theorem poll_byTurns {emit : EmitSignal (L × List Turn)}
    (hemit : ∀ t w, ByTurns P w → ByTurns P (emitted emit t w)) (h : ByTurns P w) :
    Eff.Sat (poll api.byTurns emit) w (fun _ => ByTurns P) fun _ _ => False := by
  refine .bind (Method.sat_self (Q := fun _ => ByTurns P) h) fun self w₁ hw₁ => ?_
  split
  · exact .pure hw₁
  refine .bind (Method.sat_self (Q := fun _ => ByTurns P) hw₁) fun self' w₂ hw₂ => ?_
  refine .bind (Method.sat_update (Q := fun _ => ByTurns P)
    (hw₂.of_eq rfl (Heap.swapQueue_shape w₂.self).peerConnection)) fun _ w₃ hw₃ => ?_
  exact (emitAll_byTurns hemit _ hw₃).bind fun _ _ hw' => .pure hw'

-- ---------------------------------------------------------------------------
-- Everything an application can do
-- ---------------------------------------------------------------------------

open Containment (PeerOp Reply)

/-- What an object can come to from `w`: by calls, by polls whose handlers do no
more than that, and by what goes on elsewhere, which may do anything to the
library and to the queues but does not call the connection through this object. -/
inductive Used (engine : Engine) (api : PeerApi L) :
    World (L × List Turn) Heap → World (L × List Turn) Heap → Prop
  | refl : Used engine api v v
  | call (before : Used engine api v m) (op : PeerOp (L × List Turn))
      (plain : ∀ emit, op ≠ .poll emit) : Used engine api v (op.exec engine api.byTurns m).2
  | poll (before : Used engine api v m) (emit : EmitSignal (L × List Turn))
      (handlers : ∀ t k, Used engine api k (emitted emit t k)) :
      Used engine api v ((PeerOp.poll emit).exec engine api.byTurns m).2
  | elsewhere (before : Used engine api v m) (turns : n.lib.2 = m.lib.2)
      (connection : n.self.peerConnection = m.self.peerConnection) : Used engine api v n

theorem byTurns_of_sat {m : Method (L × List Turn) Heap α} {Q : Thrown → World (L × List Turn) Heap → Prop}
    (f : α → Reply) (h : Eff.Sat m w (fun _ => ByTurns P) Q) (hQ : ∀ e w', Q e w' → ByTurns P w') :
    ByTurns P ((m >>= fun a => pure (f a)) w).2 :=
  (Eff.sat_always (ByTurns P)).mp ((h.imp (fun _ _ h => h) hQ).bind fun _ _ hw' => .pure hw')

theorem peerOp_byTurns (op : PeerOp (L × List Turn)) (plain : ∀ emit, op ≠ .poll emit)
    (h : ByTurns (fun _ => True) w) :
    ByTurns (fun _ => True) (op.exec engine api.byTurns w).2 := by
  cases op with
  | initializePc p_config => exact byTurns_of_sat _ (initializePc_byTurns p_config h) fun _ _ h => h
  | createDataChannel p_channel p_channel_config =>
    exact byTurns_of_sat _ (createDataChannel_byTurns p_channel p_channel_config h) fun _ _ h => h.elim
  | createOffer => exact byTurns_of_sat _ (createOffer_byTurns h) fun _ _ h => h.elim
  | setRemoteDescription p_type p_sdp =>
    exact byTurns_of_sat _ (setRemoteDescription_byTurns p_type p_sdp h) fun _ _ h => h.elim
  | setLocalDescription p_type p_sdp =>
    refine byTurns_of_sat (Q := fun _ => ByTurns fun _ => True) _ (.bind (Method.sat_self
      (Q := fun _ => ByTurns fun _ => True) h) fun self w' hw' => ?_) fun _ _ h => h
    split <;> exact .pure hw'
  | addIceCandidate sdpMidName sdpMlineIndexName sdpName =>
    exact byTurns_of_sat _ (addIceCandidate_byTurns sdpMidName sdpMlineIndexName sdpName h)
      fun _ _ h => h.elim
  | poll emit => exact absurd rfl (plain emit)
  | close =>
    exact byTurns_of_sat _ ((close_byTurns h).imp (fun _ _ hw' => hw'.imp fun _ _ => trivial)
      fun _ _ h => h) fun _ _ h => h.elim

theorem Used.byTurns {w' : World (L × List Turn) Heap} (h : Used engine api w w') (hw : ByTurns (fun _ => True) w) :
    ByTurns (fun _ => True) w' := by
  induction h with
  | refl => exact hw
  | call _ op plain ih => exact peerOp_byTurns op plain (ih hw)
  | poll _ emit _ ih hhandlers =>
    exact byTurns_of_sat _ (poll_byTurns hhandlers (ih hw)) fun _ _ h => h.elim
  | elsewhere _ turns connection ih => exact (ih hw).of_eq turns connection

/-- In everything an application does with a new object: what has been parsed is
applied or added next, answers are made of offers just applied, connections do
not negotiate by themselves, each is asked to close before the next is made, and
none is called before it is made. -/
theorem calls_go_by_turns (h : Used engine api ⟨(l, []), {}, []⟩ w)
    (hturns : w.lib.2 = before ++ turn :: after) :
    (∀ desc, turn.request = .setRemoteDescription desc → ∃ earlier sdp type,
      before = earlier ++ [⟨.description sdp type, .description desc⟩]) ∧
    (∀ c, turn.request = .addRemoteCandidate c → ∃ earlier cand mid,
      before = earlier ++ [⟨.candidate cand mid, .candidate c⟩]) ∧
    (∀ type, turn.request = .setLocalDescription type → type = .offer ∨ type = .answer ∧
      ∃ earlier sdp desc gave, gave ≠ .threw ∧ before = earlier ++
        [⟨.description sdp (utf8 "offer"), .description desc⟩, ⟨.setRemoteDescription desc, gave⟩]) ∧
    (∀ config, turn.request = .peerConnection config → config.disableAutoNegotiation = true ∧
      ∀ earlier config' gave between, gave ≠ .threw →
        before = earlier ++ ⟨.peerConnection config', gave⟩ :: between →
        ∃ t ∈ between, t.request = .close) ∧
    ((∀ url, turn.request ≠ .iceServer url) → (∀ config, turn.request ≠ .peerConnection config) →
      (∀ ch, turn.request ≠ .closeChannel ch) → ∃ config gave, gave ≠ .threw ∧
        (⟨.peerConnection config, gave⟩ : Turn) ∈ before) := by
  obtain ⟨u, hu⟩ := h.byTurns ⟨{}, Machine.run_nil.mpr rfl, rfl, iff_of_true rfl rfl, trivial⟩
  have hrun := hu.run
  rw [hturns] at hrun
  obtain ⟨m, hbefore, hrest⟩ := Machine.run_append.mp hrun
  obtain ⟨m', hstep, -⟩ := Machine.run_cons.mp hrest
  exact ⟨fun _ => Usage.step_applies hbefore hstep, fun _ => Usage.step_adds hbefore hstep,
    fun _ => Usage.step_answers hbefore hstep, fun _ => Usage.step_connects hbefore hstep,
    Usage.step_connected hbefore hstep⟩

theorem Used.execAll (h : Used engine api v w) (ops : List (PeerOp (L × List Turn)))
    (plain : ∀ op ∈ ops, ∀ emit, op ≠ .poll emit) :
    Used engine api v (Calls.execAll engine api.byTurns ops w) := by
  induction ops generalizing w with
  | nil => exact h
  | cons op ops ih =>
    exact ih (.call h op (plain op List.mem_cons_self)) fun op' hop' =>
      plain op' (List.mem_cons_of_mem _ hop')

theorem used_emitCalls (handlers : Task → List (PeerOp (L × List Turn)))
    (plain : ∀ t, ∀ op ∈ handlers t, ∀ emit, op ≠ .poll emit) (t : Task)
    (v : World (L × List Turn) Heap) :
    Used engine api v (emitted (Calls.emitCalls engine api.byTurns handlers) t v) := by
  have hcalled : Used engine api v ⟨v.lib, v.self, []⟩ := .elsewhere .refl rfl rfl
  exact .elsewhere (hcalled.execAll (handlers t) (plain t)) rfl rfl

/-- A handler that is given an offer takes it. -/
def takesOffer : EmitSignal (Unit × List Turn) :=
  Calls.emitCalls Containment.plainEngine (PeerApi.sink Unit).byTurns fun _ =>
    [.setRemoteDescription "offer" "v=0"]

/-- A connection whose library has announced a candidate. -/
def announced : World (Unit × List Turn) Heap :=
  let connected := ((PeerOp.initializePc []).exec Containment.plainEngine (PeerApi.sink Unit).byTurns
    ⟨((), []), {}, []⟩).2
  { connected with
    self := connected.self.pushTask 0 ⟨0, 0, .iceCandidateCreated "0" 0 "candidate:1"⟩ }

def answered : World (Unit × List Turn) Heap :=
  ((PeerOp.poll takesOffer).exec Containment.plainEngine (PeerApi.sink Unit).byTurns announced).2

theorem calls_go_by_turns_answered :
    answered.lib.2.getLast?.map Turn.request = some (.setLocalDescription .answer) ∧
    ∃ earlier sdp desc gave, gave ≠ .threw ∧ answered.lib.2.dropLast = earlier ++
      [⟨.description sdp (utf8 "offer"), .description desc⟩, ⟨.setRemoteDescription desc, gave⟩] := by
  have hused : Used Containment.plainEngine (PeerApi.sink Unit) ⟨((), []), {}, []⟩ answered := by
    have hannounced : Used Containment.plainEngine (PeerApi.sink Unit) ⟨((), []), {}, []⟩ announced :=
      .elsewhere (.call .refl (.initializePc []) nofun) rfl (Heap.pushTask_shape _ _ _).peerConnection
    refine .poll hannounced takesOffer (used_emitCalls _ ?_)
    intro t op hop
    cases List.mem_singleton.mp hop
    nofun
  have hturns : answered.lib.2 = [⟨.peerConnection { disableAutoNegotiation := true }, .returned⟩,
      ⟨.description (utf8 "v=0") (utf8 "offer"), .description ⟨utf8 "v=0", .unspec⟩⟩,
      ⟨.setRemoteDescription ⟨utf8 "v=0", .unspec⟩, .returned⟩] ++
        ⟨.setLocalDescription .answer, .returned⟩ :: [] := by decide +kernel
  obtain ⟨-, -, hanswers, -⟩ := calls_go_by_turns hused hturns
  rw [hturns]
  refine ⟨rfl, ?_⟩
  obtain hoffer | ⟨-, hlast⟩ := hanswers .answer rfl
  · cases hoffer
  · exact hlast

end PeerConnection

end WebRtc
