import WebRtc.DataChannel
import WebRtc.Lib.Machine
import Mathlib.Tactic.Simps.Basic

/-!
# The ready state

`bind_channel` registers the open and the closed callback one after the other;
each callback locks a weak pointer and then stores its state, and the two can
run on different threads. The library raises each event at most once; an event
raised before its callback is registered is stored and delivered at the
registration, on the thread that registers.

The weak pointer a callback locks is never empty here: nobody reads the state
of a wrapper that is gone.
-/

namespace WebRtc.DataChannel.ReadyState

/-- The thread a callback runs on: the library's own, or the one that called
`bind_channel` or `_close`. -/
inductive Thread
  | network
  | caller
  deriving DecidableEq

inductive CallbackPc
  | notRaised
  /-- Raised before the callback was registered. -/
  | stored
  | invoked (thread : Thread)
  | locked (thread : Thread)
  | finished
  deriving DecidableEq

/-- The last statement of `bind_channel` that has been executed. -/
inductive BindPc
  | unbound
  | assigned
  | onMessage
  | onOpen
  | onClosed
  | onError
  /-- `new_data_channel` has returned the wrapper. -/
  | handed
  deriving DecidableEq

structure State where
  object : DataChannel := {}
  bind : BindPc := .unbound
  openPc : CallbackPc := .notRaised
  closedPc : CallbackPc := .notRaised
  /-- The application is inside `channel->close()`. -/
  closing : Bool := false
  reads : List ChannelState := []
  deriving DecidableEq

inductive Event
  | bindNext
  | raiseOpen
  | raiseClosed (thread : Thread)
  | openLock
  | openStore
  | closedLock
  | closedStore
  | close
  | closeReturn
  | read
  deriving DecidableEq

def CallbackPc.runsOn (pc : CallbackPc) (thread : Thread) : Bool :=
  pc = .invoked thread || pc = .locked thread

namespace State

def callerBusy (s : State) : Bool := s.openPc.runsOn .caller || s.closedPc.runsOn .caller

def openRegistered (s : State) : Bool :=
  s.bind = .onOpen || s.bind = .onClosed || s.bind = .onError || s.bind = .handed

def closedRegistered (s : State) : Bool :=
  s.bind = .onClosed || s.bind = .onError || s.bind = .handed

def setState (s : State) (p_channel_state : ChannelState) : State :=
  { s with object := { s.object with channelState := p_channel_state } }

end State

/-- A stored event is delivered when its callback is registered. -/
def CallbackPc.register : CallbackPc → CallbackPc
  | .stored => .invoked .caller
  | pc => pc

def CallbackPc.raised (registered : Bool) (thread : Thread) : CallbackPc → Option CallbackPc
  | .notRaised => some (if registered then .invoked thread else .stored)
  | _ => none

def step (p_negotiated : Bool) (s : State) : Event → Option State
  | .bindNext =>
    if s.callerBusy then none
    else match s.bind with
      | .unbound => some { s with object := s.object.bindChannel p_negotiated, bind := .assigned }
      | .assigned => some { s with bind := .onMessage }
      | .onMessage => some { s with bind := .onOpen, openPc := s.openPc.register }
      | .onOpen => some { s with bind := .onClosed, closedPc := s.closedPc.register }
      | .onClosed => some { s with bind := .onError }
      | .onError => some { s with bind := .handed }
      | .handed => none
  | .raiseOpen =>
    (s.openPc.raised s.openRegistered .network).map fun pc => { s with openPc := pc }
  | .raiseClosed thread =>
    -- on the caller's thread the library raises only from inside `close`
    if thread = .caller ∧ (!s.closing ∨ s.callerBusy) then none
    else (s.closedPc.raised s.closedRegistered thread).map fun pc => { s with closedPc := pc }
  | .openLock => match s.openPc with
    | .invoked thread => some { s with openPc := .locked thread }
    | _ => none
  | .openStore => match s.openPc with
    | .locked _ => some { s.setState .open with openPc := .finished }
    | _ => none
  | .closedLock => match s.closedPc with
    | .invoked thread => some { s with closedPc := .locked thread }
    | _ => none
  | .closedStore => match s.closedPc with
    | .locked _ => some { s.setState .closed with closedPc := .finished }
    | _ => none
  | .close =>
    if s.bind = .handed ∧ !s.closing then some { s with closing := true } else none
  | .closeReturn =>
    if s.closing ∧ !s.callerBusy then some { s with closing := false } else none
  | .read =>
    if s.bind = .handed then some { s with reads := s.reads ++ [s.object.getReadyState] } else none

-- ---------------------------------------------------------------------------
-- What a step can do
-- ---------------------------------------------------------------------------

inductive Step (p_negotiated : Bool) (s : State) : Event → State → Prop
  | assign (unbound : s.bind = .unbound) : Step p_negotiated s .bindNext
      { s with object := s.object.bindChannel p_negotiated, bind := .assigned }
  | registerMessage (assigned : s.bind = .assigned) :
      Step p_negotiated s .bindNext { s with bind := .onMessage }
  | registerOpen (onMessage : s.bind = .onMessage) : Step p_negotiated s .bindNext
      { s with bind := .onOpen, openPc := s.openPc.register }
  | registerClosed (onOpen : s.bind = .onOpen) : Step p_negotiated s .bindNext
      { s with bind := .onClosed, closedPc := s.closedPc.register }
  | registerError (onClosed : s.bind = .onClosed) :
      Step p_negotiated s .bindNext { s with bind := .onError }
  | hand (onError : s.bind = .onError) : Step p_negotiated s .bindNext { s with bind := .handed }
  | raiseOpen (notRaised : s.openPc = .notRaised) : Step p_negotiated s .raiseOpen
      { s with openPc := if s.openRegistered then .invoked .network else .stored }
  | raiseClosed (notRaised : s.closedPc = .notRaised) : Step p_negotiated s (.raiseClosed thread)
      { s with closedPc := if s.closedRegistered then .invoked thread else .stored }
  | openLock (invoked : s.openPc = .invoked thread) :
      Step p_negotiated s .openLock { s with openPc := .locked thread }
  | openStore (locked : s.openPc = .locked thread) :
      Step p_negotiated s .openStore { s.setState .open with openPc := .finished }
  | closedLock (invoked : s.closedPc = .invoked thread) :
      Step p_negotiated s .closedLock { s with closedPc := .locked thread }
  | closedStore (locked : s.closedPc = .locked thread) :
      Step p_negotiated s .closedStore { s.setState .closed with closedPc := .finished }
  | close (handed : s.bind = .handed) : Step p_negotiated s .close { s with closing := true }
  | closeReturn : Step p_negotiated s .closeReturn { s with closing := false }
  | read (handed : s.bind = .handed) :
      Step p_negotiated s .read { s with reads := s.reads ++ [s.object.getReadyState] }

theorem raised_some {pc pc' : CallbackPc} (h : pc.raised registered thread = some pc') :
    pc = .notRaised ∧ pc' = if registered then .invoked thread else .stored := by
  cases pc <;> simp [CallbackPc.raised] at h
  exact ⟨rfl, h.symm⟩

theorem step_cases (h : step p_negotiated s e = some t) : Step p_negotiated s e t := by
  cases e with
  | bindNext =>
    simp only [step] at h
    split at h
    · cases h
    · split at h
      all_goals
        rename_i hb
        cases h
      · exact .assign hb
      · exact .registerMessage hb
      · exact .registerOpen hb
      · exact .registerClosed hb
      · exact .registerError hb
      · exact .hand hb
  | raiseOpen =>
    obtain ⟨pc, hpc, rfl⟩ := Option.map_eq_some_iff.mp h
    obtain ⟨hn, rfl⟩ := raised_some hpc
    exact .raiseOpen hn
  | raiseClosed thread =>
    simp only [step] at h
    split at h
    · cases h
    · obtain ⟨pc, hpc, rfl⟩ := Option.map_eq_some_iff.mp h
      obtain ⟨hn, rfl⟩ := raised_some hpc
      exact .raiseClosed hn
  | openLock | openStore | closedLock | closedStore =>
    simp only [step] at h
    split at h
    · rename_i hpc; cases h; constructor; exact hpc
    · cases h
  | close =>
    simp only [step] at h
    split at h
    · rename_i hc; cases h; exact .close hc.1
    · cases h
  | closeReturn =>
    simp only [step] at h
    split at h
    · cases h; exact .closeReturn
    · cases h
  | read =>
    simp only [step] at h
    split at h
    · rename_i hc; cases h; exact .read hc
    · cases h

-- ---------------------------------------------------------------------------
-- The state stored and the callbacks that stored it
-- ---------------------------------------------------------------------------

/-- What the stored state says of the two callbacks; only a wrapper that has
been handed out is read. -/
structure Stores (s : State) : Prop where
  channel : s.bind ≠ .unbound → s.object.channel = true
  connecting : s.object.channelState = .connecting → s.openPc ≠ .finished ∧ s.closedPc ≠ .finished
  opened : s.object.channelState = .open → s.openPc = .finished
  closing : s.object.channelState ≠ .closing
  closed : s.object.channelState = .closed → s.closedPc = .finished
  stored : s.closedPc = .finished → s.object.channelState = .closed ∨ s.openPc = .finished
  reads : s.reads ≠ [] → s.bind = .handed

theorem initial_stores : Stores {} := by constructor <;> simp

theorem register_finished {pc : CallbackPc} : pc.register = .finished ↔ pc = .finished := by
  cases pc <;> simp [CallbackPc.register]

theorem raised_finished {pc : CallbackPc} {registered : Bool} (hn : pc = .notRaised) :
    (if registered then CallbackPc.invoked thread else .stored) = .finished ↔ pc = .finished := by
  subst hn
  cases registered <;> simp

/-- Only the two stores and the hand-over matter. -/
theorem Stores.frame (hs : Stores s) (hchannel : t.bind ≠ .unbound → t.object.channel = true)
    (hstate : t.object.channelState = s.object.channelState)
    (hopen : t.openPc = .finished ↔ s.openPc = .finished)
    (hclosed : t.closedPc = .finished ↔ s.closedPc = .finished)
    (hreads : t.reads ≠ [] → t.bind = .handed) : Stores t where
  channel := hchannel
  connecting hst := by
    obtain ⟨ho, hc⟩ := hs.connecting (hstate ▸ hst)
    exact ⟨mt hopen.mp ho, mt hclosed.mp hc⟩
  opened hst := hopen.mpr (hs.opened (hstate ▸ hst))
  closing := hstate ▸ hs.closing
  closed hst := hclosed.mpr (hs.closed (hstate ▸ hst))
  stored hc := by
    rw [hstate, hopen]
    exact hs.stored (hclosed.mp hc)
  reads := hreads

theorem step_stores (hs : Stores s) (h : step p_negotiated s e = some t) : Stores t := by
  have hunread (hb : s.bind ≠ .handed) {b : BindPc} (hr : s.reads ≠ []) : b = .handed :=
    absurd (hs.reads hr) hb
  cases step_cases h with
  | assign hb => exact hs.frame (fun _ => rfl) rfl .rfl .rfl (hunread (by simp [hb]))
  | registerMessage hb | registerError hb | hand hb =>
    exact hs.frame (fun _ => hs.channel (by simp [hb])) rfl .rfl .rfl (hunread (by simp [hb]))
  | registerOpen hb =>
    exact hs.frame (fun _ => hs.channel (by simp [hb])) rfl register_finished .rfl
      (hunread (by simp [hb]))
  | registerClosed hb =>
    exact hs.frame (fun _ => hs.channel (by simp [hb])) rfl .rfl register_finished
      (hunread (by simp [hb]))
  | raiseOpen hn => exact hs.frame hs.channel rfl (raised_finished hn) .rfl hs.reads
  | raiseClosed hn => exact hs.frame hs.channel rfl .rfl (raised_finished hn) hs.reads
  | openLock hl => exact hs.frame hs.channel rfl (by simp [hl]) .rfl hs.reads
  | closedLock hl => exact hs.frame hs.channel rfl .rfl (by simp [hl]) hs.reads
  | openStore hl =>
    exact ⟨hs.channel, nofun, fun _ => rfl, nofun, nofun, fun _ => .inr rfl, hs.reads⟩
  | closedStore hl =>
    exact ⟨hs.channel, nofun, nofun, nofun, fun _ => rfl, fun _ => .inl rfl, hs.reads⟩
  | close | closeReturn => exact hs.frame hs.channel rfl .rfl .rfl hs.reads
  | read hb => exact hs.frame hs.channel rfl .rfl .rfl fun _ => hb

theorem run_stores (h : Machine.run (step p_negotiated) {} es = some s) : Stores s :=
  Machine.run_invariant step_stores h initial_stores

theorem Stores.code_le_open (hs : Stores s) (hc : s.closedPc ≠ .finished) :
    s.object.channelState.code ≤ ChannelState.open.code := by
  cases hst : s.object.channelState with
  | connecting | «open» => decide
  | closing => exact absurd hst hs.closing
  | closed => exact absurd (hs.closed hst) hc

theorem Stores.getReadyState (hs : Stores s) (hb : s.bind = .handed) :
    s.object.getReadyState = s.object.channelState := by
  simp [DataChannel.getReadyState, hs.channel (by simp [hb])]

-- ---------------------------------------------------------------------------
-- The order of the reads
-- ---------------------------------------------------------------------------

def Ordered (reads : List ChannelState) : Prop := reads.Pairwise (·.code ≤ ·.code)

instance : Decidable (Ordered reads) := inferInstanceAs (Decidable (List.Pairwise _ _))

/-- The open callback does not store after the closed one, once the wrapper is
in the application's hands. -/
def OpenStoresFirst (s : State) (e : Event) : Prop :=
  e = .openStore → s.bind = .handed → s.closedPc ≠ .finished

instance : Decidable (OpenStoresFirst s e) := inferInstanceAs (Decidable (_ → _ → _))

structure Advancing (s : State) : Prop where
  stores : Stores s
  ordered : Ordered s.reads
  below : ∀ r ∈ s.reads, r.code ≤ s.object.channelState.code

theorem initial_advancing : Advancing {} :=
  ⟨initial_stores, .nil, by simp⟩

theorem code_le_closed (c : ChannelState) : c.code ≤ ChannelState.closed.code := by
  cases c <;> decide

theorem step_advancing (hs : Advancing s) (hg : OpenStoresFirst s e)
    (h : step p_negotiated s e = some t) : Advancing t := by
  have hstores := step_stores hs.stores h
  obtain ⟨hst, hord, hbelow⟩ := hs
  cases step_cases h with
  | assign | registerMessage | registerOpen | registerClosed | registerError | hand
  | raiseOpen | raiseClosed | openLock | closedLock | close | closeReturn =>
    exact ⟨hstores, hord, hbelow⟩
  | openStore hl =>
    refine ⟨hstores, hord, fun r hr => ?_⟩
    -- something has been read, so the wrapper is handed out and the guard applies
    have hb := hst.reads (List.ne_nil_of_mem hr)
    exact le_trans (hbelow r hr) (hst.code_le_open (hg rfl hb))
  | closedStore hl => exact ⟨hstores, hord, fun r _ => code_le_closed r⟩
  | read hb =>
    rw [hst.getReadyState hb] at hstores ⊢
    refine ⟨hstores, ?_, fun r hr => ?_⟩
    · refine List.pairwise_append.mpr ⟨hord, List.pairwise_singleton _ _, ?_⟩
      intro r hr c hc
      rw [List.mem_singleton.mp hc]
      exact hbelow r hr
    · rcases List.mem_append.mp hr with hr | hr
      · exact hbelow r hr
      · rw [List.mem_singleton.mp hr]

/-- A late store by the open callback is seen by a read before it and one
after it. -/
theorem late_open_goes_back (hs : Stores s) (hb : s.bind = .handed)
    (hc : s.closedPc = .finished) (h : step p_negotiated s .openStore = some t) :
    ∃ u, Machine.run (step p_negotiated) s [.read, .openStore, .read] = some u ∧
      ¬ Ordered u.reads := by
  cases step_cases h with
  | openStore hl =>
    have hst : s.object.channelState = .closed := by
      rcases hs.stored hc with hst | ho
      · exact hst
      · rw [hl] at ho; cases ho
    have hch := hs.channel (by simp [hb])
    let u : State := { s.setState .open with
      openPc := .finished, reads := s.reads ++ [.closed, .open] }
    refine ⟨u, ?_, fun hord => ?_⟩
    · simp [Machine.run, step, hb, hl, hch, hst, DataChannel.getReadyState, State.setState, u]
    · have hle := (List.pairwise_append.mp hord).2.1
      simp [ChannelState.code] at hle

/-- Where the open callback always stores first, the reads of every run are
ordered; and wherever it is about to store late, two reads tell. -/
theorem ready_state_ordered
    (h : Machine.run (step p_negotiated) {} es = some s) :
    (Machine.Guarded (step p_negotiated) OpenStoresFirst {} es → Ordered s.reads) ∧
      ∀ t, step p_negotiated s .openStore = some t → ¬ OpenStoresFirst s .openStore →
        ∃ u, Machine.run (step p_negotiated) s [.read, .openStore, .read] = some u ∧
          ¬ Ordered u.reads := by
  constructor
  · intro hg
    exact (hg.invariant step_advancing h initial_advancing).ordered
  · intro t ht hlate
    simp only [OpenStoresFirst, forall_const, Classical.not_imp, not_not] at hlate
    exact late_open_goes_back (run_stores h) hlate.1 hlate.2 ht

def handedOut : List Event := List.replicate 6 .bindNext

/-- Connect and close overlap; the open callback stores first. -/
def openedThenClosed : List Event :=
  handedOut ++ [.read, .raiseOpen, .openLock, .raiseClosed .network, .openStore, .read,
    .closedLock, .closedStore, .read]

theorem ready_state_ordered_openedThenClosed :
    ∃ s, Machine.run (step false) {} openedThenClosed = some s ∧
      s.reads = [.connecting, .open, .closed] ∧ Ordered s.reads := by
  have hrun : (Machine.run (step false) {} openedThenClosed).map State.reads =
      some [.connecting, .open, .closed] := by decide
  obtain ⟨s, hs, hreads⟩ := Option.map_eq_some_iff.mp hrun
  exact ⟨s, hs, hreads, (ready_state_ordered hs).1 (by decide)⟩

/-- The same overlap with the stores the other way round. -/
def closedThenOpened : List Event :=
  handedOut ++ [.raiseOpen, .openLock, .raiseClosed .network, .closedLock, .closedStore, .read,
    .openStore, .read]

theorem closed_not_absorbing :
    ∃ s, Machine.run (step false) {} closedThenOpened = some s ∧
      s.reads = [.closed, .open] ∧ ¬ Ordered s.reads := by
  have hrun : (Machine.run (step false) {} closedThenOpened).map State.reads =
      some [.closed, .open] := by decide
  obtain ⟨s, hs, hreads⟩ := Option.map_eq_some_iff.mp hrun
  exact ⟨s, hs, hreads, by rw [hreads]; decide⟩

end WebRtc.DataChannel.ReadyState
