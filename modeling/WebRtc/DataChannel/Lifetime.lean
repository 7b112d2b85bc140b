import WebRtc.DataChannel.Progress
import WebRtc.Lib.SharedPtr

/-!
# The shared state outlives its users

The callbacks of a channel may run while the wrapper is destroyed, and after.
Each locks its weak pointer before it does anything else, and drops what it got
when it returns; the destructor closes the channel, and then the members go.
The receive path between is the machine of `DataChannel.Receive`. Touching the
shared state when nobody owns it is recorded as a fault.
-/

namespace WebRtc.DataChannel.Lifetime

open Receive (Owner ConsumerCall received received_snoc)

inductive WrapperPc
  | alive
  /-- In the destructor: `_close` has returned. -/
  | closed
  | gone
  deriving DecidableEq, Repr

structure State (L : Type) where
  receive : Receive.State L
  count : SharedPtr := {}
  owners : Finset Owner := {.consumer}
  storing : Nat → Option ChannelState := fun _ => none
  wrapper : WrapperPc := .alive
  /-- The messages of callbacks whose weak pointer had expired. -/
  dropped : List Message := []
  faulted : Bool := false

inductive Event (L : Type)
  | onMessage (thread : Nat) (m : Message)
  | onState (thread : Nat) (p_channel_state : ChannelState)
  | setState (thread : Nat)
  | leave (thread : Nat)
  | receive (e : Receive.Event L)
  /-- The last `Ref` goes: the destructor runs, up to the return of its `_close`. -/
  | destroy
  | destroyMembers

variable {L : Type}

def State.initial (l : L) (p_negotiated : Bool) : State L :=
  { receive := .initial l p_negotiated }

def State.touch (s : State L) : State L := { s with faulted := s.faulted || s.count.strong = 0 }

/-- The events that only the thread of the wrapper takes. -/
def isConsumers : Receive.Event L → Bool
  | .getLock | .getTest | .getStore | .getCopy | .getPop | .getOut | .getUnlock | .call _ => true
  | _ => false

def isCallbacks : Receive.Event L → Bool
  | .lock _ | .push _ | .store _ | .unlock _ => true
  | _ => false

def isLibrary : Receive.Event L → Bool
  | .library _ => true
  | _ => false

section
variable (checked : Bool) (api : DataChannelApi L)

def enabledStep (s : State L) : Event L → Option (State L)
  | .onMessage t m =>
    if .callback t ∈ s.owners then none
    else match s.count.lock with
      | some count => (Receive.step checked api s.receive (.onMessage t m)).map fun r =>
          { s with receive := r, count := count, owners := insert (.callback t) s.owners }
      | none => some { s with dropped := s.dropped ++ [m] }
  | .onState t cs =>
    if .callback t ∈ s.owners then none
    else match s.count.lock with
      | some count => some { s with
          count := count
          owners := insert (.callback t) s.owners
          storing := Function.update s.storing t (some cs) }
      | none => some s
  | .setState t => match s.storing t with
    | some cs => (Receive.step checked api s.receive (.setState cs)).map fun r =>
        { s.touch with receive := r, storing := Function.update s.storing t none }
    | none => none
  | .leave t =>
    if .callback t ∈ s.owners ∧ s.receive.callbacks t = .idle ∧ s.storing t = none then
      some { s with count := s.count.release, owners := s.owners.erase (.callback t) }
    else none
  | .receive e =>
    if isLibrary e then
      (Receive.step checked api s.receive e).map fun r => { s with receive := r }
    else if isCallbacks e ∨ isConsumers e ∧ s.wrapper = .alive then
      (Receive.step checked api s.receive e).map fun r => { s.touch with receive := r }
    else none
  | .destroy =>
    if s.wrapper = .alive then
      (Receive.step checked api s.receive (.call .close)).map fun r =>
        { s with receive := r, wrapper := .closed }
    else none
  | .destroyMembers =>
    if s.wrapper = .closed then
      some { s with count := s.count.release, owners := s.owners.erase .consumer, wrapper := .gone }
    else none

/-- Nothing runs in an aborted process. -/
def step (s : State L) (e : Event L) : Option (State L) :=
  if s.receive.aborted then none else enabledStep checked api s e

inductive Step (s : State L) : Event L → State L → Prop
  | onMessage (new : .callback t ∉ s.owners) (locked : s.count.lock = some count)
      (received : Receive.step checked api s.receive (.onMessage t m) = some r) :
      Step s (.onMessage t m)
        { s with receive := r, count := count, owners := insert (.callback t) s.owners }
  | expired (locked : s.count.lock = none) :
      Step s (.onMessage t m) { s with dropped := s.dropped ++ [m] }
  | onState (new : .callback t ∉ s.owners) (locked : s.count.lock = some count) :
      Step s (.onState t cs) { s with
        count := count
        owners := insert (.callback t) s.owners
        storing := Function.update s.storing t (some cs) }
  | stateExpired (locked : s.count.lock = none) : Step s (.onState t cs) s
  | setState (storing : s.storing t = some cs)
      (received : Receive.step checked api s.receive (.setState cs) = some r) :
      Step s (.setState t)
        { s.touch with receive := r, storing := Function.update s.storing t none }
  | leave (owner : .callback t ∈ s.owners) (idle : s.receive.callbacks t = .idle)
      (stored : s.storing t = none) : Step s (.leave t)
        { s with count := s.count.release, owners := s.owners.erase (.callback t) }
  | library (received : Receive.step checked api s.receive (.library l) = some r) :
      Step s (.receive (.library l)) { s with receive := r }
  | callback (isCallbacks : isCallbacks e = true)
      (received : Receive.step checked api s.receive e = some r) :
      Step s (.receive e) { s.touch with receive := r }
  | consumer (isConsumers : isConsumers e = true) (alive : s.wrapper = .alive)
      (received : Receive.step checked api s.receive e = some r) :
      Step s (.receive e) { s.touch with receive := r }
  | destroy (alive : s.wrapper = .alive)
      (received : Receive.step checked api s.receive (.call .close) = some r) :
      Step s .destroy { s with receive := r, wrapper := .closed }
  | destroyMembers (closed : s.wrapper = .closed) : Step s .destroyMembers
      { s with count := s.count.release, owners := s.owners.erase .consumer, wrapper := .gone }

end

variable {checked : Bool} {api : DataChannelApi L}

theorem step_cases (h : step checked api s e = some t) : Step checked api s e t := by
  unfold step at h
  split at h
  · cases h
  cases e with
  | onMessage k m =>
    simp only [enabledStep] at h
    split at h
    · cases h
    split at h
    · obtain ⟨r, hr, rfl⟩ := Option.map_eq_some_iff.mp h
      exact .onMessage (by assumption) (by assumption) hr
    · cases h
      exact .expired (by assumption)
  | onState k cs =>
    simp only [enabledStep] at h
    split at h
    · cases h
    split at h <;> cases h
    · exact .onState (by assumption) (by assumption)
    · exact .stateExpired (by assumption)
  | setState k =>
    simp only [enabledStep] at h
    split at h
    · obtain ⟨r, hr, rfl⟩ := Option.map_eq_some_iff.mp h
      exact .setState (by assumption) hr
    · cases h
  | leave k =>
    simp only [enabledStep] at h
    split at h
    · rename_i hleave
      cases h
      exact .leave hleave.1 hleave.2.1 hleave.2.2
    · cases h
  | receive e =>
    simp only [enabledStep] at h
    split at h
    · rename_i hlibrary
      obtain ⟨r, hr, rfl⟩ := Option.map_eq_some_iff.mp h
      cases e <;> cases hlibrary
      exact .library hr
    split at h
    · rename_i henabled
      obtain ⟨r, hr, rfl⟩ := Option.map_eq_some_iff.mp h
      rcases henabled with hcallback | ⟨hconsumer, halive⟩
      · exact .callback hcallback hr
      · exact .consumer hconsumer halive hr
    · cases h
  | destroy =>
    simp only [enabledStep] at h
    split at h
    · obtain ⟨r, hr, rfl⟩ := Option.map_eq_some_iff.mp h
      exact .destroy (by assumption) hr
    · cases h
  | destroyMembers =>
    simp only [enabledStep] at h
    split at h <;> cases h
    exact .destroyMembers (by assumption)

-- ---------------------------------------------------------------------------
-- What the receive path does to the threads
-- ---------------------------------------------------------------------------

theorem callbacks_idle {r r' : Receive.State L} (h : Receive.step checked api r e = some r')
    (he : ∀ m, e ≠ .onMessage t m) (hidle : r.callbacks t = .idle) : r'.callbacks t = .idle := by
  cases (Receive.step_cases h).2 with
  | @onMessage k m =>
    have hne : t ≠ k := fun hk => he m (hk ▸ rfl)
    simpa [hne] using hidle
  | @lock k m pc | @push k m pc | @store k pc | @unlock k pc =>
    have hne : t ≠ k := by
      rintro rfl
      rw [hidle] at pc
      cases pc
    simpa [hne] using hidle
  | _ => simpa using hidle

theorem consumer_same {r r' : Receive.State L} (h : Receive.step checked api r e = some r')
    (he : isConsumers e = false) : r'.consumer = r.consumer := by
  cases (Receive.step_cases h).2 with
  | onMessage | lock | push | store | unlock | setState | library => rfl
  | _ => cases he

theorem callback_running {r r' : Receive.State L} (h : Receive.step checked api r e = some r')
    (he : isCallbacks e = true) : ∃ t, r.callbacks t ≠ .idle := by
  cases (Receive.step_cases h).2 with
  | @lock k m pc | @push k m pc | @store k pc | @unlock k pc => exact ⟨k, by simp [pc]⟩
  | _ => cases he

-- ---------------------------------------------------------------------------
-- Who owns the shared state
-- ---------------------------------------------------------------------------

structure Sound (s : State L) : Prop where
  owned : s.count.Owned s.owners
  wrapper : .consumer ∈ s.owners ↔ s.wrapper ≠ .gone
  consumer : s.wrapper ≠ .alive → s.receive.consumer = .idle
  callbacks : ∀ t, .callback t ∉ s.owners → s.receive.callbacks t = .idle
  storing : ∀ t, .callback t ∉ s.owners → s.storing t = none
  exclusive : Receive.Exclusive s.receive
  kept : s.dropped ≠ [] → s.owners = ∅
  safe : s.faulted = false

theorem initial_sound (l : L) (n : Bool) : Sound (State.initial l n) where
  owned := SharedPtr.owned_new _
  wrapper := by simp [State.initial]
  consumer _ := rfl
  callbacks _ _ := rfl
  storing _ _ := rfl
  exclusive := Receive.initial_exclusive l n
  kept h := absurd rfl h
  safe := rfl

theorem Sound.touch (hs : Sound s) (hi : i ∈ s.owners) : s.touch = s := by
  have hpos : s.count.strong ≠ 0 := (hs.owned.strong_pos hi).ne'
  simp only [State.touch, hpos, decide_false, Bool.or_false]

theorem Sound.receive (hs : Sound s) (h : Receive.step checked api s.receive e = some r)
    (he : ∀ t m, e = .onMessage t m → .callback t ∈ s.owners)
    (hconsumer : isConsumers e = true → s.wrapper = .alive) : Sound { s with receive := r } :=
  { hs with
    consumer := fun hw => by
      have hother : isConsumers e = false := by
        by_contra htrue
        exact hw (hconsumer (Bool.not_eq_false _ ▸ htrue))
      exact (consumer_same h hother).trans (hs.consumer hw)
    callbacks := fun t ht =>
      callbacks_idle h (fun m hm => ht (he t m hm)) (hs.callbacks t ht)
    exclusive := Receive.step_exclusive hs.exclusive h }

theorem Sound.lock (hs : Sound s) (hnew : .callback t ∉ s.owners) (h : s.count.lock = some count) :
    Sound { s with count := count, owners := insert (.callback t) s.owners } :=
  { hs with
    owned := hs.owned.lock h hnew
    wrapper := by simpa using hs.wrapper
    callbacks := fun k hk => hs.callbacks k fun hmem => hk (Finset.mem_insert_of_mem hmem)
    storing := fun k hk => hs.storing k fun hmem => hk (Finset.mem_insert_of_mem hmem)
    kept := fun hd => by
      unfold SharedPtr.lock at h
      split at h <;> cases h
      rename_i hpos
      have hzero : s.count.strong = 0 := by rw [hs.owned.strong, hs.kept hd, Finset.card_empty]
      omega }

theorem Sound.leave (hs : Sound s) (howner : .callback k ∈ s.owners)
    (hidle : s.receive.callbacks k = .idle) (hstored : s.storing k = none) :
    Sound { s with count := s.count.release, owners := s.owners.erase (.callback k) } := by
  have hcases (j : Nat) (hj : .callback j ∉ s.owners.erase (.callback k)) :
      j = k ∨ .callback j ∉ s.owners := by
    by_contra hboth
    obtain ⟨hne, hmem⟩ := not_or.mp hboth
    exact hj (Finset.mem_erase.mpr ⟨fun heq => hne (Owner.callback.inj heq), not_not.mp hmem⟩)
  refine { hs with
    owned := hs.owned.release howner
    wrapper := by simpa using hs.wrapper
    callbacks := ?_
    storing := ?_
    kept := fun hd => by rw [hs.kept hd, Finset.erase_empty] }
  · intro j hj
    rcases hcases j hj with rfl | hj
    · exact hidle
    · exact hs.callbacks j hj
  · intro j hj
    rcases hcases j hj with rfl | hj
    · exact hstored
    · exact hs.storing j hj

theorem step_sound (hs : Sound s) (h : step checked api s e = some t) : Sound t := by
  cases step_cases h with
  | onMessage new locked received =>
    refine (hs.lock new locked).receive received (fun k m hm => ?_) nofun
    cases hm
    exact Finset.mem_insert_self _ _
  | expired locked => exact { hs with kept := fun _ => hs.owned.empty_of_lock locked }
  | onState new locked =>
    refine { hs.lock new locked with storing := fun k hk => ?_ }
    obtain ⟨hne, hother⟩ := not_or.mp (Finset.mem_insert.not.mp hk)
    have hk : k ≠ _ := fun heq => hne (congrArg Owner.callback heq)
    simpa [hk] using hs.storing k hother
  | stateExpired => exact hs
  | @setState k cs r storing received =>
    have howner : .callback k ∈ s.owners := by
      by_contra hk
      rw [hs.storing k hk] at storing
      cases storing
    rw [hs.touch howner]
    refine { hs.receive received (fun _ _ => nofun) nofun with storing := fun j hj => ?_ }
    have hne : j ≠ k := fun heq => hj (heq ▸ howner)
    simpa [hne] using hs.storing j hj
  | leave owner idle stored => exact hs.leave owner idle stored
  | library received => exact hs.receive received (fun _ _ => nofun) nofun
  | @callback e r isCallbacks received =>
    obtain ⟨k, hk⟩ := callback_running received isCallbacks
    have howner : .callback k ∈ s.owners := by
      by_contra hnone
      exact hk (hs.callbacks k hnone)
    rw [hs.touch howner]
    refine hs.receive received (fun _ _ he => ?_) fun he => ?_
    · subst he
      cases isCallbacks
    · cases e <;> first | cases isCallbacks; done | cases he
  | @consumer e r isConsumers alive received =>
    have howner : .consumer ∈ s.owners := hs.wrapper.mpr (by rw [alive]; nofun)
    rw [hs.touch howner]
    refine hs.receive received (fun _ _ he => ?_) fun _ => alive
    subst he
    cases isConsumers
  | destroy alive received =>
    have hsound := hs.receive received (fun _ _ => nofun) fun _ => alive
    have howner : .consumer ∈ s.owners := hs.wrapper.mpr (by rw [alive]; nofun)
    refine { hsound with wrapper := iff_of_true howner nofun, consumer := fun _ => ?_ }
    cases (Receive.step_cases received).2 with
    | call idle => exact idle
  | destroyMembers closed =>
    have howner : .consumer ∈ s.owners := hs.wrapper.mpr (by rw [closed]; nofun)
    have hcallback (k : Nat) (hk : .callback k ∉ s.owners.erase .consumer) :
        .callback k ∉ s.owners := fun hmem => hk (Finset.mem_erase.mpr ⟨nofun, hmem⟩)
    exact { hs with
      owned := hs.owned.release howner
      wrapper := iff_of_false (Finset.notMem_erase _ _) (not_not.mpr rfl)
      consumer := fun _ => hs.consumer (by rw [closed]; nofun)
      callbacks := fun k hk => hs.callbacks k (hcallback k hk)
      storing := fun k hk => hs.storing k (hcallback k hk)
      kept := fun hd => by rw [hs.kept hd, Finset.erase_empty] }

theorem run_sound (h : Machine.run (step checked api) (State.initial l n) es = some s) : Sound s :=
  Machine.run_invariant step_sound h (initial_sound l n)

/-- Whatever the interleaving with the destructor, the shared state is used only
while it is there; it is destroyed once, when the wrapper and the last callback
inside are gone, and then nobody is in a critical section. -/
theorem shared_state_outlives_users
    (h : Machine.run (step checked api) (State.initial l n) es = some s) :
    s.faulted = false ∧ s.count.destroyed ≤ 1 ∧
    (s.count.destroyed = 1 ↔ s.wrapper = .gone ∧ ∀ t, .callback t ∉ s.owners) ∧
    (s.count.destroyed = 1 → s.receive.mutex = none ∧ s.receive.consumer = .idle ∧
      ∀ t, s.receive.callbacks t = .idle) := by
  have hs := run_sound h
  refine ⟨hs.safe, hs.owned.destroyed_le, ?_, fun hd => ?_⟩
  · rw [hs.owned.destroyed_iff, Finset.eq_empty_iff_forall_notMem]
    constructor
    · intro hnone
      exact ⟨of_not_not fun hw => hnone _ (hs.wrapper.mpr hw), fun t => hnone _⟩
    · rintro ⟨hgone, hcallbacks⟩ (t | _)
      · exact hcallbacks t
      · exact fun hmem => hs.wrapper.mp hmem hgone
  · rw [hs.owned.destroyed_iff] at hd
    have hnone (o : Owner) : o ∉ s.owners := hd ▸ Finset.notMem_empty o
    have hgone : s.wrapper = .gone := of_not_not fun hw => hnone _ (hs.wrapper.mpr hw)
    have hidle (t : Nat) := hs.callbacks t (hnone _)
    have hconsumer := hs.consumer (by rw [hgone]; nofun)
    refine ⟨?_, hconsumer, hidle⟩
    cases hm : s.receive.mutex with
    | none => rfl
    | some o =>
      cases o with
      | callback t =>
        have hcritical := (hs.exclusive.callback t).mpr hm
        rw [hidle t] at hcritical
        cases hcritical
      | consumer =>
        have hcritical := hs.exclusive.consumer.mpr hm
        rw [hconsumer] at hcritical
        cases hcritical

/-- A callback is inside when the wrapper goes, and a second one comes too late. -/
def destroyedAround : List (Event Unit) :=
  [.onMessage 0 (.string [104, 105]), .destroy, .receive (.lock 0), .destroyMembers,
    .receive (.push 0), .receive (.store 0), .receive (.unlock 0), .leave 0, .onMessage 1 (.binary [1])]

theorem shared_state_outlives_users_destroyedAround :
    ∃ s, Machine.run (step true .sink) (State.initial () false) destroyedAround = some s ∧
      s.faulted = false ∧ s.receive.mutex = none := by
  have hrun : (Machine.run (step true .sink) (State.initial () false) destroyedAround).map
      (·.count.destroyed) = some 1 := by decide
  obtain ⟨s, hs, hd⟩ := Option.map_eq_some_iff.mp hrun
  obtain ⟨hsafe, -, -, hfree⟩ := shared_state_outlives_users hs
  exact ⟨s, hs, hsafe, (hfree hd).1⟩

-- ---------------------------------------------------------------------------
-- What the receive path sees of it
-- ---------------------------------------------------------------------------

def arrived (es : List (Event L)) : List Message :=
  es.filterMap fun
    | .onMessage _ m => some m
    | _ => none

theorem arrived_snoc (es : List (Event L)) (he : ∀ t m, e ≠ .onMessage t m) :
    arrived (es ++ [e]) = arrived es := by
  rw [arrived, List.filterMap_append, List.filterMap_cons_none, List.filterMap_nil, List.append_nil]
  · rfl
  · split
    · exact absurd rfl (he _ _)
    · rfl

theorem run_receives (h : Machine.run (step checked api) (State.initial l n) es = some s) :
    ∃ fs, Machine.run (Receive.step checked api) (Receive.State.initial l n) fs = some s.receive ∧
      arrived es = received fs ++ s.dropped := by
  refine Machine.run_induction (P := fun es s => ∃ fs,
    Machine.run (Receive.step checked api) (Receive.State.initial l n) fs = some s.receive ∧
      arrived es = received fs ++ s.dropped) ⟨[], Machine.run_nil.mpr rfl, rfl⟩ ?_ h
  rintro es s e t hm ⟨fs, hfs, hmessages⟩ he
  have hs := run_sound hm
  have hstays (hother : ∀ k m, e ≠ .onMessage k m) : arrived (es ++ [e]) = received fs ++ s.dropped :=
    (arrived_snoc es hother).trans hmessages
  have hgoes {e' r} (hstep : Receive.step checked api s.receive e' = some r)
      (hother : ∀ k m, e ≠ .onMessage k m) (hother' : ∀ k m, e' ≠ .onMessage k m) :
      ∃ gs, Machine.run (Receive.step checked api) (Receive.State.initial l n) gs = some r ∧
        arrived (es ++ [e]) = received gs ++ s.dropped :=
    ⟨fs ++ [e'], Machine.run_snoc.mpr ⟨_, hfs, hstep⟩,
      (hstays hother).trans (by rw [received_snoc fs hother'])⟩
  cases step_cases he with
  | @onMessage count k m r new locked received' =>
    have hnone : s.dropped = [] := by
      by_contra hd
      have hexpired : s.count.lock = none := by
        rw [SharedPtr.lock, hs.owned.strong, hs.kept hd]
        rfl
      rw [hexpired] at locked
      cases locked
    refine ⟨fs ++ [.onMessage k m], Machine.run_snoc.mpr ⟨_, hfs, received'⟩, ?_⟩
    rw [hnone, List.append_nil] at hmessages
    simp only [hnone, arrived, received, List.filterMap_append, List.append_nil] at hmessages ⊢
    rw [hmessages]
    rfl
  | @expired k m locked =>
    refine ⟨fs, hfs, ?_⟩
    simp only [arrived, List.filterMap_append] at hmessages ⊢
    rw [hmessages, List.append_assoc]
    rfl
  | onState | stateExpired | leave | destroyMembers => exact ⟨fs, hfs, hstays (by simp)⟩
  | setState _ hstep | library hstep | destroy _ hstep => exact hgoes hstep (by simp) (by simp)
  | callback hcallback hstep =>
    refine hgoes hstep (by simp) ?_
    rintro k m rfl
    cases hcallback
  | consumer hconsumer _ hstep =>
    refine hgoes hstep (by simp) ?_
    rintro k m rfl
    cases hconsumer

/-- Up to the destruction of the shared state the wrapper is what it is in a run
of the receive path: every message that arrives goes through it, in order, and
those that arrive later are dropped. -/
theorem messages_dropped_after_destruction
    (h : Machine.run (step checked api) (State.initial l n) es = some s) :
    ∃ fs, Machine.run (Receive.step checked api) (Receive.State.initial l n) fs = some s.receive ∧
      arrived es = received fs ++ s.dropped ∧ (s.dropped ≠ [] → s.count.destroyed = 1) := by
  have hs := run_sound h
  obtain ⟨fs, hfs, hmessages⟩ := run_receives h
  exact ⟨fs, hfs, hmessages, fun hd => hs.owned.destroyed_iff.mpr (hs.kept hd)⟩

theorem messages_dropped_after_destruction_destroyedAround :
    ∃ s, Machine.run (step true .sink) (State.initial () false) destroyedAround = some s ∧
      s.dropped = [.binary [1]] ∧ s.count.destroyed = 1 := by
  have hrun : (Machine.run (step true .sink) (State.initial () false) destroyedAround).map
      (·.dropped) = some [.binary [1]] := by decide
  obtain ⟨s, hs, hd⟩ := Option.map_eq_some_iff.mp hrun
  obtain ⟨fs, -, -, hdestroyed⟩ := messages_dropped_after_destruction hs
  exact ⟨s, hs, hd, hdestroyed (by rw [hd]; exact List.cons_ne_nil _ _)⟩

end WebRtc.DataChannel.Lifetime
