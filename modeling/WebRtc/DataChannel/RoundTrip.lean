import WebRtc.DataChannel.Delivery

/-!
# Two wrappers joined by a reliable channel

The sending wrapper's calls run in its library; what that library has accepted
for sending is a list, `Link.sent`. The channel is reliable and ordered: the
receiving side's callbacks are given the messages of that list, one after the
other and each once. The receiving wrapper is the machine of
`DataChannel.Receive`.

The two write modes do not hand over a buffer the same way: the text mode copies
it with `strncpy`, which stops at the first NUL.
-/

namespace WebRtc.DataChannel.RoundTrip

open Receive (Received observed receivedOfMessage)

variable {L R : Type}

-- ---------------------------------------------------------------------------
-- The bytes the two modes hand over
-- ---------------------------------------------------------------------------

/-- What `_put_packet` passes to `send`. -/
def messageOf (mode : WriteMode) (p_buffer : Bytes) : Message :=
  match mode with
  | .text => .string (strncpy (List.replicate p_buffer.length 0) p_buffer p_buffer.length)
  | _ => .binary p_buffer

/-- No byte but NULs after the first NUL. -/
def NulsLast (bytes : Bytes) : Prop := bytes.Pairwise fun a b => a = 0 → b = 0

instance : Decidable (NulsLast bytes) := inferInstanceAs (Decidable (List.Pairwise _ _))

theorem strncpy_zeros (bytes : Bytes) :
    strncpy (List.replicate bytes.length 0) bytes bytes.length =
      cString bytes ++ List.replicate (bytes.length - (cString bytes).length) 0 := by
  simp [strncpy]

theorem strncpy_zeros_eq_iff (bytes : Bytes) :
    strncpy (List.replicate bytes.length 0) bytes bytes.length = bytes ↔ NulsLast bytes := by
  rw [strncpy_zeros]
  induction bytes with
  | nil => simp [cString, NulsLast]
  | cons b bytes ih =>
    by_cases hb : b = 0
    · -- the copy stops here, so the rest has to be NULs
      subst hb
      have hrest : (∀ y ∈ bytes, y = 0) → NulsLast bytes := fun h =>
        List.pairwise_of_forall_mem_list fun _ _ y hy _ => h y hy
      simp only [cString, NulsLast, bne_self_eq_false, Bool.false_eq_true, not_false_eq_true,
        List.takeWhile_cons_of_neg, List.nil_append, List.length_nil, Nat.sub_zero,
        List.length_cons, List.replicate_succ, List.cons.injEq, true_and, List.pairwise_cons,
        forall_const] at hrest ⊢
      rw [eq_comm, List.eq_replicate_iff]
      tauto
    · have hc : cString (b :: bytes) = b :: cString bytes := by simp [cString, hb]
      simpa [hc, NulsLast, hb] using ih

@[simp] theorem messageOf_isString (mode : WriteMode) (p_buffer : Bytes) :
    (messageOf mode p_buffer).isString = decide (mode = .text) := by
  cases mode <;> simp [messageOf, Message.isString]

theorem messageOf_data_eq_iff (mode : WriteMode) (p_buffer : Bytes) :
    (messageOf mode p_buffer).data = p_buffer ↔ (mode = .text → NulsLast p_buffer) := by
  cases mode <;> simp [messageOf, Message.data, strncpy_zeros_eq_iff]

theorem messageOf_length (mode : WriteMode) (p_buffer : Bytes) :
    (messageOf mode p_buffer).data.length = p_buffer.length := by
  have hle : (cString p_buffer).length ≤ p_buffer.length := (List.takeWhile_prefix _).length_le
  cases mode <;> simp [messageOf, Message.data, strncpy_zeros, hle]

-- ---------------------------------------------------------------------------
-- The sending side
-- ---------------------------------------------------------------------------

/-- The messages the library has taken from `send`: one per call that returns,
none from a call that throws. -/
structure Link (api : DataChannelApi L) where
  sent : L → List Message
  send_ok : api.send m l = (.ok b, l') → sent l' = sent l ++ [m]
  send_throws : api.send m l = (.error e, l') → sent l' = sent l
  close_sent : ∀ l, sent (api.close l).2 = sent l

variable {api : DataChannelApi L}

/-- A `_put_packet` that returns OK has sent its message; one that does not has
sent nothing. -/
theorem putPacket_sends (link : Link api) (p_buffer : Bytes) (w : World L DataChannel) :
    Eff.Sat (putPacket api p_buffer) w
      (fun code w' => w'.self = w.self ∧ link.sent w'.lib = link.sent w.lib ++
        if code = .ok then [messageOf w.self.writeMode p_buffer] else [])
      fun _ _ => False := by
  have hsend : ∀ m, Eff.Sat (Method.call .send (api.send m)) w
      (fun _ w' => w'.self = w.self ∧ link.sent w'.lib = link.sent w.lib ++ [m])
      fun thrown w' => ∃ e, thrown = .std e ∧ w'.self = w.self ∧ link.sent w'.lib = link.sent w.lib :=
    fun m => Method.sat_call (fun _ _ h => ⟨rfl, link.send_ok h⟩)
      fun e _ h => ⟨e, rfl, rfl, link.send_throws h⟩
  unfold putPacket
  refine Method.sat_tryStd (F := fun _ w' => w'.self = w.self ∧ link.sent w'.lib = link.sent w.lib)
    (.bind (Method.sat_self (Q := fun d w' => d = w.self ∧ w' = w) ⟨rfl, rfl⟩) ?_) ?_
  · rintro _ _ ⟨rfl, rfl⟩
    split
    · exact .pure (by simp)
    refine .bind (Method.sat_lib (Q := fun _ w' => w' = _) rfl) ?_
    rintro l _ rfl
    split
    · exact .pure (by simp)
    split
    · rename_i hm
      exact .bind (hsend _) fun _ w' h => .pure (by simpa [hm, messageOf] using h)
    · rename_i hm
      exact .bind (hsend _) fun _ w' h => .pure (by simpa [hm, messageOf] using h)
    · exact .pure (by simp)
  · rintro e w' h
    exact .pure (by simpa using h)

theorem close_sends (link : Link api) (w : World L DataChannel) :
    link.sent (close api w).2.lib = link.sent w.lib := by
  have h : Eff.Sat (close api) w (fun _ w' => link.sent w'.lib = link.sent w.lib)
      fun _ w' => link.sent w'.lib = link.sent w.lib := by
    refine Method.sat_tryAll (F := fun _ w' => link.sent w'.lib = link.sent w.lib)
      (.bind (Method.sat_self (Q := fun _ w' => w' = w) rfl) ?_) fun _ _ h => h
    rintro d w' rfl
    split
    · refine Method.sat_call (fun _ l h => ?_) fun _ l h => ?_
      all_goals simpa [h] using link.close_sent w'.lib
    · exact .pure rfl
  unfold Eff.Sat at h
  split at h <;> simp_all

-- ---------------------------------------------------------------------------
-- The joined wrappers
-- ---------------------------------------------------------------------------

/-- A `_put_packet` that returned OK: its buffer, and the last write mode
`_set_write_mode` had accepted. -/
structure Put where
  buffer : Bytes
  mode : WriteMode
  deriving DecidableEq, Repr

/-- What the receiver is to see of it. -/
def Put.intended (p : Put) : Received := ⟨some p.buffer, p.buffer.length, p.mode = .text⟩

def Put.message (p : Put) : Message := messageOf p.mode p.buffer

structure State (L R : Type) where
  sender : World L DataChannel
  receiver : Receive.State R
  delivered : Nat := 0
  mode : WriteMode := .binary
  puts : List Put := []

def State.initial (l : L) (r : R) (p_negotiated : Bool) : State L R :=
  { sender := { lib := l, self := bindChannel {} p_negotiated }
    receiver := Receive.State.initial r p_negotiated }

inductive Event (L R : Type)
  | setWriteMode (p_mode : Int)
  | putPacket (p_buffer : Bytes)
  | close
  | library (l : L)
  /-- The next message reaches the receiving side's callback. -/
  | deliver
  /-- Anything the receiving side does but for a message coming in. -/
  | receive (e : Receive.Event R)

def returnedOk : Except Thrown Error → Bool
  | .ok .ok => true
  | _ => false

def isMessage : Receive.Event R → Bool
  | .onMessage _ _ => true
  | _ => false

section
variable (checked : Bool) (link : Link api) (rapi : DataChannelApi R)

def step (s : State L R) : Event L R → Option (State L R)
  | .setWriteMode p_mode =>
    some { s with
      sender := (DataChannel.setWriteMode (.ofInt p_mode) s.sender).2
      mode := if p_mode = 0 then .text else if p_mode = 1 then .binary else s.mode }
  | .putPacket p_buffer =>
    -- `p_len` is an `int32_t`
    if p_buffer.length < 2 ^ 31 then
      let (r, w) := DataChannel.putPacket api p_buffer s.sender
      some { s with
        sender := w
        puts := s.puts ++ if returnedOk r then [⟨p_buffer, s.mode⟩] else [] }
    else none
  | .close => some { s with sender := (DataChannel.close api s.sender).2 }
  | .library l =>
    if link.sent l = link.sent s.sender.lib then
      some { s with sender := { s.sender with lib := l } }
    else none
  | .deliver => do
    let m ← (link.sent s.sender.lib)[s.delivered]?
    -- one callback at a time, so that the messages keep their order
    let r ← Receive.step checked rapi s.receiver (.onMessage 0 m)
    return { s with receiver := r, delivered := s.delivered + 1 }
  | .receive e =>
    if isMessage e then none
    else (Receive.step checked rapi s.receiver e).map fun r => { s with receiver := r }

end

variable {checked : Bool} {link : Link api} {rapi : DataChannelApi R}

-- ---------------------------------------------------------------------------
-- What a step can do
-- ---------------------------------------------------------------------------

/-- A step of the joined wrappers: the sender sends what its new puts are, or
the receiving side takes a step of its own. -/
inductive Step (checked : Bool) (link : Link api) (rapi : DataChannelApi R) (s : State L R) :
    Event L R → State L R → Prop
  | sender (w : World L DataChannel) (mode : WriteMode) (puts : List Put)
      (writeMode : s.sender.self.writeMode = s.mode → w.self.writeMode = mode)
      (sent : s.sender.self.writeMode = s.mode →
        link.sent w.lib = link.sent s.sender.lib ++ puts.map Put.message)
      (short : ∀ p ∈ puts, p.buffer.length < 2 ^ 31) :
      Step checked link rapi s e { s with sender := w, mode := mode, puts := s.puts ++ puts }
  | deliver (next : (link.sent s.sender.lib)[s.delivered]? = some m)
      (step : Receive.step checked rapi s.receiver (.onMessage 0 m) = some r) :
      Step checked link rapi s .deliver { s with receiver := r, delivered := s.delivered + 1 }
  | receive (other : isMessage e = false)
      (step : Receive.step checked rapi s.receiver e = some r) :
      Step checked link rapi s (.receive e) { s with receiver := r }

theorem setWriteMode_mode (p_mode : Int) (w : World L DataChannel) :
    (setWriteMode (.ofInt p_mode) w).2.self.writeMode =
        (if p_mode = 0 then .text else if p_mode = 1 then .binary else w.self.writeMode) ∧
      (setWriteMode (.ofInt p_mode) w).2.lib = w.lib := by
  unfold setWriteMode WriteMode.ofInt
  split
  · exact ⟨rfl, rfl⟩
  split <;> exact ⟨rfl, rfl⟩

theorem step_cases (h : step checked link rapi s e = some t) : Step checked link rapi s e t := by
  cases e with
  | setWriteMode p_mode =>
    cases h
    obtain ⟨hmode, hlib⟩ := setWriteMode_mode p_mode s.sender
    simpa using Step.sender (s := s) (e := .setWriteMode p_mode) _ _ []
      (fun hm => by rw [hmode, hm]) (by simp [hlib]) (by simp)
  | putPacket p_buffer =>
    simp only [step] at h
    split at h
    · rename_i hshort
      cases h
      have hput := putPacket_sends link p_buffer s.sender
      unfold Eff.Sat at hput
      rcases hr : putPacket api p_buffer s.sender with ⟨e | code, w⟩ <;> rw [hr] at hput
      · exact hput.elim
      refine .sender w s.mode (if returnedOk (.ok code) then [⟨p_buffer, s.mode⟩] else [])
        (fun hm => hput.1 ▸ hm) (fun hm => ?_) ?_
      · rw [hput.2, hm]; cases code <;> rfl
      · intro p hp
        split at hp
        · exact List.mem_singleton.mp hp ▸ hshort
        · cases hp
    · cases h
  | close =>
    cases h
    have hkeeps := close_keeps api writeMode s.sender
    simpa using Step.sender (s := s) (e := .close) _ s.mode []
      (fun hm => hkeeps.trans hm) (by simp [close_sends]) (by simp)
  | library l =>
    simp only [step] at h
    split at h
    · rename_i hl
      cases h
      simpa using Step.sender (s := s) (e := .library l) { s.sender with lib := l } s.mode []
        id (by simp [hl]) (by simp)
    · cases h
  | deliver =>
    simp only [step, Option.bind_eq_bind, Option.bind_eq_some_iff] at h
    obtain ⟨m, hm, r, hr, h⟩ := h
    cases h
    exact .deliver hm hr
  | receive e =>
    simp only [step] at h
    split at h
    · cases h
    · rename_i hother
      obtain ⟨r, hr, rfl⟩ := Option.map_eq_some_iff.mp h
      exact .receive (by simpa using hother) hr

-- ---------------------------------------------------------------------------
-- The channel in between
-- ---------------------------------------------------------------------------

def waiting (r : Receive.State R) : List Message :=
  match r.callbacks 0 with
  | .ready m => [m]
  | _ => []

structure Linked (link : Link api) (s : State L R) : Prop where
  writeMode : s.sender.self.writeMode = s.mode
  sent : link.sent s.sender.lib = s.puts.map Put.message
  short : ∀ p ∈ s.puts, p.buffer.length < 2 ^ 31
  single : ∀ t, t ≠ 0 → s.receiver.callbacks t = .idle
  bound : s.delivered ≤ (link.sent s.sender.lib).length
  delivered : s.receiver.lockOrder ++ waiting s.receiver =
    (link.sent s.sender.lib).take s.delivered

theorem initial_linked (h : link.sent l = []) (r : R) (n : Bool) :
    Linked link (State.initial l r n) :=
  ⟨rfl, by simpa [State.initial] using h, by simp [State.initial],
    fun _ _ => rfl, Nat.zero_le _, by simp [State.initial, Receive.State.initial, waiting]⟩

theorem receive_keeps {s t : Receive.State R} (hother : isMessage e = false)
    (hsingle : ∀ k, k ≠ 0 → s.callbacks k = .idle)
    (h : Receive.step checked rapi s e = some t) :
    (∀ k, k ≠ 0 → t.callbacks k = .idle) ∧
      t.lockOrder ++ waiting t = s.lockOrder ++ waiting s := by
  cases (Receive.step_cases h).2 with
  | onMessage => cases hother
  | @lock k m ready free =>
    have hk : k = 0 := by
      by_contra hk
      simp [hsingle k hk] at ready
    subst hk
    refine ⟨fun k hk => by simpa [hk] using hsingle k hk, ?_⟩
    simp [waiting, ready]
  | @push k m pc | @store k pc | @unlock k pc =>
    have hk : k = 0 := by
      by_contra hk
      simp [hsingle k hk] at pc
    subst hk
    refine ⟨fun k hk => by simpa [hk] using hsingle k hk, ?_⟩
    simp [waiting, pc]
  | _ => exact ⟨by simpa using hsingle, by simp [waiting]⟩

theorem step_linked (hs : Linked link s) (h : step checked link rapi s e = some t) :
    Linked link t := by
  cases step_cases h with
  | sender w mode puts hmode hsent hshort =>
    have hsent := hsent hs.writeMode
    refine ⟨hmode hs.writeMode, by simp [hsent, hs.sent], fun p hp => ?_, hs.single, ?_, ?_⟩
    · rcases List.mem_append.mp hp with hp | hp
      · exact hs.short p hp
      · exact hshort p hp
    · exact hsent ▸ hs.bound.trans (by simp)
    · simpa [hsent, List.take_append_of_le_length hs.bound] using hs.delivered
  | @deliver m r next hr =>
    obtain ⟨hlt, hm⟩ := List.getElem?_eq_some_iff.mp next
    cases (Receive.step_cases hr).2 with
    | onMessage idle =>
      refine ⟨hs.writeMode, hs.sent, hs.short, fun t ht => by simpa [ht] using hs.single t ht,
        hlt, ?_⟩
      have hnone : s.receiver.lockOrder = (link.sent s.sender.lib).take s.delivered := by
        simpa [waiting, idle] using hs.delivered
      rw [List.take_add_one, next, ← hnone]
      simp [waiting]
  | @receive e r hother hr =>
    obtain ⟨hsingle, hkeeps⟩ := receive_keeps hother hs.single hr
    exact ⟨hs.writeMode, hs.sent, hs.short, hsingle, hs.bound, hkeeps.trans hs.delivered⟩

theorem run_linked (h : Machine.run (step checked link rapi) (State.initial l r n) es = some s)
    (h₀ : link.sent l = []) : Linked link s :=
  Machine.run_invariant step_linked h (initial_linked h₀ r n)

theorem run_receiver (h : Machine.run (step checked link rapi) (State.initial l r n) es = some s)
    (h₀ : link.sent l = []) :
    ∃ ops, Machine.run (Receive.step checked rapi) (Receive.State.initial r n) ops =
        some s.receiver ∧
      ∀ t m, Receive.Event.onMessage t m ∈ ops → m ∈ link.sent s.sender.lib := by
  refine Machine.run_induction
    (P := fun _ s => ∃ ops, Machine.run (Receive.step checked rapi) (Receive.State.initial r n) ops =
        some s.receiver ∧
      ∀ t m, Receive.Event.onMessage t m ∈ ops → m ∈ link.sent s.sender.lib)
    ⟨[], by simp [State.initial], by simp⟩ ?_ h
  rintro es s e t hrun ⟨ops, hops, hsent⟩ he
  cases step_cases he with
  | sender w mode puts hmode hgrows =>
    refine ⟨ops, hops, fun k m hm => ?_⟩
    rw [hgrows (run_linked hrun h₀).writeMode]
    exact List.mem_append_left _ (hsent k m hm)
  | @deliver m r next hr =>
    refine ⟨ops ++ [.onMessage 0 m], Machine.run_snoc.mpr ⟨_, hops, hr⟩, fun k m' hm => ?_⟩
    rcases List.mem_append.mp hm with hm | hm
    · exact hsent k m' hm
    · simp only [List.mem_singleton, Receive.Event.onMessage.injEq] at hm
      exact hm.2 ▸ List.mem_of_getElem? next
  | @receive e r hother hr =>
    refine ⟨ops ++ [e], Machine.run_snoc.mpr ⟨_, hops, hr⟩, fun k m hm => ?_⟩
    rcases List.mem_append.mp hm with hm | hm
    · exact hsent k m hm
    · rw [← List.mem_singleton.mp hm] at hother
      cases hother

-- ---------------------------------------------------------------------------
-- Round trip
-- ---------------------------------------------------------------------------

/-- What the successful `_get_packet` calls have returned so far is the front
of what has been sent. -/
theorem received_is_sent
    (h : Machine.run (step checked link rapi) (State.initial l r n) es = some s)
    (h₀ : link.sent l = []) :
    s.receiver.returned.map (observed ·.atReturn) =
      (s.puts.take s.receiver.returned.length).map fun p => receivedOfMessage p.message := by
  have hlinked := run_linked h h₀
  obtain ⟨ops, hops, hsent⟩ := run_receiver h h₀
  have hall := Receive.received_conserves hops fun t m hm => by
    have hm := hsent t m hm
    rw [hlinked.sent] at hm
    obtain ⟨p, hp, rfl⟩ := List.mem_map.mp hm
    exact lt_of_eq_of_lt (messageOf_length _ _) (hlinked.short p hp)
  have hlocked : s.receiver.lockOrder <+: s.puts.map Put.message := by
    rw [← hlinked.sent]
    exact (hlinked.delivered ▸ List.prefix_append _ _ : _ <+: _).trans (List.take_prefix _ _)
  have hreturned : s.receiver.returned.map (observed ·.atReturn) <+:
      s.receiver.lockOrder.map receivedOfMessage := by
    rw [← hall, List.append_assoc, List.append_assoc]
    exact List.prefix_append _ _
  have := List.prefix_iff_eq_take.mp (hreturned.trans (hlocked.map receivedOfMessage))
  simpa [List.map_take, Function.comp_def] using this

theorem received_eq_intended_iff (p : Put) :
    receivedOfMessage p.message = p.intended ↔ (p.mode = .text → NulsLast p.buffer) := by
  rw [← messageOf_data_eq_iff]
  simp [receivedOfMessage, Put.message, Put.intended, messageOf_length]

/-- The packets received are the buffers put, each under the mode it was put
in, exactly when no buffer put in text mode has a byte that is not NUL after a
NUL; and the same of the bytes handed to the library. -/
theorem round_trip_iff
    (h : Machine.run (step checked link rapi) (State.initial l r n) es = some s)
    (h₀ : link.sent l = []) :
    s.receiver.returned.length ≤ s.puts.length ∧
    (s.receiver.returned.map (observed ·.atReturn) =
        (s.puts.take s.receiver.returned.length).map Put.intended ↔
      ∀ p ∈ s.puts.take s.receiver.returned.length, p.mode = .text → NulsLast p.buffer) ∧
    ((link.sent s.sender.lib).map Message.data = s.puts.map Put.buffer ↔
      ∀ p ∈ s.puts, p.mode = .text → NulsLast p.buffer) := by
  have hreceived := received_is_sent h h₀
  refine ⟨?_, ?_, ?_⟩
  · have := congrArg List.length hreceived
    simp only [List.length_map, List.length_take] at this
    omega
  · rw [hreceived, List.map_inj_left]
    exact forall₂_congr fun p _ => received_eq_intended_iff p
  · rw [(run_linked h h₀).sent, List.map_map, List.map_inj_left]
    exact forall₂_congr fun p _ => messageOf_data_eq_iff p.mode p.buffer

/-- A library that keeps what it is given to send. -/
def recorder : DataChannelApi (List Message) where
  isClosed _ := false
  label _ := []
  protocol _ := []
  reliability _ := {}
  id _ := none
  bufferedAmount _ := 0
  send m l := (.ok true, l ++ [m])
  close l := (.ok (), l)

def recorderLink : Link recorder where
  sent := id
  send_ok h := by cases h; rfl
  send_throws h := by cases h
  close_sent _ := rfl

/-- The next message comes in and is received. -/
def transfer : List (Event (List Message) Unit) :=
  [.deliver] ++ ([.lock 0, .push 0, .store 0, .unlock 0, .getLock, .getTest, .getStore, .getCopy,
    .getPop, .getOut, .getUnlock] : List (Receive.Event Unit)).map .receive

/-- A buffer in each mode, with NULs where both modes keep them. -/
def bothModes : List (Event (List Message) Unit) :=
  [.putPacket [0, 7], .setWriteMode 0, .setWriteMode 2, .putPacket [104, 105, 0]] ++
    transfer ++ transfer

theorem round_trip_iff_bothModes :
    ∃ s, Machine.run (step false recorderLink .sink) (State.initial [] () false) bothModes = some s ∧
      s.puts = [⟨[0, 7], .binary⟩, ⟨[104, 105, 0], .text⟩] ∧
      s.receiver.returned.map (observed ·.atReturn) = s.puts.map Put.intended := by
  have hrun : (Machine.run (step false recorderLink .sink) (State.initial [] () false)
      bothModes).map (fun s => (s.puts, s.receiver.returned.length)) =
      some ([⟨[0, 7], .binary⟩, ⟨[104, 105, 0], .text⟩], 2) := by decide
  obtain ⟨s, hs, hv⟩ := Option.map_eq_some_iff.mp hrun
  simp only [Prod.mk.injEq] at hv
  have hiff := (round_trip_iff hs rfl).2.1
  rw [hv.1, hv.2] at hiff
  exact ⟨s, hs, hv.1, hv.1 ▸ hiff.mpr (by decide)⟩

/-- One buffer with a byte after a NUL, in text mode. -/
def nulInside : List (Event (List Message) Unit) :=
  [.setWriteMode 0, .putPacket [1, 0, 2]] ++ transfer

theorem text_mode_cuts_at_nul :
    ∃ s, Machine.run (step false recorderLink .sink) (State.initial [] () false) nulInside = some s ∧
      s.puts = [⟨[1, 0, 2], .text⟩] ∧
      s.receiver.returned.map (observed ·.atReturn) = [⟨some [1, 0, 0], 3, true⟩] ∧
      s.receiver.returned.map (observed ·.atReturn) ≠ s.puts.map Put.intended := by
  have hrun : (Machine.run (step false recorderLink .sink) (State.initial [] () false)
      nulInside).map (fun s => (s.puts, s.receiver.returned.map (observed ·.atReturn))) =
      some ([⟨[1, 0, 2], .text⟩], [⟨some [1, 0, 0], 3, true⟩]) := by decide
  obtain ⟨s, hs, hv⟩ := Option.map_eq_some_iff.mp hrun
  simp only [Prod.mk.injEq] at hv
  exact ⟨s, hs, hv.1, hv.2, by rw [hv.1, hv.2]; decide⟩

end WebRtc.DataChannel.RoundTrip
