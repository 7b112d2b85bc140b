import WebRtc.Lib.Machine
import Mathlib.Data.List.Perm.Basic

/-!
# A queue drained in turns

Items are pushed to a queue. A drainer takes the queue whole and emits what it
took one item at a time; another drainer may start before it is done, and then
goes first. Every item has a generation. Closing raises a bar and discards the
queue; items below the bar are discarded when they are pushed.

Closing does not reach what the drainers have taken, and a drainer does not look
at what an earlier one has left. So items of closed generations are never
emitted provided nothing waits when the queue is closed, and the items of a
generation are emitted in the order they were pushed provided a drainer takes
none of them while some of them wait.
-/

structure Ledger (α : Type*) where
  pushed : List α := []
  queue : List α := []
  /-- What the drainers have left, the last one's first. -/
  waiting : List α := []
  /-- With the bar at the time. -/
  emitted : List (α × Nat) := []
  discarded : List α := []
  bar : Nat := 0

namespace Ledger

variable {α : Type*}

inductive Op (α : Type*)
  | push (a : α)
  | swap
  | emit
  | close (bar : Nat)

def step (gen : α → Nat) (l : Ledger α) : Op α → Option (Ledger α)
  | .push a =>
    if l.bar ≤ gen a then some { l with pushed := l.pushed ++ [a], queue := l.queue ++ [a] }
    else some { l with pushed := l.pushed ++ [a], discarded := l.discarded ++ [a] }
  | .swap => some { l with waiting := l.queue ++ l.waiting, queue := [] }
  | .emit => match l.waiting with
    | [] => none
    | a :: rest => some { l with waiting := rest, emitted := l.emitted ++ [(a, l.bar)] }
  | .close bar =>
    if l.bar ≤ bar ∧ ∀ a ∈ l.queue, gen a < bar then
      some { l with queue := [], discarded := l.discarded ++ l.queue, bar := bar }
    else none

variable {gen : α → Nat}

inductive Step (gen : α → Nat) (l : Ledger α) : Op α → Ledger α → Prop
  | push (live : l.bar ≤ gen a) : Step gen l (.push a)
      { l with pushed := l.pushed ++ [a], queue := l.queue ++ [a] }
  | pushStale (stale : gen a < l.bar) : Step gen l (.push a)
      { l with pushed := l.pushed ++ [a], discarded := l.discarded ++ [a] }
  | swap : Step gen l .swap { l with waiting := l.queue ++ l.waiting, queue := [] }
  | emit (waiting : l.waiting = a :: rest) : Step gen l .emit
      { l with waiting := rest, emitted := l.emitted ++ [(a, l.bar)] }
  | close (up : l.bar ≤ n) (below : ∀ a ∈ l.queue, gen a < n) : Step gen l (.close n)
      { l with queue := [], discarded := l.discarded ++ l.queue, bar := n }

theorem step_iff : step gen l op = some k ↔ Step gen l op k := by
  constructor
  · intro h
    cases op with
    | push a =>
      simp only [step] at h
      split at h <;> cases h
      · exact .push ‹_›
      · rename_i hstale; exact .pushStale (Nat.lt_of_not_le hstale)
    | swap => cases h; exact .swap
    | emit =>
      simp only [step] at h
      split at h
      · cases h
      · cases h; exact .emit ‹_›
    | close bar =>
      simp only [step] at h
      split at h
      · rename_i hc; cases h; exact .close hc.1 hc.2
      · cases h
  · intro h
    cases h with
    | push live => simp [step, live]
    | pushStale stale => simp [step, stale]
    | swap => rfl
    | emit waiting => simp [step, waiting]
    | close up below => simp only [step]; rw [if_pos ⟨up, below⟩]

-- ---------------------------------------------------------------------------
-- Every item is in one place
-- ---------------------------------------------------------------------------

def Conserves (l : Ledger α) : Prop :=
  (l.emitted.map Prod.fst ++ (l.waiting ++ (l.queue ++ l.discarded))).Perm l.pushed

theorem step_conserves (hl : Conserves l) (h : step gen l op = some k) : Conserves k := by
  unfold Conserves at hl ⊢
  cases step_iff.mp h with
  | @push a live =>
    refine .trans ?_ (.append_right [a] hl)
    simp only [List.append_assoc]
    exact .append_left _ (.append_left _ (.append_left _ List.perm_append_comm))
  | @pushStale a stale =>
    refine .trans ?_ (.append_right [a] hl)
    simp only [List.append_assoc, List.Perm.refl]
  | swap =>
    refine .trans (.append_left _ ?_) hl
    simp only [List.nil_append, ← List.append_assoc]
    exact .append_right _ List.perm_append_comm
  | emit waiting => simpa [waiting] using hl
  | close up below =>
    refine .trans (.append_left _ (.append_left _ ?_)) hl
    rw [List.nil_append]
    exact List.perm_append_comm

/-- The bar is between what is queued and what is discarded. -/
structure Barred (gen : α → Nat) (l : Ledger α) : Prop where
  queue : ∀ a ∈ l.queue, l.bar ≤ gen a
  discarded : ∀ a ∈ l.discarded, gen a < l.bar

theorem step_barred (hl : Barred gen l) (h : step gen l op = some k) : Barred gen k := by
  obtain ⟨hqueue, hdiscarded⟩ := hl
  cases step_iff.mp h with
  | push live => exact ⟨by simpa [or_imp, forall_and, live] using hqueue, hdiscarded⟩
  | pushStale stale => exact ⟨hqueue, by simpa [or_imp, forall_and, stale] using hdiscarded⟩
  | swap => exact ⟨by simp, hdiscarded⟩
  | emit => exact ⟨hqueue, hdiscarded⟩
  | close up below =>
    refine ⟨by simp, fun a ha => ?_⟩
    rcases List.mem_append.mp ha with ha | ha
    · exact Nat.lt_of_lt_of_le (hdiscarded a ha) up
    · exact below a ha

-- ---------------------------------------------------------------------------
-- Closed generations
-- ---------------------------------------------------------------------------

def NoneWaiting (l : Ledger α) (op : Op α) : Prop := ∀ bar, op = .close bar → l.waiting = []

/-- Nothing of a closed generation waits, or was emitted. -/
structure Isolated (gen : α → Nat) (l : Ledger α) : Prop where
  barred : Barred gen l
  waiting : ∀ a ∈ l.waiting, l.bar ≤ gen a
  emitted : ∀ p ∈ l.emitted, p.2 ≤ gen p.1

theorem step_isolated (hl : Isolated gen l) (hg : NoneWaiting l op) (h : step gen l op = some k) :
    Isolated gen k := by
  have hbarred := step_barred hl.barred h
  obtain ⟨⟨hqueue, -⟩, hwaiting, hemitted⟩ := hl
  cases step_iff.mp h with
  | push | pushStale => exact ⟨hbarred, hwaiting, hemitted⟩
  | swap =>
    refine ⟨hbarred, fun a ha => ?_, hemitted⟩
    rcases List.mem_append.mp ha with ha | ha
    · exact hqueue a ha
    · exact hwaiting a ha
  | @emit a rest heq =>
    rw [heq] at hwaiting
    refine ⟨hbarred, fun b hb => hwaiting b (List.mem_cons_of_mem _ hb), fun p hp => ?_⟩
    rcases List.mem_append.mp hp with hp | hp
    · exact hemitted p hp
    · rw [List.mem_singleton.mp hp]
      exact hwaiting a (by simp)
  | close => exact ⟨hbarred, by simp [hg _ rfl], hemitted⟩

-- ---------------------------------------------------------------------------
-- The order of a generation
-- ---------------------------------------------------------------------------

def ofGen (gen : α → Nat) (g : Nat) (items : List α) : List α := items.filter (gen · = g)

@[simp] theorem ofGen_append : ofGen gen g (a ++ b) = ofGen gen g a ++ ofGen gen g b :=
  List.filter_append ..

theorem ofGen_eq_nil_iff : ofGen gen g items = [] ↔ ∀ a ∈ items, gen a ≠ g := by
  simp [ofGen, List.filter_eq_nil_iff]

/-- A drainer does not take items of a generation of which some wait. -/
def TakesInTurn (gen : α → Nat) (l : Ledger α) (op : Op α) : Prop :=
  op = .swap → ∀ a ∈ l.waiting, ∀ b ∈ l.queue, gen a ≠ gen b

def line (l : Ledger α) : List α := l.emitted.map Prod.fst ++ (l.waiting ++ l.queue)

/-- The line of a generation is the order of its pushes, whole while the
generation is not closed. -/
structure InOrder (gen : α → Nat) (l : Ledger α) : Prop where
  order : ∀ g, ofGen gen g l.line <+: ofGen gen g l.pushed
  current : ∀ g, l.bar ≤ g → ofGen gen g l.line = ofGen gen g l.pushed

theorem InOrder.emitted (hl : InOrder gen l) (g : Nat) :
    ofGen gen g (l.emitted.map Prod.fst) <+: ofGen gen g l.pushed := by
  have h := hl.order g
  rw [line, ofGen_append] at h
  exact (List.prefix_append _ _).trans h

/-- A drainer that takes items of a generation of which some wait emits them out
of order. -/
theorem InOrder.out_of_turn (hl : InOrder gen l) (hdisjoint : ∀ a ∈ l.waiting, a ∉ l.queue)
    (ha : a ∈ l.waiting) (hb : b ∈ l.queue) (hgen : gen a = gen b) :
    ¬ ofGen gen (gen b) (l.emitted.map Prod.fst ++ l.queue) <+: ofGen gen (gen b) l.pushed := by
  intro h
  have hline := hl.order (gen b)
  rw [line] at hline
  simp only [ofGen_append] at h hline
  -- the first that waits and the first that is taken would be at the same place
  obtain ⟨x, xs, hx⟩ := List.exists_cons_of_ne_nil
    (fun hnil => ofGen_eq_nil_iff.mp hnil a ha hgen : ofGen gen (gen b) l.waiting ≠ [])
  obtain ⟨y, ys, hy⟩ := List.exists_cons_of_ne_nil
    (fun hnil => ofGen_eq_nil_iff.mp hnil b hb rfl : ofGen gen (gen b) l.queue ≠ [])
  have hxw : x ∈ l.waiting := (List.mem_filter.mp (hx ▸ List.mem_cons_self)).1
  have hyq : y ∈ l.queue := (List.mem_filter.mp (hy ▸ List.mem_cons_self)).1
  obtain ⟨rest, hrest⟩ := hline
  rw [← hrest, hx, hy, List.append_assoc, List.prefix_append_right_inj] at h
  have hxy : y = x := (List.cons_prefix_cons.mp h).1
  exact hdisjoint x hxw (hxy ▸ hyq)

/-- Whether the drainer's items come before or after those that wait makes no
difference to any generation. -/
theorem ofGen_swap (hg : TakesInTurn gen l .swap) (g : Nat) :
    ofGen gen g (l.queue ++ l.waiting) = ofGen gen g (l.waiting ++ l.queue) := by
  rw [ofGen_append, ofGen_append]
  by_cases hq : ofGen gen g l.queue = []
  · simp [hq]
  · -- something is taken, so nothing of the generation waits
    have hw : ofGen gen g l.waiting = [] := by
      refine ofGen_eq_nil_iff.mpr fun a ha hgen => hq (ofGen_eq_nil_iff.mpr fun b hb => ?_)
      exact hgen ▸ (hg rfl a ha b hb).symm
    simp [hw]

theorem step_inOrder (hl : InOrder gen l) (hg : TakesInTurn gen l op)
    (h : step gen l op = some k) : InOrder gen k := by
  obtain ⟨horder, hcurrent⟩ := hl
  cases step_iff.mp h with
  | @push a live =>
    have hline : line { l with pushed := l.pushed ++ [a], queue := l.queue ++ [a] } =
        l.line ++ [a] := by simp [line]
    refine ⟨fun g => ?_, fun g hbar => ?_⟩
    · simp only [hline, ofGen_append]
      by_cases hga : gen a = g
      · -- the generation is not closed, so its line is whole
        exact hcurrent g (hga ▸ live) ▸ List.prefix_refl _
      · have hnone : ofGen gen g [a] = [] := by simp [ofGen, hga]
        simpa only [hnone, List.append_nil] using horder g
    · simp only [hline, ofGen_append, hcurrent g hbar]
  | @pushStale a stale =>
    refine ⟨fun g => ?_, fun g hbar => ?_⟩
    · rw [ofGen_append]
      exact (horder g).trans (List.prefix_append _ _)
    · have hnone : ofGen gen g [a] = [] := by
        simp only at hbar
        simp only [ofGen_eq_nil_iff, List.mem_singleton, forall_eq]
        omega
      rw [ofGen_append, hnone, List.append_nil]
      exact hcurrent g hbar
  | swap =>
    have hline : ∀ g, ofGen gen g (line { l with waiting := l.queue ++ l.waiting, queue := [] }) =
        ofGen gen g l.line := by
      intro g
      simp only [line, List.append_nil]
      rw [ofGen_append, ofGen_swap hg, ← ofGen_append]
    exact ⟨fun g => hline g ▸ horder g, fun g hbar => (hline g).trans (hcurrent g hbar)⟩
  | @emit a rest heq =>
    have hline : line { l with waiting := rest, emitted := l.emitted ++ [(a, l.bar)] } = l.line := by
      simp [line, heq]
    exact ⟨fun g => hline ▸ horder g, fun g hbar => hline ▸ hcurrent g hbar⟩
  | @close n up below =>
    have hline : l.line =
        line { l with queue := [], discarded := l.discarded ++ l.queue, bar := n } ++ l.queue := by
      simp [line]
    refine ⟨fun g => ?_, fun g hbar => ?_⟩
    · have := horder g
      rw [hline, ofGen_append] at this
      exact (List.prefix_append _ _).trans this
    · simp only at hbar
      have hnone : ofGen gen g l.queue = [] :=
        ofGen_eq_nil_iff.mpr fun a ha => by have := below a ha; omega
      have := hcurrent g (Nat.le_trans up hbar)
      rwa [hline, ofGen_append, hnone, List.append_nil] at this

end Ledger
