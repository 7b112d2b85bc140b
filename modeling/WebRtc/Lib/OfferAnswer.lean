import WebRtc.Lib.Machine
import Mathlib.Data.Multiset.AddSub

/-!
# An offer and its answer

One end makes offers and the other one answers them, over a network that may
lose what is sent and keeps no order. The offering end makes an offer only when
it is stable, and is stable again when it takes an answer. An offer that is
taken is answered at once, unless the answer is refused.

Whenever the offering end is stable, nothing is on its way and each end has
what the other one made; and as long as nothing was lost or refused, something
is on its way whenever it is not.
-/

/-- Where an end stands: `pending` are the states in which it owes an answer. -/
inductive Standing
  | stable | offering | pending
  deriving DecidableEq, Repr

structure End (δ : Type*) where
  standing : Standing := .stable
  mine : Option δ := none
  theirs : Option δ := none

structure OfferAnswer (δ : Type*) where
  offerer : End δ := {}
  answerer : End δ := {}
  /-- On their way to the other end. -/
  offers : Multiset δ := 0
  answers : Multiset δ := 0
  failed : Bool := false

namespace OfferAnswer

variable {δ : Type*}

-- ---------------------------------------------------------------------------
-- How far an exchange has come
-- ---------------------------------------------------------------------------

inductive Phase (s : OfferAnswer δ) : Prop
  | rest (stable : s.offerer.standing = .stable) (stable' : s.answerer.standing = .stable)
      (offers : s.offers = 0) (answers : s.answers = 0) (agreed : s.offerer.mine = s.answerer.theirs)
      (agreed' : s.offerer.theirs = s.answerer.mine)
  | offered (d : δ) (offering : s.offerer.standing = .offering) (mine : s.offerer.mine = some d)
      (offers : s.offers = {d}) (answers : s.answers = 0)
  | answered (answer : δ) (offering : s.offerer.standing = .offering)
      (stable' : s.answerer.standing = .stable) (offers : s.offers = 0) (answers : s.answers = {answer})
      (agreed : s.offerer.mine = s.answerer.theirs) (mine' : s.answerer.mine = some answer)
  | stuck (offering : s.offerer.standing = .offering) (offers : s.offers = 0) (answers : s.answers = 0)
      (failed : s.failed = true)

theorem initial_phase : Phase ({} : OfferAnswer δ) := .rest rfl rfl rfl rfl rfl rfl

theorem Phase.offered_of_mem {s : OfferAnswer δ} (hs : Phase s) (h : d ∈ s.offers) :
    s.offerer.standing = .offering ∧ s.offerer.mine = some d ∧ s.offers = {d} ∧ s.answers = 0 := by
  cases hs with
  | rest _ _ offers | answered _ _ _ offers | stuck _ offers =>
    rw [offers] at h
    exact absurd h (Multiset.notMem_zero d)
  | offered e offering mine offers answers =>
    rw [offers, Multiset.mem_singleton] at h
    subst h
    exact ⟨offering, mine, offers, answers⟩

theorem Phase.answered_of_mem {s : OfferAnswer δ} (hs : Phase s) (h : answer ∈ s.answers) :
    s.offerer.standing = .offering ∧ s.answerer.standing = .stable ∧ s.offers = 0 ∧
      s.answers = {answer} ∧ s.offerer.mine = s.answerer.theirs ∧ s.answerer.mine = some answer := by
  cases hs with
  | rest _ _ _ answers | offered _ _ _ _ answers | stuck _ _ answers =>
    rw [answers] at h
    exact absurd h (Multiset.notMem_zero answer)
  | answered e offering stable' offers answers agreed mine' =>
    rw [answers, Multiset.mem_singleton] at h
    subst h
    exact ⟨offering, stable', offers, answers, agreed, mine'⟩

theorem Phase.rest_of_stable {s : OfferAnswer δ} (hs : Phase s) (h : s.offerer.standing = .stable) :
    s.answerer.standing = .stable ∧ s.offers = 0 ∧ s.answers = 0 ∧
      s.offerer.mine = s.answerer.theirs ∧ s.offerer.theirs = s.answerer.mine := by
  cases hs with
  | rest _ stable' offers answers agreed agreed' =>
    exact ⟨stable', offers, answers, agreed, agreed'⟩
  | offered _ offering | answered _ offering | stuck offering =>
    rw [offering] at h
    cases h

/-- Nothing gets lost by itself. -/
theorem Phase.underway {s : OfferAnswer δ} (hs : Phase s) (hok : s.failed = false)
    (hunstable : s.offerer.standing ≠ .stable) : s.offers ≠ 0 ∨ s.answers ≠ 0 := by
  cases hs with
  | rest stable => exact absurd stable hunstable
  | offered d _ _ offers =>
    rw [offers]
    exact .inl (Multiset.singleton_ne_zero d)
  | answered answer _ _ _ answers =>
    rw [answers]
    exact .inr (Multiset.singleton_ne_zero answer)
  | stuck _ _ _ failed =>
    rw [failed] at hok
    cases hok

-- ---------------------------------------------------------------------------
-- Steps
-- ---------------------------------------------------------------------------

inductive Op (δ : Type*)
  | offer (d : δ)
  | accept (d answer : δ)
  /-- The offer is taken, and its answer refused. -/
  | refuse (d : δ) (mine : Option δ)
  | loseOffer (d : δ)
  | conclude (answer : δ)
  | loseAnswer (answer : δ)

variable [DecidableEq δ]

def step (s : OfferAnswer δ) : Op δ → Option (OfferAnswer δ)
  | .offer d =>
    if s.offerer.standing = .stable then
      some { s with
        offerer := { s.offerer with standing := .offering, mine := some d }
        offers := d ::ₘ s.offers }
    else none
  | .accept d answer =>
    if d ∈ s.offers then
      some { s with
        answerer := ⟨.stable, some answer, some d⟩
        offers := s.offers.erase d
        answers := answer ::ₘ s.answers }
    else none
  | .refuse d mine =>
    if d ∈ s.offers then
      some { s with
        answerer := ⟨.pending, mine, some d⟩
        offers := s.offers.erase d
        failed := true }
    else none
  | .loseOffer d =>
    if d ∈ s.offers then some { s with offers := s.offers.erase d, failed := true } else none
  | .conclude answer =>
    if answer ∈ s.answers then
      some { s with
        offerer := { s.offerer with standing := .stable, theirs := some answer }
        answers := s.answers.erase answer }
    else none
  | .loseAnswer answer =>
    if answer ∈ s.answers then
      some { s with answers := s.answers.erase answer, failed := true }
    else none

inductive Step (s : OfferAnswer δ) : Op δ → OfferAnswer δ → Prop
  | offer (stable : s.offerer.standing = .stable) : Step s (.offer d) { s with
      offerer := { s.offerer with standing := .offering, mine := some d }
      offers := d ::ₘ s.offers }
  | accept (sent : d ∈ s.offers) : Step s (.accept d answer) { s with
      answerer := ⟨.stable, some answer, some d⟩
      offers := s.offers.erase d
      answers := answer ::ₘ s.answers }
  | refuse (sent : d ∈ s.offers) : Step s (.refuse d mine) { s with
      answerer := ⟨.pending, mine, some d⟩
      offers := s.offers.erase d
      failed := true }
  | loseOffer (sent : d ∈ s.offers) :
      Step s (.loseOffer d) { s with offers := s.offers.erase d, failed := true }
  | conclude (sent : answer ∈ s.answers) : Step s (.conclude answer) { s with
      offerer := { s.offerer with standing := .stable, theirs := some answer }
      answers := s.answers.erase answer }
  | loseAnswer (sent : answer ∈ s.answers) :
      Step s (.loseAnswer answer) { s with answers := s.answers.erase answer, failed := true }

theorem step_cases {s t : OfferAnswer δ} (h : step s op = some t) : Step s op t := by
  cases op <;> simp only [step] at h <;> split at h <;> cases h <;> constructor <;> assumption

theorem step_phase {s t : OfferAnswer δ} (hs : Phase s) (h : step s op = some t) : Phase t := by
  cases step_cases h with
  | offer stable =>
    obtain ⟨-, hoffers, hanswers, -, -⟩ := hs.rest_of_stable stable
    exact .offered _ rfl rfl (by rw [hoffers]; rfl) hanswers
  | accept sent =>
    obtain ⟨hoffering, hmine, hoffers, hanswers⟩ := hs.offered_of_mem sent
    refine .answered _ hoffering rfl ?_ ?_ hmine rfl
    · rw [hoffers, Multiset.erase_singleton]
    · rw [hanswers]
      rfl
  | refuse sent | loseOffer sent =>
    obtain ⟨hoffering, -, hoffers, hanswers⟩ := hs.offered_of_mem sent
    exact .stuck hoffering (by rw [hoffers, Multiset.erase_singleton]) hanswers rfl
  | conclude sent =>
    obtain ⟨-, hstable, hoffers, hanswers, hagreed, hmine⟩ := hs.answered_of_mem sent
    exact .rest rfl hstable hoffers (by rw [hanswers, Multiset.erase_singleton]) hagreed hmine.symm
  | loseAnswer sent =>
    obtain ⟨hoffering, -, hoffers, hanswers, -, -⟩ := hs.answered_of_mem sent
    exact .stuck hoffering hoffers (by rw [hanswers, Multiset.erase_singleton]) rfl

theorem run_phase {s : OfferAnswer δ} (h : Machine.run step {} ops = some s) : Phase s :=
  Machine.run_invariant step_phase h initial_phase

end OfferAnswer
