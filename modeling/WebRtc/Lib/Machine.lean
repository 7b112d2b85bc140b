import Mathlib.Data.List.Induction

/-!
# Machines with a partial step function

A machine is a function `step : σ → α → Option σ`: the events `α` are what a
scheduler may choose, `none` is an event that is not enabled. A run is a list
of events. Interleavings of threads are lists of events, so a theorem about
every run is a theorem about every interleaving.

`Guarded` restricts a run by a condition on each of its steps, a measure that
every step brings down bounds the length of a run, and `Simulation` carries
runs of one machine, with their guards, to runs of another.
-/

namespace Machine

variable {σ τ α β : Type*}

/-- Take the events in order; `none` if one of them is not enabled. -/
def run (step : σ → α → Option σ) : σ → List α → Option σ
  | s, [] => some s
  | s, e :: es => (step s e).bind fun s' => run step s' es

variable {step : σ → α → Option σ}

@[simp] theorem run_nil : run step s [] = some t ↔ s = t := by simp [run]

theorem run_cons : run step s (e :: es) = some t ↔
    ∃ m, step s e = some m ∧ run step m es = some t := by
  simp [run, Option.bind_eq_some_iff]

@[simp] theorem run_singleton : run step s [e] = step s e := by
  cases h : step s e <;> simp [run, h]

theorem run_append : run step s (es ++ fs) = some t ↔
    ∃ m, run step s es = some m ∧ run step m fs = some t := by
  induction es generalizing s with
  | nil => simp
  | cons e es ih =>
    simp only [List.cons_append, run_cons, ih]
    constructor
    · rintro ⟨m, he, n, hes, hfs⟩; exact ⟨n, ⟨m, he, hes⟩, hfs⟩
    · rintro ⟨n, ⟨m, he, hes⟩, hfs⟩; exact ⟨m, he, n, hes, hfs⟩

theorem run_snoc : run step s (es ++ [e]) = some t ↔
    ∃ m, run step s es = some m ∧ step m e = some t := by
  simp [run_append]

/-- Induction on a run from its last event backwards, with the events taken
so far at hand. -/
theorem run_induction {P : List α → σ → Prop} (start : P [] s)
    (next : ∀ {es m e t}, run step s es = some m → P es m → step m e = some t → P (es ++ [e]) t)
    (h : run step s es = some t) : P es t := by
  induction es using List.reverseRecOn generalizing t with
  | nil => simp only [run_nil] at h; exact h ▸ start
  | append_singleton es e ih =>
    obtain ⟨m, hm, he⟩ := run_snoc.mp h
    exact next hm (ih hm) he

theorem run_invariant {I : σ → Prop} (hstep : ∀ {s e t}, I s → step s e = some t → I t)
    (h : run step s es = some t) (hs : I s) : I t :=
  run_induction (P := fun _ t => I t) hs (fun _ hm he => hstep hm he) h

-- ---------------------------------------------------------------------------
-- Guarded runs
-- ---------------------------------------------------------------------------

/-- Every step of the run meets `G` in the state it is taken from. -/
def Guarded (step : σ → α → Option σ) (G : σ → α → Prop) : σ → List α → Prop
  | _, [] => True
  | s, e :: es => G s e ∧ ∀ m, step s e = some m → Guarded step G m es

variable {G : σ → α → Prop}

@[simp] theorem guarded_nil : Guarded step G s [] := trivial

/-- The guards of a run can be checked along it. -/
instance decidableGuarded [∀ s e, Decidable (G s e)] : ∀ s es, Decidable (Guarded step G s es)
  | _, [] => isTrue trivial
  | s, e :: es => match h : step s e with
    | none => decidable_of_iff (G s e) (by simp [Guarded, h])
    | some m =>
      have := decidableGuarded m es
      decidable_of_iff (G s e ∧ Guarded step G m es) (by simp [Guarded, h])

theorem guarded_append (h : run step s es = some m) :
    Guarded step G s (es ++ fs) ↔ Guarded step G s es ∧ Guarded step G m fs := by
  induction es generalizing s with
  | nil => simp only [run_nil] at h; subst h; simp
  | cons e es ih =>
    obtain ⟨k, hk, hrest⟩ := run_cons.mp h
    simp only [List.cons_append, Guarded, hk, Option.some.injEq, forall_eq', ih hrest]
    tauto

theorem guarded_snoc (h : run step s es = some m) :
    Guarded step G s (es ++ [e]) ↔ Guarded step G s es ∧ G m e := by
  rw [guarded_append h]
  simp [Guarded]

theorem Guarded.invariant {I : σ → Prop}
    (hstep : ∀ {s e t}, I s → G s e → step s e = some t → I t)
    (hg : Guarded step G s es) (h : run step s es = some t) (hs : I s) : I t := by
  have := run_induction (P := fun es t => Guarded step G s es → I t) (fun _ => hs)
    (fun hm ih he hg => by
      have hg := (guarded_snoc hm).mp hg
      exact hstep (ih hg.1) hg.2 he) h
  exact this hg

theorem guarded_true (s : σ) (es : List α) : Guarded step (fun _ _ => True) s es := by
  induction es generalizing s with
  | nil => exact trivial
  | cons e es ih => exact ⟨trivial, fun m _ => ih m⟩

-- ---------------------------------------------------------------------------
-- Measures
-- ---------------------------------------------------------------------------

/-- A run whose steps bring the measure down is no longer than the measure it
starts from. -/
theorem Guarded.length_le_measure {I : σ → Prop} {μ : σ → Nat}
    (hstep : ∀ {s e t}, I s → G s e → step s e = some t → I t ∧ μ t < μ s)
    (hg : Guarded step G s es) (h : run step s es = some t) (hs : I s) :
    I t ∧ es.length + μ t ≤ μ s := by
  refine run_induction (P := fun es t => Guarded step G s es → I t ∧ es.length + μ t ≤ μ s)
    (fun _ => ⟨hs, by simp⟩) ?_ h hg
  intro es m e t hm ih he hg
  obtain ⟨hg, hlast⟩ := (guarded_snoc hm).mp hg
  obtain ⟨hm, hle⟩ := ih hg
  obtain ⟨ht, hlt⟩ := hstep hm hlast he
  refine ⟨ht, ?_⟩
  rw [List.length_append, List.length_singleton]
  omega

theorem guarded_of_forall {A : α → Prop} (hA : ∀ e ∈ es, A e) (s : σ) :
    Guarded step (fun _ => A) s es := by
  induction es generalizing s with
  | nil => trivial
  | cons e es ih =>
    exact ⟨hA e List.mem_cons_self, fun m _ => ih (fun e' he' => hA e' (List.mem_cons_of_mem _ he')) m⟩

theorem length_le_measure {A : α → Prop} {I : σ → Prop} {μ : σ → Nat}
    (hstep : ∀ {s e t}, I s → A e → step s e = some t → I t ∧ μ t < μ s)
    (h : run step s es = some t) (hs : I s) (hA : ∀ e ∈ es, A e) :
    I t ∧ es.length + μ t ≤ μ s :=
  Guarded.length_le_measure hstep (guarded_of_forall hA s) h hs

-- ---------------------------------------------------------------------------
-- Simulation
-- ---------------------------------------------------------------------------

/-- Under the invariant `I`, each step of the concrete machine is a run,
possibly empty, of the abstract one between the abstracted states; a step that
meets the guard `G` is a run that meets `G'`. -/
structure Simulation (step : σ → α → Option σ) (G : σ → α → Prop) (spec : τ → β → Option τ)
    (G' : τ → β → Prop) (abs : σ → τ) (I : σ → Prop) : Prop where
  inv : ∀ {s e t}, I s → step s e = some t → I t
  sim : ∀ {s e t}, I s → step s e = some t →
    ∃ ops, run spec (abs s) ops = some (abs t) ∧ (G s e → Guarded spec G' (abs s) ops)

/-- A simulation carries every run to a run of the abstract machine, and every
guarded run to a guarded one. -/
theorem Simulation.run {spec : τ → β → Option τ} {G' : τ → β → Prop} {abs : σ → τ} {I : σ → Prop}
    (hsim : Simulation step G spec G' abs I) (h : run step s es = some t) (hs : I s) :
    ∃ ops, Machine.run spec (abs s) ops = some (abs t) ∧
      (Guarded step G s es → Guarded spec G' (abs s) ops) := by
  have := run_induction (P := fun es t => I t ∧ ∃ ops, Machine.run spec (abs s) ops = some (abs t) ∧
      (Guarded step G s es → Guarded spec G' (abs s) ops))
    ⟨hs, [], by simp, fun _ => trivial⟩ (fun hm ih he => by
      obtain ⟨him, ops, hops, hguard⟩ := ih
      obtain ⟨more, hmore, hmoreguard⟩ := hsim.sim him he
      refine ⟨hsim.inv him he, ops ++ more, run_append.mpr ⟨_, hops, hmore⟩, fun hg => ?_⟩
      obtain ⟨hg, hge⟩ := (guarded_snoc hm).mp hg
      exact (guarded_append hops).mpr ⟨hguard hg, hmoreguard hge⟩) h
  exact this.2

end Machine
