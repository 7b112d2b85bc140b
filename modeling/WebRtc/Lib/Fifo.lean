import WebRtc.Lib.Machine

/-!
# A first-in first-out buffer

What a queue is for, as a machine: it keeps all it was given (`inputs`) and
all it gave back (`outputs`). On every run nothing is lost, duplicated or
reordered (`run_conserves`).
-/

namespace Fifo

variable {α : Type*}

structure State (α : Type*) where
  inputs : List α
  outputs : List α
  contents : List α

def empty : State α := ⟨[], [], []⟩

inductive Op (α : Type*)
  | put (a : α)
  | take

def step (s : State α) : Op α → Option (State α)
  | .put a => some ⟨s.inputs ++ [a], s.outputs, s.contents ++ [a]⟩
  | .take => match s.contents with
    | [] => none
    | a :: rest => some ⟨s.inputs, s.outputs ++ [a], rest⟩

def Conserves (s : State α) : Prop := s.outputs ++ s.contents = s.inputs

theorem step_conserves (hs : Conserves s) (h : step s op = some t) : Conserves t := by
  obtain ⟨ins, outs, contents⟩ := s
  simp only [Conserves] at hs
  cases op with
  | put a =>
    simp only [step, Option.some.injEq] at h
    subst h
    simp [Conserves, ← hs]
  | take =>
    cases contents with
    | nil => simp [step] at h
    | cons a rest =>
      simp only [step, Option.some.injEq] at h
      subst h
      simpa [Conserves] using hs

theorem run_conserves (h : Machine.run step (empty : State α) ops = some t) : Conserves t :=
  Machine.run_invariant step_conserves h rfl

end Fifo
