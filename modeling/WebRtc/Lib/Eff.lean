import Mathlib.Data.List.Basic

/-!
# Computations that change a state and may throw

`Eff ε σ α` runs from a state to a result or an exception and a state: what
was changed before a throw stays changed. `Sat` is the weakest precondition
with one postcondition for a return and one for a throw, `Keeps` a frame,
`Preserves` an invariant, and `Erases` relates a computation to one that works
on more state; their rules follow the shape of a program.
-/

def Eff (ε σ α : Type) : Type := σ → Except ε α × σ

namespace Eff

variable {ε σ α β : Type}

instance : Monad (Eff ε σ) where
  pure a := fun s => (.ok a, s)
  bind m f := fun s => match m s with
    | (.ok a, s') => f a s'
    | (.error e, s') => (.error e, s')

def throw (e : ε) : Eff ε σ α := fun s => (.error e, s)

def get : Eff ε σ σ := fun s => (.ok s, s)

def modify (f : σ → σ) : Eff ε σ Unit := fun s => (.ok (), f s)

/-- Run `m`; an exception goes to the handler, in the state it left. -/
def tryCatch (m : Eff ε σ α) (handler : ε → Eff ε σ α) : Eff ε σ α := fun s =>
  match m s with
  | (.ok a, s') => (.ok a, s')
  | (.error e, s') => handler e s'

/-- Run `m` from `s`: a return meets `Q`, a throw meets `E`. -/
def Sat (m : Eff ε σ α) (s : σ) (Q : α → σ → Prop) (E : ε → σ → Prop) : Prop :=
  match m s with
  | (.ok a, s') => Q a s'
  | (.error e, s') => E e s'

variable {m : Eff ε σ α} {f : α → Eff ε σ β} {Q : α → σ → Prop} {E : ε → σ → Prop}

theorem bind_apply (m : Eff ε σ α) (f : α → Eff ε σ β) (s : σ) : (m >>= f) s =
    match m s with
    | (.ok a, s') => f a s'
    | (.error e, s') => (.error e, s') := rfl

theorem pure_apply (a : α) (s : σ) : (pure a : Eff ε σ α) s = (.ok a, s) := rfl

instance : LawfulMonad (Eff ε σ) := .mk' _
  (fun m => funext fun s => by
    change (m >>= fun a => pure (id a)) s = m s
    rw [bind_apply]
    split <;> (rename_i h; exact h.symm))
  (fun _ _ => rfl)
  (fun m f g => funext fun s => by
    simp only [bind_apply]
    rcases m s with ⟨_ | a, t⟩ <;> rfl)

-- ---------------------------------------------------------------------------
-- Postconditions
-- ---------------------------------------------------------------------------

theorem Sat.pure (h : Q a s) : Sat (pure a : Eff ε σ α) s Q E := h

theorem Sat.get {Q : σ → σ → Prop} (h : Q s s) : Sat (get : Eff ε σ σ) s Q E := h

theorem Sat.modify {g : σ → σ} {Q : Unit → σ → Prop} (h : Q () (g s)) :
    Sat (modify g : Eff ε σ Unit) s Q E := h

theorem Sat.bind {R : β → σ → Prop} (hm : Sat m s Q E)
    (hf : ∀ a t, Q a t → Sat (f a) t R E) : Sat (m >>= f) s R E := by
  unfold Sat at hm ⊢
  rw [bind_apply]
  rcases h : m s with ⟨_ | a, t⟩ <;> rw [h] at hm
  · exact hm
  · exact hf a t hm

theorem Sat.tryCatch {handler : ε → Eff ε σ α} {F : ε → σ → Prop} (hm : Sat m s Q F)
    (hh : ∀ e t, F e t → Sat (handler e) t Q E) : Sat (tryCatch m handler) s Q E := by
  unfold Sat at hm ⊢
  unfold Eff.tryCatch
  rcases h : m s with ⟨e | _, t⟩ <;> rw [h] at hm
  · exact hh e t hm
  · exact hm

theorem Sat.imp {Q' : α → σ → Prop} {E' : ε → σ → Prop} (hm : Sat m s Q E)
    (hQ : ∀ a t, Q a t → Q' a t) (hE : ∀ e t, E e t → E' e t) : Sat m s Q' E' := by
  unfold Sat at hm ⊢
  rcases h : m s with ⟨e | a, t⟩ <;> rw [h] at hm
  · exact hE e t hm
  · exact hQ a t hm

theorem sat_always (P : σ → Prop) : Sat m s (fun _ => P) (fun _ => P) ↔ P (m s).2 := by
  unfold Sat
  rcases m s with ⟨_ | _, t⟩ <;> exact .rfl

/-- What holds at the end also holds with how it was reached. -/
theorem Sat.final (hm : Sat m s Q E) : Sat m s (fun a t => Q a t ∧ m s = (.ok a, t))
    fun e t => E e t ∧ m s = (.error e, t) := by
  unfold Sat at hm ⊢
  rcases h : m s with ⟨e | a, t⟩ <;> rw [h] at hm
  · exact ⟨hm, rfl⟩
  · exact ⟨hm, rfl⟩

theorem Sat.returns (hm : Sat m s Q fun _ _ => False) : ∃ a t, m s = (.ok a, t) ∧ Q a t := by
  unfold Sat at hm
  rcases h : m s with ⟨e | a, t⟩ <;> rw [h] at hm
  · exact hm.elim
  · exact ⟨a, t, rfl, hm⟩

-- ---------------------------------------------------------------------------
-- Frames
-- ---------------------------------------------------------------------------

/-- The computation leaves `v` of the state as it was, however it ends. -/
def Keeps (v : σ → β) (m : Eff ε σ α) : Prop := ∀ s, v (m s).2 = v s

theorem Keeps.pure {v : σ → β} (a : α) : Keeps v (pure a : Eff ε σ α) := fun _ => rfl

theorem Keeps.throw {v : σ → β} (e : ε) : Keeps v (throw e : Eff ε σ α) := fun _ => rfl

theorem Keeps.bind {γ : Type} {v : σ → γ} (hm : Keeps v m) (hf : ∀ a, Keeps v (f a)) :
    Keeps v (m >>= f) := by
  intro s
  have h := hm s
  rw [bind_apply]
  rcases hs : m s with ⟨e | a, t⟩ <;> rw [hs] at h
  · exact h
  · exact (hf a t).trans h

theorem Keeps.tryCatch {v : σ → β} {handler : ε → Eff ε σ α} (hm : Keeps v m)
    (hh : ∀ e, Keeps v (handler e)) : Keeps v (tryCatch m handler) := by
  intro s
  have h := hm s
  unfold Eff.tryCatch
  rcases hs : m s with ⟨e | a, t⟩ <;> rw [hs] at h
  · exact (hh e t).trans h
  · exact h

theorem Keeps.sat {v : σ → β} (hm : Keeps v m) (hs : v s = b) :
    Sat m s (fun _ t => v t = b) fun _ t => v t = b :=
  (sat_always fun t => v t = b).mpr ((hm s).trans hs)

-- ---------------------------------------------------------------------------
-- Invariants
-- ---------------------------------------------------------------------------

/-- What holds before the computation holds after it, however it ends. -/
def Preserves (I : σ → Prop) (m : Eff ε σ α) : Prop := ∀ s, I s → I (m s).2

variable {I : σ → Prop}

theorem Preserves.pure (a : α) : Preserves I (pure a : Eff ε σ α) := fun _ hs => hs

theorem Preserves.bind (hm : Preserves I m) (hf : ∀ a, Preserves I (f a)) : Preserves I (m >>= f) := by
  intro s hs
  have h := hm s hs
  rw [bind_apply]
  rcases hr : m s with ⟨e | a, t⟩ <;> rw [hr] at h
  · exact h
  · exact hf a t h

theorem Preserves.tryCatch {handler : ε → Eff ε σ α} (hm : Preserves I m)
    (hh : ∀ e, Preserves I (handler e)) : Preserves I (tryCatch m handler) := by
  intro s hs
  have h := hm s hs
  unfold Eff.tryCatch
  rcases hr : m s with ⟨e | a, t⟩ <;> rw [hr] at h
  · exact hh e t h
  · exact h

-- ---------------------------------------------------------------------------
-- Erasure
-- ---------------------------------------------------------------------------

variable {τ : Type} {v : τ → σ} {n : Eff ε τ α}

/-- `n` is `m` on a state of which `m` sees the part `v`. -/
def Erases (v : τ → σ) (n : Eff ε τ α) (m : Eff ε σ α) : Prop :=
  ∀ t, m (v t) = ((n t).1, v (n t).2)

theorem Erases.pure (a : α) : Erases v (pure a : Eff ε τ α) (pure a) := fun _ => rfl

theorem Erases.throw (e : ε) : Erases v (throw e : Eff ε τ α) (throw e) := fun _ => rfl

theorem Erases.bind {g : α → Eff ε τ β} (hm : Erases v n m) (hf : ∀ a, Erases v (g a) (f a)) :
    Erases v (n >>= g) (m >>= f) := by
  intro t
  rw [bind_apply, bind_apply, hm t]
  rcases n t with ⟨e | a, t'⟩
  · rfl
  · exact hf a t'

theorem Erases.tryCatch {handler : ε → Eff ε σ α} {handler' : ε → Eff ε τ α} (hm : Erases v n m)
    (hh : ∀ e, Erases v (handler' e) (handler e)) :
    Erases v (tryCatch n handler') (tryCatch m handler) := by
  intro t
  unfold Eff.tryCatch
  rw [hm t]
  rcases n t with ⟨e | a, t'⟩
  · exact hh e t'
  · rfl

end Eff
