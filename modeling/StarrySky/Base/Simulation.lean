import Mathlib

/-! Machines that answer operations, and simulations between them. -/

namespace StarrySky.Base

universe u v w x
variable {S : Type u} {T : Type v} {Op : Type w} {Reply : Type x}

/-- The replies to a sequence of operations and the state after it. -/
def runOps (step : S → Op → Reply × S) (s : S) : List Op → List Reply × S
  | [] => ([], s)
  | op :: ops =>
    let first := step s op
    let rest := runOps step first.2 ops
    (first.1 :: rest.1, rest.2)

/-- What every operation keeps is kept by a sequence of them. -/
theorem runOps_invariant {step : S → Op → Reply × S} {Inv : S → Prop}
    (hstep : ∀ s, Inv s → ∀ op, Inv (step s op).2) {s : S} (hs : Inv s) (ops : List Op) :
    Inv (runOps step s ops).2 := by
  induction ops generalizing s with
  | nil => exact hs
  | cons op ops ih => exact ih (hstep s hs op)

/-- Related states give one reply to an operation, and the states after it are related. -/
def Simulates (rel : S → T → Prop) (step : S → Op → Reply × S) (step' : T → Op → Reply × T) :
    Prop :=
  ∀ ⦃s t⦄, rel s t → ∀ op, (step s op).1 = (step' t op).1 ∧ rel (step s op).2 (step' t op).2

theorem Simulates.run {rel : S → T → Prop} {step : S → Op → Reply × S}
    {step' : T → Op → Reply × T} (h : Simulates rel step step') {s : S} {t : T} (hrel : rel s t)
    (ops : List Op) :
    (runOps step s ops).1 = (runOps step' t ops).1 ∧
      rel (runOps step s ops).2 (runOps step' t ops).2 := by
  induction ops generalizing s t with
  | nil => exact ⟨rfl, hrel⟩
  | cons op ops ih =>
    obtain ⟨hreply, hnext⟩ := h hrel op
    obtain ⟨hreplies, hlast⟩ := ih hnext
    exact ⟨congrArg₂ List.cons hreply hreplies, hlast⟩

end StarrySky.Base
