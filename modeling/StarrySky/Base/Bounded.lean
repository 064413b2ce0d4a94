import Mathlib

/-! Values that are built up step by step within a capacity, by steps that fail when there is
no room for what they add. -/

namespace StarrySky.Base

universe u

class Bounded (α : Type u) where
  cap : α → ℕ
  size : α → ℕ

variable {α β : Type u} {γ : Type*} [Bounded α]
open Bounded

/-- A step that succeeded, and added at most `n` to `a`. -/
def Adds (n : ℕ) (a : α) (result : Option α) : Prop :=
  ∃ b, result = some b ∧ cap b = cap a ∧ size b ≤ size a + n

theorem Adds.mono {m n : ℕ} {a : α} {result : Option α} (h : Adds m a result) (hmn : m ≤ n) :
    Adds n a result := by
  obtain ⟨b, hb, hcap, hsize⟩ := h
  exact ⟨b, hb, hcap, hsize.trans (Nat.add_le_add_left hmn _)⟩

theorem adds_self (n : ℕ) (a : α) : Adds n a (some a) := ⟨a, rfl, rfl, Nat.le_add_right _ _⟩

theorem Adds.bind {P : Option β → Prop} {n : ℕ} {a : α} {result : Option α} {next : α → Option β}
    (h : Adds n a result)
    (hnext : ∀ b, cap b = cap a → size b ≤ size a + n → P (next b)) :
    P (result >>= next) := by
  obtain ⟨b, rfl, hcap, hsize⟩ := h
  exact hnext b hcap hsize

theorem Adds.trans {m n : ℕ} {a b : α} {result : Option α} (h : Adds n b result)
    (hcap : cap b = cap a) (hsize : size b ≤ size a + m) : Adds (m + n) a result := by
  obtain ⟨c, hc, hcapc, hsizec⟩ := h
  refine ⟨c, hc, hcapc.trans hcap, hsizec.trans ?_⟩
  rw [← Nat.add_assoc]
  exact Nat.add_le_add_right hsize n

theorem adds_foldlM {step : α → γ → Option α}
    (hstep : ∀ a x, size a + 1 < cap a → Adds 1 a (step a x)) {a : α} {xs : List γ}
    (hroom : size a + xs.length < cap a) : Adds xs.length a (xs.foldlM step a) := by
  induction xs generalizing a with
  | nil => exact adds_self 0 a
  | cons x xs ih =>
    rw [List.length_cons] at hroom
    rw [List.foldlM_cons, List.length_cons, Nat.add_comm]
    have hfirst : size a + 1 < cap a := by omega
    apply (hstep a x hfirst).bind
    intro b hcap hsize
    have hrest : size b + xs.length < cap b := by
      rw [hcap]
      omega
    exact (ih hrest).trans hcap hsize

end StarrySky.Base
