import Mathlib

/-! Data made of blocks of one length: loops that store one block after the other in place,
and where the items of a block lie. -/

namespace StarrySky.Base

universe u v

section
variable {α : Type u} {block : ℕ → List α} {width n : ℕ}

theorem flatMap_range_succ (block : ℕ → List α) (n : ℕ) :
    (List.range (n + 1)).flatMap block = (List.range n).flatMap block ++ block n := by
  rw [List.range_succ, List.flatMap_append, List.flatMap_singleton]

theorem length_flatMap_range (hlength : ∀ i < n, (block i).length = width) :
    ((List.range n).flatMap block).length = n * width := by
  induction n with
  | zero => rw [List.range_zero, List.flatMap_nil, List.length_nil, Nat.zero_mul]
  | succ n ih =>
    rw [flatMap_range_succ, List.length_append, ih (fun i hi => hlength i (Nat.lt_succ_of_lt hi)),
      hlength n (Nat.lt_succ_self n), Nat.add_one_mul]

theorem getElem?_flatMap_range (hlength : ∀ i < n, (block i).length = width) {i j : ℕ}
    (hi : i < n) (hj : j < width) :
    ((List.range n).flatMap block)[i * width + j]? = (block i)[j]? := by
  induction n with
  | zero => exact absurd hi (Nat.not_lt_zero i)
  | succ n ih =>
    have hshorter : ∀ i < n, (block i).length = width := fun i hi =>
      hlength i (Nat.lt_succ_of_lt hi)
    have hfront : ((List.range n).flatMap block).length = n * width :=
      length_flatMap_range hshorter
    rw [flatMap_range_succ]
    rcases Nat.lt_succ_iff_lt_or_eq.mp hi with hlt | rfl
    · have hinside : i * width + j < n * width := by
        have hmul : (i + 1) * width ≤ n * width := Nat.mul_le_mul_right width hlt
        rw [Nat.add_one_mul] at hmul
        omega
      rw [List.getElem?_append_left (hinside.trans_eq hfront.symm), ih hshorter hlt]
    · rw [List.getElem?_append_right (by omega), hfront, Nat.add_sub_cancel_left]

theorem flatMap_range_const (items : List α) (n : ℕ) :
    (List.range n).flatMap (fun _ => items) = (List.replicate n items).flatten := by
  rw [List.flatMap_def, List.map_const', List.length_range]

end

section
variable {α : Type u} {m : Type u → Type v} [Monad m] [LawfulMonad m]
  {f : List α → ℕ → m (List α)} {block : ℕ → List α} {start width n : ℕ}

/-- A step stores block `i` of `width` items behind the `i` blocks before it. -/
def StoresBlock (f : List α → ℕ → m (List α)) (block : ℕ → List α) (start width i : ℕ) : Prop :=
  ∀ done rest : List α, done.length = start + i * width → width ≤ rest.length →
    f (done ++ rest) i = pure (done ++ block i ++ rest.drop width)

theorem foldlM_storesBlock (hlength : ∀ i < n, (block i).length = width)
    (hstep : ∀ i < n, StoresBlock f block start width i) {done rest : List α}
    (hdone : done.length = start) (hrest : n * width ≤ rest.length) :
    (List.range n).foldlM f (done ++ rest) =
      pure (done ++ (List.range n).flatMap block ++ rest.drop (n * width)) := by
  induction n with
  | zero => simp
  | succ n ih =>
    rw [Nat.add_one_mul] at hrest ⊢
    have hshorter : ∀ i < n, (block i).length = width := fun i hi =>
      hlength i (Nat.lt_succ_of_lt hi)
    have hfront : (done ++ (List.range n).flatMap block).length = start + n * width := by
      rw [List.length_append, hdone, length_flatMap_range hshorter]
    have hroom : width ≤ (rest.drop (n * width)).length := by
      rw [List.length_drop]
      omega
    rw [List.range_succ, List.foldlM_append,
      ih hshorter (fun i hi => hstep i (Nat.lt_succ_of_lt hi)) (by omega), pure_bind,
      List.foldlM_cons, hstep n (Nat.lt_succ_self n) _ _ hfront hroom, pure_bind, List.foldlM_nil,
      ← List.range_succ, flatMap_range_succ, List.drop_drop, List.append_assoc done]

end

end StarrySky.Base
