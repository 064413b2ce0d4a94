import Mathlib

/-! Memory accesses that check their bounds: a function written with them fails exactly
when the code would read or write outside a buffer. -/

namespace StarrySky.Base

universe u
variable {α : Type u}

inductive OutOfBounds
  | read
  | write
deriving DecidableEq

abbrev Checked (α : Type u) := Except OutOfBounds α

def loadAt (buf : List α) (i : ℕ) : Checked α :=
  match buf[i]? with
  | none => .error .read
  | some x => .ok x

def load (buf : List α) (start len : ℕ) : Checked (List α) :=
  if start + len ≤ buf.length then .ok ((buf.drop start).take len) else .error .read

/-- Write behind what a buffer of `cap` items holds. -/
def store (cap : ℕ) (dst items : List α) : Checked (List α) :=
  if dst.length + items.length ≤ cap then .ok (dst ++ items) else .error .write

theorem loadAt_of_lt {buf : List α} {i : ℕ} (h : i < buf.length) : loadAt buf i = .ok buf[i] := by
  rw [loadAt, List.getElem?_eq_getElem h]

theorem load_of_le {buf : List α} {start len : ℕ} (h : start + len ≤ buf.length) :
    load buf start len = .ok ((buf.drop start).take len) := if_pos h

theorem store_of_le {cap : ℕ} {dst items : List α} (h : dst.length + items.length ≤ cap) :
    store cap dst items = .ok (dst ++ items) := if_pos h

/-- Whether one of `n` items from index `i` on is `x`; the search ends at the first. -/
def searchFrom [DecidableEq α] (x : α) (buf : List α) (i : ℕ) : ℕ → Checked Bool
  | 0 => .ok false
  | n + 1 =>
    (loadAt buf i).bind fun item =>
      if item = x then .ok true else searchFrom x buf (i + 1) n

theorem searchFrom_eq [DecidableEq α] (x : α) {buf : List α} {i n : ℕ} (h : i + n ≤ buf.length) :
    searchFrom x buf i n = .ok (decide (x ∈ (buf.drop i).take n)) := by
  induction n generalizing i with
  | zero => simp [searchFrom]
  | succ n ih =>
    have hi : i < buf.length := by omega
    have hdrop : buf.drop i = buf[i] :: buf.drop (i + 1) := List.drop_eq_getElem_cons hi
    rw [searchFrom, loadAt_of_lt hi, hdrop, List.take_succ_cons]
    show (if buf[i] = x then Except.ok true else searchFrom x buf (i + 1) n) = _
    by_cases hx : buf[i] = x
    · rw [if_pos hx, hx]
      simp
    · rw [if_neg hx, ih (by omega)]
      have hne : x ≠ buf[i] := fun heq => hx heq.symm
      simp [hne]

end StarrySky.Base
