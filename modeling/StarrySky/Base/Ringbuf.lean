import Mathlib

/-! Bounded first-in first-out buffers: the bytes a ring buffer holds, oldest
first. A buffer never holds more than its capacity, which the structure carries. -/

namespace StarrySky.Base

universe u
variable {α : Type u}

structure Ringbuf (α : Type u) where
  cap : ℕ
  items : List α
  length_le : items.length ≤ cap
deriving DecidableEq

namespace Ringbuf

def init (cap : ℕ) : Ringbuf α := ⟨cap, [], Nat.zero_le cap⟩

def len (rb : Ringbuf α) : ℕ := rb.items.length

def free (rb : Ringbuf α) : ℕ := rb.cap - rb.len

/-- Append the longest prefix of `src` that fits; the first component counts it. -/
def write (rb : Ringbuf α) (src : List α) : ℕ × Ringbuf α :=
  (min src.length rb.free,
    { cap := rb.cap
      items := rb.items ++ src.take rb.free
      length_le := by
        have := rb.length_le
        simp only [List.length_append, List.length_take, free, len]
        omega })

/-- Append one item, unless the buffer is full. -/
def push (rb : Ringbuf α) (item : α) : Bool × Ringbuf α :=
  ((rb.write [item]).1 = 1, (rb.write [item]).2)

/-- Remove and return the `maxLen` oldest items, or all of them. -/
def read (rb : Ringbuf α) (maxLen : ℕ) : List α × Ringbuf α :=
  (rb.items.take maxLen,
    { cap := rb.cap
      items := rb.items.drop maxLen
      length_le := by
        have := rb.length_le
        simp only [List.length_drop]
        omega })

/-- Remove and return the oldest item, if there is one. -/
def pop (rb : Ringbuf α) : Option α × Ringbuf α := (rb.items.head?, (rb.read 1).2)

def peek (rb : Ringbuf α) (offset : ℕ) : Option α := rb.items[offset]?

def drop (rb : Ringbuf α) (count : ℕ) : Ringbuf α := (rb.read count).2

/-- Keep the `keep` oldest items and forget the rest. -/
def truncate (rb : Ringbuf α) (keep : ℕ) : Ringbuf α :=
  { cap := rb.cap
    items := rb.items.take keep
    length_le := by
      have := rb.length_le
      simp only [List.length_take]
      omega }

@[ext] theorem ext {a b : Ringbuf α} (hcap : a.cap = b.cap) (hitems : a.items = b.items) :
    a = b := by
  cases a
  cases b
  simp_all

@[simp] theorem cap_init (cap : ℕ) : (init cap : Ringbuf α).cap = cap := rfl
@[simp] theorem items_init (cap : ℕ) : (init cap : Ringbuf α).items = [] := rfl
@[simp] theorem cap_write (rb : Ringbuf α) (src : List α) : (rb.write src).2.cap = rb.cap := rfl
@[simp] theorem items_read (rb : Ringbuf α) (n : ℕ) : (rb.read n).2.items = rb.items.drop n := rfl
@[simp] theorem fst_read (rb : Ringbuf α) (n : ℕ) : (rb.read n).1 = rb.items.take n := rfl
@[simp] theorem cap_read (rb : Ringbuf α) (n : ℕ) : (rb.read n).2.cap = rb.cap := rfl
@[simp] theorem items_drop (rb : Ringbuf α) (n : ℕ) : (rb.drop n).items = rb.items.drop n := rfl
@[simp] theorem cap_drop (rb : Ringbuf α) (n : ℕ) : (rb.drop n).cap = rb.cap := rfl
@[simp] theorem items_truncate (rb : Ringbuf α) (n : ℕ) :
    (rb.truncate n).items = rb.items.take n := rfl
@[simp] theorem cap_truncate (rb : Ringbuf α) (n : ℕ) : (rb.truncate n).cap = rb.cap := rfl
@[simp] theorem len_init (cap : ℕ) : (init cap : Ringbuf α).len = 0 := rfl
@[simp] theorem free_init (cap : ℕ) : (init cap : Ringbuf α).free = cap := rfl

theorem len_add_free (rb : Ringbuf α) : rb.len + rb.free = rb.cap := by
  have := rb.length_le
  simp only [free, len]
  omega

theorem write_of_le {rb : Ringbuf α} {src : List α} (h : src.length ≤ rb.free) :
    (rb.write src).1 = src.length ∧ (rb.write src).2.items = rb.items ++ src := by
  simp [write, h, List.take_of_length_le h]

theorem free_write_of_le {rb : Ringbuf α} {src : List α} (h : src.length ≤ rb.free) :
    (rb.write src).2.free + src.length = rb.free := by
  have hw := (write_of_le h).2
  have := rb.length_le
  simp only [free, len, hw, cap_write, List.length_append] at h ⊢
  omega

theorem read_zero (rb : Ringbuf α) : rb.read 0 = ([], rb) := by
  simp [read]

theorem read_succ (rb : Ringbuf α) (maxLen : ℕ) :
    rb.read (maxLen + 1) =
      match rb.pop.1 with
      | none => ([], rb.pop.2)
      | some item => (item :: (rb.pop.2.read maxLen).1, (rb.pop.2.read maxLen).2) := by
  obtain ⟨cap, items, hle⟩ := rb
  cases items with
  | nil => rfl
  | cons item items => rfl

theorem free_read (rb : Ringbuf α) (n : ℕ) : rb.free ≤ (rb.read n).2.free := by
  simp only [free, len, cap_read, items_read, List.length_drop]
  omega

theorem write_nil (rb : Ringbuf α) : rb.write [] = (0, rb) := by
  simp [write]

theorem write_of_free_eq_zero {rb : Ringbuf α} (h : rb.free = 0) (src : List α) :
    rb.write src = (0, rb) := by
  simp [write, h]

theorem write_cons {rb : Ringbuf α} (h : 0 < rb.free) (item : α) (src : List α) :
    rb.write (item :: src) =
      (((rb.write [item]).2.write src).1 + 1, ((rb.write [item]).2.write src).2) := by
  have hitem : [item].length ≤ rb.free := h
  have hitems : (rb.write [item]).2.items = rb.items ++ [item] := (write_of_le hitem).2
  have hfree : (rb.write [item]).2.free + 1 = rb.free := free_write_of_le hitem
  apply Prod.ext
  · show min (src.length + 1) rb.free = min src.length (rb.write [item]).2.free + 1
    omega
  · apply ext
    · rfl
    · show rb.items ++ (item :: src).take rb.free =
        (rb.write [item]).2.items ++ src.take (rb.write [item]).2.free
      rw [hitems, ← hfree, List.take_succ_cons, List.append_assoc, List.singleton_append]

theorem push_of_pos {rb : Ringbuf α} (h : 0 < rb.free) (item : α) :
    rb.push item = (true, (rb.write [item]).2) := by
  have hcount : (rb.write [item]).1 = 1 := (write_of_le (show [item].length ≤ rb.free from h)).1
  rw [push, hcount]
  rfl

theorem push_of_free_eq_zero {rb : Ringbuf α} (h : rb.free = 0) (item : α) :
    rb.push item = (false, rb) := by
  rw [push, write_of_free_eq_zero h]
  rfl

end Ringbuf

end StarrySky.Base
