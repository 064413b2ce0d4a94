import Mathlib

/-! Frames in a stream: each one is a run of items other than the delimiter,
closed by the delimiter. A stream of whole frames cuts back into them in one way. -/

namespace StarrySky.Base

universe u
variable {α : Type u}

/-- Items other than `d`, then `d`. -/
def IsFrame (d : α) (frame : List α) : Prop := ∃ body, frame = body ++ [d] ∧ d ∉ body

theorem IsFrame.ne_nil {d : α} {frame : List α} (h : IsFrame d frame) : frame ≠ [] := by
  obtain ⟨body, rfl, _⟩ := h
  simp

theorem IsFrame.length_pos {d : α} {frame : List α} (h : IsFrame d frame) : 0 < frame.length :=
  List.length_pos_of_ne_nil h.ne_nil

theorem IsFrame.drop {d : α} {frame : List α} (h : IsFrame d frame) {n : ℕ}
    (hn : n < frame.length) : IsFrame d (frame.drop n) := by
  obtain ⟨body, rfl, hbody⟩ := h
  refine ⟨body.drop n, ?_, fun hmem => hbody (List.mem_of_mem_drop hmem)⟩
  simp only [List.length_append, List.length_singleton] at hn
  rw [List.drop_append_of_le_length (by omega)]

theorem IsFrame.notMem_take {d : α} {frame : List α} (h : IsFrame d frame) {n : ℕ}
    (hn : n < frame.length) : d ∉ frame.take n := by
  obtain ⟨body, rfl, hbody⟩ := h
  simp only [List.length_append, List.length_singleton] at hn
  rw [List.take_append_of_le_length (by omega)]
  exact fun hmem => hbody (List.mem_of_mem_take hmem)

variable [DecidableEq α]

/-- The length of the first frame of a stream: one more than the index of the first delimiter. -/
def firstFrameLen (d : α) (stream : List α) : Option ℕ :=
  (stream.findIdx? (· == d)).map (· + 1)

theorem firstFrameLen_frame {d : α} {frame : List α} (h : IsFrame d frame) (rest : List α) :
    firstFrameLen d (frame ++ rest) = some frame.length := by
  obtain ⟨body, rfl, hbody⟩ := h
  have hfalse : ∀ x ∈ body, (x == d) = false := by
    intro x hx
    simp only [beq_eq_false_iff_ne]
    rintro rfl
    exact hbody hx
  simp [firstFrameLen, List.findIdx?_append, List.findIdx?_eq_none_iff.mpr hfalse,
    List.findIdx?_cons]

theorem firstFrameLen_eq_none {d : α} {stream : List α} (h : d ∉ stream) :
    firstFrameLen d stream = none := by
  rw [firstFrameLen, Option.map_eq_none_iff, List.findIdx?_eq_none_iff]
  intro x hx
  simp only [beq_eq_false_iff_ne]
  rintro rfl
  exact h hx

/-- Cut a stream after each delimiter: the whole frames, and what follows the last one. -/
def cutFrames (d : α) : List α → List (List α) × List α
  | [] => ([], [])
  | x :: xs =>
    if x = d then ([d] :: (cutFrames d xs).1, (cutFrames d xs).2)
    else
      match cutFrames d xs with
      | ([], rest) => ([], x :: rest)
      | (frame :: frames, rest) => ((x :: frame) :: frames, rest)

theorem cutFrames_of_notMem {d : α} {rest : List α} (h : d ∉ rest) :
    cutFrames d rest = ([], rest) := by
  induction rest with
  | nil => rfl
  | cons x xs ih =>
    simp only [List.mem_cons, not_or] at h
    rw [cutFrames, if_neg (fun hx => h.1 hx.symm), ih h.2]

theorem cutFrames_frame {d : α} {frame : List α} (h : IsFrame d frame) (stream : List α) :
    cutFrames d (frame ++ stream) = (frame :: (cutFrames d stream).1, (cutFrames d stream).2) := by
  obtain ⟨body, rfl, hbody⟩ := h
  induction body with
  | nil => simp [cutFrames]
  | cons x xs ih =>
    simp only [List.mem_cons, not_or] at hbody
    have hx : x ≠ d := fun hx => hbody.1 hx.symm
    simp only [List.cons_append, cutFrames, if_neg hx, ih hbody.2]

theorem cutFrames_flatten {d : α} {frames : List (List α)} (h : ∀ f ∈ frames, IsFrame d f)
    {rest : List α} (hrest : d ∉ rest) :
    cutFrames d (frames.flatten ++ rest) = (frames, rest) := by
  induction frames with
  | nil => exact cutFrames_of_notMem hrest
  | cons frame frames ih =>
    rw [List.flatten_cons, List.append_assoc, cutFrames_frame (h frame (by simp)),
      ih fun f hf => h f (by simp [hf])]

theorem cutFrames_append (d : α) (xs ys : List α) :
    cutFrames d (xs ++ ys) =
      ((cutFrames d xs).1 ++ (cutFrames d ((cutFrames d xs).2 ++ ys)).1,
        (cutFrames d ((cutFrames d xs).2 ++ ys)).2) := by
  induction xs with
  | nil => rfl
  | cons x xs ih =>
    rw [List.cons_append, cutFrames, cutFrames, ih]
    split_ifs with hx
    · rfl
    · cases hcut : cutFrames d xs with
      | mk frames rest =>
        cases frames with
        | nil => simp only [List.nil_append, List.cons_append, cutFrames, if_neg hx]
        | cons frame frames => rfl

end StarrySky.Base
