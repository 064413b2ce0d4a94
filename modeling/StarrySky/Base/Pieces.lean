import Mathlib

/-! Segments in a stream: any part of the stream is whole segments and a start of the next. -/

namespace StarrySky.Base

universe u
variable {α : Type u}

/-- What is there of segments none of which is complete. -/
def StartsWith (rest : List α) (segments : List (List α)) : Prop :=
  rest = [] ∧ segments = [] ∨
    ∃ segment later, segments = segment :: later ∧ rest <+: segment ∧ rest ≠ segment

theorem startsWith_nil {segments : List (List α)} (h : [] ∉ segments) :
    StartsWith [] segments := by
  cases segments with
  | nil => exact .inl ⟨rfl, rfl⟩
  | cons segment segments =>
    exact .inr ⟨segment, segments, rfl, List.nil_prefix, fun heq => h (heq ▸ List.mem_cons_self)⟩

theorem exists_split_flatten {segments : List (List α)} {part : List α}
    (h : part <+: segments.flatten) :
    ∃ done later rest, segments = done ++ later ∧ part = done.flatten ++ rest ∧
      StartsWith rest later := by
  induction segments generalizing part with
  | nil => exact ⟨[], [], part, rfl, rfl, .inl ⟨List.prefix_nil.mp h, rfl⟩⟩
  | cons segment segments ih =>
    rw [List.flatten_cons] at h
    by_cases hshort : part.length < segment.length
    · have hpart : part <+: segment :=
        List.prefix_of_prefix_length_le h (List.prefix_append _ _) (Nat.le_of_lt hshort)
      refine ⟨[], segment :: segments, part, rfl, rfl, .inr ⟨segment, segments, rfl, hpart, ?_⟩⟩
      intro heq
      rw [heq] at hshort
      exact Nat.lt_irrefl _ hshort
    · obtain ⟨tail, rfl⟩ : segment <+: part :=
        List.prefix_of_prefix_length_le (List.prefix_append _ _) h (Nat.le_of_not_lt hshort)
      obtain ⟨done, later, rest, rfl, rfl, hrest⟩ := ih ((List.prefix_append_right_inj _).mp h)
      refine ⟨segment :: done, later, rest, rfl, ?_, hrest⟩
      rw [List.flatten_cons, List.append_assoc]

theorem StartsWith.eq_nil {rest : List α} {segments : List (List α)} (h : StartsWith rest segments)
    (heq : rest = segments.flatten) : rest = [] ∧ segments = [] := by
  rcases h with h | ⟨segment, later, rfl, hpre, hne⟩
  · exact h
  · have hlen : rest.length = segment.length + later.flatten.length := by
      rw [heq, List.flatten_cons, List.length_append]
    have hle := hpre.length_le
    exact absurd (hpre.eq_of_length (by omega)) hne

end StarrySky.Base
