import StarrySky.Base.CompareExchange

/-! The numbers of link resets, `next_reset_seq` of `bridge/src/serial_io.rs`: an atomic counter
that any number of threads may call. -/

namespace StarrySky.Bridge
open StarrySky.Base

/-- The number that `next_reset_seq` stores in place of the one it returns. -/
def nextAfterResetSeq (current : UInt16) : UInt16 :=
  if current = 0xffff then 1 else current + 1

theorem iterate_nextAfterResetSeq (k : ℕ) :
    nextAfterResetSeq^[k] 1 = UInt16.ofNat (k % 65535 + 1) := by
  induction k with
  | zero => rfl
  | succ k ih =>
    have hlt := Nat.mod_lt k (show 0 < 65535 by decide)
    rw [Function.iterate_succ_apply', ih, nextAfterResetSeq]
    by_cases hlast : k % 65535 = 65534
    · have hnext : (k + 1) % 65535 = 0 := by omega
      rw [hlast, hnext]
      rfl
    · have hnext : (k + 1) % 65535 = k % 65535 + 1 := by omega
      have hne : UInt16.ofNat (k % 65535 + 1) ≠ 0xffff := by
        intro heq
        have := congrArg UInt16.toNat heq
        rw [UInt16.toNat_ofNat_of_lt' (Nat.succ_lt_succ hlt)] at this
        exact hlast (Nat.succ.inj this)
      rw [if_neg hne, hnext]
      exact (UInt16.ofNat_add _ 1).symm

theorem iterate_nextAfterResetSeq_toNat (k : ℕ) :
    (nextAfterResetSeq^[k] 1).toNat = k % 65535 + 1 := by
  have hlt := Nat.mod_lt k (show 0 < 65535 by decide)
  rw [iterate_nextAfterResetSeq, UInt16.toNat_ofNat_of_lt' (Nat.succ_lt_succ hlt)]

universe u
variable {ι : Type u} [DecidableEq ι]

/-- Any number of threads, in any order of their loads and exchanges. -/
def resetSeqRun (events : List (CasEvent ι UInt16)) : CasState ι UInt16 :=
  casRun nextAfterResetSeq (CasState.init 1) events

/-- However the threads are interleaved, the calls return 1, 2, ..., 65535, 1, ... in the order
in which they exchange: no call returns zero, and 65535 calls in a row all differ. -/
theorem resetSeqRun_distinct (events : List (CasEvent ι UInt16)) :
    let seqs := (resetSeqRun events).returned.map Prod.snd
    seqs = (List.range seqs.length).map (fun k => UInt16.ofNat (k % 65535 + 1)) ∧
    0 ∉ seqs ∧
    ∀ i, ((seqs.drop i).take 65535).Nodup := by
  intro seqs
  have hseqs : seqs = (List.range seqs.length).map (fun k => UInt16.ofNat (k % 65535 + 1)) := by
    have hreturned := casRun_returned nextAfterResetSeq 1 events
    have hlength : seqs.length = (resetSeqRun events).returned.length := List.length_map _
    rw [hlength]
    refine hreturned.trans (List.map_congr_left fun k _ => ?_)
    exact iterate_nextAfterResetSeq k
  have hvalue : ∀ k : ℕ, (UInt16.ofNat (k % 65535 + 1)).toNat = k % 65535 + 1 := by
    intro k
    rw [← iterate_nextAfterResetSeq, iterate_nextAfterResetSeq_toNat]
  refine ⟨hseqs, ?_, ?_⟩
  · rw [hseqs]
    intro hmem
    obtain ⟨k, _, hzero⟩ := List.mem_map.mp hmem
    have := hvalue k
    rw [hzero] at this
    cases this
  · intro i
    have hwindow : ∃ n ≤ 65535, (seqs.drop i).take 65535 =
        (List.range' i n).map (fun k => UInt16.ofNat (k % 65535 + 1)) := by
      rw [hseqs, List.range_eq_range', ← List.map_drop, List.drop_range', ← List.map_take,
        Nat.zero_add, Nat.mul_one]
      rcases le_total (seqs.length - i) 65535 with hle | hge
      · exact ⟨_, hle, by rw [List.take_range'_of_length_le hle]⟩
      · exact ⟨_, le_rfl, by rw [List.take_range'_of_length_ge hge]⟩
    obtain ⟨n, hn, hwindow⟩ := hwindow
    rw [hwindow]
    apply List.Nodup.map_on _ List.nodup_range'
    intro x hx y hy heq
    have hmod := congrArg UInt16.toNat heq
    rw [hvalue, hvalue] at hmod
    rw [List.mem_range'_1] at hx hy
    omega

end StarrySky.Bridge
