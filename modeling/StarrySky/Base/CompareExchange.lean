import Mathlib

/-! Threads that move one shared cell on with compare-and-exchange loops. A relaxed load may
return any value, an exchange compares with the newest one and may fail for no reason. -/

namespace StarrySky.Base

universe u v
variable {ι : Type u} {α : Type v}

/-- The cell, what each thread has loaded and not exchanged yet, and what the loops returned so
far, oldest first. -/
structure CasState (ι : Type u) (α : Type v) where
  cell : α
  loaded : ι → Option α
  returned : List (ι × α)

def CasState.init (start : α) : CasState ι α :=
  { cell := start, loaded := fun _ => none, returned := [] }

inductive CasEvent (ι : Type u) (α : Type v)
  | load (thread : ι) (value : α)
  | exchange (thread : ι) (spurious : Bool)

section
variable [DecidableEq ι] [DecidableEq α]

/-- One access of a thread whose loop replaces `v` by `next v` and returns `v`. -/
def casStep (next : α → α) (s : CasState ι α) : CasEvent ι α → CasState ι α
  | .load thread value =>
    match s.loaded thread with
    | none => { s with loaded := Function.update s.loaded thread (some value) }
    | some _ => s
  | .exchange thread spurious =>
    match s.loaded thread with
    | none => s
    | some value =>
      let loaded := Function.update s.loaded thread none
      if value = s.cell ∧ spurious = false then
        { cell := next value, loaded := loaded, returned := s.returned ++ [(thread, value)] }
      else { s with loaded := loaded }

def casRun (next : α → α) (s : CasState ι α) (events : List (CasEvent ι α)) : CasState ι α :=
  events.foldl (casStep next) s

end

/-- The values returned are the first of the cell's history, and the cell holds the next one. -/
def CasState.Follows (next : α → α) (start : α) (s : CasState ι α) : Prop :=
  s.returned.map Prod.snd = (List.range s.returned.length).map (fun k => next^[k] start) ∧
    s.cell = next^[s.returned.length] start

theorem follows_init (next : α → α) (start : α) :
    (CasState.init start : CasState ι α).Follows next start := ⟨rfl, rfl⟩

variable [DecidableEq ι] [DecidableEq α]

theorem CasState.Follows.step {next : α → α} {start : α} {s : CasState ι α}
    (h : s.Follows next start) (event : CasEvent ι α) :
    (casStep next s event).Follows next start := by
  cases event with
  | load thread value =>
    cases hloaded : s.loaded thread with
    | none =>
      simp only [casStep, hloaded]
      exact h
    | some held =>
      simp only [casStep, hloaded]
      exact h
  | exchange thread spurious =>
    cases hloaded : s.loaded thread with
    | none =>
      simp only [casStep, hloaded]
      exact h
    | some value =>
      simp only [casStep, hloaded]
      split_ifs with hswap
      · -- the exchange takes the newest value, whatever the load has seen
        obtain ⟨hreturned, hcell⟩ := h
        refine ⟨?_, ?_⟩
        · rw [List.map_append, hreturned, List.length_append, List.length_singleton,
            List.range_succ, List.map_append, List.map_singleton, List.map_singleton, hswap.1, hcell]
        · rw [List.length_append, List.length_singleton, Function.iterate_succ_apply', hswap.1,
            hcell]
      · exact h

theorem casRun_follows (next : α → α) (start : α) (events : List (CasEvent ι α)) :
    (casRun next (CasState.init start) events).Follows next start := by
  suffices hrun : ∀ s : CasState ι α, s.Follows next start →
      (casRun next s events).Follows next start from hrun _ (follows_init next start)
  induction events with
  | nil => exact fun _ h => h
  | cons event events ih => exact fun s h => ih _ (h.step event)

theorem casRun_returned (next : α → α) (start : α) (events : List (CasEvent ι α)) :
    let s := casRun next (CasState.init start : CasState ι α) events
    s.returned.map Prod.snd = (List.range s.returned.length).map (fun k => next^[k] start) :=
  (casRun_follows next start events).1

end StarrySky.Base
