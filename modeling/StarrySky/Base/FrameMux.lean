import Mathlib

/-! Several queues of frames that share one line. One frame at a time is on the
line, a queue may have to wait for another, and frames that have not started may
be forgotten. What is on the line is whole frames and a part of one more, and
each queue's frames go out in the order they came. -/

namespace StarrySky.Base

universe u v
variable {Q : Type u} {α : Type v}

/-- The frame on the line is kept as its queue, the part sent and the part to send. -/
structure Mux (Q : Type u) (α : Type v) where
  queued : Q → List (List α)
  waiting : Q → List (List α)
  sent : List (Q × List α)
  current : Option (Q × List α × List α)

namespace Mux

def init : Mux Q α := ⟨fun _ => [], fun _ => [], [], none⟩

def output (m : Mux Q α) : List α :=
  (m.sent.map Prod.snd).flatten ++ (m.current.elim [] fun c => c.2.1)

/-- The frames put on the line, the current one whole. -/
def line (m : Mux Q α) : List (Q × List α) :=
  m.sent ++ (m.current.elim [] fun c => [(c.1, c.2.1 ++ c.2.2)])

/-- What is still to come of the frame on the line. -/
def unsent (m : Mux Q α) : List α := m.current.elim [] fun c => c.2.2

theorem output_append_unsent (m : Mux Q α) :
    m.output ++ m.unsent = (m.line.map Prod.snd).flatten := by
  cases h : m.current <;> simp [output, unsent, line, h]

variable [DecidableEq Q]

def enqueue (m : Mux Q α) (q : Q) (frame : List α) : Mux Q α :=
  { m with
    queued := Function.update m.queued q (m.queued q ++ [frame])
    waiting := Function.update m.waiting q (m.waiting q ++ [frame]) }

def forget (m : Mux Q α) (q : Q) : Mux Q α :=
  { m with waiting := Function.update m.waiting q [] }

def sentOf (m : Mux Q α) (q : Q) : List (List α) :=
  (m.sent.filter (·.1 = q)).map Prod.snd

def currentOf (m : Mux Q α) (q : Q) : List (List α) :=
  m.current.elim [] fun c => if c.1 = q then [c.2.1 ++ c.2.2] else []

/-- The frames of a queue that were not forgotten. -/
def framesOf (m : Mux Q α) (q : Q) : List (List α) :=
  m.sentOf q ++ m.currentOf q ++ m.waiting q

/-- The part of the frame on the line that its queue still holds. -/
def tailOf (m : Mux Q α) (q : Q) : List α :=
  m.current.elim [] fun c => if c.1 = q then c.2.2 else []

/-- Only frames that satisfy `P q` are queued on `q`; `before p q` says that no frame of
`q` starts while one of `p` waits. -/
inductive Step (P : Q → List α → Prop) (before : Q → Q → Prop) : Mux Q α → Mux Q α → Prop
  | enqueue (m : Mux Q α) (q : Q) (frame : List α) (hframe : P q frame) :
      Step P before m (m.enqueue q frame)
  | forget (m : Mux Q α) (q : Q) : Step P before m (m.forget q)
  | start (m : Mux Q α) (q : Q) (frame : List α) (rest : List (List α))
      (hidle : m.current = none) (hwaiting : m.waiting q = frame :: rest)
      (hfirst : ∀ p, before p q → m.waiting p = []) :
      Step P before m
        { m with current := some (q, [], frame), waiting := Function.update m.waiting q rest }
  | emit (m : Mux Q α) (q : Q) (part now later : List α)
      (hcurrent : m.current = some (q, part, now ++ later)) :
      Step P before m { m with current := some (q, part ++ now, later) }
  | finish (m : Mux Q α) (q : Q) (part : List α) (hcurrent : m.current = some (q, part, [])) :
      Step P before m { m with current := none, sent := m.sent ++ [(q, part)] }

theorem framesOf_eq (m : Mux Q α) (q : Q) :
    m.framesOf q = (m.line.filter (·.1 = q)).map Prod.snd ++ m.waiting q := by
  cases h : m.current with
  | none => simp [framesOf, sentOf, currentOf, line, h]
  | some c =>
    by_cases hc : c.1 = q <;> simp [framesOf, sentOf, currentOf, line, h, hc]

/-- Each queue's surviving frames are among those queued, in the same order, and all
satisfy its `P`. -/
structure Sound (P : Q → List α → Prop) (m : Mux Q α) : Prop where
  inOrder : ∀ q, (m.framesOf q).Sublist (m.queued q)
  queued : ∀ q, ∀ frame ∈ m.queued q, P q frame

variable {P : Q → List α → Prop} {before : Q → Q → Prop} {m m' : Mux Q α}

theorem sound_init (P : Q → List α → Prop) : (init : Mux Q α).Sound P :=
  ⟨fun _ => List.Sublist.refl _, fun _ _ h => absurd h List.not_mem_nil⟩

theorem framesOf_enqueue (m : Mux Q α) (q p : Q) (frame : List α) :
    (m.enqueue q frame).framesOf p = m.framesOf p ++ if p = q then [frame] else [] := by
  by_cases hq : p = q
  · subst hq
    simp [framesOf, sentOf, currentOf, enqueue]
  · simp [framesOf, sentOf, currentOf, enqueue, hq]

theorem queued_enqueue (m : Mux Q α) (q p : Q) (frame : List α) :
    (m.enqueue q frame).queued p = m.queued p ++ if p = q then [frame] else [] := by
  by_cases hq : p = q
  · subst hq
    simp [enqueue]
  · simp [enqueue, hq]

/-- A step other than a new frame moves frames on or forgets them. -/
theorem Step.framesOf_sublist (step : Step P before m m') :
    (∃ q frame, P q frame ∧ m' = m.enqueue q frame) ∨
      m'.queued = m.queued ∧ ∀ p, (m'.framesOf p).Sublist (m.framesOf p) := by
  cases step with
  | enqueue q frame hframe => exact .inl ⟨q, frame, hframe, rfl⟩
  | forget q =>
    refine .inr ⟨rfl, fun p => ?_⟩
    by_cases hq : p = q
    · subst hq
      simp [framesOf, sentOf, currentOf, Mux.forget]
    · simp [framesOf, sentOf, currentOf, Mux.forget, hq]
  | start q frame rest hidle hwaiting hfirst =>
    refine .inr ⟨rfl, fun p => ?_⟩
    by_cases hq : p = q
    · subst hq
      simp [framesOf, sentOf, currentOf, hidle, hwaiting]
    · simp [framesOf, sentOf, currentOf, hidle, hq, Ne.symm hq]
  | emit q part now later hcurrent =>
    exact .inr ⟨rfl, fun p => by simp [framesOf, sentOf, currentOf, hcurrent]⟩
  | finish q part hcurrent =>
    refine .inr ⟨rfl, fun p => ?_⟩
    by_cases hq : q = p
    · subst hq
      simp [framesOf, sentOf, currentOf, hcurrent]
    · simp [framesOf, sentOf, currentOf, hcurrent, hq]

theorem Sound.step (h : m.Sound P) (step : Step P before m m') : m'.Sound P := by
  rcases step.framesOf_sublist with ⟨q, frame, hframe, rfl⟩ | ⟨hqueued, hframes⟩
  · refine ⟨fun p => ?_, fun p f hf => ?_⟩
    · rw [framesOf_enqueue, queued_enqueue]
      exact (h.inOrder p).append (List.Sublist.refl _)
    · rw [queued_enqueue, List.mem_append] at hf
      rcases hf with hf | hf
      · exact h.queued p f hf
      · split_ifs at hf
        · rename_i hp
          rwa [hp, List.mem_singleton.mp hf]
        · exact absurd hf List.not_mem_nil
  · exact ⟨fun p => hqueued ▸ (hframes p).trans (h.inOrder p), hqueued ▸ h.queued⟩

theorem sound_of_run (run : Relation.ReflTransGen (Step P before) init m) : m.Sound P := by
  induction run with
  | refl => exact sound_init P
  | tail _ step ih => exact ih.step step

theorem Sound.framesOf (h : m.Sound P) (q : Q) : ∀ frame ∈ m.framesOf q, P q frame :=
  fun frame hframe => h.queued q frame ((h.inOrder q).subset hframe)

theorem Sound.waiting (h : m.Sound P) (q : Q) : ∀ frame ∈ m.waiting q, P q frame :=
  fun frame hframe => h.framesOf q frame (List.mem_append_right _ hframe)

theorem Sound.current (h : m.Sound P) {q : Q} {part tail : List α}
    (hcurrent : m.current = some (q, part, tail)) : P q (part ++ tail) :=
  h.framesOf q _ (by simp [Mux.framesOf, currentOf, hcurrent])

theorem Sound.sent (h : m.Sound P) : ∀ c ∈ m.sent, P c.1 c.2 := by
  intro c hc
  refine h.framesOf c.1 c.2 ?_
  simp only [Mux.framesOf, sentOf, List.append_assoc, List.mem_append]
  exact .inl (List.mem_map.mpr ⟨c, by simp [hc], rfl⟩)

end Mux

end StarrySky.Base
