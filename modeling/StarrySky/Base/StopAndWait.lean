import Mathlib

/-! Stop-and-wait transmission over two lossy first-in first-out channels. The
receiver has a bounded buffer and reports its free space with every
acknowledgement; a report may also come unasked. Reports are absolute, so one that
was made before the last delivery promises too much: what saves the receiver is that
the sender waits, and that the channels keep their order. -/

namespace StarrySky.Base

universe u
variable {α : Type u}

/-- `next` numbers the next payload and `expected` is the number the receiver waits
for; an outstanding payload has number `next - 1` and is still in `pending`. -/
structure StopAndWait (α : Type u) where
  next : ℕ
  outstanding : Option (List α)
  credit : ℕ
  pending : List α
  removed : List α
  expected : ℕ
  free : ℕ
  written : List α
  forward : List (ℕ × List α)
  backward : List (ℕ × ℕ)

namespace StopAndWait

def pushed (s : StopAndWait α) : List α := s.removed ++ s.pending

/-- The next payload is taken from the front of what is pending, within the credit. -/
inductive Step (maxLen : ℕ) : StopAndWait α → StopAndWait α → Prop
  | push (s : StopAndWait α) (data : List α) : Step maxLen s { s with pending := s.pending ++ data }
  | send (s : StopAndWait α) (payload : List α) (credit : ℕ) (hidle : s.outstanding = none)
      (hpre : payload <+: s.pending) (hne : payload ≠ []) (hcredit : payload.length ≤ s.credit)
      (hmax : payload.length ≤ maxLen) :
      Step maxLen s { s with
        outstanding := some payload, next := s.next + 1, credit := credit
        forward := s.forward ++ [(s.next, payload)] }
  | resend (s : StopAndWait α) (payload : List α) (houtstanding : s.outstanding = some payload) :
      Step maxLen s { s with forward := s.forward ++ [(s.next - 1, payload)] }
  | loseForward (s : StopAndWait α) (forward : List (ℕ × List α))
      (hsublist : forward.Sublist s.forward) : Step maxLen s { s with forward := forward }
  | loseBackward (s : StopAndWait α) (backward : List (ℕ × ℕ))
      (hsublist : backward.Sublist s.backward) : Step maxLen s { s with backward := backward }
  | duplicate (s : StopAndWait α) (x : ℕ × List α) (rest : List (ℕ × List α))
      (hforward : s.forward = x :: rest) (hseq : x.1 + 1 = s.expected) :
      Step maxLen s { s with forward := rest }
  | deliver (s : StopAndWait α) (x : ℕ × List α) (rest : List (ℕ × List α))
      (hforward : s.forward = x :: rest) (hseq : x.1 = s.expected) :
      Step maxLen s { s with
        forward := rest, expected := s.expected + 1, free := s.free - x.2.length
        written := s.written ++ x.2 }
  | report (s : StopAndWait α) (ack : ℕ) (hack : ack ≤ s.expected) :
      Step maxLen s { s with backward := s.backward ++ [(ack, s.free)] }
  | consume (s : StopAndWait α) (free : ℕ) (hfree : s.free ≤ free) :
      Step maxLen s { s with free := free }
  | acknowledge (s : StopAndWait α) (b : ℕ × ℕ) (rest : List (ℕ × ℕ)) (payload : List α)
      (hbackward : s.backward = b :: rest) (houtstanding : s.outstanding = some payload)
      (hack : b.1 = s.next) :
      Step maxLen s { s with
        backward := rest, credit := b.2, outstanding := none
        pending := s.pending.drop payload.length, removed := s.removed ++ payload }
  | credit (s : StopAndWait α) (b : ℕ × ℕ) (rest : List (ℕ × ℕ))
      (hbackward : s.backward = b :: rest) (hack : s.outstanding = none ∨ b.1 ≠ s.next) :
      Step maxLen s { s with backward := rest, credit := b.2 }

/-- The outstanding payload is on its way: every report still describes the buffer. -/
structure OnItsWay (s : StopAndWait α) (payload : List α) : Prop where
  next_eq : s.next = s.expected + 1
  written_eq : s.written = s.removed
  length_le : payload.length ≤ s.free
  backward_le : ∀ b ∈ s.backward, b.2 ≤ s.free

/-- The outstanding payload was delivered: the reports made before that are stale, and
none of them acknowledges it. -/
structure Delivered (s : StopAndWait α) (payload : List α) : Prop where
  next_eq : s.next = s.expected
  written_eq : s.written = s.removed ++ payload
  backward : ∃ stale fresh, s.backward = stale ++ fresh ∧ (∀ b ∈ stale, b.1 < s.expected) ∧
    ∀ b ∈ fresh, b.2 ≤ s.free

/-- Nothing is outstanding: the sender's credit fits, and so does every report. -/
structure Idle (s : StopAndWait α) : Prop where
  next_eq : s.next = s.expected
  written_eq : s.written = s.removed
  credit_le : s.credit ≤ s.free
  backward_le : ∀ b ∈ s.backward, b.2 ≤ s.free

/-- The forward channel holds copies of the last payload delivered, then copies of the
outstanding one while it is on its way. -/
structure Inv (maxLen : ℕ) (s : StopAndWait α) : Prop where
  forward : ∃ old current, s.forward = old ++ current ∧ (∀ x ∈ old, x.1 + 1 = s.expected) ∧
    ∀ x ∈ current, s.outstanding = some x.2 ∧ x.1 = s.expected ∧ s.next = s.expected + 1
  ack_le : ∀ b ∈ s.backward, b.1 ≤ s.expected
  idle : s.outstanding = none → Idle s
  waiting : ∀ payload, s.outstanding = some payload → OnItsWay s payload ∨ Delivered s payload
  payload : ∀ payload, s.outstanding = some payload →
    payload <+: s.pending ∧ payload ≠ [] ∧ payload.length ≤ maxLen ∧ 0 < s.next

variable {maxLen : ℕ} {s t : StopAndWait α}

theorem inv_of_idle (hforward : s.forward = [])
    (hbackward : ∀ b ∈ s.backward, b.1 ≤ s.expected ∧ b.2 ≤ s.free)
    (houtstanding : s.outstanding = none) (hnext : s.next = s.expected)
    (hwritten : s.written = s.removed) (hcredit : s.credit ≤ s.free) : Inv maxLen s where
  forward := ⟨[], [], by simp [hforward], by simp, by simp⟩
  ack_le b hb := (hbackward b hb).1
  idle _ := ⟨hnext, hwritten, hcredit, fun b hb => (hbackward b hb).2⟩
  waiting payload h := by simp [houtstanding] at h
  payload payload h := by simp [houtstanding] at h

/-- What is written is a prefix of what was pushed, and covers what was removed. -/
theorem Inv.written_isPrefix (h : Inv maxLen s) :
    s.written <+: s.pushed ∧ s.removed <+: s.written := by
  rw [pushed]
  cases houtstanding : s.outstanding with
  | none =>
    rw [(h.idle houtstanding).written_eq]
    exact ⟨List.prefix_append _ _, List.prefix_rfl⟩
  | some payload =>
    rcases h.waiting payload houtstanding with hway | hdelivered
    · rw [hway.written_eq]
      exact ⟨List.prefix_append _ _, List.prefix_rfl⟩
    · rw [hdelivered.written_eq]
      exact ⟨(List.prefix_append_right_inj _).mpr (h.payload payload houtstanding).1,
        List.prefix_append _ _⟩

theorem Inv.head_forward (h : Inv maxLen s) {x : ℕ × List α} {rest : List (ℕ × List α)}
    (hforward : s.forward = x :: rest) :
    x.1 + 1 = s.expected ∨
      x.1 = s.expected ∧ x.2 ≠ [] ∧ x.2.length ≤ maxLen ∧ x.2.length ≤ s.free := by
  obtain ⟨old, current, hsplit, hold, hcurrent⟩ := h.forward
  have hmem : x ∈ old ++ current := by simp [← hsplit, hforward]
  rcases List.mem_append.mp hmem with hx | hx
  · exact .inl (hold x hx)
  · obtain ⟨houtstanding, hseq, hnext⟩ := hcurrent x hx
    obtain ⟨_, hne, hlen, _⟩ := h.payload x.2 houtstanding
    rcases h.waiting x.2 houtstanding with hway | hdelivered
    · exact .inr ⟨hseq, hne, hlen, hway.length_le⟩
    · have := hdelivered.next_eq
      omega

theorem Inv.push (h : Inv maxLen s) (data : List α) :
    Inv maxLen { s with pending := s.pending ++ data } where
  forward := h.forward
  ack_le := h.ack_le
  idle hnone := ⟨(h.idle hnone).1, (h.idle hnone).2, (h.idle hnone).3, (h.idle hnone).4⟩
  waiting payload hsome := (h.waiting payload hsome).imp
    (fun hway => ⟨hway.1, hway.2, hway.3, hway.4⟩) (fun hdel => ⟨hdel.1, hdel.2, hdel.3⟩)
  payload payload hsome := by
    obtain ⟨hpre, hrest⟩ := h.payload payload hsome
    exact ⟨hpre.trans (List.prefix_append _ _), hrest⟩

theorem Inv.send (h : Inv maxLen s) {payload : List α} (credit : ℕ)
    (hidle : s.outstanding = none) (hpre : payload <+: s.pending) (hne : payload ≠ [])
    (hcredit : payload.length ≤ s.credit) (hmax : payload.length ≤ maxLen) :
    Inv maxLen { s with
      outstanding := some payload, next := s.next + 1, credit := credit
      forward := s.forward ++ [(s.next, payload)] } := by
  obtain ⟨hnext, hwritten, hfree, hbackward⟩ := h.idle hidle
  obtain ⟨old, current, hsplit, hold, hcurrent⟩ := h.forward
  -- nothing was outstanding, so every copy in flight is an old one
  have hnil : current = [] := by
    refine List.eq_nil_iff_forall_not_mem.mpr fun x hx => ?_
    simp [hidle] at hcurrent
    exact hcurrent _ _ hx
  refine ⟨⟨old, [(s.next, payload)], by simp [hsplit, hnil], hold, ?_⟩, h.ack_le, ?_, ?_, ?_⟩
  · simp [hnext]
  · simp
  · rintro p hp
    cases hp
    exact .inl ⟨by simp [hnext], hwritten, hcredit.trans hfree, hbackward⟩
  · rintro p hp
    cases hp
    exact ⟨hpre, hne, hmax, Nat.succ_pos _⟩

theorem Inv.resend (h : Inv maxLen s) {payload : List α}
    (houtstanding : s.outstanding = some payload) :
    Inv maxLen { s with forward := s.forward ++ [(s.next - 1, payload)] } := by
  obtain ⟨old, current, hsplit, hold, hcurrent⟩ := h.forward
  have hpos := (h.payload payload houtstanding).2.2.2
  refine ⟨?_, h.ack_le, fun hnone => ?_, fun p hp => ?_, h.payload⟩
  · rcases h.waiting payload houtstanding with hway | hdelivered
    · refine ⟨old, current ++ [(s.next - 1, payload)], by simp [hsplit], hold, fun x hx => ?_⟩
      rcases List.mem_append.mp hx with hx | hx
      · exact hcurrent x hx
      · have hnext := hway.next_eq
        rw [List.mem_singleton.mp hx]
        exact ⟨houtstanding, by simp [hnext], hnext⟩
    · -- a copy of a delivered payload is an old one
      have hnext := hdelivered.next_eq
      have hnil : current = [] := by
        refine List.eq_nil_iff_forall_not_mem.mpr fun x hx => ?_
        have := (hcurrent x hx).2.2
        omega
      refine ⟨old ++ [(s.next - 1, payload)], [], by simp [hsplit, hnil], fun x hx => ?_, by simp⟩
      rcases List.mem_append.mp hx with hx | hx
      · exact hold x hx
      · rw [List.mem_singleton.mp hx]
        show s.next - 1 + 1 = s.expected
        omega
  · exact absurd (houtstanding.symm.trans hnone) (by simp)
  · exact (h.waiting p hp).imp (fun hway => ⟨hway.1, hway.2, hway.3, hway.4⟩)
      (fun hdel => ⟨hdel.1, hdel.2, hdel.3⟩)

theorem Inv.loseForward (h : Inv maxLen s) {forward : List (ℕ × List α)}
    (hsublist : forward.Sublist s.forward) : Inv maxLen { s with forward := forward } := by
  obtain ⟨old, current, hsplit, hold, hcurrent⟩ := h.forward
  rw [hsplit] at hsublist
  obtain ⟨old', current', hsplit', hold', hcurrent'⟩ := List.sublist_append_iff.mp hsublist
  exact ⟨⟨old', current', hsplit', fun x hx => hold x (hold'.subset hx),
      fun x hx => hcurrent x (hcurrent'.subset hx)⟩, h.ack_le,
    fun hnone => ⟨(h.idle hnone).1, (h.idle hnone).2, (h.idle hnone).3, (h.idle hnone).4⟩,
    fun p hp => (h.waiting p hp).imp (fun hway => ⟨hway.1, hway.2, hway.3, hway.4⟩)
      (fun hdel => ⟨hdel.1, hdel.2, hdel.3⟩), h.payload⟩

theorem Inv.loseBackward (h : Inv maxLen s) {backward : List (ℕ × ℕ)}
    (hsublist : backward.Sublist s.backward) : Inv maxLen { s with backward := backward } where
  forward := h.forward
  ack_le b hb := h.ack_le b (hsublist.subset hb)
  idle hnone := ⟨(h.idle hnone).1, (h.idle hnone).2, (h.idle hnone).3,
    fun b hb => (h.idle hnone).4 b (hsublist.subset hb)⟩
  waiting p hp := by
    rcases h.waiting p hp with hway | hdelivered
    · exact .inl ⟨hway.1, hway.2, hway.3, fun b hb => hway.4 b (hsublist.subset hb)⟩
    · obtain ⟨stale, fresh, hsplit, hstale, hfresh⟩ := hdelivered.backward
      rw [hsplit] at hsublist
      obtain ⟨stale', fresh', hsplit', hstale', hfresh'⟩ := List.sublist_append_iff.mp hsublist
      exact .inr ⟨hdelivered.1, hdelivered.2, stale', fresh', hsplit',
        fun b hb => hstale b (hstale'.subset hb), fun b hb => hfresh b (hfresh'.subset hb)⟩
  payload := h.payload

theorem Inv.deliver (h : Inv maxLen s) {x : ℕ × List α} {rest : List (ℕ × List α)}
    (hforward : s.forward = x :: rest) (hseq : x.1 = s.expected) :
    Inv maxLen { s with
      forward := rest, expected := s.expected + 1, free := s.free - x.2.length
      written := s.written ++ x.2 } := by
  obtain ⟨old, current, hsplit, hold, hcurrent⟩ := h.forward
  -- the head is the payload awaited, so no old copy is before it
  have hnil : old = [] := by
    cases old with
    | nil => rfl
    | cons y old =>
      rw [hforward, List.cons_append, List.cons.injEq] at hsplit
      have := hold y List.mem_cons_self
      rw [← hsplit.1] at this
      omega
  rw [hnil, List.nil_append] at hsplit
  have hall : ∀ y ∈ x :: rest, s.outstanding = some y.2 ∧ y.1 = s.expected ∧
      s.next = s.expected + 1 := by
    rw [← hforward, hsplit]
    exact hcurrent
  obtain ⟨houtstanding, _, hnext⟩ := hall x List.mem_cons_self
  have hway : OnItsWay s x.2 := by
    rcases h.waiting x.2 houtstanding with hway | hdelivered
    · exact hway
    · have := hdelivered.next_eq
      omega
  refine ⟨⟨rest, [], by simp, fun y hy => ?_, by simp⟩, fun b hb => ?_, fun hnone => ?_,
    fun p hp => ?_, h.payload⟩
  · show y.1 + 1 = s.expected + 1
    rw [(hall y (List.mem_cons_of_mem _ hy)).2.1]
  · exact Nat.le_succ_of_le (h.ack_le b hb)
  · exact absurd (houtstanding.symm.trans hnone) (by simp)
  · have hp' : x.2 = p := Option.some.inj (houtstanding.symm.trans hp)
    subst hp'
    refine .inr ⟨hnext, by simp [hway.written_eq], s.backward, [], by simp, fun b hb => ?_, by simp⟩
    exact Nat.lt_succ_of_le (h.ack_le b hb)

theorem Inv.duplicate (h : Inv maxLen s) {x : ℕ × List α} {rest : List (ℕ × List α)}
    (hforward : s.forward = x :: rest) : Inv maxLen { s with forward := rest } :=
  h.loseForward (by simp [hforward])

theorem Inv.report (h : Inv maxLen s) {ack : ℕ} (hack : ack ≤ s.expected) :
    Inv maxLen { s with backward := s.backward ++ [(ack, s.free)] } := by
  have hle : ∀ (bs : List (ℕ × ℕ)), (∀ b ∈ bs, b.2 ≤ s.free) →
      ∀ b ∈ bs ++ [(ack, s.free)], b.2 ≤ s.free := by
    intro bs hbs b hb
    rcases List.mem_append.mp hb with hb | hb
    · exact hbs b hb
    · rw [List.mem_singleton.mp hb]
  refine ⟨h.forward, fun b hb => ?_, fun hnone => ?_, fun p hp => ?_, h.payload⟩
  · rcases List.mem_append.mp hb with hb | hb
    · exact h.ack_le b hb
    · rw [List.mem_singleton.mp hb]
      exact hack
  · have hidle := h.idle hnone
    exact ⟨hidle.1, hidle.2, hidle.3, hle _ hidle.4⟩
  · rcases h.waiting p hp with hway | hdelivered
    · exact .inl ⟨hway.1, hway.2, hway.3, hle _ hway.4⟩
    · obtain ⟨stale, fresh, hsplit, hstale, hfresh⟩ := hdelivered.backward
      exact .inr ⟨hdelivered.1, hdelivered.2, stale, fresh ++ [(ack, s.free)],
        by simp [hsplit], hstale, hle _ hfresh⟩

theorem Inv.consume (h : Inv maxLen s) {free : ℕ} (hfree : s.free ≤ free) :
    Inv maxLen { s with free := free } where
  forward := h.forward
  ack_le := h.ack_le
  idle hnone := ⟨(h.idle hnone).1, (h.idle hnone).2, (h.idle hnone).3.trans hfree,
    fun b hb => ((h.idle hnone).4 b hb).trans hfree⟩
  waiting p hp := by
    rcases h.waiting p hp with hway | hdelivered
    · exact .inl ⟨hway.1, hway.2, hway.3.trans hfree, fun b hb => (hway.4 b hb).trans hfree⟩
    · obtain ⟨stale, fresh, hsplit, hstale, hfresh⟩ := hdelivered.backward
      exact .inr ⟨hdelivered.1, hdelivered.2, stale, fresh, hsplit, hstale,
        fun b hb => (hfresh b hb).trans hfree⟩
  payload := h.payload

theorem Inv.acknowledge (h : Inv maxLen s) {b : ℕ × ℕ} {rest : List (ℕ × ℕ)} {payload : List α}
    (hbackward : s.backward = b :: rest) (houtstanding : s.outstanding = some payload)
    (hack : b.1 = s.next) :
    Inv maxLen { s with
      backward := rest, credit := b.2, outstanding := none
      pending := s.pending.drop payload.length, removed := s.removed ++ payload } := by
  have hle := h.ack_le b (by simp [hbackward])
  -- the acknowledgement exists, so the payload was delivered and no report is stale
  have hdelivered : Delivered s payload := by
    rcases h.waiting payload houtstanding with hway | hdelivered
    · have := hway.next_eq
      omega
    · exact hdelivered
  have hnext := hdelivered.next_eq
  have hfresh : ∀ c ∈ b :: rest, c.2 ≤ s.free := by
    obtain ⟨stale, fresh, hsplit, hstale, hfresh⟩ := hdelivered.backward
    rw [← hbackward, hsplit]
    cases stale with
    | nil => exact hfresh
    | cons c stale =>
      rw [hbackward, List.cons_append, List.cons.injEq] at hsplit
      have := hstale c List.mem_cons_self
      rw [← hsplit.1] at this
      omega
  obtain ⟨old, current, hsplit, hold, hcurrent⟩ := h.forward
  have hnil : current = [] := by
    refine List.eq_nil_iff_forall_not_mem.mpr fun x hx => ?_
    have := (hcurrent x hx).2.2
    omega
  refine ⟨⟨old, [], by simp [hsplit, hnil], hold, by simp⟩, fun c hc => ?_, fun _ => ?_, ?_, ?_⟩
  · exact h.ack_le c (by simp [hbackward, hc])
  · exact ⟨hnext, hdelivered.written_eq, hfresh b List.mem_cons_self,
      fun c hc => hfresh c (List.mem_cons_of_mem _ hc)⟩
  · simp
  · simp

theorem Inv.credit (h : Inv maxLen s) {b : ℕ × ℕ} {rest : List (ℕ × ℕ)}
    (hbackward : s.backward = b :: rest) :
    Inv maxLen { s with backward := rest, credit := b.2 } := by
  have hlost : Inv maxLen { s with backward := rest } := h.loseBackward (by simp [hbackward])
  refine ⟨hlost.forward, hlost.ack_le, fun hnone => ?_, fun p hp => ?_, hlost.payload⟩
  · have hidle := hlost.idle hnone
    exact ⟨hidle.1, hidle.2, (h.idle hnone).4 b (by simp [hbackward]), hidle.4⟩
  · exact (hlost.waiting p hp).imp (fun hway => ⟨hway.1, hway.2, hway.3, hway.4⟩)
      (fun hdel => ⟨hdel.1, hdel.2, hdel.3⟩)

theorem Inv.step (h : Inv maxLen s) (step : Step maxLen s t) : Inv maxLen t := by
  cases step with
  | push data => exact h.push data
  | send payload credit hidle hpre hne hcredit hmax => exact h.send credit hidle hpre hne hcredit hmax
  | resend payload houtstanding => exact h.resend houtstanding
  | loseForward forward hsublist => exact h.loseForward hsublist
  | loseBackward backward hsublist => exact h.loseBackward hsublist
  | duplicate x rest hforward hseq => exact h.duplicate hforward
  | deliver x rest hforward hseq => exact h.deliver hforward hseq
  | report ack hack => exact h.report hack
  | consume free hfree => exact h.consume hfree
  | acknowledge b rest payload hbackward houtstanding hack =>
    exact h.acknowledge hbackward houtstanding hack
  | credit b rest hbackward hack => exact h.credit hbackward

/-- A run from a state that satisfies the invariant. -/
structure Run (maxLen : ℕ) (start s : StopAndWait α) : Prop where
  start_inv : Inv maxLen start
  steps : Relation.ReflTransGen (Step maxLen) start s

theorem Run.tail {start : StopAndWait α} (h : Run maxLen start s) (step : Step maxLen s t) :
    Run maxLen start t :=
  ⟨h.start_inv, h.steps.tail step⟩

theorem Run.inv {start : StopAndWait α} (h : Run maxLen start s) : Inv maxLen s := by
  obtain ⟨hstart, steps⟩ := h
  induction steps with
  | refl => exact hstart
  | tail _ step ih => exact ih.step step

end StopAndWait

end StarrySky.Base
