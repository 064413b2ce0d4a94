import StarrySky.Base.Ringbuf
import StarrySky.Base.Simulation

/-! `core/src/mc_ringbuf.c` over its storage, with the two callers that rewrite the fields
of a ring buffer themselves, and its refinement of the bounded first-in first-out buffer. -/

namespace StarrySky.Core
open StarrySky.Base

structure McRingbuf where
  data : List UInt8
  cap : ℕ
  head : ℕ
  tail : ℕ
  len : ℕ
deriving DecidableEq

def mcRingbufInit (storage : List UInt8) (cap : ℕ) : McRingbuf :=
  { data := storage, cap := cap, head := 0, tail := 0, len := 0 }

def mcRingbufLen (rb : McRingbuf) : ℕ := rb.len

def mcRingbufFree (rb : McRingbuf) : ℕ := rb.cap - rb.len

def mcRingbufPush (rb : McRingbuf) (byte : UInt8) : Bool × McRingbuf :=
  if rb.len = rb.cap then (false, rb)
  else
    (true, { rb with
      data := rb.data.set rb.head byte
      head := (rb.head + 1) % rb.cap
      len := rb.len + 1 })

/-- The byte popped; nothing is read from an empty buffer or outside of the storage. -/
def mcRingbufPop (rb : McRingbuf) : Option UInt8 × McRingbuf :=
  if rb.len = 0 then (none, rb)
  else (rb.data[rb.tail]?, { rb with tail := (rb.tail + 1) % rb.cap, len := rb.len - 1 })

def mcRingbufWrite (rb : McRingbuf) : List UInt8 → ℕ × McRingbuf
  | [] => (0, rb)
  | byte :: src =>
    match mcRingbufPush rb byte with
    | (false, rb) => (0, rb)
    | (true, rb) =>
      let rest := mcRingbufWrite rb src
      (rest.1 + 1, rest.2)

/-- The bytes that `mc_ringbuf_read` puts at `dst`; it returns how many they are. -/
def mcRingbufRead (rb : McRingbuf) : ℕ → List UInt8 × McRingbuf
  | 0 => ([], rb)
  | maxLen + 1 =>
    match mcRingbufPop rb with
    | (none, rb) => ([], rb)
    | (some byte, rb) =>
      let rest := mcRingbufRead rb maxLen
      (byte :: rest.1, rest.2)

def mcRingbufPeek (rb : McRingbuf) (offset : ℕ) : Option UInt8 :=
  if offset ≥ rb.len then none else rb.data[(rb.tail + offset) % rb.cap]?

def mcRingbufDrop (rb : McRingbuf) (count : ℕ) : McRingbuf :=
  let count := if count > rb.len then rb.len else count
  { rb with tail := (rb.tail + count) % rb.cap, len := rb.len - count }

/-- `truncate_ringbuf` of `firmware/mc_link_session.c`. -/
def truncateRingbuf (rb : McRingbuf) (keepLen : ℕ) : McRingbuf :=
  if keepLen ≥ mcRingbufLen rb then rb
  else { rb with head := (rb.tail + keepLen) % rb.cap, len := keepLen }

namespace McRingbuf

/-- `tx_checkpoint_t` of `core/src/mc_server.c`: the fields, without the storage. -/
structure TxCheckpoint where
  head : ℕ
  tail : ℕ
  len : ℕ
deriving DecidableEq

def txCheckpointSave (tx : McRingbuf) : TxCheckpoint :=
  { head := tx.head, tail := tx.tail, len := tx.len }

def txCheckpointRestore (tx : McRingbuf) (checkpoint : TxCheckpoint) : McRingbuf :=
  { tx with head := checkpoint.head, tail := checkpoint.tail, len := checkpoint.len }

/-- The fields agree with each other and with the storage. -/
structure Valid (rb : McRingbuf) : Prop where
  cap_pos : 0 < rb.cap
  cap_le : rb.cap ≤ rb.data.length
  tail_lt : rb.tail < rb.cap
  len_le : rb.len ≤ rb.cap
  head_eq : rb.head = (rb.tail + rb.len) % rb.cap

/-- Where the byte at `offset` behind the oldest one lies. -/
def slot (rb : McRingbuf) (offset : ℕ) : ℕ := (rb.tail + offset) % rb.cap

/-- The bytes held, oldest first. -/
def contents (rb : McRingbuf) : List UInt8 :=
  (List.range rb.len).map (fun offset => (rb.data[rb.slot offset]?).getD 0)

variable {rb : McRingbuf}

@[simp] theorem length_contents (rb : McRingbuf) : rb.contents.length = rb.len := by
  rw [contents, List.length_map, List.length_range]

theorem Valid.slot_lt (h : rb.Valid) (offset : ℕ) : rb.slot offset < rb.data.length :=
  (Nat.mod_lt _ h.cap_pos).trans_le h.cap_le

theorem eq_of_slot_eq {i j : ℕ} (hi : i < rb.cap) (hj : j < rb.cap)
    (hslot : rb.slot i = rb.slot j) : i = j := by
  have hmod : i ≡ j [MOD rb.cap] := Nat.ModEq.add_left_cancel' rb.tail hslot
  exact hmod.eq_of_lt_of_lt hi hj

theorem slot_advance (rb : McRingbuf) (count offset : ℕ) :
    ((rb.tail + count) % rb.cap + offset) % rb.cap = rb.slot (count + offset) := by
  rw [Nat.mod_add_mod, Nat.add_assoc, slot]

theorem Valid.getElem?_data (h : rb.Valid) (offset : ℕ) :
    rb.data[rb.slot offset]? = some ((rb.data[rb.slot offset]?).getD 0) := by
  rw [List.getElem?_eq_getElem (h.slot_lt offset), Option.getD_some]

theorem Valid.getElem?_contents (h : rb.Valid) {offset : ℕ} (hoffset : offset < rb.len) :
    rb.contents[offset]? = rb.data[rb.slot offset]? := by
  rw [contents, List.getElem?_map, List.getElem?_range hoffset, Option.map_some,
    ← h.getElem?_data]

theorem valid_init {storage : List UInt8} {cap : ℕ} (hcap : 0 < cap)
    (hstorage : cap ≤ storage.length) : (mcRingbufInit storage cap).Valid :=
  ⟨hcap, hstorage, hcap, Nat.zero_le cap, (Nat.zero_mod cap).symm⟩

/-! Truncating and dropping move one end of the buffer. -/

theorem Valid.drop (h : rb.Valid) (count : ℕ) : (mcRingbufDrop rb count).Valid := by
  refine ⟨h.cap_pos, h.cap_le, Nat.mod_lt _ h.cap_pos, (Nat.sub_le _ _).trans h.len_le, ?_⟩
  have hcount : (if count > rb.len then rb.len else count) ≤ rb.len := by
    split_ifs with hc
    · exact le_refl rb.len
    · exact Nat.le_of_not_lt hc
  show rb.head = ((rb.tail + _) % rb.cap + (rb.len - _)) % rb.cap
  rw [Nat.mod_add_mod, Nat.add_assoc, Nat.add_sub_cancel' hcount, h.head_eq]

theorem contents_drop (rb : McRingbuf) (count : ℕ) :
    (mcRingbufDrop rb count).contents = rb.contents.drop count := by
  have hmin : (if count > rb.len then rb.len else count) = min count rb.len := by
    split_ifs with hc
    · exact (Nat.min_eq_right (Nat.le_of_lt hc)).symm
    · exact (Nat.min_eq_left (Nat.le_of_not_lt hc)).symm
  apply List.ext_getElem
  · rw [length_contents, List.length_drop, length_contents]
    show rb.len - (if count > rb.len then rb.len else count) = _
    rw [hmin]
    omega
  · intro offset hleft hright
    have hle : min count rb.len = count := by
      rw [List.length_drop, length_contents] at hright
      omega
    rw [List.getElem_drop]
    simp only [contents, List.getElem_map, List.getElem_range]
    show (rb.data[((rb.tail + _) % rb.cap + offset) % rb.cap]?).getD 0 = _
    rw [hmin, hle, slot_advance]

theorem truncateRingbuf_of_lt {keepLen : ℕ} (hkeep : keepLen < rb.len) :
    truncateRingbuf rb keepLen = { rb with head := rb.slot keepLen, len := keepLen } :=
  if_neg (Nat.not_le.mpr hkeep)

theorem Valid.truncate (h : rb.Valid) (keepLen : ℕ) : (truncateRingbuf rb keepLen).Valid := by
  rcases Nat.lt_or_ge keepLen rb.len with hkeep | hkeep
  · rw [truncateRingbuf_of_lt hkeep]
    exact ⟨h.cap_pos, h.cap_le, h.tail_lt, (Nat.le_of_lt hkeep).trans h.len_le, rfl⟩
  · rwa [truncateRingbuf, mcRingbufLen, if_pos hkeep]

theorem contents_truncate (rb : McRingbuf) (keepLen : ℕ) :
    (truncateRingbuf rb keepLen).contents = rb.contents.take keepLen := by
  rcases Nat.lt_or_ge keepLen rb.len with hkeep | hkeep
  · rw [truncateRingbuf_of_lt hkeep, contents, contents, ← List.map_take, List.take_range,
      Nat.min_eq_left (Nat.le_of_lt hkeep)]
    rfl
  · rw [truncateRingbuf, mcRingbufLen, if_pos hkeep, List.take_of_length_le]
    rwa [length_contents]

/-! A push fills the place behind the newest byte, a pop gives the oldest one up. -/

theorem push_of_full (hfull : rb.len = rb.cap) (byte : UInt8) :
    mcRingbufPush rb byte = (false, rb) := if_pos hfull

theorem fst_push_of_lt (hlen : rb.len < rb.cap) (byte : UInt8) :
    (mcRingbufPush rb byte).1 = true := by
  rw [mcRingbufPush, if_neg (Nat.ne_of_lt hlen)]

theorem snd_push_of_lt (h : rb.Valid) (hlen : rb.len < rb.cap) (byte : UInt8) :
    (mcRingbufPush rb byte).2 =
      { rb with
        data := rb.data.set (rb.slot rb.len) byte
        head := (rb.slot rb.len + 1) % rb.cap
        len := rb.len + 1 } := by
  rw [mcRingbufPush, if_neg (Nat.ne_of_lt hlen), h.head_eq]
  rfl

theorem Valid.push (h : rb.Valid) (byte : UInt8) : (mcRingbufPush rb byte).2.Valid := by
  rcases Nat.lt_or_ge rb.len rb.cap with hlen | hfull
  · rw [snd_push_of_lt h hlen]
    refine ⟨h.cap_pos, ?_, h.tail_lt, hlen, ?_⟩
    · rw [List.length_set]
      exact h.cap_le
    · show (rb.slot rb.len + 1) % rb.cap = (rb.tail + (rb.len + 1)) % rb.cap
      rw [slot, Nat.mod_add_mod, Nat.add_assoc]
  · rwa [push_of_full (h.len_le.antisymm hfull)]

theorem contents_push_of_lt (h : rb.Valid) (hlen : rb.len < rb.cap) (byte : UInt8) :
    (mcRingbufPush rb byte).2.contents = rb.contents ++ [byte] := by
  rw [snd_push_of_lt h hlen, contents, contents]
  show (List.range (rb.len + 1)).map
    (fun offset => ((rb.data.set (rb.slot rb.len) byte)[rb.slot offset]?).getD 0) = _
  rw [List.range_succ, List.map_append, List.map_singleton]
  congr 1
  · apply List.map_congr_left
    intro offset hoffset
    have hlt : offset < rb.len := List.mem_range.mp hoffset
    -- an older byte lies at another place, so the store leaves it alone
    have hne : rb.slot rb.len ≠ rb.slot offset := fun heq =>
      Nat.ne_of_gt hlt (eq_of_slot_eq hlen (hlt.trans hlen) heq)
    rw [List.getElem?_set_ne hne]
  · rw [List.getElem?_set_self (h.slot_lt rb.len), Option.getD_some]

theorem pop_of_pos (h : rb.Valid) (hlen : 0 < rb.len) :
    mcRingbufPop rb = (rb.contents[0]?, mcRingbufDrop rb 1) := by
  have htail : rb.slot 0 = rb.tail := Nat.mod_eq_of_lt h.tail_lt
  rw [mcRingbufPop, if_neg (Nat.ne_of_gt hlen), mcRingbufDrop,
    if_neg (Nat.not_lt.mpr hlen), h.getElem?_contents hlen, htail]

theorem pop_eq (h : rb.Valid) :
    mcRingbufPop rb = (rb.contents.head?, mcRingbufDrop rb 1) := by
  rcases Nat.eq_zero_or_pos rb.len with hzero | hpos
  · have hnil : rb.contents = [] := List.eq_nil_of_length_eq_zero (by rw [length_contents, hzero])
    have htail : (rb.tail + 0) % rb.cap = rb.tail := Nat.mod_eq_of_lt h.tail_lt
    rw [mcRingbufPop, if_pos hzero, hnil, mcRingbufDrop, if_pos (by omega), hzero]
    simp only [htail, Nat.sub_zero, List.head?_nil]
    rw [← hzero]
  · rw [pop_of_pos h hpos, List.head?_eq_getElem?]

/-- The fields are those of a bounded first-in first-out buffer and hold its bytes. -/
structure Refines (rb : McRingbuf) (queue : Ringbuf UInt8) : Prop where
  valid : rb.Valid
  cap_eq : rb.cap = queue.cap
  contents_eq : rb.contents = queue.items

namespace Refines

variable {queue : Ringbuf UInt8}

theorem len_eq (h : Refines rb queue) : mcRingbufLen rb = queue.len := by
  rw [mcRingbufLen, ← length_contents, h.contents_eq, Ringbuf.len]

theorem free_eq (h : Refines rb queue) : mcRingbufFree rb = queue.free := by
  have hlen := h.len_eq
  rw [mcRingbufLen] at hlen
  rw [mcRingbufFree, h.cap_eq, hlen, Ringbuf.free]

theorem init {storage : List UInt8} {cap : ℕ} (hcap : 0 < cap) (hstorage : cap ≤ storage.length) :
    Refines (mcRingbufInit storage cap) (Ringbuf.init cap) :=
  ⟨valid_init hcap hstorage, rfl, rfl⟩

theorem drop (h : Refines rb queue) (count : ℕ) :
    Refines (mcRingbufDrop rb count) (queue.drop count) :=
  ⟨h.valid.drop count, h.cap_eq, by rw [contents_drop, h.contents_eq, Ringbuf.items_drop]⟩

theorem truncate (h : Refines rb queue) (keepLen : ℕ) :
    Refines (truncateRingbuf rb keepLen) (queue.truncate keepLen) := by
  refine ⟨h.valid.truncate keepLen, ?_, ?_⟩
  · rw [truncateRingbuf]
    split_ifs <;> exact h.cap_eq
  · rw [contents_truncate, h.contents_eq, Ringbuf.items_truncate]

theorem push (h : Refines rb queue) (byte : UInt8) :
    (mcRingbufPush rb byte).1 = (queue.push byte).1 ∧
      Refines (mcRingbufPush rb byte).2 (queue.push byte).2 := by
  have hfree := h.free_eq
  rw [mcRingbufFree] at hfree
  rcases Nat.lt_or_ge rb.len rb.cap with hlen | hfull
  · have hroom : 0 < queue.free := by omega
    rw [Ringbuf.push_of_pos hroom]
    refine ⟨fst_push_of_lt hlen byte, h.valid.push byte, ?_, ?_⟩
    · rw [snd_push_of_lt h.valid hlen]
      exact h.cap_eq
    · rw [contents_push_of_lt h.valid hlen, h.contents_eq,
        (Ringbuf.write_of_le (show [byte].length ≤ queue.free from hroom)).2]
  · have hnone : queue.free = 0 := by omega
    rw [push_of_full (h.valid.len_le.antisymm hfull), Ringbuf.push_of_free_eq_zero hnone]
    exact ⟨rfl, h⟩

theorem pop (h : Refines rb queue) :
    (mcRingbufPop rb).1 = queue.pop.1 ∧ Refines (mcRingbufPop rb).2 queue.pop.2 := by
  rw [pop_eq h.valid]
  refine ⟨?_, h.drop 1⟩
  show rb.contents.head? = queue.items.head?
  rw [h.contents_eq]

theorem peek (h : Refines rb queue) (offset : ℕ) :
    mcRingbufPeek rb offset = queue.peek offset := by
  rw [Ringbuf.peek, ← h.contents_eq, mcRingbufPeek]
  split_ifs with hoffset
  · rw [List.getElem?_eq_none]
    rwa [length_contents]
  · rw [h.valid.getElem?_contents (Nat.lt_of_not_le hoffset), slot]

theorem write (h : Refines rb queue) (src : List UInt8) :
    (mcRingbufWrite rb src).1 = (queue.write src).1 ∧
      Refines (mcRingbufWrite rb src).2 (queue.write src).2 := by
  induction src generalizing rb queue with
  | nil =>
    rw [Ringbuf.write_nil]
    exact ⟨rfl, h⟩
  | cons byte src ih =>
    obtain ⟨hflag, hnext⟩ := h.push byte
    rcases Nat.eq_zero_or_pos queue.free with hnone | hroom
    · rw [Ringbuf.push_of_free_eq_zero hnone] at hflag hnext
      have hpush : mcRingbufPush rb byte = (false, (mcRingbufPush rb byte).2) :=
        Prod.ext hflag rfl
      rw [mcRingbufWrite, hpush, Ringbuf.write_of_free_eq_zero hnone]
      exact ⟨rfl, hnext⟩
    · rw [Ringbuf.push_of_pos hroom] at hflag hnext
      have hpush : mcRingbufPush rb byte = (true, (mcRingbufPush rb byte).2) :=
        Prod.ext hflag rfl
      obtain ⟨hcount, hlast⟩ := ih hnext
      rw [mcRingbufWrite, hpush, Ringbuf.write_cons hroom byte src]
      exact ⟨congrArg (· + 1) hcount, hlast⟩

theorem read (h : Refines rb queue) (maxLen : ℕ) :
    (mcRingbufRead rb maxLen).1 = (queue.read maxLen).1 ∧
      Refines (mcRingbufRead rb maxLen).2 (queue.read maxLen).2 := by
  induction maxLen generalizing rb queue with
  | zero =>
    rw [Ringbuf.read_zero]
    exact ⟨rfl, h⟩
  | succ maxLen ih =>
    obtain ⟨hbyte, hnext⟩ := h.pop
    rw [mcRingbufRead, Ringbuf.read_succ]
    rcases hpop : mcRingbufPop rb with ⟨oldest, popped⟩
    rw [hpop] at hbyte hnext
    rw [← hbyte]
    cases oldest with
    | none =>
      -- nothing to pop: the buffer is as it was, and so is the rest of the queue
      exact ⟨rfl, hnext⟩
    | some byte =>
      obtain ⟨hbytes, hlast⟩ := ih hnext
      exact ⟨congrArg (byte :: ·) hbytes, hlast⟩

end Refines

theorem tail_push (rb : McRingbuf) (byte : UInt8) : (mcRingbufPush rb byte).2.tail = rb.tail := by
  rw [mcRingbufPush]
  split_ifs <;> rfl

theorem tail_write (rb : McRingbuf) (src : List UInt8) :
    (mcRingbufWrite rb src).2.tail = rb.tail := by
  induction src generalizing rb with
  | nil => rfl
  | cons byte src ih =>
    have htail := tail_push rb byte
    rw [mcRingbufWrite]
    rcases hpush : mcRingbufPush rb byte with ⟨flag, pushed⟩
    rw [hpush] at htail
    cases flag with
    | false => exact htail
    | true => exact (ih pushed).trans htail

theorem Refines.restore {saved : McRingbuf} {queue later : Ringbuf UInt8}
    (hsaved : Refines saved queue) (hrb : Refines rb later) (htail : rb.tail = saved.tail)
    (hcap : later.cap = queue.cap) (hlen : queue.len ≤ later.len) :
    Refines (txCheckpointRestore rb (txCheckpointSave saved)) (later.truncate queue.len) := by
  have hcaps : rb.cap = saved.cap := hrb.cap_eq.trans (hcap.trans hsaved.cap_eq.symm)
  have hsavedLen : saved.len = queue.len := hsaved.len_eq
  have hrbLen : rb.len = later.len := hrb.len_eq
  have hhead : saved.head = rb.slot saved.len := by
    rw [slot, htail, hcaps]
    exact hsaved.valid.head_eq
  have htruncate : txCheckpointRestore rb (txCheckpointSave saved) =
      truncateRingbuf rb saved.len := by
    rw [txCheckpointRestore, txCheckpointSave, hhead, ← htail]
    rcases Nat.lt_or_ge saved.len rb.len with hlt | hge
    · rw [truncateRingbuf_of_lt hlt]
    · have heq : saved.len = rb.len := by omega
      rw [truncateRingbuf, mcRingbufLen, if_pos hge, heq, slot, ← hrb.valid.head_eq]
  rw [htruncate, hsavedLen]
  exact hrb.truncate queue.len

/-- `mc_ringbuf_write` of one source after the other. -/
def writeAll (rb : McRingbuf) (pieces : List (List UInt8)) : McRingbuf :=
  pieces.foldl (fun rb src => (mcRingbufWrite rb src).2) rb

theorem tail_writeAll (rb : McRingbuf) (pieces : List (List UInt8)) :
    (rb.writeAll pieces).tail = rb.tail := by
  induction pieces generalizing rb with
  | nil => rfl
  | cons src pieces ih => exact (ih _).trans (tail_write rb src)

theorem Refines.writeAll {queue : Ringbuf UInt8} (h : Refines rb queue)
    (pieces : List (List UInt8)) :
    ∃ later, Refines (rb.writeAll pieces) later ∧ later.cap = queue.cap ∧
      queue.items <+: later.items := by
  induction pieces generalizing rb queue with
  | nil => exact ⟨queue, h, rfl, List.prefix_refl _⟩
  | cons src pieces ih =>
    obtain ⟨later, hlater, hcap, hprefix⟩ := ih (h.write src).2
    exact ⟨later, hlater, hcap, (List.prefix_append _ _).trans hprefix⟩

theorem Refines.restore_writeAll {queue : Ringbuf UInt8} (h : Refines rb queue)
    (pieces : List (List UInt8)) :
    Refines (txCheckpointRestore (rb.writeAll pieces) (txCheckpointSave rb)) queue := by
  obtain ⟨later, hlater, hcap, hprefix⟩ := h.writeAll pieces
  have hrestored := h.restore hlater (tail_writeAll rb pieces) hcap hprefix.length_le
  have hqueue : later.truncate queue.len = queue := by
    apply Ringbuf.ext
    · exact hcap
    · exact (List.prefix_iff_eq_take.mp hprefix).symm
  rwa [hqueue] at hrestored

/-- What a caller of `mc_ringbuf.c` asks of a buffer, and `truncate_ringbuf`. -/
inductive Op where
  | push (byte : UInt8)
  | pop
  | write (src : List UInt8)
  | read (maxLen : ℕ)
  | peek (offset : ℕ)
  | drop (count : ℕ)
  | truncate (keepLen : ℕ)
deriving DecidableEq

/-- What it is told. -/
inductive Reply where
  | flag (done : Bool)
  | byte (found : Option UInt8)
  | count (written : ℕ)
  | bytes (read : List UInt8)
  | nothing
deriving DecidableEq

def step (rb : McRingbuf) : Op → Reply × McRingbuf
  | .push byte => Prod.map .flag id (mcRingbufPush rb byte)
  | .pop => Prod.map .byte id (mcRingbufPop rb)
  | .write src => Prod.map .count id (mcRingbufWrite rb src)
  | .read maxLen => Prod.map .bytes id (mcRingbufRead rb maxLen)
  | .peek offset => (.byte (mcRingbufPeek rb offset), rb)
  | .drop count => (.nothing, mcRingbufDrop rb count)
  | .truncate keepLen => (.nothing, truncateRingbuf rb keepLen)

/-- The same of a list of at most `cap` bytes. -/
def queueStep (queue : Ringbuf UInt8) : Op → Reply × Ringbuf UInt8
  | .push byte => Prod.map .flag id (queue.push byte)
  | .pop => Prod.map .byte id queue.pop
  | .write src => Prod.map .count id (queue.write src)
  | .read maxLen => Prod.map .bytes id (queue.read maxLen)
  | .peek offset => (.byte (queue.peek offset), queue)
  | .drop count => (.nothing, queue.drop count)
  | .truncate keepLen => (.nothing, queue.truncate keepLen)

theorem simulates : Simulates Refines step queueStep := by
  intro rb queue h op
  cases op with
  | push byte => exact (h.push byte).imp_left (congrArg Reply.flag)
  | pop => exact h.pop.imp_left (congrArg Reply.byte)
  | write src => exact (h.write src).imp_left (congrArg Reply.count)
  | read maxLen => exact (h.read maxLen).imp_left (congrArg Reply.bytes)
  | peek offset => exact ⟨congrArg Reply.byte (h.peek offset), h⟩
  | drop count => exact ⟨rfl, h.drop count⟩
  | truncate keepLen => exact ⟨rfl, h.truncate keepLen⟩

theorem cap_runOps_queueStep (queue : Ringbuf UInt8) (ops : List Op) :
    (runOps queueStep queue ops).2.cap = queue.cap := by
  have hstep : ∀ q : Ringbuf UInt8, q.cap = queue.cap →
      ∀ op, (queueStep q op).2.cap = queue.cap := by
    intro q hq op
    cases op <;> exact hq
  exact runOps_invariant hstep rfl ops

/-- The ring buffer is a bounded first-in first-out buffer, from `mc_ringbuf_init` on, also
where `truncate_ringbuf` and the checkpoints of the transmit ring write its fields. -/
theorem mcRingbuf_refines_fifo {storage : List UInt8} {cap : ℕ} (hcap : 0 < cap)
    (hstorage : cap ≤ storage.length) (ops : List Op) :
    let ring := runOps step (mcRingbufInit storage cap) ops
    let fifo := runOps queueStep (Ringbuf.init cap) ops
    ring.1 = fifo.1 ∧ Refines ring.2 fifo.2 ∧
      (∀ keepLen byte, (truncateRingbuf ring.2 keepLen).contents = fifo.2.items.take keepLen ∧
        ((fifo.2.items.take keepLen).length < cap →
          (mcRingbufPush (truncateRingbuf ring.2 keepLen) byte).1 = true ∧
          (mcRingbufPush (truncateRingbuf ring.2 keepLen) byte).2.contents =
            fifo.2.items.take keepLen ++ [byte])) ∧
      ∀ pieces,
        Refines (txCheckpointRestore (ring.2.writeAll pieces) (txCheckpointSave ring.2))
          fifo.2 := by
  intro ring fifo
  obtain ⟨hreplies, hlast⟩ := simulates.run (Refines.init hcap hstorage) ops
  refine ⟨hreplies, hlast, fun keepLen byte => ?_, hlast.restore_writeAll⟩
  have htruncate := hlast.truncate keepLen
  refine ⟨htruncate.contents_eq, fun hroom => ?_⟩
  have hcapLast : (truncateRingbuf ring.2 keepLen).cap = cap :=
    htruncate.cap_eq.trans (cap_runOps_queueStep (Ringbuf.init cap) ops)
  have hlen : (truncateRingbuf ring.2 keepLen).len < (truncateRingbuf ring.2 keepLen).cap := by
    rw [hcapLast, ← length_contents, htruncate.contents_eq]
    exact hroom
  refine ⟨fst_push_of_lt hlen byte, ?_⟩
  rw [contents_push_of_lt htruncate.valid hlen, htruncate.contents_eq]
  rfl

/-- A buffer of three bytes which has wrapped and is rolled back. -/
theorem mcRingbuf_refines_fifo_wrapped :
    let ops : List Op := [.write [1, 2, 3, 4], .pop, .pop, .push 5, .peek 1, .truncate 1]
    let ring := runOps step (mcRingbufInit [9, 9, 9] 3) ops
    ring.1 = [.count 3, .byte (some 1), .byte (some 2), .flag true, .byte (some 5), .nothing] ∧
      ring.2 = { data := [5, 2, 3], cap := 3, head := 0, tail := 2, len := 1 } ∧
      Refines (txCheckpointRestore (ring.2.writeAll [[6, 7]]) (txCheckpointSave ring.2))
        (runOps queueStep (Ringbuf.init 3) ops).2 :=
  ⟨by decide, by decide,
    (@mcRingbuf_refines_fifo [9, 9, 9] 3 (by decide) (by decide)
      [.write [1, 2, 3, 4], .pop, .pop, .push 5, .peek 1, .truncate 1]).2.2.2 [[6, 7]]⟩

end McRingbuf

end StarrySky.Core
