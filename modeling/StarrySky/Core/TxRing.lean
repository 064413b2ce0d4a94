import StarrySky.Base.Ringbuf
import StarrySky.Core.Packet

/-! The server's transmit ring and the two encoders of `core/src/mc_server.c` that put a
packet into it. -/

namespace StarrySky.Core
open StarrySky.Base

/-- The transmit ring; as history, what was enqueued since the ring was last emptied. -/
@[ext] structure TxRing where
  ring : Ringbuf UInt8
  history : List UInt8
deriving DecidableEq

namespace TxRing

def free (tx : TxRing) : ℕ := tx.ring.free

def write (tx : TxRing) (src : List UInt8) : ℕ × TxRing :=
  let written := tx.ring.write src
  (written.1, { ring := written.2, history := tx.history ++ src.take written.1 })

/-- `mc_ringbuf_drop` of everything. -/
def dropAll (tx : TxRing) : TxRing := { ring := tx.ring.drop tx.ring.len, history := [] }

/-- The pieces one after the other, up to the first that does not fit. -/
def writeAll (tx : TxRing) : List (List UInt8) → Bool × TxRing
  | [] => (true, tx)
  | src :: pieces =>
    let written := tx.write src
    if written.1 = src.length then writeAll written.2 pieces else (false, written.2)

def push (tx : TxRing) (src : List UInt8) : TxRing := (tx.write src).2

theorem write_of_le {tx : TxRing} {src : List UInt8} (h : src.length ≤ tx.free) :
    tx.write src = (src.length, tx.push src) :=
  Prod.ext (Ringbuf.write_of_le h).1 rfl

theorem history_push {tx : TxRing} {src : List UInt8} (h : src.length ≤ tx.free) :
    (tx.push src).history = tx.history ++ src := by
  have hcount : (tx.ring.write src).1 = src.length := (Ringbuf.write_of_le h).1
  show tx.history ++ src.take (tx.ring.write src).1 = _
  rw [hcount, List.take_length]

theorem free_push {tx : TxRing} {src : List UInt8} (h : src.length ≤ tx.free) :
    (tx.push src).free + src.length = tx.free :=
  Ringbuf.free_write_of_le h

@[simp] theorem push_nil (tx : TxRing) : tx.push [] = tx := by
  obtain ⟨ring, history⟩ := tx
  simp [push, write, Ringbuf.write]

theorem push_push {tx : TxRing} {a b : List UInt8} (h : (a ++ b).length ≤ tx.free) :
    (tx.push a).push b = tx.push (a ++ b) := by
  rw [List.length_append] at h
  have ha : a.length ≤ tx.free := (Nat.le_add_right _ _).trans h
  have hb : b.length ≤ (tx.push a).free := by
    have := free_push ha
    omega
  have hab : (a ++ b).length ≤ tx.free := by rwa [List.length_append]
  have hring : ((tx.push a).push b).ring = (tx.push (a ++ b)).ring := by
    apply Ringbuf.ext
    · rfl
    · show ((tx.push a).ring.write b).2.items = (tx.ring.write (a ++ b)).2.items
      rw [(Ringbuf.write_of_le hb).2, (Ringbuf.write_of_le hab).2]
      show (tx.ring.write a).2.items ++ b = _
      rw [(Ringbuf.write_of_le ha).2, List.append_assoc]
  have hhistory : ((tx.push a).push b).history = (tx.push (a ++ b)).history := by
    rw [history_push hb, history_push ha, history_push hab, List.append_assoc]
  exact TxRing.ext hring hhistory

theorem writeAll_of_le {tx : TxRing} {pieces : List (List UInt8)}
    (h : pieces.flatten.length ≤ tx.free) : tx.writeAll pieces = (true, tx.push pieces.flatten) := by
  induction pieces generalizing tx with
  | nil => rw [writeAll, List.flatten_nil, push_nil]
  | cons src pieces ih =>
    rw [List.flatten_cons] at h ⊢
    have hfits := h
    rw [List.length_append] at hfits
    have hsrc : src.length ≤ tx.free := (Nat.le_add_right _ _).trans hfits
    have hrest : pieces.flatten.length ≤ (tx.push src).free := by
      have := free_push hsrc
      omega
    rw [writeAll, write_of_le hsrc]
    show (if src.length = src.length then (tx.push src).writeAll pieces else _) = _
    rw [if_pos rfl, ih hrest, push_push h]

end TxRing

/-- The most that a body, its data length of one byte and the length before them take. -/
abbrev mcMaxFrame : ℕ := mcMaxPacketBody + 6

structure TxRing.Fits (tx : TxRing) (frame : List UInt8) : Prop where
  free : frame.length ≤ tx.free
  bound : frame.length ≤ mcMaxFrame

/-- Whether a result is a failure that leaves the ring as it was, or one whole frame. -/
def AddsFrame (tx : TxRing) (frame : List UInt8) (result : Bool × TxRing) : Prop :=
  result = (false, tx) ∨ tx.Fits frame ∧ result = (true, tx.push frame)

def mcServerQueuePacket (tx : TxRing) (body : List UInt8) : Bool × TxRing :=
  if body.length > mcMaxPacketBody then (false, tx)
  else
    match mcVarintEncode (Int32.ofNat body.length) 5 with
    | none => (false, tx)
    | some header =>
      if tx.free < header.length ∨ tx.free - header.length < body.length then (false, tx)
      else tx.writeAll [header, body]

def queuePacketCompressedPlain (tx : TxRing) (body : List UInt8) : Bool × TxRing :=
  if body.length > mcMaxPacketBody then (false, tx)
  else
    match mcVarintEncode (Int32.ofNat (1 + body.length)) 5 with
    | none => (false, tx)
    | some header =>
      if tx.free < header.length + (1 + body.length) then (false, tx)
      else tx.writeAll [header, [0], body]

theorem mcServerQueuePacket_eq (tx : TxRing) (body : List UInt8) :
    mcServerQueuePacket tx body =
      if body.length ≤ mcMaxPacketBody ∧ (plainFrame body).length ≤ tx.free then
        (true, tx.push (plainFrame body))
      else (false, tx) := by
  have hlength : (plainFrame body).length =
      (varintBytes (Int32.ofNat body.length)).length + body.length := List.length_append
  rw [mcServerQueuePacket, mcVarintEncode_eq]
  dsimp only
  by_cases hbody : body.length ≤ mcMaxPacketBody
  case neg =>
    rw [if_pos (Nat.lt_of_not_le hbody), if_neg (fun h => hbody h.1)]
  rw [if_neg (Nat.not_lt.mpr hbody)]
  by_cases hfits : (plainFrame body).length ≤ tx.free
  · rw [if_neg (by omega), if_pos ⟨hbody, hfits⟩]
    have hpieces : [varintBytes (Int32.ofNat body.length), body].flatten = plainFrame body := by
      simp [plainFrame]
    rw [← hpieces] at hfits ⊢
    exact TxRing.writeAll_of_le hfits
  · rw [if_pos (by omega), if_neg (fun h => hfits h.2)]

theorem queuePacketCompressedPlain_eq (tx : TxRing) (body : List UInt8) :
    queuePacketCompressedPlain tx body =
      if body.length ≤ mcMaxPacketBody ∧ (compressedFrame 0 body).length ≤ tx.free then
        (true, tx.push (compressedFrame 0 body))
      else (false, tx) := by
  have hframe : compressedFrame 0 body =
      varintBytes (Int32.ofNat (1 + body.length)) ++ ([0] ++ body) := by
    rw [compressedFrame, plainFrame, varintBytes_zero, List.length_append]
    rfl
  have hlength : (compressedFrame 0 body).length =
      (varintBytes (Int32.ofNat (1 + body.length))).length + (1 + body.length) := by
    rw [hframe, List.length_append, List.length_append]
    rfl
  rw [queuePacketCompressedPlain, mcVarintEncode_eq]
  dsimp only
  by_cases hbody : body.length ≤ mcMaxPacketBody
  case neg =>
    rw [if_pos (Nat.lt_of_not_le hbody), if_neg (fun h => hbody h.1)]
  rw [if_neg (Nat.not_lt.mpr hbody), ← hlength]
  by_cases hfits : (compressedFrame 0 body).length ≤ tx.free
  · rw [if_neg (Nat.not_lt.mpr hfits), if_pos ⟨hbody, hfits⟩]
    have hpieces : [varintBytes (Int32.ofNat (1 + body.length)), [0], body].flatten =
        compressedFrame 0 body := by
      rw [hframe]
      simp
    rw [← hpieces] at hfits ⊢
    exact TxRing.writeAll_of_le hfits
  · rw [if_pos (Nat.lt_of_not_le hfits), if_neg (fun h => hfits h.2)]

theorem length_plainFrame_le (body : List UInt8) : (plainFrame body).length ≤ body.length + 5 := by
  have := length_varintBytes_le (Int32.ofNat body.length)
  rw [plainFrame, List.length_append]
  omega

theorem length_compressedFrame_zero_le (body : List UInt8) :
    (compressedFrame 0 body).length ≤ body.length + 6 := by
  have := length_plainFrame_le (varintBytes 0 ++ body)
  rw [List.length_append, varintBytes_zero, List.length_singleton] at this
  rw [compressedFrame, varintBytes_zero]
  omega

theorem mcServerQueuePacket_addsFrame (tx : TxRing) (body : List UInt8) :
    AddsFrame tx (plainFrame body) (mcServerQueuePacket tx body) := by
  rw [mcServerQueuePacket_eq]
  split_ifs with h
  · have hbound : (plainFrame body).length ≤ mcMaxFrame :=
      (length_plainFrame_le body).trans (Nat.add_le_add h.1 (by decide))
    exact .inr ⟨⟨h.2, hbound⟩, rfl⟩
  · exact .inl rfl

theorem queuePacketCompressedPlain_addsFrame (tx : TxRing) (body : List UInt8) :
    AddsFrame tx (compressedFrame 0 body) (queuePacketCompressedPlain tx body) := by
  rw [queuePacketCompressedPlain_eq]
  split_ifs with h
  · have hbound : (compressedFrame 0 body).length ≤ mcMaxFrame :=
      (length_compressedFrame_zero_le body).trans (Nat.add_le_add_right h.1 6)
    exact .inr ⟨⟨h.2, hbound⟩, rfl⟩
  · exact .inl rfl

end StarrySky.Core
