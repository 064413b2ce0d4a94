import StarrySky.Core.ClientStream

/-! What `mc_server_take_tx_reset` reports to a program that sends the transmit ring on: whether
the ring was emptied since it was asked last. -/

namespace StarrySky.Core
open StarrySky.Base

variable {cfg : McConfig} {server : McServer} {tx : TxRing} {taken : List UInt8}

/-- What accepted packets preserve, a receive that succeeds preserves. -/
theorem receiveLoop_preserves_of_accepted {P : McServer → TxRing → Prop}
    (hpacket : ∀ server body tx, P server tx → (handlePacket cfg server body tx).1 = true →
      P (handlePacket cfg server body tx).2.1 (handlePacket cfg server body tx).2.2)
    (haccum : ∀ server rxAccum tx, P server tx → P { server with rxAccum := rxAccum } tx)
    (rxAccum : List UInt8) (h : P server tx)
    (haccepted : (receiveLoop cfg server rxAccum tx).1 = true) :
    P (receiveLoop cfg server rxAccum tx).2.1 (receiveLoop cfg server rxAccum tx).2.2 := by
  induction hn : rxAccum.length using Nat.strong_induction_on generalizing server rxAccum tx with
  | _ n ih =>
  rw [receiveLoop] at haccepted ⊢
  cases hframe : classifyFrame rxAccum with
  | needMore =>
    dsimp only
    split_ifs
    · exact haccum _ _ _ h
    · exact haccum _ _ _ h
  | invalid => exact haccum _ _ _ h
  | ready frameLen =>
    rw [hframe] at haccepted
    dsimp only at haccepted ⊢
    split at haccepted
    case h_1 => cases haccepted
    case h_2 packet hread =>
      cases hbody : unwrapPacket server packet with
      | none =>
        rw [hbody] at haccepted
        cases haccepted
      | some body =>
        rw [hbody] at haccepted
        dsimp only at haccepted ⊢
        split_ifs at haccepted with hhandled
        rw [if_neg hhandled]
        have hnext := hpacket server body tx h (by simpa using hhandled)
        obtain ⟨hne, hpos⟩ := frameLen_pos hread
        have hlength := List.length_pos_of_ne_nil hne
        apply ih _ _ _ hnext haccepted rfl
        rw [List.length_drop]
        omega

/-- `taken` is what left the ring since the reset that was reported last. -/
def TakenSinceReset (taken : List UInt8) (server : McServer) (tx : TxRing) : Prop :=
  (if server.txResetRequested then [] else taken) ++ tx.ring.items = tx.history

theorem TxRing.push_items {front frame : List UInt8} (h : front ++ tx.ring.items = tx.history)
    (hfits : frame.length ≤ tx.free) :
    front ++ (tx.push frame).ring.items = (tx.push frame).history := by
  have hitems : (tx.push frame).ring.items = tx.ring.items ++ frame :=
    (Ringbuf.write_of_le hfits).2
  rw [history_push hfits, hitems, ← List.append_assoc, h]

theorem TakenSinceReset.packetStep (h : TakenSinceReset taken server tx)
    {result : Bool × McServer × TxRing} (hstep : PacketStep cfg server tx result)
    (haccepted : result.1 = true) : TakenSinceReset taken result.2.1 result.2.2 := by
  cases hstep with
  | reject => cases haccepted
  | ignore => exact h
  | acceptHandshake hstate next hnext =>
    have hitems : tx.dropAll.ring.items = [] := List.drop_length
    rw [TakenSinceReset, hitems]
    rfl
  | badNextState hstate => cases haccepted
  | answerStatus hstate id hid rest hfits => exact tx.push_items h hfits.free
  | loginCompressed _ hstate text htext hname success hsuccess hfits => exact tx.push_items h hfits
  | loginPlain _ hstate text htext hname success hsuccess hfits => exact tx.push_items h hfits.free
  | keepalive hstate => exact h
  | movement hstate player onGround => exact h
  | chat hstate message result hresult packets hpackets hbodies hfits =>
    have hflag : (applyCommandResult server result).txResetRequested = server.txResetRequested := by
      unfold applyCommandResult
      split <;> rfl
    rw [TakenSinceReset, hflag]
    exact tx.push_items h hfits

theorem TakenSinceReset.receive (h : TakenSinceReset taken server tx) (bytes : List UInt8)
    (haccepted : (mcServerReceive cfg server bytes tx).1 = true) :
    TakenSinceReset taken (mcServerReceive cfg server bytes tx).2.1
      (mcServerReceive cfg server bytes tx).2.2 := by
  rw [mcServerReceive] at haccepted ⊢
  cases hbytes : accumulate server.rxAccum bytes with
  | none =>
    rw [hbytes] at haccepted
    cases haccepted
  | some rxAccum =>
    rw [hbytes] at haccepted
    apply receiveLoop_preserves_of_accepted (P := TakenSinceReset taken)
    case hpacket =>
      intro server body tx h hhandled
      exact h.packetStep (handlePacket_step cfg server body tx) hhandled
    case haccum => exact fun _ _ _ h => h
    case h => exact h
    case haccepted => exact haccepted

theorem txResetRequested_afterBootstrapPacket (server : McServer) :
    (afterBootstrapPacket cfg server).txResetRequested = server.txResetRequested := by
  unfold afterBootstrapPacket
  split_ifs <;> rfl

theorem TakenSinceReset.tickAt (h : TakenSinceReset taken server tx) (nowTicks : UInt32) :
    TakenSinceReset taken (mcServerTickAt cfg server tx nowTicks).2.1
      (mcServerTickAt cfg server tx nowTicks).2.2 := by
  apply mcServerTickAt_preserves (P := TakenSinceReset taken)
  case hticks => exact fun _ _ _ h => h
  case hpacket =>
    intro server tx frame h _ _ _ _ hfits
    rw [TakenSinceReset, txResetRequested_afterBootstrapPacket]
    exact tx.push_items h hfits.free
  case hdone => exact fun _ _ h _ _ => h
  case hkeepalive => exact fun _ tx _ h _ _ _ hfits => tx.push_items h hfits.free
  case h => exact h

theorem txResetRequested_mcServerTickAt (server : McServer) (tx : TxRing) (nowTicks : UInt32) :
    (mcServerTickAt cfg server tx nowTicks).2.1.txResetRequested = server.txResetRequested := by
  apply mcServerTickAt_preserves (P := fun next _ =>
    next.txResetRequested = server.txResetRequested)
  case hticks => exact fun _ _ _ h => h
  case hpacket =>
    intro server' tx frame h _ _ _ _ _
    rw [txResetRequested_afterBootstrapPacket, h]
  case hdone => exact fun _ _ h _ _ => h
  case hkeepalive => exact fun _ _ _ h _ _ _ _ => h
  case h => rfl

/-- The beginning of a stream that a client decodes into packets of the server. -/
def ClientPrefix (cfg : McConfig) (part : List UInt8) : Prop :=
  ∃ stream frames, part <+: stream ∧ clientDecode stream = some frames ∧
    ∀ frame ∈ frames, frame.Known cfg

theorem ClientPrefix.shorten {part part' : List UInt8} (h : ClientPrefix cfg part)
    (hfront : part' <+: part) : ClientPrefix cfg part' := by
  obtain ⟨stream, frames, hpart, hstream⟩ := h
  exact ⟨stream, frames, hfront.trans hpart, hstream⟩

/-- A program that sends the ring on has made these calls, asked for the reset after each receive,
and taken from the ring all that left it since. -/
structure Served (cfg : McConfig) (txCap : ℕ) (taken : List UInt8) (server : McServer)
    (tx : TxRing) : Prop where
  reached : ∃ ops, streamRun cfg (streamStart cfg txCap) ops = (server, tx)
  items : taken ++ tx.ring.items = tx.history
  asked : server.txResetRequested = false

variable {txCap : ℕ}

theorem streamRun_concat (cfg : McConfig) (s : McServer × TxRing) (ops : List StreamOp)
    (op : StreamOp) : streamRun cfg s (ops ++ [op]) = streamStep cfg (streamRun cfg s ops) op := by
  induction ops generalizing s with
  | nil => rfl
  | cons first ops ih => exact ih _

theorem reached_step {s : McServer × TxRing}
    (h : ∃ ops, streamRun cfg (streamStart cfg txCap) ops = s) (op : StreamOp) :
    ∃ ops, streamRun cfg (streamStart cfg txCap) ops = streamStep cfg s op := by
  obtain ⟨ops, hops⟩ := h
  refine ⟨ops ++ [op], ?_⟩
  rw [streamRun_concat, hops]

theorem served_start (cfg : McConfig) (txCap : ℕ) :
    Served cfg txCap [] (mcServerInit cfg) { ring := .init txCap, history := [] } :=
  ⟨⟨[], rfl⟩, rfl, rfl⟩

theorem Served.takenSinceReset (h : Served cfg txCap taken server tx) :
    TakenSinceReset taken server tx := by
  rw [TakenSinceReset, h.asked]
  exact h.items

theorem Served.tickAt (h : Served cfg txCap taken server tx) (nowTicks : UInt32) :
    Served cfg txCap taken (mcServerTickAt cfg server tx nowTicks).2.1
      (mcServerTickAt cfg server tx nowTicks).2.2 := by
  have hasked : (mcServerTickAt cfg server tx nowTicks).2.1.txResetRequested = false :=
    (txResetRequested_mcServerTickAt server tx nowTicks).trans h.asked
  have hitems := @TakenSinceReset.tickAt cfg server tx taken h.takenSinceReset nowTicks
  rw [TakenSinceReset, hasked] at hitems
  exact ⟨reached_step h.reached (.tickAt nowTicks), hitems, hasked⟩

theorem Served.drain (h : Served cfg txCap taken server tx) (count : ℕ) :
    Served cfg txCap (taken ++ tx.ring.items.take count) server (tx.drain count) := by
  refine ⟨reached_step h.reached (.drain count), ?_, h.asked⟩
  show taken ++ tx.ring.items.take count ++ tx.ring.items.drop count = tx.history
  rw [List.append_assoc, List.take_append_drop]
  exact h.items

theorem Served.takeTxReset (h : Served cfg txCap taken server tx) :
    (mcServerTakeTxReset server).1 = false ∧
      Served cfg txCap taken (mcServerTakeTxReset server).2 tx :=
  ⟨h.asked, reached_step h.reached .takeTxReset, h.items, rfl⟩

theorem Served.receive (h : Served cfg txCap taken server tx) (bytes : List UInt8)
    (haccepted : (mcServerReceive cfg server bytes tx).1 = true) :
    Served cfg txCap
      (if (mcServerTakeTxReset (mcServerReceive cfg server bytes tx).2.1).1 then [] else taken)
      (mcServerTakeTxReset (mcServerReceive cfg server bytes tx).2.1).2
      (mcServerReceive cfg server bytes tx).2.2 := by
  -- After a receive that succeeds the reset says whether what was taken is of an older stream.
  have hreached := reached_step (reached_step h.reached (.receive bytes)) .takeTxReset
  exact ⟨hreached, h.takenSinceReset.receive bytes haccepted, rfl⟩

theorem Served.decoded (h : Served cfg txCap taken server tx)
    (hcfg : cfg.protocolCompressionEnable = true) :
    ∃ frames, clientDecode tx.history = some frames ∧ ∀ frame ∈ frames, frame.Known cfg := by
  obtain ⟨ops, hops⟩ := h.reached
  have hdecode := (clientDecode_streamRun cfg hcfg txCap ops).1
  rw [hops] at hdecode
  exact hdecode

theorem Served.clientPrefix (h : Served cfg txCap taken server tx)
    (hcfg : cfg.protocolCompressionEnable = true) : ClientPrefix cfg taken := by
  obtain ⟨frames, hframes, hknown⟩ := h.decoded hcfg
  refine ⟨tx.history, frames, ?_, hframes, hknown⟩
  rw [← h.items]
  exact List.prefix_append _ _

end StarrySky.Core
