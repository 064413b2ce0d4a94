import StarrySky.Core.EarlyReject

/-! Whether the accumulator has room for a stream of accepted frames. A call puts all its bytes
behind the part of a frame that is there, before it takes any frame out. -/

namespace StarrySky.Core
open StarrySky.Base

variable {cfg : McConfig} {server : McServer} {tx : TxRing} {frame : InboundFrame}

/-! What the check of a partial frame says of a part and of a longer one. -/

theorem packetIdInvalid_mono {part whole : List UInt8} (hpre : part <+: whole)
    (h : packetIdInvalid part = true) : packetIdInvalid whole = true := by
  obtain ⟨more, rfl⟩ := hpre
  rw [packetIdInvalid] at h ⊢
  cases hpart : mcVarintDecode part with
  | none =>
    rw [hpart] at h
    have hlen : 5 ≤ part.length := by simpa using h
    rw [mcVarintDecode_none_append hpart hlen]
    simpa using hlen.trans (Nat.le_add_right _ _)
  | some decoded =>
    rw [hpart] at h
    rw [(mcVarintDecode_append hpart more).1]
    exact h

theorem packetIdInvalid_of_long {part whole : List UInt8} (hpre : part <+: whole)
    (hlen : 5 ≤ part.length) (h : packetIdInvalid whole = true) : packetIdInvalid part = true := by
  obtain ⟨more, rfl⟩ := hpre
  rw [packetIdInvalid] at h ⊢
  cases hpart : mcVarintDecode part with
  | none => simpa using hlen
  | some decoded =>
    rw [(mcVarintDecode_append hpart more).1] at h
    exact h

theorem used_le_of_mcVarintDecode {src : List UInt8} {value : Int32} {used : ℕ}
    (h : mcVarintDecode src = some (value, used)) : used ≤ varintMaxBytes := by
  by_cases hlong : src.length ≤ varintMaxBytes
  · have happend := mcVarintDecode_append h []
    exact happend.2.trans hlong
  · have hfirst : (src.take varintMaxBytes).length = varintMaxBytes :=
      List.length_take_of_le (Nat.le_of_not_le hlong)
    rw [← List.take_append_drop varintMaxBytes src] at h
    cases hpart : mcVarintDecode (src.take varintMaxBytes) with
    | none =>
      rw [mcVarintDecode_none_append hpart hfirst.ge] at h
      cases h
    | some decoded =>
      obtain ⟨hwhole, hused⟩ := mcVarintDecode_append hpart (src.drop varintMaxBytes)
      rw [h] at hwhole
      cases hwhole
      exact hused.trans hfirst.le

theorem partialBodyInvalid_mono {part whole : List UInt8} (hpre : part <+: whole)
    (h : partialBodyInvalid cfg server part = true) :
    partialBodyInvalid cfg server whole = true := by
  obtain ⟨more, rfl⟩ := hpre
  rw [partialBodyInvalid] at h ⊢
  by_cases hnil : part = []
  · rw [if_pos hnil] at h
    exact absurd h Bool.false_ne_true
  have hne : part ++ more ≠ [] := fun heq => hnil (List.append_eq_nil_iff.mp heq).1
  rw [if_neg hnil] at h
  rw [if_neg hne]
  by_cases hmode : cfg.protocolCompressionEnable = true ∧ server.compressionEnabled = true
  case neg =>
    rw [if_neg hmode] at h ⊢
    exact packetIdInvalid_mono (List.prefix_append _ _) h
  rw [if_pos hmode] at h ⊢
  cases hpart : mcVarintDecode part with
  | none =>
    rw [hpart] at h
    have hlen : 5 ≤ part.length := by simpa using h
    rw [mcVarintDecode_none_append hpart hlen]
    simpa using hlen.trans (Nat.le_add_right _ _)
  | some decoded =>
    obtain ⟨dataLen, used⟩ := decoded
    obtain ⟨hwhole, hused⟩ := mcVarintDecode_append hpart more
    rw [hpart] at h
    rw [hwhole]
    dsimp only at h ⊢
    split_ifs at h ⊢ with hdata hwholeUsed hpartUsed
    · rfl
    · rw [List.length_append] at hwholeUsed
      exact absurd ((Nat.le_add_right _ _).trans hwholeUsed) hpartUsed
    · rw [List.drop_append_of_le_length hused]
      exact packetIdInvalid_mono (List.prefix_append _ _) h

theorem partialBodyInvalid_of_long {part whole : List UInt8} (hpre : part <+: whole)
    (hlen : 2 * varintMaxBytes ≤ part.length) (h : partialBodyInvalid cfg server whole = true) :
    partialBodyInvalid cfg server part = true := by
  have hfive : varintMaxBytes = 5 := rfl
  obtain ⟨more, rfl⟩ := hpre
  have hnil : part ≠ [] := List.ne_nil_of_length_pos (by omega)
  have hne : part ++ more ≠ [] := fun heq => hnil (List.append_eq_nil_iff.mp heq).1
  rw [partialBodyInvalid] at h ⊢
  rw [if_neg hne] at h
  rw [if_neg hnil]
  by_cases hmode : cfg.protocolCompressionEnable = true ∧ server.compressionEnabled = true
  case neg =>
    rw [if_neg hmode] at h ⊢
    exact packetIdInvalid_of_long (List.prefix_append _ _) (by omega) h
  rw [if_pos hmode] at h ⊢
  cases hpart : mcVarintDecode part with
  | none =>
    have hfiveLen : 5 ≤ part.length := by omega
    simpa using hfiveLen
  | some decoded =>
    obtain ⟨dataLen, used⟩ := decoded
    obtain ⟨hwhole, hused⟩ := mcVarintDecode_append hpart more
    have hshort := used_le_of_mcVarintDecode hpart
    rw [hwhole] at h
    dsimp only at h ⊢
    split_ifs at h ⊢ with hdata hwholeUsed hpartUsed
    · rfl
    · omega
    · rw [List.drop_append_of_le_length hused] at h
      apply packetIdInvalid_of_long (List.prefix_append _ _) _ h
      rw [List.length_drop]
      omega

theorem partialFrame_mono (hbody : frame.body.length ≤ mcMaxPacketBody) {part whole : List UInt8}
    (hpre : part <+: whole) (hwhole : whole <+: frame.bytes) (hne : part ≠ frame.bytes)
    (h : partialFrameHasInvalidPacketId cfg server part = true) :
    partialFrameHasInvalidPacketId cfg server whole = true := by
  obtain ⟨more, rfl⟩ := hpre
  have hpart : part <+: frame.bytes := (List.prefix_append _ _).trans hwhole
  rcases InboundFrame.part_cases hpart hne with ⟨hmore, -⟩ | ⟨bodyPart, rfl, -⟩
  · rw [partialFrameHasInvalidPacketId_of_all_more cfg server hmore] at h
    exact absurd h Bool.false_ne_true
  · rw [partialFrameHasInvalidPacketId_body cfg server hbody] at h
    rw [List.append_assoc, partialFrameHasInvalidPacketId_body cfg server hbody]
    exact partialBodyInvalid_mono (List.prefix_append _ _) h

theorem partialFrame_of_long (hbody : frame.body.length ≤ mcMaxPacketBody) {part whole : List UInt8}
    (hpre : part <+: whole) (hwhole : whole <+: frame.bytes) (hne : part ≠ frame.bytes)
    (hlen : 3 * varintMaxBytes ≤ part.length)
    (h : partialFrameHasInvalidPacketId cfg server whole = true) :
    partialFrameHasInvalidPacketId cfg server part = true := by
  -- The length of the frame, the length of the data and the packet id are in the first bytes.
  have hfive : varintMaxBytes = 5 := rfl
  obtain ⟨more, rfl⟩ := hpre
  have hpart : part <+: frame.bytes := (List.prefix_append _ _).trans hwhole
  rcases InboundFrame.part_cases hpart hne with ⟨-, hshort⟩ | ⟨bodyPart, rfl, -⟩
  · omega
  · have hprefix := frame.length_lengthBytes_le
    rw [List.length_append] at hlen
    rw [List.append_assoc, partialFrameHasInvalidPacketId_body cfg server hbody] at h
    rw [partialFrameHasInvalidPacketId_body cfg server hbody]
    exact partialBodyInvalid_of_long (List.prefix_append _ _) (by omega) h

def FedAlone (cfg : McConfig) : McServer → TxRing → List InboundFrame → Prop
  | _, _, [] => True
  | server, tx, frame :: frames =>
    let received := mcServerReceive cfg server frame.bytes tx
    frame.body.length ≤ mcMaxPacketBody ∧ received.1 = true ∧
      FedAlone cfg received.2.1 received.2.2 frames

/-- No call, up to the first that returns 0, finds the accumulator full. -/
def NeverFull (cfg : McConfig) : McServer → TxRing → List (List UInt8) → Prop
  | _, _, [] => True
  | server, tx, piece :: pieces =>
    let received := mcServerReceive cfg server piece tx
    accumulate server.rxAccum piece ≠ none ∧
      (received.1 = true → NeverFull cfg received.2.1 received.2.2 pieces)

/-- What is there of the frame before the call that brings its end is rejected, for a packet id
that no handler knows. -/
def InboundFrame.RejectedInCalls (cfg : McConfig) (server : McServer) (frame : InboundFrame) :
    Prop :=
  partialFrameHasInvalidPacketId cfg server (frame.bytes.take (frame.bytes.length - 512)) = true

/-- Up to a frame that is rejected, every frame leaves room for a call behind what is there of it,
or has no more behind it than there is room for. -/
def AccumFits (cfg : McConfig) : McServer → TxRing → List InboundFrame → Prop
  | _, _, [] => True
  | server, tx, frame :: frames =>
    let received := mcServerReceive cfg server frame.bytes tx
    frame.RejectedInCalls cfg server ∨
      (frame.bytes.length - 1 + 512 ≤ mcRxAccumSize ∨
        frame.bytes.length + (inboundStream frames).length ≤ mcRxAccumSize) ∧
      AccumFits cfg received.2.1 received.2.2 frames

theorem take_ne_bytes (frame : InboundFrame) :
    frame.bytes.take (frame.bytes.length - 512) ≠ frame.bytes := by
  have hlen := List.length_pos_of_ne_nil frame.bytes_ne_nil
  intro heq
  have htake := congrArg List.length heq
  rw [List.length_take] at htake
  omega

theorem not_rejectedInCalls_of_short (hshort : frame.bytes.length ≤ 512) :
    ¬ frame.RejectedInCalls cfg server := by
  rw [InboundFrame.RejectedInCalls, Nat.sub_eq_zero_of_le hshort, List.take_zero]
  exact Bool.false_ne_true

theorem not_rejectedInCalls (hbody : frame.body.length ≤ mcMaxPacketBody)
    (hid : frame.PacketIdAtMost server 0x7f) : ¬ frame.RejectedInCalls cfg server := by
  rw [InboundFrame.RejectedInCalls,
    partialFrame_of_packetIdAtMost hbody (List.take_prefix _ _) (take_ne_bytes frame) hid]
  exact Bool.false_ne_true

theorem InboundFrame.RejectedInCalls.lt (hbody : frame.body.length ≤ mcMaxPacketBody)
    (hrejected : frame.RejectedInCalls cfg server) {rest : List UInt8} (hpre : rest <+: frame.bytes)
    (hvalid : partialFrameHasInvalidPacketId cfg server rest = false) :
    rest.length < frame.bytes.length - 512 := by
  apply Nat.lt_of_not_le
  intro hlong
  have htake : (frame.bytes.take (frame.bytes.length - 512)).length = frame.bytes.length - 512 :=
    List.length_take_of_le (Nat.sub_le _ _)
  have hpart : frame.bytes.take (frame.bytes.length - 512) <+: rest :=
    List.prefix_of_prefix_length_le (List.take_prefix _ _) hpre (htake.trans_le hlong)
  exact absurd
    (hvalid.symm.trans (partialFrame_mono hbody hpart hpre (take_ne_bytes frame) hrejected))
    Bool.false_ne_true

/-- The frames that a call completes: the first of them began in the calls before, the others are
in this one. -/
theorem receiveLoop_done (done later : List InboundFrame) (hempty : server.rxAccum = [])
    (h : FedAlone cfg server tx (done ++ later)) (hfits : AccumFits cfg server tx (done ++ later))
    (hhead : ∀ frame ∈ done.head?, ¬ frame.RejectedInCalls cfg server)
    (htail : ∀ frame ∈ done.tail, frame.bytes.length ≤ 512) :
    ∃ server' tx', server'.rxAccum = [] ∧ FedAlone cfg server' tx' later ∧
      AccumFits cfg server' tx' later ∧
      ∀ rxAccum rest, receiveLoop cfg { server with rxAccum := rxAccum }
        (inboundStream done ++ rest) tx =
          receiveLoop cfg { server' with rxAccum := rxAccum } rest tx' := by
  induction done generalizing server tx with
  | nil => exact ⟨server, tx, hempty, h, hfits, fun _ _ => rfl⟩
  | cons frame done ih =>
    obtain ⟨hbody, haccepted, hlater⟩ := h
    have hkept := hfits.resolve_left (hhead frame rfl)
    have hreceive := mcServerReceive_frame cfg hempty hbody tx
    rw [hreceive] at haccepted hlater hkept
    have hempty' := (rxAccum_handleFrame cfg server frame tx).trans hempty
    rw [List.tail_cons] at htail
    obtain ⟨server', tx', hserver', hfed, hfits', hloop⟩ := ih hempty' hlater hkept.2
      (fun next hnext => not_rejectedInCalls_of_short (htail next (List.mem_of_mem_head? hnext)))
      (fun next hnext => htail next (List.mem_of_mem_tail hnext))
    refine ⟨server', tx', hserver', hfed, hfits', ?_⟩
    intro rxAccum rest
    rw [receiveLoop_accepted hbody haccepted]
    exact hloop rxAccum rest

theorem receiveLoop_rest {rest : List UInt8} {later : List InboundFrame}
    (hrest : StartsWith rest (later.map InboundFrame.bytes)) (h : FedAlone cfg server tx later)
    (rxAccum : List UInt8)
    (hreceived : (receiveLoop cfg { server with rxAccum := rxAccum } rest tx).1 = true) :
    receiveLoop cfg { server with rxAccum := rxAccum } rest tx =
        (true, { server with rxAccum := rest }, tx) ∧
      partialFrameHasInvalidPacketId cfg server rest = false := by
  rcases hrest with ⟨rfl, -⟩ | ⟨segment, segments, hsegments, hpre, hne⟩
  · exact ⟨receiveLoop_nil cfg _ tx, rfl⟩
  · obtain ⟨frame, frames, rfl, rfl, -⟩ := List.map_eq_cons_iff.mp hsegments
    have hpart := receiveLoop_part cfg { server with rxAccum := rxAccum } h.1 hpre hne tx
    rw [partialFrameHasInvalidPacketId_withAccum] at hpart
    rw [hpart] at hreceived ⊢
    cases hinvalid : partialFrameHasInvalidPacketId cfg server rest with
    | true =>
      rw [hinvalid, if_pos rfl] at hreceived
      exact absurd hreceived Bool.false_ne_true
    | false => exact ⟨rfl, rfl⟩

theorem InboundFrame.length_bytes_le (hbody : frame.body.length ≤ mcMaxPacketBody) :
    frame.bytes.length + 3 ≤ mcRxAccumSize := by
  have hprefix := frame.length_lengthBytes_le
  have hfive : varintMaxBytes = 5 := rfl
  have hmax : mcMaxPacketBody = 32768 := rfl
  have hsize : mcRxAccumSize = 32776 := rfl
  rw [frame.length_bytes]
  omega

theorem accumFits_room {rest piece more : List UInt8} {later : List InboundFrame}
    (hrest : StartsWith rest (later.map InboundFrame.bytes)) (h : FedAlone cfg server tx later)
    (hfits : AccumFits cfg server tx later)
    (hvalid : partialFrameHasInvalidPacketId cfg server rest = false)
    (hpiece : piece.length ≤ 512) (hstream : rest ++ piece ++ more = inboundStream later) :
    rest.length + piece.length ≤ mcRxAccumSize := by
  have hsize : mcRxAccumSize = 32776 := rfl
  rcases hrest with ⟨rfl, -⟩ | ⟨segment, segments, hsegments, hpre, hne⟩
  · rw [List.length_nil]
    omega
  · obtain ⟨frame, frames, rfl, rfl, -⟩ := List.map_eq_cons_iff.mp hsegments
    have hbody : frame.body.length ≤ mcMaxPacketBody := h.1
    have hshort : rest.length < frame.bytes.length :=
      lt_of_le_of_ne hpre.length_le fun heq => hne (hpre.eq_of_length heq)
    rcases hfits with hrejected | ⟨hroom | hlast, -⟩
    · have hlt := hrejected.lt hbody hpre hvalid
      have hmax := InboundFrame.length_bytes_le hbody
      omega
    · omega
    · have htotal := congrArg List.length hstream
      rw [inboundStream, List.map_cons, List.flatten_cons, List.length_append, List.length_append,
        List.length_append] at htotal
      rw [inboundStream] at hlast
      omega

/-- One call completes at most one frame that it did not begin. -/
theorem completed_in_call {rest piece rest' : List UInt8} {done later : List InboundFrame}
    (hrest : StartsWith rest ((done ++ later).map InboundFrame.bytes))
    (h : FedAlone cfg server tx (done ++ later))
    (hvalid : partialFrameHasInvalidPacketId cfg server rest = false)
    (hpiece : piece.length ≤ 512) (hpart : rest ++ piece = inboundStream done ++ rest') :
    (∀ frame ∈ done.head?, ¬ frame.RejectedInCalls cfg server) ∧
      ∀ frame ∈ done.tail, frame.bytes.length ≤ 512 := by
  cases done with
  | nil => exact ⟨nofun, nofun⟩
  | cons first done =>
    have hpre : rest <+: first.bytes := by
      rcases hrest with ⟨-, hnil⟩ | ⟨segment, segments, hsegments, hpre, -⟩
      · exact absurd hnil (List.cons_ne_nil _ _)
      · rw [List.cons_append, List.map_cons] at hsegments
        obtain ⟨rfl, -⟩ := List.cons.inj hsegments
        exact hpre
    have hbody : first.body.length ≤ mcMaxPacketBody := h.1
    have htotal := congrArg List.length hpart
    rw [inboundStream, List.map_cons, List.flatten_cons, List.length_append, List.length_append,
      List.length_append] at htotal
    have hle := hpre.length_le
    constructor
    · rintro frame hframe hrejected
      obtain rfl : first = frame := Option.some.inj hframe
      have hlt := hrejected.lt hbody hpre hvalid
      omega
    · intro frame hframe
      have hmem : frame.bytes ∈ done.map InboundFrame.bytes := List.mem_map_of_mem hframe
      have hsub := (List.sublist_flatten_of_mem hmem).length_le
      omega

theorem neverFull_start {rest : List UInt8} {later : List InboundFrame}
    (hempty : server.rxAccum = []) (hrest : StartsWith rest (later.map InboundFrame.bytes))
    (h : FedAlone cfg server tx later) (hfits : AccumFits cfg server tx later)
    (hvalid : partialFrameHasInvalidPacketId cfg server rest = false)
    {pieces : List (List UInt8)} (hpieces : rest ++ pieces.flatten = inboundStream later)
    (hlength : ∀ piece ∈ pieces, piece.length ≤ 512) :
    NeverFull cfg { server with rxAccum := rest } tx pieces := by
  induction pieces generalizing server tx rest later with
  | nil => trivial
  | cons piece pieces ih =>
    rw [List.flatten_cons, ← List.append_assoc] at hpieces
    have hpiece := hlength piece List.mem_cons_self
    have hroom := accumFits_room hrest h hfits hvalid hpiece hpieces
    have hprefix : rest ++ piece <+: (later.map InboundFrame.bytes).flatten := ⟨_, hpieces⟩
    obtain ⟨doneBytes, laterBytes, rest', hsplit, hpart, hrest'⟩ := exists_split_flatten hprefix
    obtain ⟨done, later', rfl, rfl, rfl⟩ := List.map_eq_append_iff.mp hsplit
    have hreceive : mcServerReceive cfg { server with rxAccum := rest } piece tx =
        receiveLoop cfg { server with rxAccum := rest } (inboundStream done ++ rest') tx := by
      rw [mcServerReceive, accumulate_of_le hroom]
      exact congrArg (receiveLoop cfg { server with rxAccum := rest } · tx) hpart
    have hstream : rest' ++ pieces.flatten = inboundStream later' := by
      rw [hpart, inboundStream_append, List.append_assoc] at hpieces
      exact List.append_cancel_left hpieces
    obtain ⟨hhead, htail⟩ := completed_in_call hrest h hvalid hpiece hpart
    obtain ⟨server', tx', hempty', hfed, hfits', hloop⟩ :=
      receiveLoop_done done later' hempty h hfits hhead htail
    refine ⟨by rw [accumulate_of_le hroom]; exact Option.some_ne_none _, ?_⟩
    rw [hreceive, hloop]
    intro hreceived
    obtain ⟨hkept, hvalid'⟩ := receiveLoop_rest hrest' hfed rest hreceived
    rw [hkept]
    exact ih hempty' hrest' hfed hfits' hvalid' hstream
      fun next hnext => hlength next (List.mem_cons_of_mem _ hnext)

/-! The calls that find the accumulator full. -/

theorem receiveCalls_append {server' : McServer} {tx' : TxRing} {pieces : List (List UInt8)}
    (h : receiveCalls cfg server tx pieces = (true, server', tx')) (more : List (List UInt8)) :
    receiveCalls cfg server tx (pieces ++ more) = receiveCalls cfg server' tx' more := by
  induction pieces generalizing server tx with
  | nil =>
    cases h
    rfl
  | cons piece pieces ih =>
    rw [receiveCalls] at h
    rw [List.cons_append, receiveCalls]
    cases hreceived : (mcServerReceive cfg server piece tx).1 with
    | false =>
      rw [hreceived, Bool.not_false, if_pos rfl] at h
      rw [h] at hreceived
      exact absurd hreceived.symm Bool.false_ne_true
    | true =>
      rw [hreceived, Bool.not_true, if_neg Bool.false_ne_true] at h
      rw [Bool.not_true, if_neg Bool.false_ne_true]
      exact ih h

theorem neverFull_of_append {server' : McServer} {tx' : TxRing} {pieces more : List (List UInt8)}
    (h : receiveCalls cfg server tx pieces = (true, server', tx'))
    (hfull : NeverFull cfg server tx (pieces ++ more)) : NeverFull cfg server' tx' more := by
  induction pieces generalizing server tx with
  | nil =>
    cases h
    exact hfull
  | cons piece pieces ih =>
    rw [receiveCalls] at h
    obtain ⟨-, hmore⟩ := hfull
    cases hreceived : (mcServerReceive cfg server piece tx).1 with
    | false =>
      rw [hreceived, Bool.not_false, if_pos rfl] at h
      rw [h] at hreceived
      exact absurd hreceived.symm Bool.false_ne_true
    | true =>
      rw [hreceived, Bool.not_true, if_neg Bool.false_ne_true] at h
      exact ih h (hmore hreceived)

def byteCalls (bytes : List UInt8) : List (List UInt8) := bytes.map ([·])

theorem flatten_byteCalls (bytes : List UInt8) : (byteCalls bytes).flatten = bytes := by
  induction bytes with
  | nil => rfl
  | cons byte bytes ih =>
    rw [byteCalls] at ih
    rw [byteCalls, List.map_cons, List.flatten_cons, ih, List.singleton_append]

theorem length_byteCalls {bytes piece : List UInt8} (h : piece ∈ byteCalls bytes) :
    piece.length = 1 := by
  obtain ⟨byte, -, rfl⟩ := List.mem_map.mp h
  rfl

theorem receiveCalls_byteCalls (hbody : frame.body.length ≤ mcMaxPacketBody)
    {done part : List UInt8}
    (hpre : done ++ part <+: frame.bytes) (hne : done ++ part ≠ frame.bytes)
    (hvalid : partialFrameHasInvalidPacketId cfg server (done ++ part) = false) :
    receiveCalls cfg { server with rxAccum := done } tx (byteCalls part) =
      (true, { server with rxAccum := done ++ part }, tx) := by
  induction part generalizing done with
  | nil => rw [List.append_nil]; rfl
  | cons byte part ih =>
    have hsplit : done ++ byte :: part = done ++ [byte] ++ part := by
      rw [List.append_assoc, List.singleton_append]
    rw [hsplit] at hpre hne hvalid ⊢
    have hfirst : done ++ [byte] <+: frame.bytes := (List.prefix_append _ _).trans hpre
    have hfirstNe : done ++ [byte] ≠ frame.bytes := by
      intro heq
      rw [← heq] at hpre hne
      exact hne (hpre.eq_of_length_le (List.prefix_append _ _).length_le)
    have hfirstValid : partialFrameHasInvalidPacketId cfg server (done ++ [byte]) = false := by
      rw [← Bool.not_eq_true]
      intro hinvalid
      exact absurd (hvalid.symm.trans
        (partialFrame_mono hbody (List.prefix_append _ _) hpre hfirstNe hinvalid))
        Bool.false_ne_true
    have hreceive := @mcServerReceive_part cfg server tx frame hbody done [byte] hfirst hfirstNe
    rw [hfirstValid, if_neg Bool.false_ne_true] at hreceive
    rw [byteCalls, List.map_cons, receiveCalls, hreceive]
    exact ih hpre hne hvalid

theorem mcServerReceive_rest (hempty : server.rxAccum = [])
    (hbody : frame.body.length ≤ mcMaxPacketBody) {part rest : List UInt8}
    (hframe : part ++ rest = frame.bytes) :
    mcServerReceive cfg { server with rxAccum := part } rest tx =
      mcServerReceive cfg server frame.bytes tx := by
  have hmax := InboundFrame.length_bytes_le hbody
  have hlen := congrArg List.length hframe
  rw [List.length_append] at hlen
  have hroom : part.length + rest.length ≤ mcRxAccumSize := by omega
  have hwhole : server.rxAccum.length + frame.bytes.length ≤ mcRxAccumSize := by
    rw [hempty, List.length_nil]
    omega
  rw [mcServerReceive, mcServerReceive, accumulate_of_le hroom, accumulate_of_le hwhole]
  dsimp only
  rw [hframe, hempty, List.nil_append, ← List.append_nil frame.bytes,
    receiveLoop_frame cfg _ hbody, receiveLoop_frame cfg _ hbody, handleFrame_withAccum,
    receiveLoop_nil, receiveLoop_nil]
  rfl

def frameCalls (frame : InboundFrame) : List (List UInt8) :=
  byteCalls (frame.bytes.take (frame.bytes.length - 512)) ++
    [frame.bytes.drop (frame.bytes.length - 512)]

theorem flatten_frameCalls (frame : InboundFrame) : (frameCalls frame).flatten = frame.bytes := by
  rw [frameCalls, List.flatten_append, flatten_byteCalls, List.flatten_singleton,
    List.take_append_drop]

theorem length_frameCalls {piece : List UInt8} (h : piece ∈ frameCalls frame) :
    piece.length ≤ 512 := by
  rw [frameCalls, List.mem_append, List.mem_singleton] at h
  rcases h with hbyte | hlast
  · rw [length_byteCalls hbyte]
    decide
  · rw [hlast, List.length_drop]
    omega

theorem exists_calls (hempty : server.rxAccum = [])
    (hbody : frame.body.length ≤ mcMaxPacketBody) (hkept : ¬ frame.RejectedInCalls cfg server)
    (haccepted : (mcServerReceive cfg server frame.bytes tx).1 = true) :
    ∃ calls : List (List UInt8), calls.flatten = frame.bytes ∧
      (∀ piece ∈ calls, piece.length ≤ 512) ∧
      receiveCalls cfg server tx calls = mcServerReceive cfg server frame.bytes tx := by
  refine ⟨frameCalls frame, flatten_frameCalls frame, fun _ => length_frameCalls, ?_⟩
  have hne : [] ++ frame.bytes.take (frame.bytes.length - 512) ≠ frame.bytes := by
    rw [List.nil_append]
    exact take_ne_bytes frame
  have hvalid : partialFrameHasInvalidPacketId cfg server
      ([] ++ frame.bytes.take (frame.bytes.length - 512)) = false := by
    rw [List.nil_append]
    exact Bool.eq_false_of_not_eq_true hkept
  have hbytes := @receiveCalls_byteCalls cfg server tx frame hbody [] _
    (by rw [List.nil_append]; exact List.take_prefix _ _) hne hvalid
  rw [withAccum_nil hempty, List.nil_append] at hbytes
  rw [frameCalls, receiveCalls_append hbytes, receiveCalls,
    mcServerReceive_rest hempty hbody (List.take_append_drop _ _), haccepted, Bool.not_true,
    if_neg Bool.false_ne_true, receiveCalls, ← haccepted]

/-- The frame without its last byte, byte by byte, and a call with as much as it can bring. -/
def overfullCalls (frame : InboundFrame) (more : List UInt8) : List (List UInt8) :=
  byteCalls frame.bytes.dropLast ++
    (frame.bytes.drop (frame.bytes.length - 1) ++ more).take 512 ::
      byteCalls ((frame.bytes.drop (frame.bytes.length - 1) ++ more).drop 512)

theorem flatten_overfullCalls (frame : InboundFrame) (more : List UInt8) :
    (overfullCalls frame more).flatten = frame.bytes ++ more := by
  rw [overfullCalls, List.flatten_append, flatten_byteCalls, List.flatten_cons, flatten_byteCalls,
    List.take_append_drop, List.dropLast_eq_take, ← List.append_assoc, List.take_append_drop]

theorem length_overfullCalls {more piece : List UInt8} (h : piece ∈ overfullCalls frame more) :
    piece.length ≤ 512 := by
  rw [overfullCalls, List.mem_append, List.mem_cons] at h
  rcases h with hbyte | rfl | hbyte
  · rw [length_byteCalls hbyte]
    decide
  · exact List.length_take_le _ _
  · rw [length_byteCalls hbyte]
    decide

theorem accumulate_of_gt {rxAccum bytes : List UInt8}
    (hlen : rxAccum.length ≤ mcRxAccumSize)
    (h : mcRxAccumSize < rxAccum.length + bytes.length) : accumulate rxAccum bytes = none := by
  induction bytes generalizing rxAccum with
  | nil => exact absurd h (Nat.not_lt.mpr hlen)
  | cons byte bytes ih =>
    rw [List.length_cons] at h
    rw [accumulate]
    split_ifs with hfull
    · rfl
    · apply ih
      all_goals
        rw [List.length_append, List.length_singleton]
        omega

theorem overfullCalls_full (hempty : server.rxAccum = [])
    (hbody : frame.body.length ≤ mcMaxPacketBody) (hkept : ¬ frame.RejectedInCalls cfg server)
    {more : List UInt8} (hlong : mcRxAccumSize < frame.bytes.length - 1 + 512)
    (hmore : mcRxAccumSize < frame.bytes.length + more.length) :
    ¬ NeverFull cfg server tx (overfullCalls frame more) := by
  have hsize : mcRxAccumSize = 32776 := rfl
  have hfive : varintMaxBytes = 5 := rfl
  have hmax := InboundFrame.length_bytes_le hbody
  have hlast : frame.bytes.dropLast.length = frame.bytes.length - 1 := List.length_dropLast
  have hne : [] ++ frame.bytes.dropLast ≠ frame.bytes := by
    intro heq
    have hlen := congrArg List.length heq
    rw [List.nil_append, hlast] at hlen
    omega
  have htake : (frame.bytes.take (frame.bytes.length - 512)).length = frame.bytes.length - 512 :=
    List.length_take_of_le (Nat.sub_le _ _)
  have hpart : frame.bytes.take (frame.bytes.length - 512) <+: frame.bytes.dropLast := by
    rw [List.dropLast_eq_take]
    exact List.take_prefix_take_left (by omega)
  -- what the check says of a part this long it says of all but the last byte
  have hvalid : partialFrameHasInvalidPacketId cfg server ([] ++ frame.bytes.dropLast) = false := by
    rw [List.nil_append]
    apply Bool.eq_false_of_not_eq_true
    intro hinvalid
    exact hkept (partialFrame_of_long hbody hpart (List.dropLast_prefix _) (take_ne_bytes frame)
      (by omega) hinvalid)
  have hbytes := @receiveCalls_byteCalls cfg server tx frame hbody [] _
    (by rw [List.nil_append]; exact List.dropLast_prefix _) hne hvalid
  rw [withAccum_nil hempty, List.nil_append] at hbytes
  intro hfull
  obtain ⟨hnone, -⟩ := neverFull_of_append hbytes hfull
  apply hnone
  apply accumulate_of_gt
  · rw [hlast]
    omega
  · rw [hlast, List.length_take, List.length_append, List.length_drop]
    omega

theorem exists_full {frames : List InboundFrame} (hempty : server.rxAccum = [])
    (h : FedAlone cfg server tx frames) (hfits : ¬ AccumFits cfg server tx frames) :
    ∃ pieces, pieces.flatten = inboundStream frames ∧ (∀ piece ∈ pieces, piece.length ≤ 512) ∧
      ¬ NeverFull cfg server tx pieces := by
  induction frames generalizing server tx with
  | nil => exact absurd trivial hfits
  | cons frame frames ih =>
    obtain ⟨hbody, haccepted, hlater⟩ := h
    have hstream : inboundStream (frame :: frames) = frame.bytes ++ inboundStream frames :=
      List.flatten_cons
    rw [AccumFits, not_or, not_and_or] at hfits
    obtain ⟨hkept, hlong | hnext⟩ := hfits
    · rw [not_or] at hlong
      refine ⟨overfullCalls frame (inboundStream frames), ?_, ?_, ?_⟩
      · rw [flatten_overfullCalls, hstream]
      · exact fun piece => length_overfullCalls
      · exact overfullCalls_full hempty hbody hkept (Nat.lt_of_not_le hlong.1)
          (Nat.lt_of_not_le hlong.2)
    · have hreceive := mcServerReceive_frame cfg hempty hbody tx
      have hempty' : (mcServerReceive cfg server frame.bytes tx).2.1.rxAccum = [] := by
        rw [hreceive, rxAccum_handleFrame, hempty]
      obtain ⟨pieces, hpieces, hlength, hfull⟩ := ih hempty' hlater hnext
      obtain ⟨calls, hcalls, hshort, hrun⟩ := exists_calls hempty hbody hkept haccepted
      have hdone : receiveCalls cfg server tx calls =
          (true, (mcServerReceive cfg server frame.bytes tx).2.1,
            (mcServerReceive cfg server frame.bytes tx).2.2) := by
        rw [hrun, ← haccepted]
      refine ⟨calls ++ pieces, ?_, ?_, fun hnever => hfull (neverFull_of_append hdone hnever)⟩
      · rw [List.flatten_append, hcalls, hpieces, hstream]
      · intro piece hpiece
        rcases List.mem_append.mp hpiece with hfirst | hrest
        · exact hshort piece hfirst
        · exact hlength piece hrest

/-- The accumulator has room for a stream of accepted frames, however it is cut into calls of at
most 512 bytes, if and only if every frame leaves room for a call or for what follows it. -/
theorem neverFull_iff (hempty : server.rxAccum = []) {frames : List InboundFrame}
    (h : FedAlone cfg server tx frames) :
    (∀ pieces : List (List UInt8), pieces.flatten = inboundStream frames →
      (∀ piece ∈ pieces, piece.length ≤ 512) → NeverFull cfg server tx pieces) ↔
      AccumFits cfg server tx frames := by
  constructor
  · intro hnever
    by_contra hfits
    obtain ⟨pieces, hpieces, hlength, hfull⟩ := exists_full hempty h hfits
    exact hfull (hnever pieces hpieces hlength)
  · intro hfits pieces hpieces hlength
    rw [← withAccum_nil hempty]
    exact neverFull_start hempty (startsWith_nil_frames frames) h hfits rfl hpieces hlength

theorem fedAlone_cons (hempty : server.rxAccum = []) (frames : List InboundFrame)
    (hbody : frame.body.length ≤ mcMaxPacketBody)
    (haccepted : (handleFrame cfg server frame tx).1 = true)
    (h : FedAlone cfg (handleFrame cfg server frame tx).2.1 (handleFrame cfg server frame tx).2.2
      frames) : FedAlone cfg server tx (frame :: frames) := by
  have hreceive := mcServerReceive_frame cfg hempty hbody tx
  rw [FedAlone, hreceive]
  exact ⟨hbody, haccepted, h⟩

/-- The frames of a login and a keepalive leave room, and no cut of their stream fills the
accumulator. -/
theorem neverFull_iff_login :
    AccumFits compressionConfig (mcServerInit compressionConfig)
        (streamStart compressionConfig 49152).2
        [handshakeFrame, loginStartFrame, compressedKeepaliveFrame] ∧
      ∀ pieces : List (List UInt8),
        pieces.flatten =
          inboundStream [handshakeFrame, loginStartFrame, compressedKeepaliveFrame] →
        (∀ piece ∈ pieces, piece.length ≤ 512) →
        NeverFull compressionConfig (mcServerInit compressionConfig)
          (streamStart compressionConfig 49152).2 pieces := by
  have hfits : AccumFits compressionConfig (mcServerInit compressionConfig)
      (streamStart compressionConfig 49152).2
      [handshakeFrame, loginStartFrame, compressedKeepaliveFrame] :=
    .inr ⟨.inl (by decide), .inr ⟨.inl (by decide), .inr ⟨.inl (by decide), trivial⟩⟩⟩
  have hempty : loginDone.2.1.rxAccum = [] :=
    (rxAccum_handleFrame _ _ _ _).trans (rxAccum_handleFrame _ _ _ _)
  have hfed : FedAlone compressionConfig (mcServerInit compressionConfig)
      (streamStart compressionConfig 49152).2
      [handshakeFrame, loginStartFrame, compressedKeepaliveFrame] := by
    apply fedAlone_cons rfl _ (by decide) (by decide +kernel)
    apply fedAlone_cons (rxAccum_handleFrame _ _ _ _) _ (by decide) (by decide +kernel)
    exact fedAlone_cons hempty [] (by decide) (by decide +kernel) trivial
  exact ⟨hfits, (neverFull_iff rfl hfed).mpr hfits⟩

theorem mcVarintDecode_one (rest : List UInt8) : mcVarintDecode (1 :: rest) = some (1, 1) := rfl

theorem handleFrame_ignored {rest : List UInt8} (hframe : frame.body = 1 :: rest)
    (hstate : server.state = .handshake) (hplain : server.compressionEnabled = false) :
    handleFrame cfg server frame tx = (true, server, tx) := by
  have hunwrap : unwrapPacket server frame.packet = some (1 :: rest) := by
    rw [unwrapPacket, hplain, if_neg Bool.false_ne_true, ← hframe]
    rfl
  have hid : ¬ (1 : Int32) = 0 := by decide
  rw [handleFrame, hunwrap]
  dsimp only
  rw [handlePacket, readVarintBody_zero, mcVarintDecode_one]
  dsimp only
  rw [if_neg fun h => hid h.2, if_neg fun h => hid h.2, handlePacketByState, hstate]
  rfl

/-- The longest body, and three packets with no more than an id. -/
def longestFrame : InboundFrame :=
  { lengthBytes := [0x80, 0x80, 2], body := 1 :: List.replicate 32767 0
    isVarint := by
      rw [List.length_cons, List.length_replicate]
      exact .more 0x80 (by decide) (.more 0x80 (by decide) (.last 2 (by decide)))
    length_lengthBytes_le := by decide }

def idFrame : InboundFrame :=
  { lengthBytes := [1], body := [1], isVarint := .last 1 (by decide)
    length_lengthBytes_le := by decide }

theorem neverFull_longestFrame :
    FedAlone compressionConfig (mcServerInit compressionConfig)
        (streamStart compressionConfig 49152).2 [longestFrame, idFrame, idFrame, idFrame] ∧
      ∃ pieces : List (List UInt8),
        pieces.flatten = inboundStream [longestFrame, idFrame, idFrame, idFrame] ∧
        (∀ piece ∈ pieces, piece.length ≤ 512) ∧
        ¬ NeverFull compressionConfig (mcServerInit compressionConfig)
          (streamStart compressionConfig 49152).2 pieces := by
  have hbody : longestFrame.body.length = 32768 := by
    rw [longestFrame, List.length_cons, List.length_replicate]
  have hbytes : longestFrame.bytes.length = 32771 := by
    rw [longestFrame.length_bytes, hbody]
    rfl
  have hmax : longestFrame.body.length ≤ mcMaxPacketBody := hbody.le
  have hlongest := @handleFrame_ignored compressionConfig (mcServerInit compressionConfig)
    (streamStart compressionConfig 49152).2 longestFrame _ rfl rfl rfl
  have hid := @handleFrame_ignored compressionConfig (mcServerInit compressionConfig)
    (streamStart compressionConfig 49152).2 idFrame _ rfl rfl rfl
  have hidMax : idFrame.body.length ≤ mcMaxPacketBody := by decide
  constructor
  · apply fedAlone_cons rfl _ hmax (congrArg Prod.fst hlongest)
    rw [hlongest]
    apply fedAlone_cons rfl _ hidMax (congrArg Prod.fst hid)
    rw [hid]
    apply fedAlone_cons rfl _ hidMax (congrArg Prod.fst hid)
    rw [hid]
    exact fedAlone_cons rfl _ hidMax (congrArg Prod.fst hid) trivial
  · refine ⟨overfullCalls longestFrame (inboundStream [idFrame, idFrame, idFrame]),
      flatten_overfullCalls _ _, fun _ => length_overfullCalls, ?_⟩
    apply overfullCalls_full rfl hmax
    · exact not_rejectedInCalls hmax ⟨longestFrame.body, 1, 1, ⟨rfl, rfl⟩, by decide⟩
    · rw [hbytes]
      decide
    · rw [hbytes]
      decide

end StarrySky.Core
