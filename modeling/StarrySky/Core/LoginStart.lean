import StarrySky.Core.ReceiveCalls
import StarrySky.Core.Writer

/-! A Login Start packet is not taken for a handshake, though both have the id 0 and the
handshake is tried first: a username's bytes are no length of a string that fits behind them. -/

namespace StarrySky.Core
open StarrySky.Base

variable {cfg : McConfig} {server : McServer} {tx : TxRing}

theorem exists_isVarint_or_all_more (bytes : List UInt8) :
    (∃ encoding rest v, bytes = encoding ++ rest ∧ IsVarint encoding v) ∨
      ∀ byte ∈ bytes, 128 ≤ byte.toNat := by
  induction bytes with
  | nil => exact .inr fun _ h => absurd h List.not_mem_nil
  | cons byte bytes ih =>
    by_cases hlast : byte.toNat < 128
    · exact .inl ⟨[byte], bytes, byte.toNat, rfl, .last byte hlast⟩
    have hmore := Nat.le_of_not_lt hlast
    rcases ih with ⟨encoding, rest, v, rfl, hv⟩ | hall
    · exact .inl ⟨byte :: encoding, rest, _, rfl, .more byte hmore hv⟩
    · refine .inr fun b hb => ?_
      rcases List.mem_cons.mp hb with rfl | hb
      · exact hmore
      · exact hall b hb

theorem mcVarintDecode_eq_some {bytes : List UInt8} {value : Int32} {used : ℕ}
    (h : mcVarintDecode bytes = some (value, used)) :
    ∃ encoding rest v, bytes = encoding ++ rest ∧ IsVarint encoding v ∧ v < 2 ^ 32 ∧
      value = Int32.ofNat v ∧ used = encoding.length := by
  -- What is decoded is an encoding of at most five bytes.
  rcases exists_isVarint_or_all_more bytes with ⟨encoding, rest, v, rfl, hv⟩ | hall
  · by_cases hlen : encoding.length ≤ varintMaxBytes
    · rw [mcVarintDecode_of_isVarint hv hlen] at h
      split_ifs at h with hfits
      cases h
      exact ⟨encoding, rest, v, rfl, hv, hfits, rfl, rfl⟩
    · -- five bytes that all announce another one
      have hne : encoding.take varintMaxBytes ≠ encoding := by
        intro heq
        exact hlen (List.take_eq_self_iff _ |>.mp heq)
      have hnone := mcVarintDecode_of_all_more (hv.all_more (List.take_prefix _ _) hne)
      have hfive : 5 ≤ (encoding.take varintMaxBytes).length := by
        rw [List.length_take]
        exact Nat.le_min.mpr ⟨Nat.le_refl _, Nat.le_of_not_le hlen⟩
      have hwhole := mcVarintDecode_none_append hnone hfive (encoding.drop varintMaxBytes ++ rest)
      rw [← List.append_assoc, List.take_append_drop] at hwhole
      rw [hwhole] at h
      cases h
  · rw [mcVarintDecode_of_all_more hall] at h
    cases h

theorem IsVarint.le_of_all {encoding : List UInt8} {v : ℕ} (h : IsVarint encoding v)
    (hall : ∀ byte ∈ encoding, 32 ≤ byte.toNat) : 32 ≤ v := by
  induction h with
  | last byte hlt => exact hall byte List.mem_cons_self
  | more byte hge hbytes ih =>
    have hv := ih fun b hb => hall b (List.mem_cons_of_mem _ hb)
    omega

theorem readStringBody_of_printable {body : List UInt8} {pos : ℕ}
    (hall : ∀ byte ∈ body.drop pos, 32 ≤ byte.toNat) (hlen : body.length ≤ pos + 32)
    (dstCap : ℕ) : readStringBody body pos dstCap = none := by
  -- Printable bytes are no length below 32.
  rw [readStringBody]
  cases hread : readVarintBody body pos with
  | none => rfl
  | some read =>
    obtain ⟨len, pos'⟩ := read
    rw [readVarintBody] at hread
    split_ifs at hread
    obtain ⟨⟨value, used⟩, hdecode, heq⟩ := Option.map_eq_some_iff.mp hread
    obtain ⟨encoding, rest, v, hbytes, hv, hfits, hvalue, hused⟩ := mcVarintDecode_eq_some hdecode
    have hlen' : value = len := congrArg Prod.fst heq
    have hpos : pos + used = pos' := congrArg Prod.snd heq
    have hlarge : 32 ≤ v :=
      IsVarint.le_of_all hv fun b hb => hall b (hbytes ▸ List.mem_append_left _ hb)
    dsimp only
    by_cases hneg : len < 0
    · rw [if_pos hneg]
    rw [if_neg hneg, if_pos]
    have hsmall : v < 2 ^ 31 := by
      by_contra hge
      exact hneg (hlen' ▸ hvalue ▸ ofNat_neg (Nat.le_of_not_lt hge) hfits)
    have hnat : len.toNatClampNeg = v := by
      rw [← hlen', hvalue, Int32.toNatClampNeg_ofNat_of_lt hsmall]
    have hencoding := hv.length_pos
    right
    omega

theorem readVarintBody_encoding (front : List UInt8) {encoding : List UInt8} {v : ℕ}
    (hv : IsVarint encoding v) (hlen : encoding.length ≤ varintMaxBytes) (hfits : v < 2 ^ 32)
    (rest : List UInt8) :
    readVarintBody (front ++ (encoding ++ rest)) front.length =
      some (Int32.ofNat v, front.length + encoding.length) := by
  have hpos := hv.length_pos
  have hmore : ¬ front.length ≥ (front ++ (encoding ++ rest)).length := by
    rw [List.length_append, List.length_append]
    omega
  rw [readVarintBody, if_neg hmore, List.drop_left, mcVarintDecode_of_isVarint hv hlen, if_pos hfits]
  rfl

structure LoginStart where
  idBytes : List UInt8
  lengthBytes : List UInt8
  name : List UInt8
  isVarint_id : IsVarint idBytes 0
  length_idBytes_le : idBytes.length ≤ varintMaxBytes
  isVarint_length : IsVarint lengthBytes name.length
  length_lengthBytes_le : lengthBytes.length ≤ varintMaxBytes
  length_name_pos : 1 ≤ name.length
  length_name_le : name.length ≤ mcMaxUsername
  printable : ∀ byte ∈ name, 0x20 ≤ byte

namespace LoginStart

variable (packet : LoginStart)

def body : List UInt8 := packet.idBytes ++ (packet.lengthBytes ++ packet.name)

theorem length_name_lt : packet.name.length < 2 ^ 31 :=
  lt_of_le_of_lt packet.length_name_le (by decide)

theorem readVarintBody_id :
    readVarintBody packet.body 0 = some (0, packet.idBytes.length) := by
  have hread := readVarintBody_encoding [] packet.isVarint_id packet.length_idBytes_le (by decide)
    (packet.lengthBytes ++ packet.name)
  rw [List.length_nil, Nat.zero_add] at hread
  exact hread

theorem readVarintBody_length :
    readVarintBody packet.body packet.idBytes.length =
      some (Int32.ofNat packet.name.length, packet.idBytes.length + packet.lengthBytes.length) :=
  readVarintBody_encoding packet.idBytes packet.isVarint_length packet.length_lengthBytes_le
    (packet.length_name_lt.trans (by decide)) packet.name

theorem drop_body :
    packet.body.drop (packet.idBytes.length + packet.lengthBytes.length) = packet.name := by
  rw [body, ← List.append_assoc, ← List.length_append, List.drop_left]

theorem length_body : packet.body.length =
    packet.idBytes.length + packet.lengthBytes.length + packet.name.length := by
  rw [body, List.length_append, List.length_append, Nat.add_assoc]

theorem tryHandleHandshake_invalid (cfg : McConfig) (server : McServer) :
    tryHandleHandshake cfg server packet.body = (.invalid, server) := by
  -- As a handshake it ends in the name, which is read as a string of 32 bytes or more.
  have hprintable : ∀ byte ∈ packet.body.drop (packet.idBytes.length + packet.lengthBytes.length),
      32 ≤ byte.toNat := by
    rw [packet.drop_body]
    exact packet.printable
  have hshort : packet.body.length ≤ packet.idBytes.length + packet.lengthBytes.length + 32 := by
    rw [packet.length_body]
    exact Nat.add_le_add_left (packet.length_name_le.trans (by decide)) _
  have hnone : readHandshake packet.body packet.idBytes.length = none := by
    rw [readHandshake, packet.readVarintBody_length]
    simp only [Option.bind_eq_bind, Option.bind_some]
    rw [readStringBody_of_printable hprintable hshort]
    rfl
  rw [tryHandleHandshake, packet.readVarintBody_id]
  dsimp only
  rw [if_neg (not_not_intro rfl), hnone]

theorem readStringBody_name : readStringBody packet.body packet.idBytes.length (mcMaxUsername + 1) =
    some (packet.name, packet.body.length) := by
  have hnat : (Int32.ofNat packet.name.length).toNatClampNeg = packet.name.length :=
    Int32.toNatClampNeg_ofNat_of_lt packet.length_name_lt
  have hroom : ¬ (packet.name.length ≥ mcMaxUsername + 1 ∨
      packet.idBytes.length + packet.lengthBytes.length + packet.name.length >
        packet.body.length) := by
    rw [packet.length_body]
    have := packet.length_name_le
    omega
  rw [readStringBody, packet.readVarintBody_length]
  dsimp only
  rw [if_neg (ofNat_nonneg packet.length_name_lt), hnat, if_neg hroom, packet.drop_body,
    List.take_length, packet.length_body]

theorem cString_name : cString packet.name = packet.name := by
  apply List.takeWhile_eq_self_iff.mpr
  intro byte hbyte
  have hprintable := packet.printable byte hbyte
  rw [decide_eq_true_eq]
  rintro rfl
  exact absurd hprintable (by decide)

end LoginStart

/-- The body of Login Success: the id, the player's UUID and the name. -/
def loginSuccess (name : List UInt8) : List UInt8 :=
  varintBytes 2 ++ McWriter.stringBytes (cText "00000000-0000-0000-0000-000000000001") ++
    McWriter.stringBytes name

theorem length_uuidBytes :
    (McWriter.stringBytes (cText "00000000-0000-0000-0000-000000000001")).length = 37 := by
  decide +kernel

theorem length_loginSuccess_le {name : List UInt8} (hname : name.length ≤ mcMaxUsername) :
    (loginSuccess name).length ≤ 64 := by
  have hstring := McWriter.length_stringBytes_le name
  have hid : (varintBytes 2).length = 1 := rfl
  have hmax : mcMaxUsername = 16 := rfl
  rw [loginSuccess, List.length_append, List.length_append, length_uuidBytes, hid]
  omega

theorem buildLoginSuccessBody_eq {name : List UInt8} (hname : name.length ≤ mcMaxUsername) :
    buildLoginSuccessBody 128 name = some { cap := 128, buf := loginSuccess name } := by
  have hlen := length_loginSuccess_le hname
  rw [loginSuccess, List.length_append, List.length_append] at hlen
  have hid : (McWriter.init 128).writeVarint 2 = some { cap := 128, buf := varintBytes 2 } := rfl
  rw [buildLoginSuccessBody, hid]
  simp only [Option.bind_eq_bind, Option.bind_some]
  have huuid : (varintBytes 2).length +
      (McWriter.stringBytes (cText "00000000-0000-0000-0000-000000000001")).length ≤ 128 := by
    omega
  have hall : (varintBytes 2 ++
      McWriter.stringBytes (cText "00000000-0000-0000-0000-000000000001")).length +
        (McWriter.stringBytes name).length ≤ 128 := by
    rw [List.length_append]
    omega
  rw [McWriter.writeString_of_le (by decide) huuid, Option.bind_some,
    McWriter.writeString_of_le (hname.trans (by decide)) hall]
  rfl

def loginFrames (cfg : McConfig) (server : McServer) (name : List UInt8) : List UInt8 :=
  if cfg.protocolCompressionEnable then
    plainFrame (3 :: varintBytes server.compressionThreshold) ++
      compressedFrame 0 (loginSuccess name)
  else plainFrame (loginSuccess name)

theorem buildSetCompression_eq (threshold : Int32) :
    buildSetCompression 16 threshold = some { cap := 16, buf := 3 :: varintBytes threshold } := by
  have hid : (McWriter.init 16).writeVarint 3 = some { cap := 16, buf := [3] } := rfl
  have hlen : 1 + (varintBytes threshold).length ≤ 16 :=
    (Nat.add_le_add_left (length_varintBytes_le threshold) 1).trans (by decide)
  rw [buildSetCompression, hid]
  simp only [Option.bind_eq_bind, Option.bind_some]
  exact McWriter.writeVarint_of_le hlen

theorem queueCompressedLogin_eq {name : List UInt8} (hname : name.length ≤ mcMaxUsername)
    (hcfg : cfg.protocolCompressionEnable = true)
    (hroom : (loginFrames cfg server name).length ≤ tx.free) :
    queueCompressedLogin server tx name =
      (true, { server with compressionEnabled := true },
        tx.push (loginFrames cfg server name)) := by
  rw [loginFrames, if_pos hcfg] at hroom ⊢
  have hshort : (3 :: varintBytes server.compressionThreshold).length ≤ mcMaxPacketBody :=
    (Nat.succ_le_succ (length_varintBytes_le server.compressionThreshold)).trans (by decide)
  have hlong : (loginSuccess name).length ≤ mcMaxPacketBody :=
    (length_loginSuccess_le hname).trans (by decide)
  have hsum := hroom
  rw [List.length_append] at hsum
  have hfirst : (plainFrame (3 :: varintBytes server.compressionThreshold)).length ≤ tx.free :=
    (Nat.le_add_right _ _).trans hsum
  have hfree := TxRing.free_push hfirst
  have hneeded : 0 < (plainFrame (3 :: varintBytes server.compressionThreshold) ++
      compressedFrame 0 (loginSuccess name)).length := by
    rw [List.length_append, plainFrame, List.length_append, List.length_cons]
    omega
  have hspace : ¬ ((plainFrame (3 :: varintBytes server.compressionThreshold) ++
      compressedFrame 0 (loginSuccess name)).length = 0 ∨
      tx.free < (plainFrame (3 :: varintBytes server.compressionThreshold) ++
        compressedFrame 0 (loginSuccess name)).length) := by
    omega
  have hqueued : mcServerQueuePacket tx (3 :: varintBytes server.compressionThreshold) =
      (true, tx.push (plainFrame (3 :: varintBytes server.compressionThreshold))) := by
    rw [mcServerQueuePacket_eq, if_pos ⟨hshort, hfirst⟩]
  have hqueued' : queuePacketCompressedPlain
      (tx.push (plainFrame (3 :: varintBytes server.compressionThreshold))) (loginSuccess name) =
      (true, tx.push (plainFrame (3 :: varintBytes server.compressionThreshold) ++
        compressedFrame 0 (loginSuccess name))) := by
    rw [queuePacketCompressedPlain_eq, if_pos ⟨hlong, by omega⟩, TxRing.push_push hroom]
  rw [queueCompressedLogin, buildSetCompression_eq, buildLoginSuccessBody_eq hname]
  dsimp only
  rw [mcPacketFrameLen_eq hshort, mcPacketCompressedPlainFrameLen_eq hlong, ← List.length_append,
    if_neg hspace, hqueued]
  dsimp only
  rw [hqueued', Bool.not_true, if_neg Bool.false_ne_true]

theorem queueLoginSuccess_eq {name : List UInt8} (hname : name.length ≤ mcMaxUsername)
    (hcfg : cfg.protocolCompressionEnable = false)
    (hroom : (loginFrames cfg server name).length ≤ tx.free) :
    queueLoginSuccess tx name = (true, tx.push (loginFrames cfg server name)) := by
  rw [loginFrames, if_neg (Bool.eq_false_iff.mp hcfg)] at hroom ⊢
  have hbody : (loginSuccess name).length ≤ mcMaxPacketBody :=
    (length_loginSuccess_le hname).trans (by decide)
  rw [queueLoginSuccess, buildLoginSuccessBody_eq hname, queueBuilt, mcServerQueuePacket_eq,
    if_pos ⟨hbody, hroom⟩]

/-- A Login Start is a login, whatever the name's bytes are. -/
theorem handlePacket_loginStart (cfg : McConfig) {server : McServer}
    (hstate : server.state = .login) (packet : LoginStart) {tx : TxRing}
    (hroom : (loginFrames cfg server packet.name).length ≤ tx.free) :
    handlePacket cfg server packet.body tx =
        (true,
          { server with
            compressionEnabled := cfg.protocolCompressionEnable || server.compressionEnabled
            username := packet.name ++ [0], state := .play },
          tx.push (loginFrames cfg server packet.name)) ∧
      (tx.push (loginFrames cfg server packet.name)).ring.items =
        tx.ring.items ++ loginFrames cfg server packet.name := by
  refine ⟨?_, (Ringbuf.write_of_le hroom).2⟩
  rw [handlePacket, packet.readVarintBody_id]
  dsimp only
  have hhandshake : ¬ (server.state = .handshake ∧ (0 : Int32) = 0x00) := by
    rw [hstate]
    decide
  have hother : server.state ≠ .play ∧ (0 : Int32) = 0x00 := by
    rw [hstate]
    decide
  rw [if_neg hhandshake, if_pos hother, packet.tryHandleHandshake_invalid]
  dsimp only
  rw [if_neg fun h => h.2.2 hstate, handlePacketByState,
    if_neg fun h => absurd (hstate.symm.trans h.1) (by decide),
    if_neg fun h => absurd (hstate.symm.trans h.1) (by decide), if_pos ⟨hstate, rfl⟩,
    handleLoginStart, packet.readStringBody_name]
  dsimp only
  have hname : packet.name ≠ [] := List.ne_nil_of_length_pos packet.length_name_pos
  rw [packet.cString_name, if_neg hname]
  by_cases hcfg : cfg.protocolCompressionEnable = true
  · rw [if_pos hcfg, queueCompressedLogin_eq packet.length_name_le hcfg hroom, hcfg]
    rfl
  · have hplain := Bool.eq_false_iff.mpr hcfg
    rw [if_neg hcfg, queueLoginSuccess_eq packet.length_name_le hplain hroom, hplain]
    rfl

theorem isVarint_varintName_length : IsVarint [3] [0x80, 0x80, (0x20 : UInt8)].length :=
  .last 3 (by decide)

theorem length_lengthBytes_varintName_le : [(3 : UInt8)].length ≤ varintMaxBytes := by decide

/-- A name whose bytes look like an encoding of 4096. -/
def varintName : LoginStart :=
  { idBytes := [0], lengthBytes := [3], name := [0x80, 0x80, 0x20]
    isVarint_id := .last 0 (by decide), length_idBytes_le := by decide
    isVarint_length := isVarint_varintName_length
    length_lengthBytes_le := length_lengthBytes_varintName_le
    length_name_pos := by decide, length_name_le := by decide
    printable := by simp }

theorem handlePacket_loginStart_varintName :
    (handlePacket compressionConfig handshakeDone.2.1 varintName.body handshakeDone.2.2).1 = true ∧
      (handlePacket compressionConfig handshakeDone.2.1 varintName.body
        handshakeDone.2.2).2.1.username = [0x80, 0x80, 0x20, 0] := by
  have hstate : handshakeDone.2.1.state = .login := by decide +kernel
  have hroom : (loginFrames compressionConfig handshakeDone.2.1 varintName.name).length ≤
      handshakeDone.2.2.free := by decide +kernel
  have hlogin := (handlePacket_loginStart compressionConfig hstate varintName hroom).1
  rw [hlogin]
  exact ⟨rfl, rfl⟩

end StarrySky.Core
