import StarrySky.Scripts.ChunkBody

/-! The PNG file of `scripts/generate_compressed_chunks.py`: which files `read_png_rgba` reads. -/

namespace StarrySky.Scripts
open StarrySky.Base

def pngSignature : List UInt8 := [0x89, 0x50, 0x4e, 0x47, 0x0d, 0x0a, 0x1a, 0x0a]

abbrev kindIhdr : List UInt8 := [0x49, 0x48, 0x44, 0x52]
abbrev kindIdat : List UInt8 := [0x49, 0x44, 0x41, 0x54]
abbrev kindIend : List UInt8 := [0x49, 0x45, 0x4e, 0x44]
abbrev kindPlte : List UInt8 := [0x50, 0x4c, 0x54, 0x45]
abbrev kindTrns : List UInt8 := [0x74, 0x52, 0x4e, 0x53]

/-- `kind.decode('ascii', 'replace')`. -/
def decodeAscii (bytes : List UInt8) : String :=
  String.ofList (bytes.map fun byte =>
    if byte < 128 then Char.ofNat byte.toNat else Char.ofNat 0xfffd)

def crc32Bit (crc : UInt32) : UInt32 :=
  if crc &&& 1 = 1 then (crc >>> 1) ^^^ 0xedb88320 else crc >>> 1

/-- `binascii.crc32`. -/
def crc32 (bytes : List UInt8) : UInt32 :=
  bytes.foldl (fun crc byte => crc32Bit^[8] (crc ^^^ byte.toUInt32)) 0xffffffff ^^^ 0xffffffff

/-- `struct.unpack(">I", bytes)`. -/
def unpackBe (bytes : List UInt8) : ℕ := bytes.foldl (fun n byte => n * 256 + byte.toNat) 0

/-- What `IHDR` says. -/
structure PngHead where
  width : ℕ
  height : ℕ
  bitDepth : UInt8
  colorType : UInt8
  compression : UInt8
  filterMethod : UInt8
  interlace : UInt8
deriving DecidableEq

/-- `struct.unpack(">IIBBBBB", payload)`, for the thirteen bytes it takes. -/
def unpackHead : List UInt8 → Option PngHead
  | [w0, w1, w2, w3, h0, h1, h2, h3, bitDepth, colorType, compression, filterMethod, interlace] =>
    some
      { width := unpackBe [w0, w1, w2, w3], height := unpackBe [h0, h1, h2, h3], bitDepth
        colorType, compression, filterMethod, interlace }
  | _ => none

/-- The variables of the loop over the chunks. -/
structure PngScan where
  head : Option PngHead
  idat : List UInt8
  sawIdat : Bool
  idatClosed : Bool
deriving DecidableEq

def PngScan.start : PngScan := { head := none, idat := [], sawIdat := false, idatClosed := false }

def isUpper (byte : UInt8) : Bool := 65 ≤ byte && byte ≤ 90

def isLetter (byte : UInt8) : Bool := isUpper byte || (97 ≤ byte && byte ≤ 122)

section
variable (path : String)

def pngFail {α : Type} (message : String) : Except ScriptError α :=
  .error (.systemExit (path ++ ": " ++ message))

/-- The checks before a chunk's payload is looked at. -/
def checkKind (scan : PngScan) (kind : List UInt8) : Except ScriptError Unit :=
  if !kind.all isLetter then pngFail path ("invalid PNG chunk type " ++ decodeAscii kind)
  else if kind = kindIdat ∧ scan.head = none then pngFail path "IDAT before IHDR chunk"
  else if scan.head = none ∧ kind ≠ kindIhdr then
    pngFail path "first PNG chunk must be IHDR"
  else if kind = kindIhdr ∧ scan.head ≠ none then pngFail path "duplicate IHDR chunk"
  else if kind = kindIdat ∧ scan.idatClosed then pngFail path "non-consecutive IDAT chunks"
  else .ok ()

/-- What a chunk does, and whether it is the last. -/
def takeChunk (scan : PngScan) (kind payload : List UInt8) : Except ScriptError (PngScan × Bool) :=
  if kind = kindIhdr then
    match unpackHead payload with
    | none => pngFail path "invalid IHDR length"
    | some head => .ok ({ scan with head := some head }, false)
  else if kind = kindIdat then
    .ok ({ scan with sawIdat := true, idat := scan.idat ++ payload }, false)
  else if kind = kindIend then
    if payload.length ≠ 0 then pngFail path "invalid IEND length" else .ok (scan, true)
  else if kind = kindPlte then
    if scan.sawIdat then pngFail path "PLTE after IDAT chunk" else .ok (scan, false)
  else if kind = kindTrns then pngFail path "unsupported PNG transparency chunk tRNS"
  else if (kind.take 1).all isUpper then
    pngFail path ("unsupported critical PNG chunk " ++ decodeAscii kind)
  else .ok (if scan.sawIdat then { scan with idatClosed := true } else scan, false)

/-- The loop over the chunks, on the data from `pos` on; returns whether `IEND` was read, and the
data after it. -/
def readChunks (scan : PngScan) : List UInt8 → Except ScriptError (PngScan × Bool × List UInt8)
  | l0 :: l1 :: l2 :: l3 :: k0 :: k1 :: k2 :: k3 :: body =>
    let length := unpackBe [l0, l1, l2, l3]
    let kind := [k0, k1, k2, k3]
    match checkKind path scan kind with
    | .error error => .error error
    | .ok () =>
      if body.length < length + 4 then pngFail path "truncated PNG chunk"
      else
        let payload := body.take length
        let expectedCrc := unpackBe ((body.drop length).take 4)
        if (crc32 (kind ++ payload)).toNat ≠ expectedCrc then
          pngFail path ("PNG chunk " ++ decodeAscii kind ++ " CRC mismatch")
        else
          match takeChunk path scan kind payload with
          | .error error => .error error
          | .ok (scan, true) => .ok (scan, true, body.drop (length + 4))
          | .ok (scan, false) => readChunks scan (body.drop (length + 4))
  | rest => .ok (scan, false, rest)
termination_by data => data.length
decreasing_by
  simp only [List.length_cons, List.length_drop]
  omega

/-- What `decompressobj().decompress` leaves, apart from an error's text. -/
structure Decompressed where
  raw : List UInt8
  unconsumedTail : List UInt8
  unusedData : List UInt8
  eof : Bool
deriving DecidableEq

def PngHead.channels (head : PngHead) : ℕ := if head.colorType = 2 then 3 else 4

def PngHead.expectedLen (head : PngHead) : ℕ := head.height * (1 + head.width * head.channels)

/-- The checks of the header after the loop. -/
def checkHead (head : PngHead) : Except ScriptError Unit :=
  if head.width = 0 ∨ head.height = 0 then pngFail path "zero PNG width or height"
  else if head.bitDepth ≠ 8 then
    pngFail path ("unsupported PNG bit depth " ++ toString head.bitDepth ++ "; expected 8")
  else if ¬(head.colorType = 2 ∨ head.colorType = 6) then
    pngFail path ("unsupported PNG color type " ++ toString head.colorType ++
      "; expected RGB or RGBA")
  else if head.compression ≠ 0 ∨ head.filterMethod ≠ 0 then
    pngFail path "unsupported PNG compression or filter method"
  else if head.interlace ≠ 0 then
    pngFail path ("unsupported PNG interlace method " ++ toString head.interlace)
  else .ok ()

variable (decompress : List UInt8 → ℕ → Except String Decompressed)

/-- `read_png_rgba` on the file's bytes; `decompress` is a new `zlib` object's. -/
def readPngRgbaFile (data : List UInt8) : Except ScriptError (ℕ × ℕ × List Pixel) :=
  if ¬ pngSignature <+: data then pngFail path "not a PNG file"
  else
    match readChunks path .start (data.drop pngSignature.length) with
    | .error error => .error error
    | .ok (scan, sawIend, rest) =>
      if !sawIend then pngFail path "missing IEND chunk"
      else if rest ≠ [] then pngFail path "data after IEND chunk"
      else
        match scan.head with
        | none => pngFail path "missing IHDR chunk"
        | some head =>
          match checkHead path head with
          | .error error => .error error
          | .ok () =>
            match decompress scan.idat (head.expectedLen + 1) with
            | .error exc => pngFail path ("could not decompress PNG IDAT data: " ++ exc)
            | .ok decompressed =>
              if decompressed.unconsumedTail ≠ [] then
                pngFail path ("decoded PNG data length " ++ toString decompressed.raw.length ++
                  " does not match expected " ++ toString head.expectedLen)
              else if decompressed.unusedData ≠ [] then
                pngFail path "trailing data after PNG IDAT zlib stream"
              else if !decompressed.eof then pngFail path "incomplete PNG IDAT zlib stream"
              else
                match readPngRgba path head.width head.height head.colorType decompressed.raw with
                | .error error => .error error
                | .ok pixels => .ok (head.width, head.height, pixels)

end

/-! What a file that is read looks like. -/

def chunkBytes (kind payload : List UInt8) : List UInt8 :=
  bigEndianBytes 4 payload.length ++ kind ++ payload ++
    bigEndianBytes 4 (crc32 (kind ++ payload)).toNat

structure PngChunk where
  kind : List UInt8
  payload : List UInt8
  length_kind : kind.length = 4
  length_payload : payload.length < 2 ^ 32

def PngChunk.bytes (chunk : PngChunk) : List UInt8 := chunkBytes chunk.kind chunk.payload

/-- A chunk that a reader may skip, other than `tRNS`. -/
structure Ancillary (kind : List UInt8) : Prop where
  letters : kind.all isLetter = true
  notUpper : (kind.take 1).all isUpper = false
  notTrns : kind ≠ kindTrns

def PngHead.bytes (head : PngHead) : List UInt8 :=
  bigEndianBytes 4 head.width ++ bigEndianBytes 4 head.height ++
    [head.bitDepth, head.colorType, head.compression, head.filterMethod, head.interlace]

/-- The signature, the header, perhaps a palette and skipped chunks, the image data in one piece or
several in a row, skipped chunks and the end. -/
def PngGrammar (head : PngHead) (idat data : List UInt8) : Prop :=
  (head.width < 2 ^ 32 ∧ head.height < 2 ^ 32) ∧
  ∃ before idats after : List PngChunk,
    (∀ chunk ∈ before, chunk.kind = kindPlte ∨ Ancillary chunk.kind) ∧
    (∀ chunk ∈ idats, chunk.kind = kindIdat) ∧ (∀ chunk ∈ after, Ancillary chunk.kind) ∧
    idat = idats.flatMap (·.payload) ∧
    data = pngSignature ++ chunkBytes kindIhdr head.bytes ++
      (before ++ idats ++ after).flatMap PngChunk.bytes ++ chunkBytes kindIend []

theorem bigEndianBytes_four (n : ℕ) :
    bigEndianBytes 4 n = [UInt8.ofNat (n >>> 24), UInt8.ofNat (n >>> 16), UInt8.ofNat (n >>> 8),
      UInt8.ofNat n] := rfl

theorem unpackBe_bigEndianBytes {n : ℕ} (h : n < 2 ^ 32) : unpackBe (bigEndianBytes 4 n) = n := by
  rw [bigEndianBytes_four, unpackBe]
  simp only [List.foldl_cons, List.foldl_nil, UInt8.toNat_ofNat', Nat.shiftRight_eq_div_pow]
  omega

theorem unpackBe_lt (a b c d : UInt8) : unpackBe [a, b, c, d] < 2 ^ 32 := by
  have ha := a.toNat_lt
  have hb := b.toNat_lt
  have hc := c.toNat_lt
  have hd := d.toNat_lt
  simp only [unpackBe, List.foldl_cons, List.foldl_nil]
  omega

theorem ofNat_of_mod {n : ℕ} {byte : UInt8} (h : n % 256 = byte.toNat) : UInt8.ofNat n = byte := by
  apply UInt8.toNat_inj.mp
  rw [UInt8.toNat_ofNat', h]

theorem bigEndianBytes_unpackBe (a b c d : UInt8) :
    bigEndianBytes 4 (unpackBe [a, b, c, d]) = [a, b, c, d] := by
  have ha := a.toNat_lt
  have hb := b.toNat_lt
  have hc := c.toNat_lt
  have hd := d.toNat_lt
  have hvalue : unpackBe [a, b, c, d] =
      ((a.toNat * 256 + b.toNat) * 256 + c.toNat) * 256 + d.toNat := by
    simp only [unpackBe, List.foldl_cons, List.foldl_nil, Nat.zero_mul, Nat.zero_add]
  rw [bigEndianBytes_four, hvalue]
  simp only [Nat.shiftRight_eq_div_pow]
  rw [@ofNat_of_mod _ a (by omega), @ofNat_of_mod _ b (by omega), @ofNat_of_mod _ c (by omega),
    @ofNat_of_mod _ d (by omega)]

theorem length_bigEndianBytes (n value : ℕ) : (bigEndianBytes n value).length = n := by
  rw [bigEndianBytes, List.length_map, List.length_range]

/-! One chunk of the loop. -/

section
variable {path : String} {scan next : PngScan} {kind payload rest : List UInt8} {head : PngHead}

/-- All the loop does with a chunk that is there and whose checksum is right. -/
def chunkStep (path : String) (scan : PngScan) (kind payload : List UInt8) :
    Except ScriptError (PngScan × Bool) :=
  match checkKind path scan kind with
  | .error error => .error error
  | .ok () => takeChunk path scan kind payload

def afterStep (path : String) (rest : List UInt8) :
    Except ScriptError (PngScan × Bool) → Except ScriptError (PngScan × Bool × List UInt8)
  | .error error => .error error
  | .ok (scan, true) => .ok (scan, true, rest)
  | .ok (scan, false) => readChunks path scan rest

theorem pngFail_ne_ok {α : Type} {value : α} (message : String) :
    pngFail path message ≠ .ok value := by
  intro h
  cases h

theorem readChunks_cons (l0 l1 l2 l3 k0 k1 k2 k3 : UInt8) (body : List UInt8) :
    readChunks path scan (l0 :: l1 :: l2 :: l3 :: k0 :: k1 :: k2 :: k3 :: body) =
      match checkKind path scan [k0, k1, k2, k3] with
      | .error error => .error error
      | .ok () =>
        if body.length < unpackBe [l0, l1, l2, l3] + 4 then pngFail path "truncated PNG chunk"
        else if (crc32 ([k0, k1, k2, k3] ++ body.take (unpackBe [l0, l1, l2, l3]))).toNat ≠
            unpackBe ((body.drop (unpackBe [l0, l1, l2, l3])).take 4) then
          pngFail path ("PNG chunk " ++ decodeAscii [k0, k1, k2, k3] ++ " CRC mismatch")
        else afterStep path (body.drop (unpackBe [l0, l1, l2, l3] + 4))
          (takeChunk path scan [k0, k1, k2, k3] (body.take (unpackBe [l0, l1, l2, l3]))) := by
  rw [readChunks]
  dsimp only
  split
  · rfl
  · split_ifs
    · rfl
    · rfl
    · rcases takeChunk path scan [k0, k1, k2, k3] (body.take (unpackBe [l0, l1, l2, l3])) with
        error | ⟨next, done⟩
      · rfl
      · cases done <;> rfl

theorem readChunks_chunkBytes (hkind : kind.length = 4) (hpayload : payload.length < 2 ^ 32) :
    readChunks path scan (chunkBytes kind payload ++ rest) =
      afterStep path rest (chunkStep path scan kind payload) := by
  obtain ⟨k0, k1, k2, k3, rfl⟩ := List.length_eq_four.mp hkind
  have hcrc := length_bigEndianBytes 4 (crc32 ([k0, k1, k2, k3] ++ payload)).toNat
  have hlength := unpackBe_bigEndianBytes hpayload
  rw [bigEndianBytes_four] at hlength
  have hbytes : chunkBytes [k0, k1, k2, k3] payload ++ rest =
      UInt8.ofNat (payload.length >>> 24) :: UInt8.ofNat (payload.length >>> 16) ::
        UInt8.ofNat (payload.length >>> 8) :: UInt8.ofNat payload.length ::
        k0 :: k1 :: k2 :: k3 ::
        (payload ++ (bigEndianBytes 4 (crc32 ([k0, k1, k2, k3] ++ payload)).toNat ++ rest)) := by
    rw [chunkBytes, bigEndianBytes_four payload.length]
    simp
  have hroom : ¬(payload ++ (bigEndianBytes 4 (crc32 ([k0, k1, k2, k3] ++ payload)).toNat ++
      rest)).length < payload.length + 4 := by
    rw [List.length_append, List.length_append, hcrc]
    omega
  have hpost : (payload ++ (bigEndianBytes 4 (crc32 ([k0, k1, k2, k3] ++ payload)).toNat ++
      rest)).drop (payload.length + 4) = rest := by
    rw [← List.drop_drop, List.drop_left, List.drop_left' hcrc]
  rw [hbytes, readChunks_cons, hlength, chunkStep]
  cases checkKind path scan [k0, k1, k2, k3] with
  | error error => rfl
  | ok checked =>
    dsimp only
    rw [if_neg hroom, List.take_left, List.drop_left, hpost, if_neg]
    rw [List.take_left' hcrc, unpackBe_bigEndianBytes (UInt32.toNat_lt _)]
    exact not_not_intro rfl

theorem readChunks_ok {data : List UInt8}
    (h : readChunks path scan data = .ok (next, true, rest)) :
    ∃ (chunk : PngChunk) (tail : List UInt8), data = chunk.bytes ++ tail ∧
      afterStep path tail (chunkStep path scan chunk.kind chunk.payload) =
        .ok (next, true, rest) := by
  rcases data with _ | ⟨l0, _ | ⟨l1, _ | ⟨l2, _ | ⟨l3, _ | ⟨k0, _ | ⟨k1, _ | ⟨k2, _ | ⟨k3,
    body⟩⟩⟩⟩⟩⟩⟩⟩
  case cons.cons.cons.cons.cons.cons.cons.cons =>
    rw [readChunks_cons] at h
    generalize hlength : unpackBe [l0, l1, l2, l3] = length at h
    have hlt : length < 2 ^ 32 := hlength ▸ unpackBe_lt l0 l1 l2 l3
    cases hcheck : checkKind path scan [k0, k1, k2, k3] with
    | error error =>
      rw [hcheck] at h
      cases h
    | ok checked =>
      rw [hcheck] at h
      dsimp only at h
      split_ifs at h with hshort hcrc
      · exact absurd h (pngFail_ne_ok _)
      · exact absurd h (pngFail_ne_ok _)
      · have htake : (body.take length).length = length := List.length_take_of_le (by omega)
        obtain ⟨c0, c1, c2, c3, hfour⟩ := List.length_eq_four.mp
          (show ((body.drop length).take 4).length = 4 by
            rw [List.length_take, List.length_drop]
            omega)
        rw [not_not, hfour] at hcrc
        have hbody : body = body.take length ++ ([c0, c1, c2, c3] ++ body.drop (length + 4)) := by
          rw [← hfour, ← List.drop_drop, List.take_append_drop, List.take_append_drop]
        have hbytes : l0 :: l1 :: l2 :: l3 :: k0 :: k1 :: k2 :: k3 :: body =
            chunkBytes [k0, k1, k2, k3] (body.take length) ++ body.drop (length + 4) := by
          rw [chunkBytes, hcrc, htake, bigEndianBytes_unpackBe, ← hlength,
            bigEndianBytes_unpackBe, hlength]
          conv_lhs => rw [hbody]
          simp
        refine ⟨⟨[k0, k1, k2, k3], body.take length, rfl, htake.symm ▸ hlt⟩,
          body.drop (length + 4), hbytes, ?_⟩
        rw [chunkStep, hcheck]
        exact h
  all_goals simp [readChunks] at h

/-- The chunks that the loop accepts, and what it makes of them. -/
inductive ChunkRead (scan : PngScan) : List UInt8 → List UInt8 → PngScan → Bool → Prop
  | ihdr (head : PngHead) (hnone : scan.head = none)
      (hlt : head.width < 2 ^ 32 ∧ head.height < 2 ^ 32) :
      ChunkRead scan kindIhdr head.bytes { scan with head := some head } false
  | idat (payload : List UInt8) (hsome : scan.head ≠ none) (hopen : scan.idatClosed = false) :
      ChunkRead scan kindIdat payload
        { scan with sawIdat := true, idat := scan.idat ++ payload } false
  | iend (hsome : scan.head ≠ none) : ChunkRead scan kindIend [] scan true
  | plte (payload : List UInt8) (hsome : scan.head ≠ none) (hsaw : scan.sawIdat = false) :
      ChunkRead scan kindPlte payload scan false
  | ancillary (kind payload : List UInt8) (hsome : scan.head ≠ none) (h : Ancillary kind) :
      ChunkRead scan kind payload
        (if scan.sawIdat then { scan with idatClosed := true } else scan) false

theorem checkKind_ok_iff :
    checkKind path scan kind = .ok () ↔ kind.all isLetter = true ∧
      (scan.head = none ↔ kind = kindIhdr) ∧ (kind = kindIdat → scan.idatClosed = false) := by
  unfold checkKind
  split_ifs with hletters hfirst hhead hdup hclosed
  · refine iff_of_false (pngFail_ne_ok _) fun h => ?_
    rw [h.1] at hletters
    cases hletters
  · refine iff_of_false (pngFail_ne_ok _) fun h => ?_
    rw [h.2.1.mp hfirst.2] at hfirst
    exact absurd hfirst.1 (by decide)
  · exact iff_of_false (pngFail_ne_ok _) fun h => hhead.2 (h.2.1.mp hhead.1)
  · exact iff_of_false (pngFail_ne_ok _) fun h => hdup.2 (h.2.1.mpr hdup.1)
  · refine iff_of_false (pngFail_ne_ok _) fun h => ?_
    rw [h.2.2 hclosed.1] at hclosed
    exact Bool.false_ne_true hclosed.2
  · refine iff_of_true rfl ⟨?_, ⟨?_, ?_⟩, ?_⟩
    · rwa [Bool.not_eq_true', Bool.not_eq_false] at hletters
    · intro hnone
      exact not_not.mp fun hkind => hhead ⟨hnone, hkind⟩
    · intro hkind
      exact not_not.mp fun hsome => hdup ⟨hkind, hsome⟩
    · intro hkind
      exact Bool.eq_false_iff.mpr fun hclose => hclosed ⟨hkind, hclose⟩

theorem Ancillary.ne {known : List UInt8} (h : Ancillary kind)
    (hknown : (known.take 1).all isUpper = true) : kind ≠ known := by
  rintro rfl
  rw [h.notUpper] at hknown
  cases hknown

theorem unpackHead_bytes (hlt : head.width < 2 ^ 32 ∧ head.height < 2 ^ 32) :
    unpackHead head.bytes = some head := by
  have hwidth := unpackBe_bigEndianBytes hlt.1
  have hheight := unpackBe_bigEndianBytes hlt.2
  unfold PngHead.bytes
  rw [bigEndianBytes_four] at hwidth hheight
  rw [bigEndianBytes_four, bigEndianBytes_four]
  dsimp only [List.cons_append, List.nil_append]
  rw [unpackHead, hwidth, hheight]

theorem unpackHead_eq_some (h : unpackHead payload = some head) :
    payload = head.bytes ∧ head.width < 2 ^ 32 ∧ head.height < 2 ^ 32 := by
  unfold unpackHead at h
  split at h
  case h_1 w0 w1 w2 w3 h0 h1 h2 h3 bitDepth colorType compression filterMethod interlace =>
    cases h
    refine ⟨?_, unpackBe_lt w0 w1 w2 w3, unpackBe_lt h0 h1 h2 h3⟩
    unfold PngHead.bytes
    rw [bigEndianBytes_unpackBe, bigEndianBytes_unpackBe]
    rfl
  case h_2 => cases h

theorem chunkRead_of_ok {done : Bool} (h : chunkStep path scan kind payload = .ok (next, done)) :
    ChunkRead scan kind payload next done := by
  unfold chunkStep at h
  cases hcheck : checkKind path scan kind with
  | error error =>
    rw [hcheck] at h
    cases h
  | ok checked =>
    rw [hcheck] at h
    obtain ⟨hletters, hhead, hopen⟩ := checkKind_ok_iff.mp hcheck
    dsimp only at h
    by_cases hihdr : kind = kindIhdr
    · subst hihdr
      rw [takeChunk, if_pos rfl] at h
      cases hunpack : unpackHead payload with
      | none =>
        rw [hunpack] at h
        cases h
      | some head =>
        rw [hunpack] at h
        cases h
        obtain ⟨rfl, hlt⟩ := unpackHead_eq_some hunpack
        exact .ihdr head (hhead.mpr rfl) hlt
    have hsome : scan.head ≠ none := fun hnone => hihdr (hhead.mp hnone)
    unfold takeChunk at h
    rw [if_neg hihdr] at h
    split_ifs at h with hidat hiend hlength hplte hsaw htrns hupper hafter
    · cases h
      subst hidat
      exact .idat payload hsome (hopen rfl)
    · cases h
    · cases h
      subst hiend
      rw [not_not] at hlength
      rw [List.eq_nil_of_length_eq_zero hlength]
      exact .iend hsome
    · cases h
    · cases h
      subst hplte
      exact .plte payload hsome (Bool.eq_false_iff.mpr hsaw)
    · cases h
    · cases h
    all_goals
      have hread := ChunkRead.ancillary kind payload hsome
        ⟨hletters, Bool.eq_false_iff.mpr hupper, htrns⟩
      cases h
    · rwa [if_pos hafter] at hread
    · rwa [if_neg hafter] at hread

theorem ChunkRead.chunkStep {done : Bool} (h : ChunkRead scan kind payload next done) :
    chunkStep path scan kind payload = .ok (next, done) := by
  have hstep : ∀ result, checkKind path scan kind = .ok () →
      takeChunk path scan kind payload = result →
      Scripts.chunkStep path scan kind payload = result := by
    intro result hcheck htake
    rw [Scripts.chunkStep, hcheck]
    exact htake
  cases h with
  | ihdr head hnone hlt =>
    apply hstep
    · exact checkKind_ok_iff.mpr ⟨by decide, iff_of_true hnone rfl, fun h => absurd h (by decide)⟩
    · rw [takeChunk, if_pos rfl, unpackHead_bytes hlt]
  | idat payload hsome hopen =>
    apply hstep
    · exact checkKind_ok_iff.mpr ⟨by decide, iff_of_false hsome (by decide), fun _ => hopen⟩
    · rfl
  | iend hsome =>
    apply hstep
    · exact checkKind_ok_iff.mpr
        ⟨by decide, iff_of_false hsome (by decide), fun h => absurd h (by decide)⟩
    · rfl
  | plte payload hsome hsaw =>
    apply hstep
    · exact checkKind_ok_iff.mpr
        ⟨by decide, iff_of_false hsome (by decide), fun h => absurd h (by decide)⟩
    · rw [takeChunk, if_neg (by decide), if_neg (by decide), if_neg (by decide), if_pos rfl, hsaw]
      rfl
  | ancillary kind payload hsome h =>
    apply hstep
    · exact checkKind_ok_iff.mpr ⟨h.letters, iff_of_false hsome (h.ne (by decide)),
        fun hkind => absurd hkind (h.ne (by decide))⟩
    · rw [takeChunk, if_neg (h.ne (by decide)), if_neg (h.ne (by decide)),
        if_neg (h.ne (by decide)), if_neg (h.ne (by decide)), if_neg h.notTrns, h.notUpper,
        if_neg Bool.false_ne_true]

/-- Chunks from one that the loop takes to `IEND`: a palette, when no image data has been read, and
skipped chunks, image data unless it was closed, and skipped chunks. -/
structure PngTail (scan next : PngScan) (data rest : List UInt8)
    (before idats after : List PngChunk) : Prop where
  early : ∀ chunk ∈ before, chunk.kind = kindPlte ∨ Ancillary chunk.kind
  image : ∀ chunk ∈ idats, chunk.kind = kindIdat
  late : ∀ chunk ∈ after, Ancillary chunk.kind
  before_eq_nil : scan.sawIdat = true → before = []
  idats_eq_nil : scan.idatClosed = true → idats = []
  idat : next.idat = scan.idat ++ idats.flatMap (·.payload)
  head : next.head = scan.head
  bytes : data =
    (before ++ idats ++ after).flatMap PngChunk.bytes ++ (chunkBytes kindIend [] ++ rest)

theorem readChunks_read (chunk : PngChunk) {done : Bool}
    (h : ChunkRead scan chunk.kind chunk.payload next done) (rest : List UInt8) :
    readChunks path scan (chunk.bytes ++ rest) = afterStep path rest (.ok (next, done)) := by
  rw [PngChunk.bytes, readChunks_chunkBytes chunk.length_kind chunk.length_payload, h.chunkStep]

theorem readChunks_iend (hsome : scan.head ≠ none) (rest : List UInt8) :
    readChunks path scan (chunkBytes kindIend [] ++ rest) = .ok (scan, true, rest) :=
  readChunks_read ⟨kindIend, [], rfl, by decide⟩ (.iend hsome) rest

theorem readChunks_after (hsome : scan.head ≠ none) (after : List PngChunk)
    (hafter : ∀ chunk ∈ after, Ancillary chunk.kind) (rest : List UInt8) :
    ∃ next, readChunks path scan
        (after.flatMap PngChunk.bytes ++ (chunkBytes kindIend [] ++ rest)) =
          .ok (next, true, rest) ∧
      next.idat = scan.idat ∧ next.head = scan.head := by
  induction after generalizing scan with
  | nil => exact ⟨scan, readChunks_iend hsome rest, rfl, rfl⟩
  | cons chunk after ih =>
    obtain ⟨hchunk, hafter⟩ := List.forall_mem_cons.mp hafter
    have hread := ChunkRead.ancillary chunk.kind chunk.payload hsome hchunk
    obtain ⟨closed, hclosed⟩ : ∃ closed : PngScan,
        closed = if scan.sawIdat then { scan with idatClosed := true } else scan := ⟨_, rfl⟩
    rw [← hclosed] at hread
    have hidat : closed.idat = scan.idat := by
      rw [hclosed]
      split <;> rfl
    have hhead : closed.head = scan.head := by
      rw [hclosed]
      split <;> rfl
    obtain ⟨next, hnext, hnextIdat, hnextHead⟩ := ih (hhead ▸ hsome) hafter
    refine ⟨next, ?_, hnextIdat.trans hidat, hnextHead.trans hhead⟩
    rw [List.flatMap_cons, List.append_assoc, readChunks_read chunk hread]
    exact hnext

theorem readChunks_idats (hsome : scan.head ≠ none) (idats : List PngChunk)
    (hidats : ∀ chunk ∈ idats, chunk.kind = kindIdat) (hopen : scan.idatClosed = false)
    (rest : List UInt8) :
    ∃ next, readChunks path scan (idats.flatMap PngChunk.bytes ++ rest) =
        readChunks path next rest ∧
      next.idat = scan.idat ++ idats.flatMap (·.payload) ∧ next.head = scan.head := by
  induction idats generalizing scan with
  | nil => exact ⟨scan, rfl, (List.append_nil _).symm, rfl⟩
  | cons chunk idats ih =>
    obtain ⟨hchunk, hidats⟩ := List.forall_mem_cons.mp hidats
    have hread := ChunkRead.idat chunk.payload hsome hopen
    rw [← hchunk] at hread
    obtain ⟨next, hnext, hidat, hhead⟩ :=
      @ih { scan with sawIdat := true, idat := scan.idat ++ chunk.payload } hsome hidats hopen
    refine ⟨next, ?_, ?_, hhead⟩
    · rw [List.flatMap_cons, List.append_assoc, readChunks_read chunk hread]
      exact hnext
    · rw [hidat, List.flatMap_cons, List.append_assoc]

theorem readChunks_before (hsome : scan.head ≠ none) (before : List PngChunk)
    (hbefore : ∀ chunk ∈ before, chunk.kind = kindPlte ∨ Ancillary chunk.kind)
    (hsaw : scan.sawIdat = false) (rest : List UInt8) :
    readChunks path scan (before.flatMap PngChunk.bytes ++ rest) = readChunks path scan rest := by
  induction before with
  | nil => rfl
  | cons chunk before ih =>
    obtain ⟨hchunk, hbefore⟩ := List.forall_mem_cons.mp hbefore
    have hread : ChunkRead scan chunk.kind chunk.payload scan false := by
      rcases hchunk with hplte | hancillary
      · rw [hplte]
        exact .plte chunk.payload hsome hsaw
      · have hread := ChunkRead.ancillary chunk.kind chunk.payload hsome hancillary
        rwa [hsaw, if_neg Bool.false_ne_true] at hread
    rw [List.flatMap_cons, List.append_assoc, readChunks_read chunk hread]
    exact ih hbefore

theorem pngTail_of_readChunks {n : ℕ} {data : List UInt8} (hn : data.length ≤ n)
    (hsome : scan.head ≠ none) (h : readChunks path scan data = .ok (next, true, rest)) :
    ∃ before idats after, PngTail scan next data rest before idats after := by
  induction n generalizing scan data with
  | zero =>
    rw [List.eq_nil_of_length_eq_zero (Nat.le_zero.mp hn)] at h
    simp [readChunks] at h
  | succ n ih =>
    obtain ⟨chunk, tail, rfl, hafter⟩ := readChunks_ok h
    have htail : tail.length ≤ n := by
      rw [List.length_append, PngChunk.bytes, chunkBytes] at hn
      simp only [List.length_append, length_bigEndianBytes] at hn
      omega
    cases hstep : chunkStep path scan chunk.kind chunk.payload with
    | error error =>
      rw [hstep] at hafter
      cases hafter
    | ok stepped =>
      obtain ⟨scan', done⟩ := stepped
      have hread := chunkRead_of_ok hstep
      rw [hstep] at hafter
      have hgoes : done = false → readChunks path scan' tail = .ok (next, true, rest) := by
        rintro rfl
        exact hafter
      obtain ⟨kind, payload, hkind, hpayload⟩ := chunk
      dsimp only at hread
      cases hread with
      | ihdr head hnone hlt => exact absurd hnone hsome
      | iend =>
        cases hafter
        exact ⟨[], [], [], by simp, by simp, by simp, fun _ => rfl, fun _ => rfl,
          (List.append_nil _).symm, rfl, rfl⟩
      | idat _ _ hopen =>
        -- behind image data a palette is refused, so nothing may come before the rest of it
        obtain ⟨before, idats, after, ht⟩ := @ih
          { scan with sawIdat := true, idat := scan.idat ++ payload } _ htail hsome (hgoes rfl)
        refine ⟨[], ⟨kindIdat, payload, hkind, hpayload⟩ :: idats, after, by simp, ?_, ht.late,
          fun _ => rfl, ?_, ?_, ht.head, ?_⟩
        · exact List.forall_mem_cons.mpr ⟨rfl, ht.image⟩
        · intro hclosed
          rw [hopen] at hclosed
          cases hclosed
        · rw [ht.idat, List.flatMap_cons, List.append_assoc]
        · have hbytes := ht.bytes
          rw [ht.before_eq_nil rfl] at hbytes
          rw [hbytes]
          simp
      | plte _ _ hsaw =>
        obtain ⟨before, idats, after, ht⟩ := ih htail hsome (hgoes rfl)
        refine ⟨⟨kindPlte, payload, hkind, hpayload⟩ :: before, idats, after, ?_, ht.image,
          ht.late, ?_, ht.idats_eq_nil, ht.idat, ht.head, ?_⟩
        · exact List.forall_mem_cons.mpr ⟨.inl rfl, ht.early⟩
        · intro hsaw'
          rw [hsaw] at hsaw'
          cases hsaw'
        · rw [ht.bytes]
          simp
      | ancillary _ _ _ hancillary =>
        have hgoes := hgoes rfl
        -- a skipped chunk closes the image data if there was any, and only then
        by_cases hsaw : scan.sawIdat = true
        · rw [if_pos hsaw] at hgoes
          obtain ⟨before, idats, after, ht⟩ :=
            @ih { scan with idatClosed := true } _ htail hsome hgoes
          have hbefore := ht.before_eq_nil hsaw
          have hidats := ht.idats_eq_nil rfl
          have hidat := ht.idat
          have hbytes := ht.bytes
          rw [hidats] at hidat
          rw [hbefore, hidats] at hbytes
          refine ⟨[], [], ⟨kind, payload, hkind, hpayload⟩ :: after, by simp, by simp, ?_,
            fun _ => rfl, fun _ => rfl, hidat, ht.head, ?_⟩
          · exact List.forall_mem_cons.mpr ⟨hancillary, ht.late⟩
          · rw [hbytes]
            simp
        · rw [if_neg hsaw] at hgoes
          obtain ⟨before, idats, after, ht⟩ := ih htail hsome hgoes
          refine ⟨⟨kind, payload, hkind, hpayload⟩ :: before, idats, after, ?_, ht.image, ht.late,
            fun hsaw' => absurd hsaw' hsaw, ht.idats_eq_nil, ht.idat, ht.head, ?_⟩
          · exact List.forall_mem_cons.mpr ⟨.inr hancillary, ht.early⟩
          · rw [ht.bytes]
            simp

theorem PngHead.length_bytes (head : PngHead) : head.bytes.length = 13 := by
  rw [PngHead.bytes, List.length_append, List.length_append, length_bigEndianBytes,
    length_bigEndianBytes]
  rfl

/-- After the signature, the loop gets to the end of the file at `IEND` in the files of the
grammar, and collects their image data. -/
theorem readChunks_start_iff {file idat : List UInt8} :
    (∃ scan, readChunks path .start file = .ok (scan, true, []) ∧ scan.head = some head ∧
      scan.idat = idat) ↔ PngGrammar head idat (pngSignature ++ file) := by
  constructor
  · rintro ⟨scan, h, hhead, hidat⟩
    obtain ⟨chunk, tail, rfl, hafter⟩ := readChunks_ok h
    cases hstep : chunkStep path .start chunk.kind chunk.payload with
    | error error =>
      rw [hstep] at hafter
      cases hafter
    | ok stepped =>
      obtain ⟨next, done⟩ := stepped
      have hread := chunkRead_of_ok hstep
      rw [hstep] at hafter
      obtain ⟨kind, payload, hkind, hpayload⟩ := chunk
      dsimp only at hread
      cases hread with
      | ihdr first hnone hlt =>
        have hrest : readChunks path { PngScan.start with head := some first } tail =
            .ok (scan, true, []) := hafter
        obtain ⟨before, idats, after, ht⟩ :=
          pngTail_of_readChunks le_rfl (Option.some_ne_none first) hrest
        have hfirst : first = head := Option.some.inj (ht.head.symm.trans hhead)
        subst hfirst
        refine ⟨hlt, before, idats, after, ht.early, ht.image, ht.late, ?_, ?_⟩
        · rw [← hidat, ht.idat]
          rfl
        · rw [ht.bytes, List.append_nil, PngChunk.bytes, ← List.append_assoc, ← List.append_assoc]
      -- every other chunk needs a header before it
      | idat _ hsome _ => exact absurd rfl hsome
      | iend hsome => exact absurd rfl hsome
      | plte _ hsome _ => exact absurd rfl hsome
      | ancillary _ _ hsome _ => exact absurd rfl hsome
  · rintro ⟨hlt, before, idats, after, hbefore, hidats, hafter, hidat, hdata⟩
    rw [List.append_assoc, List.append_assoc] at hdata
    have hfile := List.append_cancel_left hdata
    have hlength : head.bytes.length < 2 ^ 32 := by
      rw [head.length_bytes]
      decide
    have hihdr := @readChunks_read path .start { PngScan.start with head := some head }
      ⟨kindIhdr, head.bytes, rfl, hlength⟩ false (.ihdr head rfl hlt)
    have hsome : ({ PngScan.start with head := some head } : PngScan).head ≠ none :=
      Option.some_ne_none head
    obtain ⟨imaged, himaged, himage, himageHead⟩ :=
      @readChunks_idats path { PngScan.start with head := some head } hsome idats hidats rfl
        (after.flatMap PngChunk.bytes ++ (chunkBytes kindIend [] ++ []))
    obtain ⟨next, hnext, hnextIdat, hnextHead⟩ :=
      @readChunks_after path imaged (himageHead ▸ hsome) after hafter []
    refine ⟨next, ?_, hnextHead.trans himageHead, ?_⟩
    · rw [hfile, List.flatMap_append, List.flatMap_append, List.append_assoc, List.append_assoc,
        ← List.append_nil (chunkBytes kindIend [])]
      refine (hihdr _).trans ?_
      show readChunks path { PngScan.start with head := some head } _ = _
      rw [readChunks_before hsome before hbefore rfl, himaged, hnext]
    · rw [hnextIdat, himage, hidat]
      rfl

/-- The headers that `read_png_rgba` supports. -/
structure PngHead.Supported (head : PngHead) : Prop where
  width_ne_zero : head.width ≠ 0
  height_ne_zero : head.height ≠ 0
  bitDepth : head.bitDepth = 8
  colorType : head.colorType = 2 ∨ head.colorType = 6
  compression : head.compression = 0
  filterMethod : head.filterMethod = 0
  interlace : head.interlace = 0

theorem checkHead_ok_iff : checkHead path head = .ok () ↔ head.Supported := by
  unfold checkHead
  split_ifs with hzero hdepth hcolor hmethod hinterlace
  · exact iff_of_false (pngFail_ne_ok _) fun h => hzero.elim h.width_ne_zero h.height_ne_zero
  · exact iff_of_false (pngFail_ne_ok _) fun h => hdepth h.bitDepth
  · refine iff_of_false (pngFail_ne_ok _) fun h => ?_
    rcases hmethod with hcompression | hfilter
    · exact hcompression h.compression
    · exact hfilter h.filterMethod
  · exact iff_of_false (pngFail_ne_ok _) fun h => hinterlace h.interlace
  · rw [not_or] at hzero hmethod
    exact iff_of_true rfl ⟨hzero.1, hzero.2, not_not.mp hdepth, hcolor, not_not.mp hmethod.1,
      not_not.mp hmethod.2, not_not.mp hinterlace⟩
  · exact iff_of_false (pngFail_ne_ok _) fun h => hcolor h.colorType

end

/-- A file is read if and only if it is in the grammar, its header is a supported one, its image
data is one whole `zlib` stream and nothing else, and the scanlines of that are read; the result is
the header's size with their pixels. -/
theorem readPngRgbaFile_ok_iff_scanlines (path : String)
    (decompress : List UInt8 → ℕ → Except String Decompressed) (data : List UInt8)
    (width height : ℕ) (pixels : List Pixel) :
    readPngRgbaFile path decompress data = .ok (width, height, pixels) ↔
      ∃ head idat raw, PngGrammar head idat data ∧ head.Supported ∧
        head.width = width ∧ head.height = height ∧
        decompress idat (head.expectedLen + 1) =
          .ok { raw, unconsumedTail := [], unusedData := [], eof := true } ∧
        readPngRgba path width height head.colorType raw = .ok pixels := by
  constructor
  · intro h
    rw [readPngRgbaFile] at h
    have hsignature : pngSignature <+: data := by
      by_contra hnone
      rw [if_pos hnone] at h
      exact absurd h (pngFail_ne_ok _)
    rw [if_neg (not_not_intro hsignature)] at h
    obtain ⟨file, rfl⟩ := hsignature
    rw [List.drop_left] at h
    cases hread : readChunks path .start file with
    | error error =>
      rw [hread] at h
      cases h
    | ok read =>
      obtain ⟨scan, sawIend, rest⟩ := read
      rw [hread] at h
      dsimp only at h
      split_ifs at h with hiend hrest
      · exact absurd h (pngFail_ne_ok _)
      · exact absurd h (pngFail_ne_ok _)
      rw [Bool.not_eq_true', Bool.not_eq_false] at hiend
      rw [not_not] at hrest
      subst hiend hrest
      cases hhead : scan.head with
      | none =>
        rw [hhead] at h
        cases h
      | some head =>
        rw [hhead] at h
        dsimp only at h
        have hgrammar := readChunks_start_iff.mp ⟨scan, hread, hhead, rfl⟩
        cases hcheck : checkHead path head with
        | error error =>
          rw [hcheck] at h
          cases h
        | ok checked =>
          rw [hcheck] at h
          dsimp only at h
          cases hraw : decompress scan.idat (head.expectedLen + 1) with
          | error exc =>
            rw [hraw] at h
            cases h
          | ok decompressed =>
            obtain ⟨raw, unconsumedTail, unusedData, eof⟩ := decompressed
            rw [hraw] at h
            dsimp only at h
            split_ifs at h with htail hunused heof
            · exact absurd h (pngFail_ne_ok _)
            · exact absurd h (pngFail_ne_ok _)
            · exact absurd h (pngFail_ne_ok _)
            rw [not_not] at htail hunused
            rw [Bool.not_eq_true', Bool.not_eq_false] at heof
            subst htail hunused heof
            cases hpixels : readPngRgba path head.width head.height head.colorType raw with
            | error error =>
              rw [hpixels] at h
              cases h
            | ok read =>
              rw [hpixels] at h
              cases h
              exact ⟨head, scan.idat, raw, hgrammar, checkHead_ok_iff.mp hcheck, rfl, rfl, hraw,
                hpixels⟩
  · rintro ⟨head, idat, raw, hgrammar, hsupported, rfl, rfl, hraw, hpixels⟩
    obtain ⟨file, rfl⟩ : pngSignature <+: data := by
      obtain ⟨_, before, idats, after, _, _, _, _, rfl⟩ := hgrammar
      rw [List.append_assoc, List.append_assoc]
      exact List.prefix_append _ _
    obtain ⟨scan, hread, hhead, rfl⟩ := (@readChunks_start_iff path head file idat).mpr hgrammar
    rw [readPngRgbaFile, if_neg (not_not_intro (List.prefix_append _ _)), List.drop_left, hread]
    dsimp only
    rw [hhead]
    dsimp only
    rw [checkHead_ok_iff.mpr hsupported, hraw]
    dsimp only
    rw [hpixels]
    rfl

def pictureHead (color : PngColor) (width height : ℕ) : PngHead where
  width := width
  height := height
  bitDepth := 8
  colorType := color.colorType
  compression := 0
  filterMethod := 0
  interlace := 0

theorem PngColor.colorType_eq (color : PngColor) : color.colorType = 2 ∨ color.colorType = 6 := by
  cases color
  · exact .inl rfl
  · exact .inr rfl

theorem pictureHead_supported {color : PngColor} {width height : ℕ} (hwidth : width ≠ 0)
    (hheight : height ≠ 0) : (pictureHead color width height).Supported :=
  ⟨hwidth, hheight, rfl, color.colorType_eq, rfl, rfl, rfl⟩

theorem PngHead.Supported.eq_pictureHead {head : PngHead} (h : head.Supported) :
    ∃ color : PngColor, head = pictureHead color head.width head.height := by
  obtain ⟨width, height, bitDepth, colorType, compression, filterMethod, interlace⟩ := head
  obtain ⟨_, _, rfl, rfl | rfl, rfl, rfl, rfl⟩ := h
  · exact ⟨.rgb, rfl⟩
  · exact ⟨.rgba, rfl⟩

theorem expectedLen_pictureHead (color : PngColor) (width height : ℕ) :
    (pictureHead color width height).expectedLen = height * (1 + width * color.channels) := by
  cases color <;> rfl

/-- A file is read if and only if it is a PNG file of an image, filtered in any way and compressed
into one `zlib` stream, and then the pixels are the image's. -/
theorem readPngRgbaFile_ok_iff (path : String)
    (decompress : List UInt8 → ℕ → Except String Decompressed) (data : List UInt8)
    (width height : ℕ) (pixels : List Pixel) :
    readPngRgbaFile path decompress data = .ok (width, height, pixels) ↔
      ∃ (color : PngColor) (rows : List (PngFilter × Vector (Vector UInt8 color.channels) width))
        (idat : List UInt8),
        (width ≠ 0 ∧ height ≠ 0 ∧ rows.length = height) ∧
        PngGrammar (pictureHead color width height) idat data ∧
        decompress idat (height * (1 + width * color.channels) + 1) =
          .ok
            { raw := pngFilteredData color.channels (width * color.channels)
                (rows.map (Prod.map id rowBytes))
              unconsumedTail := [], unusedData := [], eof := true } ∧
        pixels = rows.flatMap (fun row => row.2.toList.map color.withAlpha) := by
  rw [readPngRgbaFile_ok_iff_scanlines]
  constructor
  · rintro ⟨head, idat, raw, hgrammar, hsupported, rfl, rfl, hraw, hpixels⟩
    obtain ⟨color, hhead⟩ := hsupported.eq_pictureHead
    have hcolor : head.colorType = color.colorType := congrArg PngHead.colorType hhead
    have hlen : head.expectedLen = head.height * (1 + head.width * color.channels) := by
      conv_lhs => rw [hhead]
      exact expectedLen_pictureHead color head.width head.height
    rw [hcolor] at hpixels
    rw [hlen] at hraw
    rw [hhead] at hgrammar
    obtain ⟨rows, hrows, rfl, rfl⟩ := readPngRgba_ok_iff.mp hpixels
    exact ⟨color, rows, idat, ⟨hsupported.width_ne_zero, hsupported.height_ne_zero, hrows⟩,
      hgrammar, hraw, rfl⟩
  · rintro ⟨color, rows, idat, ⟨hwidth, hheight, hrows⟩, hgrammar, hraw, hpixels⟩
    rw [← expectedLen_pictureHead] at hraw
    exact ⟨pictureHead color width height, idat, _, hgrammar,
      pictureHead_supported hwidth hheight, rfl, rfl, hraw,
      readPngRgba_ok_iff.mpr ⟨rows, hrows, rfl, hpixels⟩⟩

/-- A picture of one pixel, and what `zlib` makes of its image data. -/
def onePixelIdat : List UInt8 :=
  [0x78, 0xda, 0x63, 0x60, 0x64, 0x62, 0x06, 0x00, 0x00, 0x0e, 0x00, 0x07]

def onePixelFile : List UInt8 :=
  [0x89, 0x50, 0x4e, 0x47, 0x0d, 0x0a, 0x1a, 0x0a, 0x00, 0x00, 0x00, 0x0d,
    0x49, 0x48, 0x44, 0x52, 0x00, 0x00, 0x00, 0x01, 0x00, 0x00, 0x00, 0x01,
    0x08, 0x02, 0x00, 0x00, 0x00, 0x90, 0x77, 0x53, 0xde, 0x00, 0x00, 0x00,
    0x0c, 0x49, 0x44, 0x41, 0x54, 0x78, 0xda, 0x63, 0x60, 0x64, 0x62, 0x06,
    0x00, 0x00, 0x0e, 0x00, 0x07, 0xe9, 0x92, 0x37, 0xd4, 0x00, 0x00, 0x00,
    0x00, 0x49, 0x45, 0x4e, 0x44, 0xae, 0x42, 0x60, 0x82]

def onePixelDecompress (idat : List UInt8) (maxLen : ℕ) : Except String Decompressed :=
  if idat = onePixelIdat ∧ 4 < maxLen then
    .ok { raw := [0, 1, 2, 3], unconsumedTail := [], unusedData := [], eof := true }
  else .error "invalid stream"

theorem readPngRgbaFile_ok_iff_onePixel :
    readPngRgbaFile "map.png" onePixelDecompress onePixelFile = .ok (1, 1, [(1, 2, 3, 255)]) := by
  apply (readPngRgbaFile_ok_iff "map.png" onePixelDecompress onePixelFile 1 1 _).mpr
  refine ⟨.rgb, [(.none, #v[#v[1, 2, 3]])], onePixelIdat, ⟨by decide, by decide, rfl⟩, ?_,
    by decide, rfl⟩
  exact ⟨by decide, [], [⟨kindIdat, onePixelIdat, rfl, by decide⟩], [],
    fun _ h => absurd h List.not_mem_nil, fun _ h => by rw [List.mem_singleton.mp h],
    fun _ h => absurd h List.not_mem_nil, rfl, by decide +kernel⟩

end StarrySky.Scripts
