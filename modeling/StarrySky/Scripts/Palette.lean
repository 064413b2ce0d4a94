import StarrySky.Scripts.PngScanlines

/-! The palette of `scripts/generate_compressed_chunks.py`: `parse_color_key` to `load_palette`. -/

namespace StarrySky.Scripts

/-- What `json.loads` makes of a text; a `dict` has its keys in order. -/
inductive JsonValue
  | null
  | bool (value : Bool)
  | int (value : ℤ)
  | float
  | str (text : String)
  | list (items : List JsonValue)
  | dict (items : List (String × JsonValue))

/-- How `read_text` and `json.loads` fail: the one exception that is caught, or another. -/
inductive LoadError
  | jsonDecodeError (text : String)
  | uncaught (error : ScriptError)

/-- The tables of Python's `str`: `lower`, `repr`, and what `int` takes for a space or a digit. -/
structure StrTables where
  lower : String → String
  repr : String → String
  isSpace : Char → Bool
  decimal : Char → Option (Fin 10)
  lower_ascii : ∀ text, (∀ c ∈ text.toList, c.toNat < 128) →
    (lower text).toList = text.toList.map Char.toLower

abbrev Color : Type := ℤ × ℤ × ℤ
abbrev Palette : Type := Color → Option ℕ

def hexDigit (c : Char) : Option ℕ :=
  if '0' ≤ c ∧ c ≤ '9' then some (c.toNat - 48)
  else if 'a' ≤ c ∧ c ≤ 'f' then some (c.toNat - 87)
  else if 'A' ≤ c ∧ c ≤ 'F' then some (c.toNat - 55)
  else none

def isAsciiSpace (c : Char) : Bool := c = ' ' ∨ 9 ≤ c.toNat ∧ c.toNat ≤ 13

/-- The digits that go on a number and what is behind them. -/
def hexDigitsLoop (value : ℕ) : List Char → Option (ℕ × List Char)
  | [] => some (value, [])
  | ['_'] => none
  | '_' :: c :: text =>
    -- an underscore stands between two digits
    match hexDigit c with
    | some digit => hexDigitsLoop (value * 16 + digit) text
    | none => none
  | c :: text =>
    match hexDigit c with
    | some digit => hexDigitsLoop (value * 16 + digit) text
    | none => some (value, c :: text)

def hexDigits : List Char → Option (ℕ × List Char)
  | [] => none
  | c :: text =>
    match hexDigit c with
    | some digit => hexDigitsLoop digit text
    | none => none

def skipHexPrefix : List Char → List Char
  | '0' :: 'x' :: '_' :: text | '0' :: 'X' :: '_' :: text => text
  | '0' :: 'x' :: text | '0' :: 'X' :: text => text
  | text => text

def hexNumber (text : List Char) : Option ℕ :=
  match hexDigits (skipHexPrefix text) with
  | some (value, rest) => if rest.all isAsciiSpace then some value else none
  | none => none

def intOfAscii (text : List Char) : Option ℤ :=
  match text.dropWhile isAsciiSpace with
  | '-' :: text => (hexNumber text).map fun value => -(value : ℤ)
  | '+' :: text => (hexNumber text).map fun value => (value : ℤ)
  | text => (hexNumber text).map fun value => (value : ℤ)

section
variable (tables : StrTables)

/-- Spaces and decimal digits of any script become ASCII ones. -/
def decimalAndSpaceToAscii (text : List Char) : List Char :=
  text.map fun c =>
    if c.toNat < 127 then c
    else if tables.isSpace c then ' '
    else (tables.decimal c).elim '?' fun digit => Nat.digitChar digit

/-- `int(text, 16)`; no number is a `ValueError`. -/
def intBase16 (text : List Char) : Option ℤ := intOfAscii (decimalAndSpaceToAscii tables text)

def parseColorKey (key : String) : Except ScriptError Color :=
  let invalid := Except.error
    (.systemExit ("invalid color key " ++ tables.repr key ++ "; expected #rrggbb"))
  if key.toList.length ≠ 7 ∨ key.toList.head? ≠ some '#' then invalid
  else
    let part (start : ℕ) := intBase16 tables ((key.toList.drop start).take 2)
    match part 1, part 3, part 5 with
    | some r, some g, some b => .ok (r, g, b)
    | _, _, _ => invalid

/-- `type(value) is int and 0 <= value <= bound`; a `bool` is no `int` here. -/
def JsonValue.intUpTo (bound : ℤ) : JsonValue → Option ℕ
  | .int value => if 0 ≤ value ∧ value ≤ bound then some value.toNat else none
  | _ => none

def packedBlockState (entry : JsonValue) (colorKey : String) : Except ScriptError ℕ :=
  let failed (message : String) : Except ScriptError ℕ :=
    .error (.systemExit ("palette entry " ++ colorKey ++ ": " ++ message))
  match entry with
  | .dict items =>
    match items.lookup "id" with
    | none => failed "missing id"
    | some blockId =>
      match blockId.intUpTo 4095, ((items.lookup "meta").getD (.int 0)).intUpTo 15 with
      | none, _ => failed "id must be an integer in 0..4095"
      | some _, none => failed "meta must be an integer in 0..15"
      | some blockId, some blockMeta => .ok ((blockId <<< 4) ||| blockMeta)
  | _ => failed "expected object with id and meta"

def mergePaletteEntries (palette : Palette) :
    List (String × JsonValue) → Except ScriptError Palette
  | [] => .ok palette
  | (colorKey, entry) :: entries =>
    match parseColorKey tables (tables.lower colorKey) with
    | .error error => .error error
    | .ok rgb =>
      match packedBlockState entry colorKey with
      | .error error => .error error
      | .ok block => mergePaletteEntries (Function.update palette rgb (some block)) entries

def defaultPalette : List (String × JsonValue) :=
  [("#00ff00", .dict [("id", .int 2), ("meta", .int 0)]),
    ("#7f7f7f", .dict [("id", .int 1), ("meta", .int 0)]),
    ("#8b4513", .dict [("id", .int 3), ("meta", .int 0)]),
    ("#ffff00", .dict [("id", .int 12), ("meta", .int 0)]),
    ("#ffffff", .dict [("id", .int 35), ("meta", .int 0)]),
    ("#ff0000", .dict [("id", .int 35), ("meta", .int 14)]),
    ("#00ffff", .dict [("id", .int 35), ("meta", .int 9)]),
    ("#0000ff", .dict [("id", .int 35), ("meta", .int 11)]),
    ("#000000", .dict [("id", .int 35), ("meta", .int 15)])]

/-- `load_palette`, with the bytes of the palette file where there is one. -/
def loadPalette (jsonLoads : List UInt8 → Except LoadError JsonValue) (palettePath : String)
    (paletteFile : Option (List UInt8)) : Except ScriptError Palette :=
  match mergePaletteEntries tables (fun _ => none) defaultPalette with
  | .error error => .error error
  | .ok palette =>
    match paletteFile with
    | none => .ok palette
    | some data =>
      match jsonLoads data with
      | .error (.jsonDecodeError text) =>
        .error (.systemExit (palettePath ++ ": malformed palette JSON: " ++ text))
      | .error (.uncaught error) => .error error
      | .ok (.dict loaded) => mergePaletteEntries tables palette loaded
      | .ok _ => .error (.systemExit (palettePath ++ ": palette JSON must be an object"))

end

/-- `f"{byte:02x}"`. -/
def hexByte (byte : UInt8) : List Char :=
  [Nat.digitChar (byte.toNat / 16), Nat.digitChar (byte.toNat % 16)]

def colorKey (r g b : UInt8) : String :=
  String.ofList ('#' :: (hexByte r ++ hexByte g ++ hexByte b))

theorem digitChar_ascii {n : ℕ} (h : n < 16) : (Nat.digitChar n).toNat < 127 := by
  interval_cases n <;> decide

theorem toLower_digitChar {n : ℕ} (h : n < 16) :
    (Nat.digitChar n).toLower = Nat.digitChar n := by
  interval_cases n <;> decide

theorem intOfAscii_digits :
    ∀ a b : Fin 16, intOfAscii [Nat.digitChar a, Nat.digitChar b] = some ((16 * a + b : ℕ) : ℤ) := by
  decide

theorem exists_digits (byte : UInt8) : ∃ a b : Fin 16, 16 * a + b = byte.toNat ∧
    hexByte byte = [Nat.digitChar a, Nat.digitChar b] := by
  have hlt := byte.toNat_lt
  refine ⟨⟨byte.toNat / 16, by omega⟩, ⟨byte.toNat % 16, by omega⟩, ?_, rfl⟩
  exact Nat.div_add_mod _ _

variable (tables : StrTables)

theorem decimalAndSpaceToAscii_eq_self {text : List Char} (h : ∀ c ∈ text, c.toNat < 127) :
    decimalAndSpaceToAscii tables text = text := by
  rw [decimalAndSpaceToAscii]
  conv_rhs => rw [← List.map_id text]
  apply List.map_congr_left
  intro c hc
  exact if_pos (h c hc)

theorem intBase16_hexByte (byte : UInt8) :
    intBase16 tables (hexByte byte) = some (byte.toNat : ℤ) := by
  obtain ⟨a, b, hbyte, hdigits⟩ := exists_digits byte
  rw [hdigits, intBase16, decimalAndSpaceToAscii_eq_self, intOfAscii_digits, hbyte]
  intro c hc
  rcases List.mem_pair.mp hc with rfl | rfl
  · exact digitChar_ascii a.isLt
  · exact digitChar_ascii b.isLt

theorem lower_colorKey (r g b : UInt8) : tables.lower (colorKey r g b) = colorKey r g b := by
  have hchar : ∀ c ∈ (colorKey r g b).toList, c.toNat < 128 ∧ c.toLower = c := by
    obtain ⟨a₁, a₂, _, hr⟩ := exists_digits r
    obtain ⟨b₁, b₂, _, hg⟩ := exists_digits g
    obtain ⟨c₁, c₂, _, hb⟩ := exists_digits b
    have hdigit : ∀ d : Fin 16, (Nat.digitChar d).toNat < 128 ∧
        (Nat.digitChar d).toLower = Nat.digitChar d :=
      fun d => ⟨(digitChar_ascii d.isLt).trans (by decide), toLower_digitChar d.isLt⟩
    intro c hc
    rw [colorKey, String.toList_ofList, hr, hg, hb] at hc
    simp only [List.cons_append, List.nil_append, List.mem_cons, List.not_mem_nil,
      or_false] at hc
    rcases hc with rfl | rfl | rfl | rfl | rfl | rfl | rfl
    · decide
    all_goals exact hdigit _
  apply String.toList_injective
  rw [tables.lower_ascii _ fun c hc => (hchar c hc).1]
  exact (List.map_congr_left fun c hc => (hchar c hc).2).trans (List.map_id _)

theorem parseColorKey_colorKey (r g b : UInt8) :
    parseColorKey tables (tables.lower (colorKey r g b)) =
      .ok ((r.toNat : ℤ), (g.toNat : ℤ), (b.toNat : ℤ)) := by
  rw [lower_colorKey, parseColorKey]
  have hkey : (colorKey r g b).toList = '#' :: (hexByte r ++ hexByte g ++ hexByte b) :=
    String.toList_ofList
  rw [hkey]
  have hr : intBase16 tables
      ((('#' :: (hexByte r ++ hexByte g ++ hexByte b)).drop 1).take 2) = some (r.toNat : ℤ) :=
    intBase16_hexByte tables r
  have hg : intBase16 tables
      ((('#' :: (hexByte r ++ hexByte g ++ hexByte b)).drop 3).take 2) = some (g.toNat : ℤ) :=
    intBase16_hexByte tables g
  have hb : intBase16 tables
      ((('#' :: (hexByte r ++ hexByte g ++ hexByte b)).drop 5).take 2) = some (b.toNat : ℤ) :=
    intBase16_hexByte tables b
  rw [if_neg (by simp [hexByte])]
  dsimp only
  rw [hr, hg, hb]

theorem intUpTo_eq_some {bound : ℤ} {value : JsonValue} {n : ℕ} :
    value.intUpTo bound = some n ↔ value = .int n ∧ (n : ℤ) ≤ bound := by
  cases value with
  | int i =>
    rw [JsonValue.intUpTo, JsonValue.int.injEq]
    split_ifs with hrange
    · rw [Option.some.injEq]
      omega
    · refine iff_of_false (fun h => by cases h) ?_
      omega
  | _ => exact iff_of_false (fun h => by cases h) fun h => by cases h.1

/-- An object with an identifier of twelve bits and a meta value of four, zero if it is not
there, is the block of these bits. -/
def EntryBlock (entry : JsonValue) (block : ℕ) : Prop :=
  ∃ (items : List (String × JsonValue)) (blockId blockMeta : ℕ), entry = .dict items ∧
    items.lookup "id" = some (.int blockId) ∧
    (items.lookup "meta").getD (.int 0) = .int blockMeta ∧
    blockId ≤ 4095 ∧ blockMeta ≤ 15 ∧ block = 16 * blockId + blockMeta

theorem packedBlockState_ok_iff {entry : JsonValue} {key : String} {block : ℕ} :
    packedBlockState entry key = .ok block ↔ EntryBlock entry block := by
  have hbits : ∀ blockId blockMeta : ℕ, blockMeta ≤ 15 →
      (blockId <<< 4) ||| blockMeta = 16 * blockId + blockMeta := by
    intro blockId blockMeta hmeta
    rw [← Nat.shiftLeft_add_eq_or_of_lt (show blockMeta < 2 ^ 4 by omega), Nat.shiftLeft_eq]
    omega
  constructor
  · intro h
    unfold packedBlockState at h
    cases entry with
    | dict items =>
      dsimp only at h
      cases hid : items.lookup "id" with
      | none =>
        rw [hid] at h
        cases h
      | some value =>
        rw [hid] at h
        dsimp only at h
        split at h
        · cases h
        · cases h
        · next blockId blockMeta hidRange hmetaRange =>
          obtain ⟨rfl, hidMax⟩ := intUpTo_eq_some.mp hidRange
          obtain ⟨hmeta, hmetaMax⟩ := intUpTo_eq_some.mp hmetaRange
          refine ⟨items, blockId, blockMeta, rfl, hid, hmeta, by omega, by omega, ?_⟩
          rw [← Except.ok.inj h, hbits _ _ (by omega)]
    | _ => cases h
  · rintro ⟨items, blockId, blockMeta, rfl, hid, hmeta, hidMax, hmetaMax, rfl⟩
    have hidRange : (JsonValue.int blockId).intUpTo 4095 = some blockId :=
      intUpTo_eq_some.mpr ⟨rfl, by omega⟩
    have hmetaRange : ((items.lookup "meta").getD (.int 0)).intUpTo 15 = some blockMeta :=
      intUpTo_eq_some.mpr ⟨hmeta, by omega⟩
    unfold packedBlockState
    dsimp only
    rw [hid]
    dsimp only
    rw [hidRange, hmetaRange, ← hbits _ _ hmetaMax]

theorem EntryBlock.lt {entry : JsonValue} {block : ℕ} (h : EntryBlock entry block) :
    block < 2 ^ 16 := by
  obtain ⟨_, _, _, _, _, _, _, _, rfl⟩ := h
  omega

/-- A key and its entry name a color and a block. -/
def NamesBlock (item : String × JsonValue) (named : Color × ℕ) : Prop :=
  parseColorKey tables (tables.lower item.1) = .ok named.1 ∧ EntryBlock item.2 named.2

/-- The last block that is named for a color. -/
def lastBlock (named : List (Color × ℕ)) : Palette := fun rgb => named.reverse.lookup rgb

theorem lastBlock_cons (rgb : Color) (block : ℕ) (named : List (Color × ℕ)) (palette : Palette) :
    (fun c => (lastBlock ((rgb, block) :: named) c).or (palette c)) =
      fun c => (lastBlock named c).or (Function.update palette rgb (some block) c) := by
  funext c
  rw [lastBlock, lastBlock, List.reverse_cons, List.lookup_append, Option.or_assoc]
  congr 1
  by_cases hc : c = rgb
  · rw [hc, Function.update_self, List.lookup_cons_self]
    rfl
  · rw [Function.update_of_ne hc, List.lookup_cons, beq_eq_false_iff_ne.mpr hc]
    rfl

theorem mergePaletteEntries_ok_iff {palette merged : Palette}
    {entries : List (String × JsonValue)} :
    mergePaletteEntries tables palette entries = .ok merged ↔
      ∃ named, List.Forall₂ (NamesBlock tables) entries named ∧
        merged = fun rgb => (lastBlock named rgb).or (palette rgb) := by
  induction entries generalizing palette with
  | nil =>
    simp only [List.forall₂_nil_left_iff, exists_eq_left, mergePaletteEntries, Except.ok.injEq]
    exact eq_comm
  | cons item entries ih =>
    obtain ⟨key, entry⟩ := item
    rw [mergePaletteEntries]
    simp only [List.forall₂_cons_left_iff]
    constructor
    · intro h
      split at h
      · cases h
      next rgb hrgb =>
        split at h
        · cases h
        next block hblock =>
          obtain ⟨named, hnamed, rfl⟩ := ih.mp h
          exact ⟨(rgb, block) :: named,
            ⟨_, _, ⟨hrgb, packedBlockState_ok_iff.mp hblock⟩, hnamed, rfl⟩,
            (lastBlock_cons rgb block named palette).symm⟩
    · rintro ⟨_, ⟨⟨rgb, block⟩, named, ⟨hrgb, hblock⟩, hnamed, rfl⟩, rfl⟩
      dsimp only at hrgb hblock
      rw [hrgb]
      dsimp only
      rw [packedBlockState_ok_iff.mpr hblock]
      exact ih.mpr ⟨named, hnamed, lastBlock_cons rgb block named palette⟩

def defaultBlocks : List (Color × ℕ) :=
  [((0x00, 0xff, 0x00), 32), ((0x7f, 0x7f, 0x7f), 16), ((0x8b, 0x45, 0x13), 48),
    ((0xff, 0xff, 0x00), 192), ((0xff, 0xff, 0xff), 560), ((0xff, 0x00, 0x00), 574),
    ((0x00, 0xff, 0xff), 569), ((0x00, 0x00, 0xff), 571), ((0x00, 0x00, 0x00), 575)]

theorem namesBlock_colorKey (r g b : UInt8) {blockId blockMeta : ℕ} (hid : blockId ≤ 4095)
    (hmeta : blockMeta ≤ 15) :
    NamesBlock tables (colorKey r g b, .dict [("id", .int blockId), ("meta", .int blockMeta)])
      (((r.toNat : ℤ), (g.toNat : ℤ), (b.toNat : ℤ)), 16 * blockId + blockMeta) :=
  ⟨parseColorKey_colorKey tables r g b, _, blockId, blockMeta, rfl, rfl, rfl, hid, hmeta, rfl⟩

theorem namesBlock_defaultPalette :
    List.Forall₂ (NamesBlock tables) defaultPalette defaultBlocks :=
  .cons (namesBlock_colorKey tables 0x00 0xff 0x00 (by decide) (by decide)) <|
  .cons (namesBlock_colorKey tables 0x7f 0x7f 0x7f (by decide) (by decide)) <|
  .cons (namesBlock_colorKey tables 0x8b 0x45 0x13 (by decide) (by decide)) <|
  .cons (namesBlock_colorKey tables 0xff 0xff 0x00 (by decide) (by decide)) <|
  .cons (namesBlock_colorKey tables 0xff 0xff 0xff (by decide) (by decide)) <|
  .cons (namesBlock_colorKey tables 0xff 0x00 0x00 (by decide) (by decide)) <|
  .cons (namesBlock_colorKey tables 0x00 0xff 0xff (by decide) (by decide)) <|
  .cons (namesBlock_colorKey tables 0x00 0x00 0xff (by decide) (by decide)) <|
  .cons (namesBlock_colorKey tables 0x00 0x00 0x00 (by decide) (by decide)) .nil

/-- What the palette file adds: nothing without a file, else the items of its object. -/
def PaletteItems (jsonLoads : List UInt8 → Except LoadError JsonValue) :
    Option (List UInt8) → List (String × JsonValue) → Prop
  | none, items => items = []
  | some data, items => jsonLoads data = .ok (.dict items)

/-- A palette is loaded if and only if every item names a color and a block; it has the last block
named for a color, and behind these the default one. -/
theorem loadPalette_ok_iff {jsonLoads : List UInt8 → Except LoadError JsonValue}
    {palettePath : String} {paletteFile : Option (List UInt8)} {palette : Palette} :
    loadPalette tables jsonLoads palettePath paletteFile = .ok palette ↔
      ∃ items named, PaletteItems jsonLoads paletteFile items ∧
        List.Forall₂ (NamesBlock tables) items named ∧
        palette = lastBlock (defaultBlocks ++ named) := by
  have hdefault : mergePaletteEntries tables (fun _ => none) defaultPalette =
      .ok (lastBlock defaultBlocks) := by
    rw [mergePaletteEntries_ok_iff]
    refine ⟨_, namesBlock_defaultPalette tables, ?_⟩
    funext rgb
    exact Option.or_none.symm
  have happend : ∀ named, (fun rgb => (lastBlock named rgb).or (lastBlock defaultBlocks rgb)) =
      lastBlock (defaultBlocks ++ named) := by
    intro named
    funext rgb
    rw [lastBlock, lastBlock, lastBlock, List.reverse_append, List.lookup_append]
  unfold loadPalette
  rw [hdefault]
  cases paletteFile with
  | none =>
    constructor
    · intro h
      exact ⟨[], [], rfl, .nil, (Except.ok.inj h).symm⟩
    · rintro ⟨_, _, rfl, hnamed, rfl⟩
      cases hnamed
      rfl
  | some data =>
    dsimp only [PaletteItems]
    cases jsonLoads data with
    | error error =>
      cases error with
      | jsonDecodeError text => exact iff_of_false (fun h => by cases h) fun h => by simp at h
      | uncaught error => exact iff_of_false (fun h => by cases h) fun h => by simp at h
    | ok value =>
      cases value with
      | dict loaded =>
        dsimp only
        rw [mergePaletteEntries_ok_iff]
        constructor
        · rintro ⟨named, hnamed, rfl⟩
          exact ⟨loaded, named, rfl, hnamed, happend named⟩
        · rintro ⟨_, named, hitems, hnamed, rfl⟩
          cases hitems
          exact ⟨named, hnamed, (happend named).symm⟩
      | _ => exact iff_of_false (fun h => by cases h) fun h => by simp at h

theorem lt_of_lastBlock {named : List (Color × ℕ)} (h : ∀ item ∈ named, item.2 < 2 ^ 16)
    {rgb : Color} {block : ℕ} (hblock : lastBlock named rgb = some block) : block < 2 ^ 16 := by
  obtain ⟨_, _, hnamed, _⟩ := List.lookup_eq_some_iff.mp hblock
  apply h (rgb, block)
  rw [← List.mem_reverse, hnamed]
  exact List.mem_append_right _ List.mem_cons_self

theorem lt_of_loadPalette {jsonLoads : List UInt8 → Except LoadError JsonValue}
    {palettePath : String} {paletteFile : Option (List UInt8)} {palette : Palette}
    (h : loadPalette tables jsonLoads palettePath paletteFile = .ok palette) {rgb : Color}
    {block : ℕ} (hblock : palette rgb = some block) : block < 2 ^ 16 := by
  obtain ⟨items, named, _, hnamed, rfl⟩ := (loadPalette_ok_iff tables).mp h
  apply lt_of_lastBlock _ hblock
  intro item hitem
  have hdefault : ∀ item ∈ defaultBlocks, item.2 < 2 ^ 16 := by decide
  rcases List.mem_append.mp hitem with hitem | hitem
  · exact hdefault item hitem
  · obtain ⟨i, hi, rfl⟩ := List.mem_iff_getElem.mp hitem
    rw [List.forall₂_iff_get] at hnamed
    exact (hnamed.2 i (hnamed.1 ▸ hi) hi).2.lt

end StarrySky.Scripts
