import StarrySky.Scripts.Palette
import StarrySky.Scripts.PngFile

/-! From the picture to the spawn chunks, `pixels_to_top_blocks` to `build_chunks` of
`scripts/generate_compressed_chunks.py`. -/

namespace StarrySky.Scripts
open StarrySky.Base

/-- The parts of Python's library that the palette and the picture need. -/
structure PythonLibrary where
  tables : StrTables
  jsonLoads : List UInt8 → Except LoadError JsonValue
  decompress : List UInt8 → ℕ → Except String Decompressed

/-- The two files of `project_dir/maps`, where they exist. -/
structure ProjectDir where
  pngPath : String
  png : Option (List UInt8)
  palettePath : String
  palette : Option (List UInt8)

section
variable (lib : PythonLibrary) (dir : ProjectDir)

end

/-- The picture file is read as one of the size of the map, every item of the palette file names a
color and a block, and the last block named for a color is the one it stands for. -/
structure PictureLoaded (lib : PythonLibrary) (dir : ProjectDir) (data : List UInt8)
    (pixels : List Pixel) (named : List (Color × ℕ)) : Prop where
  read : readPngRgbaFile dir.pngPath lib.decompress data = .ok (mapSize, mapSize, pixels)
  palette : ∃ items, PaletteItems lib.jsonLoads dir.palette items ∧
    List.Forall₂ (NamesBlock lib.tables) items named

def showcasePalette (named : List (Color × ℕ)) : Palette := lastBlock (defaultBlocks ++ named)

section
variable {lib : PythonLibrary} {dir : ProjectDir} {data : List UInt8} {pixels : List Pixel}
  {named : List (Color × ℕ)}

theorem PictureLoaded.loadPalette (h : PictureLoaded lib dir data pixels named) :
    loadPalette lib.tables lib.jsonLoads dir.palettePath dir.palette =
      .ok (showcasePalette named) := by
  obtain ⟨items, hitems, hnamed⟩ := h.palette
  exact (loadPalette_ok_iff lib.tables).mpr ⟨items, named, hitems, hnamed, rfl⟩

theorem PictureLoaded.lt (h : PictureLoaded lib dir data pixels named) {rgb : Color} {block : ℕ}
    (hblock : showcasePalette named rgb = some block) : block < 2 ^ 16 :=
  lt_of_loadPalette lib.tables h.loadPalette hblock

end

end StarrySky.Scripts
