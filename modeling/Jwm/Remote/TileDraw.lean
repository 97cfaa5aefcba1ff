/-
What decoding an arbitrary payload does (`remote/tile.rs`). A payload that passes the checks
transmits the cells of its atlas to the tiles its bitmap marks; the decoder either copies exactly
these cells over its canvas or fails with the canvas that the header asked for.
-/
import Jwm.Remote.TilePlan

namespace Jwm.Remote

open List Option TileDecoder

/-! ## Transmissions -/

/-- What an admitted payload carries. -/
structure Transmission where
  header : TileHeader
  bitmap : List Byte
  /-- The decoded atlas, `atlasColumns` cells wide. -/
  atlas : List Byte

namespace TileHeader

def tile (header : TileHeader) : Nat := 1 <<< header.tileLog2

theorem tile_pos (header : TileHeader) : 0 < header.tile := by
  unfold tile
  rw [Nat.one_shiftLeft]
  exact Nat.two_pow_pos _

def bodyStart (header : TileHeader) : Nat := tileHeaderLen + bitmapLen header.totalTiles

def atlasOf (coder : AtlasCoder) (header : TileHeader) (payload : List Byte) : Except String (List Byte) :=
  match atlasSize header with
  | .error error => .error error
  | .ok (width, height) =>
    if payload.length ≤ header.bodyStart then .error "tile frame is missing its atlas body"
    else
      match decodeAtlas coder [] (payload.drop header.bodyStart) width height payload.length with
      | (_, .error error) => .error error
      | (cells, .ok ()) => .ok cells

end TileHeader

open TileHeader

namespace Transmission

/-- The transmission of a payload, when its header and its atlas can be read. -/
def read (coder : AtlasCoder) (payload : List Byte) : Option Transmission :=
  match parse payload with
  | .error _ => none
  | .ok header =>
    if header.dirtyTiles = 0 then some ⟨header, bitmapOf header payload, []⟩
    else (header.atlasOf coder payload).toOption.map fun atlas => ⟨header, bitmapOf header payload, atlas⟩

/-- The tile that byte `i` of the image lies in. -/
def tileOf (t : Transmission) (i : Nat) : Nat := tileAt t.header.encodedWidth t.header.tile i

/-- The bitmap marks the tile of byte `i`. -/
def marks (t : Transmission) (i : Nat) : Bool := bitSet t.bitmap (t.tileOf i)

/-- The cell of a tile: the marked tiles take the cells in raster order. -/
def slot (t : Transmission) (index : Nat) : Nat := (List.range index).countP (bitSet t.bitmap)

/-- Byte `i` of the image in the atlas cell of its tile. -/
def cell (t : Transmission) (i : Nat) : Option Byte :=
  let width := t.header.encodedWidth
  let row := i / (width * 3)
  t.atlas[cellOffset t.header.atlasColumns t.header.tile (t.slot (t.tileOf i)) (row - tileTop width t.header.tile (t.tileOf i)) +
    (i - rowOffset width t.header.tile (t.tileOf i) row)]?

end Transmission

open Transmission

/-! ## The checks -/

section Checks

variable {d : TileDecoder} {payload : List Byte} {header : TileHeader}

theorem parse_spec (h : parse payload = .ok header) : 0 < header.encodedWidth ∧ 0 < header.encodedHeight ∧
    header.totalTiles = divCeil header.encodedWidth header.tile * divCeil header.encodedHeight header.tile := by
  unfold parse at h
  simp only [bind_eq_ok, rejectIf_eq_ok] at h
  obtain ⟨_, -, _, -, _, hdim, _, -, _, -, total, hgrid, _, -, h⟩ := h
  obtain rfl := pure_eq_ok.1 h
  obtain ⟨hw, hh, -⟩ := validateDimensions_ok hdim
  exact ⟨hw, hh, (TileEncoder.gridTiles_ok hgrid).1⟩

/-- What `accept` checks, as far as the canvas is concerned. -/
theorem accept_spec (h : d.accept payload = .ok header) : parse payload = .ok header ∧
    ((bitmapOf header payload).map countOnes).sum = header.dirtyTiles ∧
    (bitmapOf header payload).length = bitmapLen header.totalTiles ∧
    (header.keyframe = true → header.dirtyTiles = header.totalTiles) ∧
    (header.keyframe = false → d.geometryEpoch = header.geometryEpoch ∧ d.source = (header.sourceWidth, header.sourceHeight)) := by
  unfold accept at h
  simp only [bind_eq_ok, rejectIf_eq_ok] at h
  obtain ⟨header', hparse, _, -, _, -, _, hlen, _, hcount, _, hkey, _, hdelta, h⟩ := h
  obtain rfl := pure_eq_ok.1 h
  refine ⟨hparse, by simpa using hcount, ?_, fun hk => ?_, fun hk => ?_⟩
  · unfold bitmapOf
    rw [length_slice (by omega), Nat.add_sub_cancel_left]
  · by_contra hne
    exact hkey ⟨hk, hne⟩
  · simpa [hk] using hdelta

end Checks

/-! ## Scattering an atlas -/

section Scatter

variable {t : Transmission} {base : RgbImage} {i : Nat}

def Transmission.marked (t : Transmission) : List Nat := (List.range t.header.totalTiles).filter (bitSet t.bitmap)

/-- The transmission is whole: the grid is the image's, and the atlas has a cell for each marked tile. -/
structure Transmission.Whole (t : Transmission) : Prop where
  width_pos : 0 < t.header.encodedWidth
  total : t.header.totalTiles = divCeil t.header.encodedWidth t.header.tile * divCeil t.header.encodedHeight t.header.tile
  columns_pos : 0 < t.header.atlasColumns
  count : t.marked.length ≤ t.header.dirtyTiles
  length : t.atlas.length = t.header.atlasColumns * t.header.tile * (divCeil t.header.dirtyTiles t.header.atlasColumns * t.header.tile) * 3

theorem Transmission.cell_of_row (ht : t.Whole) {index y j : Nat}
    (htop : tileTop t.header.encodedWidth t.header.tile index ≤ y)
    (hbottom : y < tileBottom t.header.encodedWidth t.header.encodedHeight t.header.tile index)
    (hj : j < tileBytes t.header.encodedWidth t.header.tile index) :
    t.cell (rowOffset t.header.encodedWidth t.header.tile index y + j) =
      t.atlas[cellOffset t.header.atlasColumns t.header.tile (t.slot index)
        (y - tileTop t.header.encodedWidth t.header.tile index) + j]? := by
  have htile : t.tileOf (rowOffset t.header.encodedWidth t.header.tile index y + j) = index :=
    tileAt_of_in_row ht.width_pos htop hbottom (Nat.le_add_right _ _) (Nat.add_lt_add_left hj _)
  have hrow : (rowOffset t.header.encodedWidth t.header.tile index y + j) / (t.header.encodedWidth * 3) = y := by
    refine (div_mod_of_eq (r := tileLeft t.header.encodedWidth t.header.tile index * 3 + j) ?_ ?_).1
    · unfold rowOffset
      rw [Nat.add_assoc]
    · have hleft := tileLeft_lt ht.width_pos t.header.tile_pos index
      unfold tileBytes at hj
      omega
  unfold cell
  dsimp only
  rw [hrow, htile, Nat.add_sub_cancel_left]

theorem Transmission.cell_lt (ht : t.Whole) {index slot y j : Nat} (hslot : t.marked[slot]? = some index)
    (hy : y < t.header.tile) (hj : j < t.header.tile * 3) :
    cellOffset t.header.atlasColumns t.header.tile slot y + j < t.atlas.length := by
  have hlt : slot < t.header.dirtyTiles := Nat.lt_of_lt_of_le (List.getElem?_eq_some_iff.1 hslot).1 ht.count
  have := cellOffset_lt ht.columns_pos hlt hy hj
  rw [ht.length]
  refine Nat.lt_of_lt_of_eq this ?_
  rw [Nat.mul_assoc _ _ t.header.tile, Nat.mul_right_comm _ 3]

/-- The bytes a transmission carries for the marked tiles. -/
def Transmission.source (t : Transmission) : List Byte :=
  (List.range (t.header.encodedWidth * t.header.encodedHeight * 3)).map fun i => (t.cell i).getD 0

theorem Transmission.scatter_rows (ht : t.Whole) :
    TileRows t.header.encodedWidth t.header.encodedHeight t.header.tile t.source t.marked
      (scatterWrites t.header.encodedWidth t.header.encodedHeight t.atlas t.bitmap t.header.totalTiles t.header.tile
        t.header.atlasColumns (t.header.atlasColumns * t.header.tile)) := by
  have hrow : ∀ {slot index y}, t.marked[slot]? = some index → tileTop t.header.encodedWidth t.header.tile index ≤ y →
      y < tileBottom t.header.encodedWidth t.header.encodedHeight t.header.tile index →
      IsTileRow t.header.encodedWidth t.header.encodedHeight t.header.tile t.source index y
        (rowOffset t.header.encodedWidth t.header.tile index y,
          slice t.atlas (cellOffset t.header.atlasColumns t.header.tile slot (y - tileTop t.header.encodedWidth t.header.tile index))
            (cellOffset t.header.atlasColumns t.header.tile slot (y - tileTop t.header.encodedWidth t.header.tile index) +
              tileBytes t.header.encodedWidth t.header.tile index)) := by
    intro slot index y hslot htop hbottom
    have hy : y - tileTop t.header.encodedWidth t.header.tile index < t.header.tile := by unfold tileBottom at hbottom; omega
    have hyh : y < t.header.encodedHeight := by unfold tileBottom at hbottom; omega
    have hle := tileBytes_le t.header.encodedWidth t.header.tile index
    have hpos := tileBytes_pos ht.width_pos t.header.tile_pos index
    refine isTileRow_slice htop hbottom ?_ fun j hj => ?_
    · have := t.cell_lt ht hslot hy (j := tileBytes t.header.encodedWidth t.header.tile index - 1) (by omega)
      omega
    · have hin := t.cell_lt ht hslot hy (j := j) (by omega)
      have hend := rowOffset_add_le ht.width_pos t.header.tile_pos hyh index
      have hcell := t.cell_of_row ht htop hbottom hj
      rw [show t.slot index = slot from (eq_countP_of_scan hslot).symm, getElem?_eq_getElem hin] at hcell
      rw [getElem?_eq_getElem hin]
      unfold source
      rw [getElem?_map, getElem?_range (by omega), map_some, hcell, getD_some]
  refine ⟨fun s hs => ?_, fun index hindex y htop hbottom => ?_⟩
  · obtain ⟨⟨index, slot⟩, hmem, hs⟩ := mem_flatMap.1 hs
    obtain ⟨y, hy, rfl⟩ := mem_map.1 hs
    obtain ⟨htop, hbottom⟩ := mem_rows.1 hy
    have hslot := mem_zipIdx_iff_getElem?.1 hmem
    exact ⟨index, mem_of_getElem? hslot, y, hrow hslot htop hbottom⟩
  · obtain ⟨slot, hslot⟩ := mem_iff_getElem?.1 hindex
    refine ⟨_, ?_, hrow hslot htop hbottom⟩
    exact mem_flatMap.2 ⟨(index, slot), mem_zipIdx_iff_getElem?.2 hslot,
      mem_map.2 ⟨y, mem_rows.2 ⟨htop, hbottom⟩, rfl⟩⟩

theorem Transmission.mem_marked (ht : t.Whole) (hi : i < t.header.encodedWidth * t.header.encodedHeight * 3) :
    t.tileOf i ∈ t.marked ↔ t.marks i = true := by
  have hlt : t.tileOf i < t.header.totalTiles := by
    rw [ht.total]
    exact tileAt_lt ht.width_pos t.header.tile_pos hi
  exact mem_filter.trans ⟨And.right, fun h => ⟨mem_range.2 hlt, h⟩⟩

theorem Transmission.exists_cell (ht : t.Whole) (hi : i < t.header.encodedWidth * t.header.encodedHeight * 3)
    (hmark : t.marks i = true) : ∃ b, t.cell i = some b := by
  obtain ⟨slot, hslot⟩ := mem_iff_getElem?.1 ((t.mem_marked ht hi).2 hmark)
  obtain ⟨htop, hbottom⟩ := row_in_tile ht.width_pos t.header.tile_pos hi
  obtain ⟨h1, h2⟩ := byte_in_row ht.width_pos t.header.tile_pos i
  have hle := tileBytes_le t.header.encodedWidth t.header.tile (tileAt t.header.encodedWidth t.header.tile i)
  refine ⟨_, getElem?_eq_getElem ?_⟩
  rw [show t.slot (t.tileOf i) = slot from (eq_countP_of_scan hslot).symm]
  refine t.cell_lt ht hslot ?_ ?_
  · unfold tileBottom at hbottom
    unfold tileOf
    omega
  · unfold tileOf
    omega

/-- Scattering puts the cell of each marked tile on the canvas and keeps the other tiles. -/
theorem Transmission.scatter_raw (ht : t.Whole) (hdim : base.dimensions = (t.header.encodedWidth, t.header.encodedHeight))
    (hi : i < t.header.encodedWidth * t.header.encodedHeight * 3) :
    (scatterAtlas base t.atlas t.bitmap t.header.totalTiles t.header.tile t.header.atlasColumns
      (t.header.atlasColumns * t.header.tile)).raw[i]? = if t.marks i then t.cell i else base.raw[i]? := by
  obtain ⟨hw, hh⟩ := Prod.mk.inj hdim
  have hlen : base.raw.length = t.header.encodedWidth * t.header.encodedHeight * 3 := by rw [base.raw_length, hw, hh]
  have hblit := (t.scatter_rows ht).getElem?_blit ht.width_pos t.header.tile_pos hlen hi
  unfold scatterAtlas RgbImage.blit
  dsimp only
  rw [hw, hh, hblit, if_congr (show tileAt _ _ i ∈ t.marked ↔ _ from t.mem_marked ht hi) rfl rfl]
  split
  · rename_i hmark
    obtain ⟨b, hb⟩ := t.exists_cell ht hi hmark
    unfold source
    rw [getElem?_map, getElem?_range hi, map_some, hb, getD_some]
  · rfl

end Scatter

/-! ## The atlas -/

/-- What the decoder relies on: `read_image` fills its buffer. -/
structure AtlasCoder.Fills (coder : AtlasCoder) : Prop where
  readImage : ∀ body info pixels, coder.new body = .ok info → coder.readImage body = .ok pixels → pixels.length = info.totalBytes

section Atlas

variable {coder : AtlasCoder} {header : TileHeader} {payload body atlas old : List Byte} {width height len : Nat}

/-- A decoded atlas has the size the header declares, whatever the buffer held before. -/
theorem decodeAtlas_ok (hf : coder.Fills) (h : decodeAtlas coder old body width height len = (atlas, .ok ())) :
    atlas.length = width * height * 3 ∧ ∀ old', decodeAtlas coder old' body width height len = (atlas, .ok ()) := by
  unfold decodeAtlas at h ⊢
  split at h
  · cases h
  rename_i info hinfo
  split at h
  · cases h
  rename_i hsize
  simp only [if_neg hsize]
  dsimp only at h
  cases hlimits : coder.setLimits body width height (width * height * 3 + len) with
  | error error =>
    rw [hlimits] at h
    cases h
  | ok u =>
  rw [hlimits] at h
  dsimp only at h ⊢
  split at h
  · rename_i hrgb
    simp only [if_pos hrgb]
    split at h
    · cases h
    rename_i hbytes
    simp only [if_neg hbytes]
    split at h
    · cases h
    rename_i pixels hpixels
    obtain ⟨rfl, -⟩ := Prod.mk.inj h
    refine ⟨?_, fun _ => rfl⟩
    rw [hf.readImage body info _ hinfo hpixels]
    exact Classical.not_not.1 hbytes
  · rename_i hrgb
    simp only [if_neg hrgb]
    split at h
    · cases h
    split at h
    · cases h
    rename_i image _ hdim
    obtain ⟨rfl, -⟩ := Prod.mk.inj h
    simp only [if_neg hdim]
    refine ⟨?_, fun _ => trivial⟩
    obtain ⟨hw, hh⟩ := Prod.mk.inj (Classical.not_not.1 hdim)
    rw [image.raw_length, hw, hh]

theorem atlasSize_ok (h : atlasSize header = .ok (width, height)) : 0 < header.atlasColumns ∧
    width = header.atlasColumns * header.tile ∧ height = divCeil header.dirtyTiles header.atlasColumns * header.tile := by
  unfold atlasSize at h
  simp only [bind_eq_ok, rejectIf_eq_ok] at h
  obtain ⟨_, hc, _, -, _, -, _, -, _, -, h⟩ := h
  obtain ⟨rfl, rfl⟩ := Prod.mk.inj (pure_eq_ok.1 h)
  exact ⟨Nat.pos_of_ne_zero hc, rfl, rfl⟩

end Atlas

/-! ## Decoding a payload -/

/-- `canvas` is `base` with the marked tiles replaced by the cells the transmission carries for them. -/
structure Painted (t : Transmission) (base canvas : RgbImage) : Prop where
  width_pos : 0 < t.header.encodedWidth
  base_dimensions : base.dimensions = (t.header.encodedWidth, t.header.encodedHeight)
  dimensions : canvas.dimensions = (t.header.encodedWidth, t.header.encodedHeight)
  raw : ∀ i, i < t.header.encodedWidth * t.header.encodedHeight * 3 →
    canvas.raw[i]? = if t.marks i then t.cell i else base.raw[i]?
  cells : ∀ i, i < t.header.encodedWidth * t.header.encodedHeight * 3 → t.marks i = true → ∃ b, t.cell i = some b

theorem Painted.scatter {t : Transmission} {base : RgbImage} (ht : t.Whole)
    (hdim : base.dimensions = (t.header.encodedWidth, t.header.encodedHeight)) :
    Painted t base (scatterAtlas base t.atlas t.bitmap t.header.totalTiles t.header.tile t.header.atlasColumns
      (t.header.atlasColumns * t.header.tile)) :=
  ⟨ht.width_pos, hdim, hdim, fun _ hi => t.scatter_raw ht hdim hi, fun _ hi hm => t.exists_cell ht hi hm⟩

section Decode

variable {coder : AtlasCoder} {d : TileDecoder} {header : TileHeader} {payload : List Byte} {base : RgbImage}

theorem bitmapLen_ge (n : Nat) : n ≤ 8 * bitmapLen n := by
  unfold bitmapLen divCeil
  omega

theorem length_marked_le (ha : d.accept payload = .ok header) (atlas : List Byte) :
    (Transmission.mk header (bitmapOf header payload) atlas).marked.length ≤ header.dirtyTiles := by
  obtain ⟨-, hcount, hlen, -⟩ := accept_spec ha
  rw [← hcount, sum_countOnes, hlen]
  show ((range header.totalTiles).filter _).length ≤ _
  rw [← countP_eq_length_filter]
  exact List.Sublist.countP_le (range_sublist.2 (bitmapLen_ge _))

theorem marks_eq_false (ha : d.accept payload = .ok header) (hz : header.dirtyTiles = 0) {i : Nat}
    (hi : i < header.encodedWidth * header.encodedHeight * 3) :
    (Transmission.mk header (bitmapOf header payload) []).marks i = false := by
  obtain ⟨hparse, -⟩ := accept_spec ha
  obtain ⟨hw, -, htotal⟩ := parse_spec hparse
  have hlen := length_marked_le ha []
  rw [hz] at hlen
  have hnil := eq_nil_of_length_eq_zero (Nat.le_zero.1 hlen)
  by_contra hm
  have hmem : tileAt header.encodedWidth header.tile i ∈
      (Transmission.mk header (bitmapOf header payload) []).marked := by
    refine mem_filter.2 ⟨mem_range.2 ?_, Bool.eq_true_of_not_eq_false hm⟩
    rw [htotal]
    exact tileAt_lt hw header.tile_pos hi
  rw [hnil] at hmem
  exact absurd hmem not_mem_nil

theorem atlasOf_ok {atlas : List Byte} (hf : coder.Fills) (h : header.atlasOf coder payload = .ok atlas) :
    0 < header.atlasColumns ∧ atlas.length =
      header.atlasColumns * header.tile * (divCeil header.dirtyTiles header.atlasColumns * header.tile) * 3 := by
  unfold atlasOf at h
  split at h
  · cases h
  · rename_i width height hsize
    obtain ⟨hc, rfl, rfl⟩ := atlasSize_ok hsize
    split at h
    · cases h
    · split at h
      · cases h
      · rename_i hdecode
        obtain rfl := Except.ok.inj h
        exact ⟨hc, (decodeAtlas_ok hf hdecode).1⟩

/-- Drawing depends on the payload alone: it fails, or it copies the decoded atlas. -/
theorem draw_of_dirty (d : TileDecoder) (payload : List Byte) (hf : coder.Fills) (hz : header.dirtyTiles ≠ 0) (canvas : RgbImage) :
    (∃ error error' atlas, header.atlasOf coder payload = .error error ∧
      d.draw coder header payload canvas = ({ d with atlas := atlas }, .error error')) ∨
    ∃ atlas, header.atlasOf coder payload = .ok atlas ∧ d.draw coder header payload canvas =
      ({ d with
          atlas := atlas
          canvas := some (scatterAtlas canvas atlas (bitmapOf header payload) header.totalTiles header.tile
            header.atlasColumns (header.atlasColumns * header.tile)) },
        .ok (scatterAtlas canvas atlas (bitmapOf header payload) header.totalTiles header.tile
          header.atlasColumns (header.atlasColumns * header.tile))) := by
  unfold draw atlasOf
  rw [if_neg hz]
  cases hsize : atlasSize header with
  | error error => exact .inl ⟨error, error, d.atlas, rfl, rfl⟩
  | ok size =>
    obtain ⟨width, height⟩ := size
    obtain ⟨-, rfl, rfl⟩ := atlasSize_ok hsize
    dsimp only
    by_cases hbody : payload.length ≤ tileHeaderLen + bitmapLen header.totalTiles
    · rw [if_pos hbody, if_pos (show payload.length ≤ header.bodyStart from hbody)]
      exact .inl ⟨_, _, d.atlas, rfl, rfl⟩
    · rw [if_neg hbody, if_neg (show ¬ payload.length ≤ header.bodyStart from hbody)]
      unfold bodyStart
      generalize hnew : decodeAtlas coder [] _ _ _ _ = fresh
      generalize hold : decodeAtlas coder d.atlas _ _ _ _ = used
      obtain ⟨a, ra⟩ := fresh
      obtain ⟨b, rb⟩ := used
      cases rb with
      | error error =>
        cases ra with
        | error error' => exact .inl ⟨error', error, b, rfl, rfl⟩
        | ok _ => rw [(decodeAtlas_ok hf hnew).2] at hold; cases hold
      | ok _ =>
        rw [(decodeAtlas_ok hf hold).2] at hnew
        obtain ⟨rfl, rfl⟩ := Prod.mk.inj hnew
        exact .inr ⟨_, rfl, rfl⟩

/-- What a payload does to a decoder, and what comes out. -/
inductive Decodes (coder : AtlasCoder) (d : TileDecoder) (payload : List Byte) : TileDecoder × Except String DecodedFrame → Prop
  /-- Turned down by the checks, or a delta for a canvas of another size. -/
  | refused (error : String) : Decodes coder d payload (d, .error error)
  /-- Admitted, but the atlas cannot be drawn. -/
  | failed (header : TileHeader) (atlas : List Byte) (error error' : String) (ha : d.accept payload = .ok header)
      (hatlas : header.atlasOf coder payload = .error error') :
      Decodes coder d payload ({ d.adopt header with atlas := atlas }, .error error)
  | drawn (t : Transmission) (atlas : List Byte) (base canvas : RgbImage) (ha : d.accept payload = .ok t.header)
      (hread : Transmission.read coder payload = some t) (hbitmap : t.bitmap = bitmapOf t.header payload)
      (hatlas : t.header.keyframe = true → ∃ atlas, t.header.atlasOf coder payload = .ok atlas)
      (hbase : (d.adopt t.header).canvas = some base) (hpaint : Painted t base canvas) :
      Decodes coder d payload
        ((({ d.adopt t.header with atlas := atlas, canvas := some canvas } : TileDecoder).present t.header payload canvas).1,
          .ok (({ d.adopt t.header with atlas := atlas, canvas := some canvas } : TileDecoder).present t.header payload canvas).2)

theorem adopt_delta (ha : d.accept payload = .ok header) (hk : header.keyframe = false) : d.adopt header = d := by
  obtain ⟨-, -, -, -, hdelta⟩ := accept_spec ha
  obtain ⟨hepoch, hsource⟩ := hdelta hk
  unfold adopt
  simp only [hk, ← hepoch, ← hsource, ne_eq, not_true_eq_false, if_false, Bool.false_eq_true]

theorem adopt_keyframe_canvas (hk : header.keyframe = true) : ∃ base, (d.adopt header).canvas = some base ∧
    base.dimensions = (header.encodedWidth, header.encodedHeight) ∧ (d.canvas = some base ∨
      (d.canvas.map RgbImage.dimensions ≠ some (header.encodedWidth, header.encodedHeight) ∧
        base = RgbImage.new header.encodedWidth header.encodedHeight)) := by
  unfold adopt
  simp only [hk, if_true]
  cases hc : d.canvas with
  | none => exact ⟨_, rfl, rfl, .inr ⟨nofun, rfl⟩⟩
  | some canvas =>
    by_cases hdim : canvas.dimensions = (header.encodedWidth, header.encodedHeight)
    · exact ⟨canvas, by simp only [if_pos hdim], hdim, .inl rfl⟩
    · exact ⟨_, by simp only [if_neg hdim], rfl, .inr ⟨fun h => hdim (some.inj h), rfl⟩⟩

theorem decodeInto_cases (hf : coder.Fills) (d : TileDecoder) (payload : List Byte) :
    Decodes coder d payload (d.decodeInto coder payload) := by
  unfold decodeInto
  cases ha : d.accept payload with
  | error error => exact .refused error
  | ok header =>
    obtain ⟨hparse, hcount, -, hkey, -⟩ := accept_spec ha
    obtain ⟨hw, hh, htotal⟩ := parse_spec hparse
    dsimp only
    split
    · rename_i hfilter
      cases hk : header.keyframe with
      | false =>
        rw [adopt_delta ha hk]
        exact .refused _
      | true =>
        obtain ⟨base, hbase, hdim, -⟩ := adopt_keyframe_canvas (d := d) hk
        rw [hbase, filter_some, if_pos (decide_eq_true hdim)] at hfilter
        cases hfilter
    · rename_i base hfilter
      obtain ⟨hbase, hdim⟩ := filter_eq_some_iff.1 hfilter
      have hdim := of_decide_eq_true hdim
      by_cases hz : header.dirtyTiles = 0
      · -- a keepalive
        have hdraw : (d.adopt header).draw coder header payload base = (d.adopt header, .ok base) := by
          unfold draw
          rw [if_pos hz]
        rw [hdraw]
        have heta : ({ d.adopt header with atlas := (d.adopt header).atlas, canvas := some base } : TileDecoder) = d.adopt header := by
          rw [← hbase]
        have hpaint : Painted ⟨header, bitmapOf header payload, []⟩ base base := by
          refine ⟨hw, hdim, hdim, fun i hi => ?_, fun i hi hm => ?_⟩
          · rw [marks_eq_false ha hz hi]
            rfl
          · rw [marks_eq_false ha hz hi] at hm
            cases hm
        have hread : Transmission.read coder payload = some ⟨header, bitmapOf header payload, []⟩ := by
          unfold Transmission.read
          rw [hparse]
          exact if_pos hz
        have : Decodes coder d payload _ := Decodes.drawn ⟨header, bitmapOf header payload, []⟩
          (d.adopt header).atlas base base ha hread rfl (fun hk => ?_) hbase hpaint
        · rw [heta] at this
          exact this
        · exfalso
          have := hkey hk
          rw [hz, htotal] at this
          exact absurd this.symm (Nat.mul_pos (divCeil_pos hw header.tile_pos) (divCeil_pos hh header.tile_pos)).ne'
      · rcases draw_of_dirty (d.adopt header) payload hf hz base with
          ⟨error, error', atlas, herror, hdraw⟩ | ⟨atlas, hok, hdraw⟩
        · rw [hdraw]
          exact .failed header atlas error' error ha herror
        · rw [hdraw]
          have hread : Transmission.read coder payload = some ⟨header, bitmapOf header payload, atlas⟩ := by
            unfold Transmission.read
            rw [hparse]
            dsimp only
            rw [if_neg hz, hok]
            rfl
          obtain ⟨hc, hlen⟩ := atlasOf_ok hf hok
          have hwhole : Transmission.Whole ⟨header, bitmapOf header payload, atlas⟩ :=
            ⟨hw, htotal, hc, length_marked_le ha atlas, hlen⟩
          exact .drawn ⟨header, bitmapOf header payload, atlas⟩ atlas base _ ha hread rfl (fun _ => ⟨atlas, hok⟩) hbase
            (.scatter hwhole hdim)

end Decode

end Jwm.Remote
