/-
The tile grid over an image's bytes: which tile a byte lies in, what copying the rows of a set of
tiles does to an image, and where the atlas holds the bytes of a tile.
-/
import Jwm.Remote.TileDecoder

namespace Jwm.Remote

open List TileEncoder

/-! ## Division -/

theorem div_mod_of_eq {a n q r : Nat} (h : a = q * n + r) (hr : r < n) : a / n = q ∧ a % n = r :=
  (Nat.div_mod_unique (Nat.zero_lt_of_lt hr)).2 ⟨by rw [h, Nat.mul_comm, Nat.add_comm], hr⟩

theorem div_lt_divCeil {x n t : Nat} (ht : 0 < t) (hx : x < n) : x / t < divCeil n t := by
  have : x / t * t < (divCeil n t) * t := by
    unfold divCeil
    have h1 := Nat.div_mul_le_self x t
    have h2 := Nat.div_add_mod (n + t - 1) t
    have h3 := Nat.mod_lt (n + t - 1) ht
    rw [Nat.mul_comm] at h2
    omega
  exact Nat.lt_of_mul_lt_mul_right this

theorem mul_lt_of_lt_divCeil {x n t : Nat} (ht : 0 < t) (hx : x < divCeil n t) : x * t < n := by
  have h1 : (x + 1) * t ≤ divCeil n t * t := Nat.mul_le_mul_right t hx
  have h2 := Nat.div_mul_le_self (n + t - 1) t
  unfold divCeil at h1
  rw [Nat.succ_mul] at h1
  omega

theorem divCeil_pos {n t : Nat} (hn : 0 < n) (ht : 0 < t) : 0 < divCeil n t :=
  Nat.zero_lt_of_lt (div_lt_divCeil ht hn)

/-! ## Tiles and bytes -/

/-- The tile that byte `i` of an image of this width lies in. -/
def tileAt (width tile i : Nat) : Nat :=
  i / (width * 3) / tile * divCeil width tile + i % (width * 3) / 3 / tile

def tileLeft (width tile index : Nat) : Nat := index % divCeil width tile * tile

def tileTop (width tile index : Nat) : Nat := index / divCeil width tile * tile

def tileBottom (width height tile index : Nat) : Nat := min (tileTop width tile index + tile) height

def tileBytes (width tile index : Nat) : Nat :=
  (min (tileLeft width tile index + tile) width - tileLeft width tile index) * 3

/-- Where row `y` of the tile starts in the image. -/
def rowOffset (width tile index y : Nat) : Nat := y * (width * 3) + tileLeft width tile index * 3

section Grid

variable {width height tile y i : Nat}

theorem tileLeft_lt (hw : 0 < width) (ht : 0 < tile) (index : Nat) : tileLeft width tile index < width :=
  mul_lt_of_lt_divCeil ht (Nat.mod_lt _ (divCeil_pos hw ht))

theorem tileBytes_pos (hw : 0 < width) (ht : 0 < tile) (index : Nat) : 0 < tileBytes width tile index := by
  have := tileLeft_lt hw ht index
  unfold tileBytes
  omega

theorem tileBytes_le (width tile index : Nat) : tileBytes width tile index ≤ tile * 3 := by
  unfold tileBytes
  omega

theorem bytes_eq_rows (width height : Nat) : width * height * 3 = height * (width * 3) := by
  rw [Nat.mul_comm width, Nat.mul_assoc]

section

variable (hw : 0 < width)
include hw

theorem rowOffset_add_le (ht : 0 < tile) (hy : y < height) (index : Nat) :
    rowOffset width tile index y + tileBytes width tile index ≤ width * height * 3 := by
  have hrows : (y + 1) * (width * 3) ≤ height * (width * 3) := Nat.mul_le_mul_right _ hy
  have hleft := tileLeft_lt hw ht index
  rw [Nat.succ_mul] at hrows
  rw [bytes_eq_rows]
  unfold rowOffset tileBytes
  omega

theorem row_lt (hi : i < width * height * 3) : i / (width * 3) < height := by
  rw [Nat.div_lt_iff_lt_mul (by omega), ← bytes_eq_rows]
  exact hi

theorem column_lt (ht : 0 < tile) (i : Nat) : i % (width * 3) / 3 / tile < divCeil width tile := by
  have hr : i % (width * 3) < width * 3 := Nat.mod_lt _ (by omega)
  exact div_lt_divCeil ht (by omega)

theorem tileAt_lt (ht : 0 < tile) (hi : i < width * height * 3) :
    tileAt width tile i < divCeil width tile * divCeil height tile := by
  have hcol := column_lt hw ht i
  have hrow := div_lt_divCeil ht (row_lt hw hi)
  unfold tileAt
  calc _ < i / (width * 3) / tile * divCeil width tile + divCeil width tile := by omega
    _ = (i / (width * 3) / tile + 1) * divCeil width tile := by rw [Nat.succ_mul]
    _ ≤ divCeil height tile * divCeil width tile := Nat.mul_le_mul_right _ hrow
    _ = _ := Nat.mul_comm ..

theorem row_in_tile (ht : 0 < tile) (hi : i < width * height * 3) :
    tileTop width tile (tileAt width tile i) ≤ i / (width * 3) ∧
      i / (width * 3) < tileBottom width height tile (tileAt width tile i) := by
  have hdiv : tileAt width tile i / divCeil width tile = i / (width * 3) / tile :=
    (div_mod_of_eq rfl (column_lt hw ht i)).1
  have hrow := row_lt hw hi
  have h1 := Nat.div_mul_le_self (i / (width * 3)) tile
  have h2 := Nat.lt_div_mul_add (a := i / (width * 3)) ht
  unfold tileBottom tileTop
  rw [hdiv]
  omega

theorem byte_in_row (ht : 0 < tile) (i : Nat) : rowOffset width tile (tileAt width tile i) (i / (width * 3)) ≤ i ∧
      i < rowOffset width tile (tileAt width tile i) (i / (width * 3)) + tileBytes width tile (tileAt width tile i) := by
  have hmod : tileAt width tile i % divCeil width tile = i % (width * 3) / 3 / tile :=
    (div_mod_of_eq rfl (column_lt hw ht i)).2
  have hi := Nat.div_add_mod i (width * 3)
  have hr : i % (width * 3) < width * 3 := Nat.mod_lt _ (by omega)
  have h1 := Nat.div_mul_le_self (i % (width * 3) / 3) tile
  have h2 := Nat.lt_div_mul_add (a := i % (width * 3) / 3) ht
  rw [Nat.mul_comm] at hi
  unfold rowOffset tileBytes tileLeft
  rw [hmod]
  omega

theorem tileAt_of_in_row {index : Nat} (htop : tileTop width tile index ≤ y) (hbottom : y < tileBottom width height tile index)
    (h1 : rowOffset width tile index y ≤ i) (h2 : i < rowOffset width tile index y + tileBytes width tile index) : tileAt width tile i =
    index := by
  unfold rowOffset tileBytes at *
  unfold tileBottom at hbottom
  unfold tileAt
  -- the byte's row is `y`, its column lies between the tile's edges
  obtain ⟨hdiv, hmod⟩ : i / (width * 3) = y ∧ i % (width * 3) = i - y * (width * 3) :=
    div_mod_of_eq (by omega) (by omega)
  have hrow : y / tile = index / divCeil width tile :=
    Nat.div_eq_of_lt_le htop (by rw [Nat.succ_mul]; unfold tileTop at hbottom; omega)
  have hcol : (i - y * (width * 3)) / 3 / tile = index % divCeil width tile := by
    unfold tileLeft at *
    exact Nat.div_eq_of_lt_le (by omega) (by rw [Nat.succ_mul]; omega)
  rw [hdiv, hmod, hrow, hcol, Nat.mul_comm]
  exact Nat.div_add_mod index _

end

theorem tileRow_congr {base canvas : RgbImage} {index : Nat} (hwidth : base.width = canvas.width) (hheight : base.height = canvas.height)
    (hw : 0 < canvas.width)
    (h : ∀ i, i < canvas.width * canvas.height * 3 → tileAt canvas.width tile i = index → base.raw[i]? = canvas.raw[i]?)
    (htop : tileTop canvas.width tile index ≤ y) (hbottom : y < tileBottom canvas.width canvas.height tile index) :
    slice base.raw (rowOffset canvas.width tile index y)
        (rowOffset canvas.width tile index y + tileBytes canvas.width tile index) =
      slice canvas.raw (rowOffset canvas.width tile index y)
        (rowOffset canvas.width tile index y + tileBytes canvas.width tile index) := by
  refine ext_getElem? fun j => ?_
  by_cases hj : j < tileBytes canvas.width tile index
  · rw [getElem?_slice (by omega), getElem?_slice (by omega)]
    by_cases hi : rowOffset canvas.width tile index y + j < canvas.width * canvas.height * 3
    · exact h _ hi (tileAt_of_in_row hw htop hbottom (by omega) (by omega))
    · rw [getElem?_eq_none (by rw [base.raw_length, hwidth, hheight]; omega),
        getElem?_eq_none (by rw [canvas.raw_length]; omega)]
  · unfold slice
    rw [getElem?_take, getElem?_take, if_neg (by omega), if_neg (by omega)]

end Grid

/-! ## Copying tiles -/

/-- `segment` is row `y` of a tile, holding the bytes of `source`. -/
structure IsTileRow (width height tile : Nat) (source : List Byte) (index y : Nat) (segment : Nat × List Byte) : Prop where
  top : tileTop width tile index ≤ y
  bottom : y < tileBottom width height tile index
  offset : segment.1 = rowOffset width tile index y
  length : segment.2.length = tileBytes width tile index
  carries : ∀ j, j < tileBytes width tile index → segment.2[j]? = source[rowOffset width tile index y + j]?

/-- The segments are the rows of the listed tiles, with the bytes of `source`. -/
structure TileRows (width height tile : Nat) (source : List Byte) (dirty : List Nat) (writes : List (Nat × List Byte)) :
    Prop where
  sound : ∀ s ∈ writes, ∃ index ∈ dirty, ∃ y, IsTileRow width height tile source index y s
  complete : ∀ index ∈ dirty, ∀ y, tileTop width tile index ≤ y → y < tileBottom width height tile index →
    ∃ s ∈ writes, IsTileRow width height tile source index y s

/-- Copying the rows of tiles replaces exactly the bytes that lie in these tiles. -/
theorem TileRows.getElem?_blit {width height tile : Nat} {source old : List Byte} {dirty : List Nat}
    {writes : List (Nat × List Byte)} (h : TileRows width height tile source dirty writes) (hw : 0 < width)
    (ht : 0 < tile) (hold : old.length = width * height * 3) {i : Nat} (hi : i < width * height * 3) :
    (blit old writes)[i]? = if tileAt width tile i ∈ dirty then source[i]? else old[i]? := by
  split
  · rename_i hmem
    refine getElem?_blit_of_covered ?_ ?_ (by rw [hold]; exact hi)
    · rintro s hs ⟨h1, h2⟩
      obtain ⟨index, _, y, hrow⟩ := h.sound s hs
      have hlen := hrow.length
      rw [hrow.carries _ (by omega), ← hrow.offset, Nat.add_sub_cancel' h1]
    · obtain ⟨htop, hbottom⟩ := row_in_tile hw ht hi
      obtain ⟨s, hs, hrow⟩ := h.complete _ hmem _ htop hbottom
      obtain ⟨h1, h2⟩ := byte_in_row hw ht i
      exact ⟨s, hs, by rw [hrow.offset]; exact h1, by rw [hrow.offset, hrow.length]; exact h2⟩
  · rename_i hmem
    refine getElem?_blit_of_not_covered ?_
    rintro s hs ⟨h1, h2⟩
    obtain ⟨index, hindex, y, hrow⟩ := h.sound s hs
    rw [hrow.offset] at h1 h2
    rw [hrow.length] at h2
    rw [tileAt_of_in_row hw hrow.top hrow.bottom h1 h2] at hmem
    exact hmem hindex

theorem mem_rows {a b y : Nat} : y ∈ range' a (b - a) ↔ a ≤ y ∧ y < b := by
  rw [mem_range'_1]
  omega

theorem isTileRow_slice {width height tile index y start : Nat} {source buffer : List Byte}
    (htop : tileTop width tile index ≤ y) (hbottom : y < tileBottom width height tile index)
    (hend : start + tileBytes width tile index ≤ buffer.length)
    (hcarries : ∀ j, j < tileBytes width tile index → buffer[start + j]? = source[rowOffset width tile index y + j]?) :
    IsTileRow width height tile source index y
      (rowOffset width tile index y, slice buffer start (start + tileBytes width tile index)) := by
  have hlen := length_slice (a := start) hend
  rw [Nat.add_sub_cancel_left] at hlen
  refine ⟨htop, hbottom, rfl, hlen, fun j hj => ?_⟩
  rw [getElem?_slice (by omega), hcarries j hj]

theorem tileWrites_rows (image : RgbImage) {tile : Nat} (ht : 0 < tile) (hw : 0 < image.width) (dirty : List Nat) :
    TileRows image.width image.height tile image.raw dirty
      (tileWrites image (divCeil image.width tile) tile dirty) := by
  have hrow : ∀ {index y}, tileTop image.width tile index ≤ y → y < tileBottom image.width image.height tile index →
      IsTileRow image.width image.height tile image.raw index y (rowOffset image.width tile index y,
        slice image.raw (rowOffset image.width tile index y)
          (rowOffset image.width tile index y + tileBytes image.width tile index)) := by
    intro index y htop hbottom
    have hy : y < image.height := by unfold tileBottom at hbottom; omega
    refine isTileRow_slice htop hbottom ?_ fun _ _ => rfl
    rw [image.raw_length]
    exact rowOffset_add_le hw ht hy index
  refine ⟨fun s hs => ?_, fun index hindex y htop hbottom => ?_⟩
  · obtain ⟨index, hindex, hs⟩ := mem_flatMap.1 hs
    obtain ⟨y, hy, rfl⟩ := List.mem_map.1 hs
    obtain ⟨htop, hbottom⟩ := mem_rows.1 hy
    exact ⟨index, hindex, y, hrow htop hbottom⟩
  · exact ⟨_, mem_flatMap.2 ⟨index, hindex, List.mem_map.2 ⟨y, mem_rows.2 ⟨htop, hbottom⟩, rfl⟩⟩, hrow htop hbottom⟩

/-! ## The atlas -/

/-- Where row `y` of a cell starts in an atlas. -/
def cellOffset (columns tile slot y : Nat) : Nat :=
  (slot / columns * tile + y) * (columns * tile * 3) + slot % columns * tile * 3

section Atlas

variable {columns tile slot slot' y y' j j' n : Nat}

theorem cell_column_lt (hc : 0 < columns) (hj : j < tile * 3) (slot : Nat) : slot % columns * tile * 3 + j < columns * tile * 3 := by
  have h1 : (slot % columns + 1) * (tile * 3) ≤ columns * (tile * 3) := Nat.mul_le_mul_right _ (Nat.mod_lt _ hc)
  rw [Nat.succ_mul, ← Nat.mul_assoc, ← Nat.mul_assoc] at h1
  omega

theorem cell_of_position {p : Nat} (hc : 0 < columns) (hy : y < tile) (hj : j < tile * 3)
    (hp : p = cellOffset columns tile slot y + j) :
    p / (columns * tile * 3) / tile * columns + p % (columns * tile * 3) / (tile * 3) = slot ∧
      p / (columns * tile * 3) % tile = y ∧ p % (columns * tile * 3) % (tile * 3) = j := by
  unfold cellOffset at hp
  rw [Nat.add_assoc] at hp
  obtain ⟨h1, h2⟩ := div_mod_of_eq hp (cell_column_lt hc hj slot)
  obtain ⟨h3, h4⟩ := div_mod_of_eq (a := slot / columns * tile + y) rfl hy
  obtain ⟨h5, h6⟩ := div_mod_of_eq (a := slot % columns * tile * 3 + j) (by rw [Nat.mul_assoc]) hj
  rw [h1, h2, h3, h4, h5, h6, Nat.mul_comm]
  exact ⟨Nat.div_add_mod slot columns, rfl, rfl⟩

theorem cellOffset_inj (hc : 0 < columns) (hy : y < tile) (hy' : y' < tile) (hj : j < tile * 3) (hj' : j' < tile * 3)
    (h : cellOffset columns tile slot y + j = cellOffset columns tile slot' y' + j') : slot = slot' ∧ y = y' ∧ j = j' := by
  obtain ⟨a1, a2, a3⟩ := cell_of_position hc hy hj rfl
  obtain ⟨b1, b2, b3⟩ := cell_of_position hc hy' hj' h
  exact ⟨a1.symm.trans b1, a2.symm.trans b2, a3.symm.trans b3⟩

theorem cellOffset_lt (hc : 0 < columns) (hs : slot < n) (hy : y < tile) (hj : j < tile * 3) :
    cellOffset columns tile slot y + j < columns * tile * 3 * divCeil n columns * tile := by
  have hrow : slot / columns * tile + y < divCeil n columns * tile := by
    have := Nat.mul_le_mul_right tile (div_lt_divCeil hc hs)
    rw [Nat.succ_mul] at this
    omega
  have hcol := cell_column_lt hc hj slot
  have := Nat.mul_le_mul_right (columns * tile * 3) hrow
  rw [Nat.succ_mul] at this
  unfold cellOffset
  calc _ < divCeil n columns * tile * (columns * tile * 3) := by omega
    _ = _ := (Nat.mul_comm ..).trans (Nat.mul_assoc ..).symm

end Atlas

theorem length_cellRow_le (current : RgbImage) {x0 y0 x1 y1 tile : Nat} (hx : x1 - x0 ≤ tile) (y : Nat) :
    (cellRow current (x0, y0, x1, y1) tile y).length ≤ tile * 3 := by
  simp only [cellRow, length_append]
  generalize hf : slice current.raw _ _ = filled
  have hlen : filled.length ≤ (x1 - x0) * 3 := by
    rw [← hf]
    simp only [slice, length_take, Nat.add_sub_cancel_left]
    omega
  split
  · simp only [length_nil]
    omega
  · rename_i h3
    simp only [length_flatten, map_replicate, sum_replicate_nat, length_drop]
    rw [show filled.length - (filled.length - 3) = 3 by omega]
    omega

/-- A cell row starts with a row of the tile, the last one again below the image's edge. -/
theorem cellRow_eq (image : RgbImage) (tile index y : Nat) : ∃ padding,
    cellRow image (tileBounds index (divCeil image.width tile) tile image.width image.height) tile y =
      slice image.raw
        (rowOffset image.width tile index (tileTop image.width tile index +
          min y (tileBottom image.width image.height tile index - tileTop image.width tile index - 1)))
        (rowOffset image.width tile index (tileTop image.width tile index +
          min y (tileBottom image.width image.height tile index - tileTop image.width tile index - 1)) +
            tileBytes image.width tile index) ++ padding :=
  ⟨_, rfl⟩

section Pack

variable {e : TileEncoder} {image : RgbImage} {columns slot index y j : Nat}

theorem getElem?_cellRow (hw : 0 < image.width) (ht : 0 < e.tile)
    (hy : tileTop image.width e.tile index + y < tileBottom image.width image.height e.tile index)
    (hj : j < tileBytes image.width e.tile index) :
    ∃ b, (cellRow image (tileBounds index (divCeil image.width e.tile) e.tile image.width image.height)
        e.tile y)[j]? = some b ∧
      image.raw[rowOffset image.width e.tile index (tileTop image.width e.tile index + y) + j]? = some b := by
  have hy' : tileTop image.width e.tile index + y < image.height := by unfold tileBottom at hy; omega
  have hend := rowOffset_add_le hw ht hy' index
  rw [← image.raw_length] at hend
  have hlen := length_slice (a := rowOffset image.width e.tile index (tileTop image.width e.tile index + y)) hend
  rw [Nat.add_sub_cancel_left] at hlen
  have hmin : min y (tileBottom image.width image.height e.tile index - tileTop image.width e.tile index - 1) = y := by
    omega
  have hin : rowOffset image.width e.tile index (tileTop image.width e.tile index + y) + j < image.raw.length := by omega
  refine ⟨_, ?_, getElem?_eq_getElem hin⟩
  obtain ⟨padding, heq⟩ := cellRow_eq image e.tile index y
  rw [heq, hmin, getElem?_append_left (by rw [hlen]; exact hj)]
  exact (getElem?_slice (Nat.add_lt_add_left hj _)).trans (getElem?_eq_getElem hin)

section

variable (hc : 0 < columns) (hgrid : e.grid.1 = divCeil image.width e.tile) (hw : 0 < image.width) (ht : 0 < e.tile)
include hc hgrid hw ht

theorem getElem?_packAtlas (hslot : e.dirty[slot]? = some index)
    (hy : tileTop image.width e.tile index + y < tileBottom image.width image.height e.tile index)
    (hj : j < tileBytes image.width e.tile index) :
    (e.packAtlas image columns (divCeil e.dirty.length columns))[cellOffset columns e.tile slot y + j]? =
      image.raw[rowOffset image.width e.tile index (tileTop image.width e.tile index + y) + j]? := by
  have hlt : slot < e.dirty.length := (List.getElem?_eq_some_iff.1 hslot).1
  have hy' : y < e.tile := by unfold tileBottom at hy; omega
  have hj' : j < e.tile * 3 := Nat.lt_of_lt_of_le hj (tileBytes_le ..)
  obtain ⟨b, hrow, hb⟩ := getElem?_cellRow hw ht hy hj
  rw [hb]
  unfold packAtlas
  rw [hgrid]
  refine getElem?_blit_of_covered ?_ ?_ (by rw [length_replicate]; exact cellOffset_lt hc hlt hy' hj')
  · rintro s hs ⟨h1, h2⟩
    obtain ⟨⟨index', slot'⟩, hmem, hs⟩ := mem_flatMap.1 hs
    obtain ⟨y', hy'', rfl⟩ := List.mem_map.1 hs
    have hy'' : y' < e.tile := mem_range.1 hy''
    have hle : (cellRow image
        (tileBounds index' (divCeil image.width e.tile) e.tile image.width image.height) e.tile y').length ≤ e.tile * 3 :=
      length_cellRow_le image (by omega) y'
    have hj'' : cellOffset columns e.tile slot y + j - cellOffset columns e.tile slot' y' < e.tile * 3 := by
      refine Nat.lt_of_lt_of_le ?_ hle
      exact Nat.sub_lt_left_of_lt_add h1 h2
    -- the covering row is the one of this cell
    obtain ⟨rfl, rfl, hj2⟩ := cellOffset_inj hc hy' hy'' hj' hj'' (Nat.add_sub_cancel' h1).symm
    have hmem := mem_zipIdx_iff_getElem?.1 hmem
    rw [hslot] at hmem
    obtain rfl := Option.some.inj hmem
    rw [← hrow]
    exact congrArg _ hj2.symm
  · obtain ⟨hjlt, _⟩ := List.getElem?_eq_some_iff.1 hrow
    exact ⟨_, mem_flatMap.2 ⟨(index, slot), mem_zipIdx_iff_getElem?.2 hslot,
      List.mem_map.2 ⟨y, mem_range.2 hy', rfl⟩⟩, Nat.le_add_right _ _, Nat.add_lt_add_left hjlt _⟩

theorem scatterWrites_rows {bitmap : List Byte} {totalTiles : Nat} (hmarked : (List.range totalTiles).filter (bitSet bitmap) = e.dirty) :
    TileRows image.width image.height e.tile image.raw e.dirty
      (scatterWrites image.width image.height (e.packAtlas image columns (divCeil e.dirty.length columns)) bitmap totalTiles
        e.tile columns (columns * e.tile)) := by
  have hrow : ∀ {slot index y}, e.dirty[slot]? = some index → tileTop image.width e.tile index ≤ y →
      y < tileBottom image.width image.height e.tile index →
      IsTileRow image.width image.height e.tile image.raw index y (rowOffset image.width e.tile index y,
        slice (e.packAtlas image columns (divCeil e.dirty.length columns))
          (cellOffset columns e.tile slot (y - tileTop image.width e.tile index))
          (cellOffset columns e.tile slot (y - tileTop image.width e.tile index) +
            tileBytes image.width e.tile index)) := by
    intro slot index y hslot htop hbottom
    have hlt : slot < e.dirty.length := (List.getElem?_eq_some_iff.1 hslot).1
    have hy : y - tileTop image.width e.tile index < e.tile := by unfold tileBottom at hbottom; omega
    refine isTileRow_slice htop hbottom ?_ fun j hj => ?_
    · have hpos := tileBytes_pos hw ht index
      have hle := tileBytes_le image.width e.tile index
      have := cellOffset_lt (j := tileBytes image.width e.tile index - 1) hc hlt hy (by omega)
      unfold packAtlas
      rw [length_blit, length_replicate]
      omega
    · rw [getElem?_packAtlas hc hgrid hw ht hslot (by omega) hj, Nat.add_sub_cancel' htop]
  refine ⟨fun s hs => ?_, fun index hindex y htop hbottom => ?_⟩
  · unfold scatterWrites at hs
    rw [hmarked] at hs
    obtain ⟨⟨index, slot⟩, hmem, hs⟩ := mem_flatMap.1 hs
    obtain ⟨y, hy, rfl⟩ := List.mem_map.1 hs
    obtain ⟨htop, hbottom⟩ := mem_rows.1 hy
    have hslot := mem_zipIdx_iff_getElem?.1 hmem
    exact ⟨index, mem_of_getElem? hslot, y, hrow hslot htop hbottom⟩
  · obtain ⟨slot, hslot⟩ := mem_iff_getElem?.1 hindex
    refine ⟨_, ?_, hrow hslot htop hbottom⟩
    unfold scatterWrites
    rw [hmarked]
    exact mem_flatMap.2 ⟨(index, slot), mem_zipIdx_iff_getElem?.2 hslot,
      List.mem_map.2 ⟨y, mem_rows.2 ⟨htop, hbottom⟩, rfl⟩⟩

end

end Pack

end Jwm.Remote
