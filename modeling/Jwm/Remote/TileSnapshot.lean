/-
The viewer's tile snapshots (`remote/frame.rs`): a snapshot shows a canvas when every tile holds the
canvas' pixels. Updating keeps that, materializing gives the canvas back, and patching the image of
another snapshot gives the canvas with damage regions that cover all that changed.
-/
import Jwm.Remote.Damage
import Jwm.Remote.TileGrid

namespace Jwm.Remote

open List Option

/-! ## Drawing a snapshot -/

namespace TileSnapshot

/-- The tiles not shared with `previous`, with their indices. A snapshot of another geometry shares none. -/
def changed (s : TileSnapshot) (previous : Option TileSnapshot) : List (SharedTile × Nat) :=
  let previous := previous.filter fun p => p.width = s.width && p.height = s.height && p.tile = s.tile
  s.pixels.zipIdx.filter fun (bytes, index) =>
    !previous.any fun p => p.pixels[index]?.map (·.version) == some bytes.version

/-- `apply`: draw the differences against `previous` over `image`, and name their regions. -/
def apply (s : TileSnapshot) (image : RgbImage) (previous : Option TileSnapshot) : RgbImage × DamageRegions :=
  let columns := divCeil s.width s.tile
  let x index := index % columns * s.tile
  let y index := index / columns * s.tile
  let w index := min s.tile (s.width - x index)
  let h index := min s.tile (s.height - y index)
  (image.blit <| (s.changed previous).flatMap fun t => (List.range (h t.2)).map fun row =>
      (((y t.2 + row) * s.width + x t.2) * 3, slice t.1.bytes (row * w t.2 * 3) ((row + 1) * w t.2 * 3)),
    (s.changed previous).foldl (fun regions t => regions.add ⟨x t.2, y t.2, w t.2, h t.2⟩ (s.width, s.height)) .default)

def materialize (s : TileSnapshot) : RgbImage := (s.apply (.new s.width s.height) none).1

def tileImage (canvas : RgbImage) (tile index : Nat) : List Byte :=
  let columns := divCeil canvas.width tile
  let x := (index % columns) * tile
  let y := (index / columns) * tile
  let w := min tile (canvas.width - x)
  let h := min tile (canvas.height - y)
  (range' y h).flatMap fun row => slice canvas.raw ((row * canvas.width + x) * 3) ((row * canvas.width + x) * 3 + w * 3)

/-- Every tile of the snapshot holds the canvas' pixels. -/
structure Shows (s : TileSnapshot) (canvas : RgbImage) : Prop where
  width : s.width = canvas.width
  height : s.height = canvas.height
  width_pos : 0 < s.width
  tile_pos : 0 < s.tile
  count : s.pixels.length = divCeil s.width s.tile * divCeil s.height s.tile
  bytes : ∀ index t, s.pixels[index]? = some t → t.bytes = tileImage canvas s.tile index

/-- Tiles of one identity in one place hold the same pixels. -/
def Agree (s p : TileSnapshot) : Prop :=
  ∀ (index : Nat) (t u : SharedTile), s.pixels[index]? = some t → p.pixels[index]? = some u → t.version = u.version →
    t.bytes = u.bytes

/-- The tiles were rebuilt before snapshot number `version`. -/
def Before (s : TileSnapshot) (version : Nat) : Prop := ∀ t ∈ s.pixels, t.version < version

/-! ## The rows of a tile image -/

theorem slice_flatMap {α β : Type} {f : α → List β} {n : Nat} : ∀ {l : List α} {k : Nat} {a : α}, (∀ a ∈ l, (f a).length = n) →
    l[k]? = some a → slice (l.flatMap f) (k * n) ((k + 1) * n) = f a
  | [], _, _, _, h => by cases h
  | b :: l, 0, a, hlen, h => by
    obtain rfl := some.inj h
    rw [Nat.zero_mul, Nat.zero_add, Nat.one_mul, flatMap_cons, slice_append_self (hlen b (mem_cons_self ..)).symm]
  | b :: l, k + 1, a, hlen, h => by
    have hb := hlen b (mem_cons_self ..)
    rw [flatMap_cons, slice_append_right (by rw [hb, Nat.succ_mul]; omega), hb]
    have ih := slice_flatMap (fun c hc => hlen c (mem_cons_of_mem _ hc)) (l := l) (k := k) h
    rw [show (k + 1) * n - n = k * n by rw [Nat.succ_mul]; omega,
      show (k + 1 + 1) * n - n = (k + 1) * n by rw [Nat.succ_mul]; omega]
    exact ih

section Rows

variable {canvas : RgbImage} {tile index row : Nat}

def tileRows (width height tile index : Nat) : Nat := min tile (height - tileTop width tile index)

theorem tileWidth_eq (width tile index : Nat) : min tile (width - tileLeft width tile index) * 3 = tileBytes width tile index := by
  unfold tileBytes
  omega

theorem rowOffset_eq (width tile index y : Nat) : (y * width + tileLeft width tile index) * 3 = rowOffset width tile index y := by
  unfold rowOffset
  rw [Nat.add_mul, Nat.mul_assoc]

theorem row_lt_bottom {width height : Nat} (h : row < tileRows width height tile index) :
    tileTop width tile index + row < tileBottom width height tile index := by
  unfold tileRows at h
  unfold tileBottom
  omega

theorem row_of_bottom {width height y : Nat} (htop : tileTop width tile index ≤ y)
    (hbottom : y < tileBottom width height tile index) : y - tileTop width tile index < tileRows width height tile index := by
  unfold tileBottom at hbottom
  unfold tileRows
  omega

theorem tileImage_eq_rows (canvas : RgbImage) (tile index : Nat) : tileImage canvas tile index =
    (range' (tileTop canvas.width tile index) (tileRows canvas.width canvas.height tile index)).flatMap fun y =>
      slice canvas.raw (rowOffset canvas.width tile index y)
        (rowOffset canvas.width tile index y + tileBytes canvas.width tile index) := by
  refine flatMap_congr fun y _ => ?_
  rw [← tileWidth_eq, ← rowOffset_eq]
  rfl

theorem slice_tileImage (canvas : RgbImage) (hw : 0 < canvas.width) (ht : 0 < tile)
    (hr : row < tileRows canvas.width canvas.height tile index) :
    slice (tileImage canvas tile index) (row * tileBytes canvas.width tile index)
        ((row + 1) * tileBytes canvas.width tile index) =
      slice canvas.raw (rowOffset canvas.width tile index (tileTop canvas.width tile index + row))
        (rowOffset canvas.width tile index (tileTop canvas.width tile index + row) + tileBytes canvas.width tile index) := by
  rw [tileImage_eq_rows]
  refine slice_flatMap (fun y hy => ?_) ?_ (a := tileTop canvas.width tile index + row)
  · have hy' : y < canvas.height := by
      have := mem_range'_1.1 hy
      unfold tileRows at this
      omega
    rw [length_slice (by rw [canvas.raw_length]; exact rowOffset_add_le hw ht hy' index), Nat.add_sub_cancel_left]
  · rw [getElem?_range' hr, Nat.one_mul]

theorem raw_eq_of_tileImage {other : RgbImage} (hwidth : other.width = canvas.width) (hheight : other.height = canvas.height)
    (hw : 0 < canvas.width) (ht : 0 < tile) {i : Nat} (hi : i < canvas.width * canvas.height * 3)
    (h : tileImage other tile (tileAt canvas.width tile i) = tileImage canvas tile (tileAt canvas.width tile i)) :
    other.raw[i]? = canvas.raw[i]? := by
  obtain ⟨htop, hbottom⟩ := row_in_tile hw ht hi
  obtain ⟨h1, h2⟩ := byte_in_row hw ht i
  have hrow := row_of_bottom htop hbottom
  have hc := slice_tileImage canvas hw ht hrow
  have ho := slice_tileImage other (by rw [hwidth]; exact hw) ht (by rw [hwidth, hheight]; exact hrow)
  rw [hwidth, h, hc, Nat.add_sub_cancel' htop] at ho
  have hj := congrArg (·[i - rowOffset canvas.width tile (tileAt canvas.width tile i) (i / (canvas.width * 3))]?) ho
  rw [getElem?_slice (by omega), getElem?_slice (by omega), Nat.add_sub_cancel' h1] at hj
  exact hj.symm

end Rows

/-! ## Patching an image -/

section Apply

variable {s p : TileSnapshot} {canvas image : RgbImage} {previous : Option TileSnapshot} {index i : Nat} {t : SharedTile}

theorem pixels_of_mem_changed (h : (t, index) ∈ s.changed previous) : s.pixels[index]? = some t :=
  mem_zipIdx_iff_getElem?.1 (mem_filter.1 h).1

theorem mem_changed_or_shared (previous : Option TileSnapshot) (h : s.pixels[index]? = some t) : (t, index) ∈ s.changed previous ∨
    ∃ p u, previous = some p ∧ p.width = s.width ∧ p.height = s.height ∧ p.tile = s.tile ∧
      p.pixels[index]? = some u ∧ u.version = t.version := by
  by_cases hc : (t, index) ∈ s.changed previous
  · exact .inl hc
  · right
    have hmem : (t, index) ∈ s.pixels.zipIdx := mem_zipIdx_iff_getElem?.2 h
    have hshared : (previous.filter fun p => p.width = s.width && p.height = s.height && p.tile = s.tile).any
        (fun p => p.pixels[index]?.map (·.version) == some t.version) = true := by
      by_contra hn
      exact hc (mem_filter.2 ⟨hmem, by simpa using hn⟩)
    obtain ⟨hsome, hv⟩ := (any_eq_true_iff_get _ _).1 hshared
    obtain ⟨p, hp⟩ := isSome_iff_exists.1 hsome
    simp only [hp, get_some] at hv
    obtain ⟨hprev, hgeom⟩ := filter_eq_some_iff.1 hp
    simp only [Bool.and_eq_true, decide_eq_true_eq] at hgeom
    obtain ⟨u, hu, huv⟩ := map_eq_some_iff.1 (eq_of_beq hv)
    exact ⟨p, u, hprev, hgeom.1.1, hgeom.1.2, hgeom.2, hu, huv⟩

section

variable (hs : s.Shows canvas)
include hs

theorem apply_rows : TileRows s.width s.height s.tile canvas.raw ((s.changed previous).map Prod.snd)
      ((s.changed previous).flatMap fun t =>
        (List.range (tileRows s.width s.height s.tile t.2)).map fun row =>
          (((tileTop s.width s.tile t.2 + row) * s.width + tileLeft s.width s.tile t.2) * 3,
            slice t.1.bytes (row * min s.tile (s.width - tileLeft s.width s.tile t.2) * 3)
              ((row + 1) * min s.tile (s.width - tileLeft s.width s.tile t.2) * 3))) := by
  have hrow : ∀ {t index row}, s.pixels[index]? = some t → row < tileRows s.width s.height s.tile index →
      IsTileRow s.width s.height s.tile canvas.raw index (tileTop s.width s.tile index + row)
        (((tileTop s.width s.tile index + row) * s.width + tileLeft s.width s.tile index) * 3,
          slice t.bytes (row * min s.tile (s.width - tileLeft s.width s.tile index) * 3)
            ((row + 1) * min s.tile (s.width - tileLeft s.width s.tile index) * 3)) := by
    intro t index row ht hr
    have hbottom := row_lt_bottom hr
    have hy : tileTop s.width s.tile index + row < s.height := by unfold tileBottom at hbottom; omega
    rw [Nat.mul_assoc row, Nat.mul_assoc (row + 1), tileWidth_eq, rowOffset_eq, hs.bytes index t ht]
    rw [hs.width, hs.height] at *
    rw [slice_tileImage canvas (by rw [← hs.width]; exact hs.width_pos) hs.tile_pos hr]
    refine isTileRow_slice (Nat.le_add_right _ _) hbottom ?_ fun _ _ => rfl
    rw [canvas.raw_length]
    exact rowOffset_add_le (by rw [← hs.width]; exact hs.width_pos) hs.tile_pos hy index
  refine ⟨fun w hw => ?_, fun index hindex y htop hbottom => ?_⟩
  · obtain ⟨⟨t, index⟩, hmem, hw⟩ := mem_flatMap.1 hw
    obtain ⟨row, hr, rfl⟩ := List.mem_map.1 hw
    exact ⟨index, List.mem_map.2 ⟨_, hmem, rfl⟩, _, hrow (pixels_of_mem_changed hmem) (mem_range.1 hr)⟩
  · obtain ⟨⟨t, _⟩, hmem, rfl⟩ := List.mem_map.1 hindex
    have hr := row_of_bottom htop hbottom
    refine ⟨_, mem_flatMap.2 ⟨_, hmem, List.mem_map.2 ⟨_, mem_range.2 hr, rfl⟩⟩, ?_⟩
    have := hrow (pixels_of_mem_changed hmem) hr
    rw [Nat.add_sub_cancel' htop] at this
    simp only [Nat.add_sub_cancel' htop]
    exact this

theorem apply_raw (hdim : image.dimensions = canvas.dimensions) (hi : i < canvas.width * canvas.height * 3) :
    (s.apply image previous).1.raw[i]? =
      if tileAt s.width s.tile i ∈ (s.changed previous).map Prod.snd then canvas.raw[i]? else image.raw[i]? := by
  obtain ⟨hw, hh⟩ := Prod.mk.inj hdim
  refine (apply_rows hs).getElem?_blit hs.width_pos hs.tile_pos ?_ ?_
  · rw [image.raw_length, hs.width, hs.height, ← hw, ← hh]
  · rw [hs.width, hs.height]
    exact hi

theorem apply_eq_canvas (hdim : image.dimensions = canvas.dimensions)
    (hrest : ∀ i, i < canvas.width * canvas.height * 3 → tileAt s.width s.tile i ∉ (s.changed previous).map Prod.snd → image.raw[i]? = canvas.raw[i]?) : (s.apply image previous).1 = canvas := by
  obtain ⟨hw, hh⟩ := Prod.mk.inj hdim
  refine RgbImage.ext_of_raw hw hh (ext_getElem? fun i => ?_)
  by_cases hi : i < canvas.width * canvas.height * 3
  · rw [apply_raw hs hdim hi]
    split
    · rfl
    · exact hrest i hi ‹_›
  · rw [getElem?_eq_none (by rw [(s.apply image previous).1.raw_length]; show image.width * image.height * 3 ≤ i; rw [hw, hh]; omega),
      getElem?_eq_none (by rw [canvas.raw_length]; omega)]

theorem Shows.tile_at (hi : i < canvas.width * canvas.height * 3) :
    ∃ t, s.pixels[tileAt s.width s.tile i]? = some t := by
  refine ⟨_, getElem?_eq_getElem ?_⟩
  rw [hs.count]
  refine tileAt_lt hs.width_pos hs.tile_pos ?_
  rw [hs.width, hs.height]
  exact hi

theorem materialize_eq : s.materialize = canvas := by
  refine apply_eq_canvas hs (Prod.ext hs.width hs.height) fun i hi hnot => ?_
  obtain ⟨t, ht⟩ := hs.tile_at hi
  rcases mem_changed_or_shared none ht with hmem | ⟨p, u, hp, -⟩
  · exact absurd (List.mem_map.2 ⟨_, hmem, rfl⟩) hnot
  · cases hp

end

variable {old : RgbImage}

section

variable (hs : s.Shows canvas) (hp : p.Shows old) (hagree : Agree s p)
include hs hp hagree

theorem raw_eq_of_not_changed (hi : i < canvas.width * canvas.height * 3)
    (hnot : tileAt s.width s.tile i ∉ (s.changed (some p)).map Prod.snd) :
    old.raw[i]? = canvas.raw[i]? := by
  obtain ⟨t, ht⟩ := hs.tile_at hi
  rcases mem_changed_or_shared _ ht with hmem | ⟨p', u, hp', hw, hh, htile, hu, hv⟩
  · exact absurd (List.mem_map.2 ⟨_, hmem, rfl⟩) hnot
  · obtain rfl := some.inj hp'
    have hbytes := hagree _ t u ht hu hv.symm
    rw [hs.bytes _ _ ht, hp.bytes _ _ hu, htile] at hbytes
    have hpos : 0 < canvas.width := by rw [← hs.width]; exact hs.width_pos
    refine raw_eq_of_tileImage (hp.width.symm.trans (hw.trans hs.width)) (hp.height.symm.trans (hh.trans hs.height)) hpos
      hs.tile_pos hi ?_
    rw [← hs.width]
    exact hbytes.symm

theorem apply_eq (hdim : old.dimensions = canvas.dimensions) : (s.apply old (some p)).1 = canvas :=
  apply_eq_canvas hs hdim fun _ hi hnot => raw_eq_of_not_changed hs hp hagree hi hnot

theorem apply_damage {x y k : Nat} (hx : x < canvas.width) (hy : y < canvas.height) (hk : k < 3)
    (hne : old.raw[(y * canvas.width + x) * 3 + k]? ≠ canvas.raw[(y * canvas.width + x) * 3 + k]?) :
    (s.apply image (some p)).2.Has x y := by
  have hpos : 0 < canvas.width := Nat.zero_lt_of_lt hx
  have hi : (y * canvas.width + x) * 3 + k < canvas.width * canvas.height * 3 := by
    have hrows : (y + 1) * canvas.width ≤ canvas.height * canvas.width := Nat.mul_le_mul_right _ hy
    rw [Nat.succ_mul] at hrows
    rw [Nat.mul_comm canvas.width]
    omega
  have hmem : tileAt s.width s.tile ((y * canvas.width + x) * 3 + k) ∈ (s.changed (some p)).map Prod.snd := by
    by_contra hnot
    exact hne (raw_eq_of_not_changed hs hp hagree hi hnot)
  obtain ⟨⟨t, index⟩, ht, hindex⟩ := List.mem_map.1 hmem
  refine DamageRegions.foldl_add_has (by rw [hs.width]; exact hx) (by rw [hs.height]; exact hy) DamageRegions.single_default
    (.inr ⟨_, ht, ?_⟩)
  -- the pixel lies between the edges of its tile
  obtain ⟨htop, hbottom⟩ := row_in_tile hpos hs.tile_pos hi
  obtain ⟨hleft, hright⟩ := byte_in_row hpos hs.tile_pos ((y * canvas.width + x) * 3 + k)
  obtain ⟨hrow, -⟩ := div_mod_of_eq (a := (y * canvas.width + x) * 3 + k) (n := canvas.width * 3) (q := y) (r := x * 3 + k)
    (by rw [Nat.add_mul, Nat.mul_assoc, Nat.add_assoc]) (by omega)
  rw [hrow] at htop hbottom hleft hright
  simp only [← hs.width, ← hs.height] at hindex htop hbottom hleft hright
  rw [← hindex] at htop hbottom hleft hright
  have hoff := rowOffset_eq s.width s.tile index y
  show DamageRect.Has ⟨tileLeft s.width s.tile index, tileTop s.width s.tile index,
    min s.tile (s.width - tileLeft s.width s.tile index), min s.tile (s.height - tileTop s.width s.tile index)⟩ x y
  have hwidth := tileWidth_eq s.width s.tile index
  unfold tileBottom at hbottom
  unfold DamageRect.Has
  dsimp only
  omega

end

end Apply

/-! ## Taking a snapshot -/

section Update

variable {canvas base : RgbImage} {p : TileSnapshot} {previous : Option TileSnapshot} {bitmap : List Byte} {tile version index : Nat}

theorem tileImage_congr (hwidth : base.width = canvas.width) (hheight : base.height = canvas.height) (hw : 0 < canvas.width)
    (h : ∀ i, i < canvas.width * canvas.height * 3 → tileAt canvas.width tile i = index → base.raw[i]? = canvas.raw[i]?) :
    tileImage base tile index = tileImage canvas tile index := by
  rw [tileImage_eq_rows, tileImage_eq_rows, hwidth, hheight]
  refine flatMap_congr fun y hy => ?_
  obtain ⟨htop, hy⟩ := mem_range'_1.1 hy
  refine tileRow_congr hwidth hheight hw h htop ?_
  unfold tileRows at hy
  unfold tileBottom
  omega

theorem bitSet_eq_false_of_all_zero (h : bitmap.all (· == 0) = true) (i : Nat) : bitSet bitmap i = false := by
  have hzero : bitmap.getD (i / 8) 0 = 0 := by
    rw [getD_eq_getElem?_getD]
    cases hb : bitmap[i / 8]? with
    | none => rfl
    | some b => exact eq_of_beq (all_eq_true.1 h b (mem_of_getElem? hb))
  rw [bitSet_eq, hzero]
  simp

/-- A snapshot's tiles: those of a compatible predecessor where the bitmap has no mark, else new ones of the canvas. -/
theorem update_tile {t : SharedTile} (h : (update canvas previous bitmap tile version).pixels[index]? = some t) :
    (∃ p, previous = some p ∧ p.width = canvas.width ∧ p.height = canvas.height ∧ p.tile = tile ∧
      p.pixels[index]? = some t ∧ bitSet bitmap index = false) ∨ t = ⟨version, tileImage canvas tile index⟩ := by
  unfold update at h
  split at h
  · rename_i p hp
    obtain ⟨hprev, hgeom⟩ := filter_eq_some_iff.1 hp
    simp only [Bool.and_eq_true, decide_eq_true_eq] at hgeom
    split at h
    · exact .inl ⟨p, hprev, hgeom.1.1, hgeom.1.2, hgeom.2, h, bitSet_eq_false_of_all_zero ‹_› _⟩
    · rw [getElem?_mapIdx] at h
      obtain ⟨u, hu, rfl⟩ := map_eq_some_iff.1 h
      cases hb : bitSet bitmap index with
      | false => exact .inl ⟨p, hprev, hgeom.1.1, hgeom.1.2, hgeom.2, hu, rfl⟩
      | true => exact .inr rfl
  · rw [getElem?_map] at h
    obtain ⟨i, hi, rfl⟩ := map_eq_some_iff.1 h
    obtain ⟨_, rfl⟩ := List.getElem?_eq_some_iff.1 hi
    rw [getElem_range]
    exact .inr rfl

/-- The geometry of a snapshot, over a predecessor with the right number of tiles. -/
theorem update_geometry (canvas : RgbImage) (bitmap : List Byte) (tile version : Nat)
    (hcount : ∀ p, previous = some p → p.pixels.length = divCeil p.width p.tile * divCeil p.height p.tile) :
    (update canvas previous bitmap tile version).width = canvas.width ∧
      (update canvas previous bitmap tile version).height = canvas.height ∧
      (update canvas previous bitmap tile version).tile = tile ∧
      (update canvas previous bitmap tile version).pixels.length = divCeil canvas.width tile * divCeil canvas.height tile := by
  unfold update
  split
  · rename_i p hp
    obtain ⟨hprev, hgeom⟩ := filter_eq_some_iff.1 hp
    simp only [Bool.and_eq_true, decide_eq_true_eq] at hgeom
    obtain ⟨⟨hw, hh⟩, ht⟩ := hgeom
    have hlen := hcount p hprev
    rw [hw, hh, ht] at hlen
    split
    · exact ⟨hw, hh, ht, hlen⟩
    · exact ⟨rfl, rfl, rfl, by rw [length_mapIdx, hlen]⟩
  · exact ⟨rfl, rfl, rfl, by rw [length_map, length_range]⟩

theorem update_shows (hw : 0 < canvas.width) (ht : 0 < tile)
    (hprev : ∀ p, previous = some p → ∃ base, p.Shows base ∧ (base.dimensions = canvas.dimensions → ∀ i,
      i < canvas.width * canvas.height * 3 → bitSet bitmap (tileAt canvas.width tile i) = false →
      base.raw[i]? = canvas.raw[i]?)) : (update canvas previous bitmap tile version).Shows canvas := by
  obtain ⟨hwidth, hheight, htile, hlen⟩ := update_geometry canvas bitmap tile version
    fun p hp => (hprev p hp).elim fun _ h => h.1.count
  refine ⟨hwidth, hheight, by rw [hwidth]; exact hw, by rw [htile]; exact ht, by rw [hwidth, hheight, htile]; exact hlen, ?_⟩
  intro index t h
  rw [htile]
  rcases update_tile h with ⟨p, hp, hpw, hph, rfl, hu, hb⟩ | rfl
  · obtain ⟨base, hshows, hsame⟩ := hprev p hp
    have hbw : base.width = canvas.width := hshows.width.symm.trans hpw
    have hbh : base.height = canvas.height := hshows.height.symm.trans hph
    rw [hshows.bytes _ _ hu]
    refine tileImage_congr hbw hbh hw fun i hi hat => hsame (Prod.ext hbw hbh) i hi ?_
    rw [hat]
    exact hb
  · rfl

theorem update_before (hprev : ∀ p, previous = some p → p.Before version) :
    (update canvas previous bitmap tile version).Before (version + 1) := by
  intro t ht
  obtain ⟨index, ht⟩ := mem_iff_getElem?.1 ht
  rcases update_tile ht with ⟨p, hp, -, -, -, hu, -⟩ | rfl
  · exact Nat.lt_succ_of_lt (hprev p hp t (mem_of_getElem? hu))
  · exact Nat.lt_succ_self _

theorem update_agree {q : TileSnapshot} (hq : q.Before version) (hprev : ∀ p, previous = some p → Agree p q) :
    Agree (update canvas previous bitmap tile version) q := by
  intro index t u ht hu hv
  rcases update_tile ht with ⟨p, hp, -, -, -, ht, -⟩ | rfl
  · exact hprev p hp index t u ht hu hv
  · exact absurd hv (Nat.ne_of_gt (hq u (mem_of_getElem? hu)))

theorem Agree.refl (s : TileSnapshot) : Agree s s := by
  intro index t u ht hu _
  rw [ht] at hu
  rw [some.inj hu]

end Update

end TileSnapshot

end Jwm.Remote
