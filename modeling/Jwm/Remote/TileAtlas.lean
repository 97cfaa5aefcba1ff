/-
The shape of a tile atlas: a delta packs its tiles near-square and a keyframe keeps its grid, and
either is planned exactly when the tiles packed hold no more pixels than a frame may have.
-/
import Jwm.Remote.TilePlan

namespace Jwm.Remote

/-! ## The shape of the atlas -/

variable {d n k tile gridW : Nat}

/-- Cells in rows as long as the square root: at most two rows more than columns. -/
theorem divCeil_sqrt_le (hd : 0 < d) : divCeil d d.sqrt ≤ d.sqrt + 2 := by
  have hs : 0 < d.sqrt := Nat.sqrt_pos.2 hd
  have hle := Nat.sqrt_le_add d
  have hmul : (d.sqrt + 3) * d.sqrt = d.sqrt * d.sqrt + 3 * d.sqrt := Nat.add_mul ..
  refine Nat.le_of_lt_succ ((Nat.div_lt_iff_lt_mul hs).2 ?_)
  show _ < (d.sqrt + 3) * d.sqrt
  omega

/-- A near-square atlas of the tiles of an `n × n` square is no larger than that square. -/
theorem sqrt_mul_divCeil_le (hd : 0 < d) (h : d ≤ n * n) : d.sqrt * divCeil d d.sqrt ≤ n * n ∧ divCeil d d.sqrt ≤ n + 1 := by
  have hs : 0 < d.sqrt := Nat.sqrt_pos.2 hd
  have hsn : d.sqrt ≤ n := by
    rw [← Nat.sqrt_eq n]
    exact Nat.sqrt_le_sqrt h
  rcases Nat.eq_or_lt_of_le hsn with heq | hlt
  · -- the square is full
    have hd' : d = n * n := Nat.le_antisymm h (by rw [← heq]; exact Nat.sqrt_le d)
    have hrows : divCeil d d.sqrt = n := by
      rw [heq, hd']
      unfold divCeil
      rw [Nat.add_sub_assoc (by omega), Nat.add_comm, Nat.add_mul_div_right _ _ (by omega),
        Nat.div_eq_of_lt (by omega), Nat.zero_add]
    rw [hrows, heq]
    exact ⟨Nat.le_refl _, Nat.le_succ n⟩
  · have hrows := divCeil_sqrt_le hd
    refine ⟨?_, by omega⟩
    calc d.sqrt * divCeil d d.sqrt ≤ d.sqrt * (d.sqrt + 2) := Nat.mul_le_mul_left _ hrows
      _ ≤ (d.sqrt + 1) * (d.sqrt + 1) := by simp only [Nat.mul_add, Nat.add_mul]; omega
      _ ≤ n * n := Nat.mul_le_mul hlt hlt

theorem le_mul_divCeil {c : Nat} (hc : 0 < c) : n ≤ c * divCeil n c := by
  have hmod := Nat.div_add_mod (n + c - 1) c
  have hlt := Nat.mod_lt (n + c - 1) hc
  show n ≤ c * ((n + c - 1) / c)
  omega

theorem divCeil_mul {a b : Nat} (hb : 0 < b) : divCeil (b * a) b = a := by
  unfold divCeil
  rw [Nat.add_sub_assoc (by omega), Nat.mul_comm, Nat.add_comm, Nat.add_mul_div_right _ _ hb,
    Nat.div_eq_of_lt (by omega), Nat.zero_add]

theorem half_maxDimension (h3 : 3 ≤ k) (h7 : k ≤ 7) : ∃ n, 64 ≤ n ∧ n * 1 <<< k = 8192 := by
  have hk : k = 3 ∨ k = 4 ∨ k = 5 ∨ k = 6 ∨ k = 7 := by omega
  rcases hk with rfl | rfl | rfl | rfl | rfl
  · exact ⟨1024, by decide⟩
  · exact ⟨512, by decide⟩
  · exact ⟨256, by decide⟩
  · exact ⟨128, by decide⟩
  · exact ⟨64, by decide⟩

/-- The columns of a delta whose tiles fit a square of half the dimension limit: its square root. -/
theorem atlasColumns_eq_sqrt (hd : 0 < d) (hn : 64 ≤ n) (ht : n * tile = 8192) (h : d ≤ n * n) :
    atlasColumns d tile = d.sqrt := by
  have htile : 0 < tile := Nat.pos_of_ne_zero fun h0 => by rw [h0] at ht; omega
  have hlimit : maxAtlasColumns tile = n * 2 := by
    unfold maxAtlasColumns
    rw [show maxDimension = n * 2 * tile by rw [Nat.mul_right_comm, ht]; rfl, Nat.mul_div_cancel _ htile]
    omega
  have hs : 0 < d.sqrt := Nat.sqrt_pos.2 hd
  have hsn : d.sqrt ≤ n := by
    rw [← Nat.sqrt_eq n]
    exact Nat.sqrt_le_sqrt h
  have hrows : divCeil d (n * 2) ≤ d.sqrt := by
    have hle := Nat.sqrt_le_add d
    have hmul : (d.sqrt + 2) * d.sqrt ≤ n * 2 * d.sqrt := Nat.mul_le_mul_right _ (by omega)
    have hexp : (d.sqrt + 2) * d.sqrt = d.sqrt * d.sqrt + 2 * d.sqrt := Nat.add_mul ..
    have hsucc : (d.sqrt + 1) * (n * 2) = n * 2 * d.sqrt + n * 2 := by rw [Nat.add_mul, Nat.one_mul, Nat.mul_comm]
    refine Nat.le_of_lt_succ ((Nat.div_lt_iff_lt_mul (by omega)).2 ?_)
    show _ < (d.sqrt + 1) * (n * 2)
    omega
  have hsd : d.sqrt ≤ d := Nat.sqrt_le_self d
  unfold atlasColumns
  simp only [hlimit]
  omega

theorem validateDimensions_eq_ok {w h : Nat} : validateDimensions w h = .ok () ↔
    0 < w ∧ 0 < h ∧ w ≤ maxDimension ∧ h ≤ maxDimension ∧ w * h ≤ maxPixels := by
  refine ⟨validateDimensions_ok, fun ⟨hw, hh, hwm, hhm, harea⟩ => ?_⟩
  unfold validateDimensions
  rw [if_neg (by simp; omega), if_neg (by simp; omega), if_neg (by omega)]

/-- What a plan asks of the tiles it packs: together they are no larger than a frame may be. -/
def TilesFit (count tile : Nat) : Prop := count * (tile * tile) ≤ maxPixels

instance (count tile : Nat) : Decidable (TilesFit count tile) := inferInstanceAs (Decidable (_ ≤ _))

/-- An atlas of `columns` columns is at least as large as its tiles. -/
theorem tiles_le_atlas {columns : Nat} (hc : 0 < columns) : d * (tile * tile) ≤ columns * tile * (divCeil d columns * tile) := by
  calc d * (tile * tile) ≤ columns * divCeil d columns * (tile * tile) := Nat.mul_le_mul_right _ (le_mul_divCeil hc)
    _ = columns * tile * (divCeil d columns * tile) := Nat.mul_mul_mul_comm ..

namespace TileEncoder

theorem planAtlas_eq_ok {keyframe : Bool} (hd : 0 < d) : (∃ plan, planAtlas keyframe d gridW tile = .ok plan) ↔
      validateDimensions ((if keyframe then gridW else atlasColumns d tile) * tile)
        (divCeil d (if keyframe then gridW else atlasColumns d tile) * tile) = .ok () := by
  unfold planAtlas
  rw [if_neg (by omega)]
  simp only [unit_bind_eq_ok, rejectIf_eq_ok, pure_eq_ok]
  refine ⟨fun hplan => ?_, fun h => ?_⟩
  · obtain ⟨-, -, -, h, -⟩ := hplan
    exact h
  obtain ⟨-, -, hw, hh, -⟩ := validateDimensions_ok h
  exact ⟨_, by omega, by omega, h, rfl⟩

theorem planAtlas_delta (h3 : 3 ≤ k) (h7 : k ≤ 7) (hd : 0 < d) :
    (∃ plan, planAtlas false d gridW (1 <<< k) = .ok plan) ↔ TilesFit d (1 <<< k) := by
  obtain ⟨n, hn, htile⟩ := half_maxDimension h3 h7
  generalize 1 <<< k = tile at *
  have ht : 0 < tile := Nat.pos_of_ne_zero fun h0 => by rw [h0] at htile; omega
  have harea : n * n * (tile * tile) = maxPixels := by
    rw [Nat.mul_mul_mul_comm, htile]
    rfl
  rw [planAtlas_eq_ok hd]
  refine ⟨fun h => ?_, fun h => ?_⟩
  · obtain ⟨-, -, -, -, hle⟩ := validateDimensions_ok h
    exact Nat.le_trans (tiles_le_atlas (atlasColumns_bounds hd).1) hle
  · have hsquare : d ≤ n * n := Nat.le_of_mul_le_mul_right (by rw [harea]; exact h) (Nat.mul_pos ht ht)
    obtain ⟨hcells, hrows⟩ := sqrt_mul_divCeil_le hd hsquare
    have hsqrt : atlasColumns d tile = d.sqrt := atlasColumns_eq_sqrt hd hn htile hsquare
    have hs : 0 < d.sqrt := Nat.sqrt_pos.2 hd
    have hsn : d.sqrt ≤ n := by
      rw [← Nat.sqrt_eq n]
      exact Nat.sqrt_le_sqrt hsquare
    have hwidth : d.sqrt * tile ≤ n * tile := Nat.mul_le_mul_right _ hsn
    have hheight : divCeil d d.sqrt * tile ≤ (n + 1) * tile := Nat.mul_le_mul_right _ hrows
    have hsmall : 64 * tile ≤ n * tile := Nat.mul_le_mul_right _ hn
    have hsucc : (n + 1) * tile = n * tile + tile := Nat.succ_mul ..
    simp only [Bool.false_eq_true, if_false, hsqrt]
    refine validateDimensions_eq_ok.2 ⟨Nat.mul_pos hs ht, Nat.mul_pos (divCeil_pos hd hs) ht, ?_, ?_, ?_⟩
    · show _ ≤ 16384
      omega
    · show _ ≤ 16384
      omega
    · rw [Nat.mul_mul_mul_comm, ← harea]
      exact Nat.mul_le_mul_right _ hcells

theorem planAtlas_keyframe {gridH : Nat} (ht : 0 < tile) (hw : 0 < gridW) (hh : 0 < gridH)
    (hwm : gridW * tile ≤ maxDimension) (hhm : gridH * tile ≤ maxDimension) :
    (∃ plan, planAtlas true (gridW * gridH) gridW tile = .ok plan) ↔ TilesFit (gridW * gridH) tile := by
  rw [planAtlas_eq_ok (Nat.mul_pos hw hh)]
  simp only [if_true, divCeil_mul hw]
  rw [validateDimensions_eq_ok, Nat.mul_mul_mul_comm]
  refine ⟨fun ⟨_, _, _, _, h⟩ => h, fun h => ⟨Nat.mul_pos hw ht, Nat.mul_pos hh ht, hwm, hhm, h⟩⟩

end TileEncoder

end Jwm.Remote
