/-
Which screens can be streamed. The tiles of a frame are whole, so those of a large frame with a partial row or column can
hold more pixels than a frame may.
-/
import Jwm.Remote.TileAtlas
import Jwm.Remote.TileCalls

namespace Jwm.Remote.TileEncoder

open List

/-! ## What a frame owes -/

/-- Does the next frame carry the tile: as part of a keyframe, for its change, or as a repair? -/
def owes (e : TileEncoder) (frame : CapturedFrame) (request : TileEncodeRequest) (refinement : Option (Nat × Nat))
    (index : Nat) : Bool :=
  e.sendsKeyframe frame request ||
    (e.reference.any fun reference =>
      tileChanged frame.image reference (divCeil frame.image.width e.tile) e.tile e.tolerance index) ||
    refinement.any fun (quality, limit) =>
      decide (index ∈ (refinementTiles e.qualities quality limit e.refinementCursor).1)

def tilesOwed (e : TileEncoder) (frame : CapturedFrame) (request : TileEncodeRequest)
    (refinement : Option (Nat × Nat)) : Nat :=
  (List.range (e.tilesOf frame)).countP (e.owes frame request refinement)

theorem mem_damage {e : TileEncoder} {frame : CapturedFrame} {request : TileEncodeRequest} {index : Nat} :
    index ∈ (e.damage frame (e.sendsKeyframe frame request) (e.tilesOf frame)).2 ↔
      index < e.tilesOf frame ∧ e.owes frame request none index = true := by
  unfold damage owes
  simp only
  split
  · rename_i reference hr hk
    rw [collectDirty_eq, nil_append, Nat.mul_comm, hk, hr, mem_filter, mem_range]
    simp [tilesOf]
  · rename_i hnot
    have hk : e.sendsKeyframe frame request = true := by
      by_contra hk
      rw [Bool.not_eq_true] at hk
      obtain ⟨reference, hr, -⟩ := needsKeyframe_eq_false (Bool.or_eq_false_iff.1 hk).2
      exact hnot reference hr hk
    rw [hk]
    simp

theorem mem_addRepairs {n j : Nat} : ∀ {indices : List Nat} {bitmap : List Byte} {dirty : List Nat},
    Marks n bitmap dirty → (∀ i ∈ indices, i < n) →
    (j ∈ (addRepairs indices bitmap dirty).2 ↔ j ∈ dirty ∨ j ∈ indices)
  | [], _, _, _, _ => by simp [addRepairs]
  | i :: indices, bitmap, dirty, h, hlt => by
    have hrest : ∀ k ∈ indices, k < n := fun k hk => hlt k (mem_cons_of_mem _ hk)
    cases hbit : bitSet bitmap i with
    | true =>
      have hstep : addRepairs (i :: indices) bitmap dirty = addRepairs indices bitmap dirty := by
        simp [addRepairs, hbit]
      have hi : i ∈ dirty := by simpa [h.bit] using hbit
      rw [hstep, mem_addRepairs h hrest, mem_cons]
      refine ⟨fun hj => ?_, fun hj => ?_⟩
      · rcases hj with hj | hj
        · exact .inl hj
        · exact .inr (.inr hj)
      · rcases hj with hj | rfl | hj
        · exact .inl hj
        · exact .inl hi
        · exact .inr hj
    | false =>
      have hstep : addRepairs (i :: indices) bitmap dirty = addRepairs indices (markBit bitmap i) (dirty ++ [i]) := by
        simp [addRepairs, hbit]
      rw [hstep, mem_addRepairs (h.push (hlt i (mem_cons_self ..)) hbit) hrest, mem_append,
        mem_singleton, mem_cons, or_assoc]

section Selection

variable {e₀ e : TileEncoder} {frame : CapturedFrame} {request : TileEncodeRequest}

/-- A detection, and the exact list it made. -/
structure Scanned (e₀ : TileEncoder) (frame : CapturedFrame) (request : TileEncodeRequest) (e : TileEncoder) : Prop
    extends Detected e₀ frame request e where
  scanned : e.detectedDirty = (e₀.damage frame (e₀.sendsKeyframe frame request) (e₀.tilesOf frame)).2

section

variable (hq : QualitiesFit e₀) (h : Scanned e₀ frame request e) (refinement : Option (Nat × Nat))
include hq h

theorem mem_selection (index : Nat) : index ∈ (e.selection (e₀.sendsKeyframe frame request) refinement).2.2 ↔
      index < e₀.tilesOf frame ∧ e₀.owes frame request refinement index = true := by
  have hmarks := Marks.mark_all h.length h.owed.lt (h.owed.ascending.imp Nat.ne_of_lt)
  have hscan : index ∈ e.detectedDirty ↔ index < e₀.tilesOf frame ∧ e₀.owes frame request none index = true := by
    rw [h.scanned]
    exact mem_damage
  have hqual : e.qualities = e₀.qualities := congrArg HostModel.qualities h.model
  have hcursor : e.refinementCursor = e₀.refinementCursor := congrArg HostModel.refinementCursor h.model
  unfold selection
  simp only
  split
  · rename_i quality limit hk
    have hlt : ∀ i ∈ (refinementTiles e.qualities quality limit e.refinementCursor).1, i < e₀.tilesOf frame := by
      rw [← qualities_length_of_delta hq hk, ← hqual]
      exact refinementTiles_lt
    rw [(mergeSort_perm _ _).mem_iff, mem_addRepairs hmarks hlt, hscan]
    rw [hqual, hcursor] at hlt ⊢
    have howes : e₀.owes frame request (some (quality, limit)) index = (e₀.owes frame request none index ||
        decide (index ∈ (refinementTiles e₀.qualities quality limit e₀.refinementCursor).1)) := by
      simp [owes]
    rw [howes, Bool.or_eq_true, decide_eq_true_eq]
    refine ⟨fun hmem => ?_, fun ⟨hi, hmem⟩ => ?_⟩
    · rcases hmem with ⟨hi, ho⟩ | hr
      · exact ⟨hi, .inl ho⟩
      · exact ⟨hlt index hr, .inr hr⟩
    · rcases hmem with ho | hr
      · exact .inl ⟨hi, ho⟩
      · exact .inr hr
  · exact hscan
  · rename_i hk
    rw [hscan]
    have hall : ∀ r, e₀.owes frame request r index = true := fun r => by simp [owes, hk]
    rw [hall, hall]

theorem length_selection :
    (e.selection (e₀.sendsKeyframe frame request) refinement).2.2.length = e₀.tilesOwed frame request refinement := by
  have hnodup := (selection_spec hq h.toDetected refinement).1.nodup
  unfold tilesOwed
  rw [countP_eq_length_filter]
  refine List.Perm.length_eq ((perm_ext_iff_of_nodup hnodup (nodup_range.filter _)).2 fun index => ?_)
  rw [mem_selection hq h, mem_filter, mem_range]

end

theorem tilesOwed_keyframe (hk : e₀.sendsKeyframe frame request = true) (refinement : Option (Nat × Nat)) :
    e₀.tilesOwed frame request refinement = e₀.tilesOf frame := by
  unfold tilesOwed
  rw [countP_eq_length.2 fun i _ => by simp [owes, hk], length_range]

theorem tilesOwed_le (refinement : Option (Nat × Nat)) : e₀.tilesOwed frame request refinement ≤ e₀.tilesOf frame := by
  exact Nat.le_trans countP_le_length (Nat.le_of_eq length_range)

theorem tilesOwed_mono (refinement : Option (Nat × Nat)) :
    e₀.tilesOwed frame request none ≤ e₀.tilesOwed frame request refinement := by
  refine countP_mono_left fun i _ hi => ?_
  simp only [owes, Option.any_none, Bool.or_false] at hi
  simp only [owes, hi, Bool.true_or]

/-- The cells across a legal dimension do not pass the limit, whatever its last one leaves over. -/
theorem divCeil_mul_le_maxDimension {k w : Nat} (h3 : 3 ≤ k) (h7 : k ≤ 7) (hw : w ≤ maxDimension) :
    divCeil w (1 <<< k) * 1 <<< k ≤ maxDimension := by
  obtain ⟨n, -, htile⟩ := half_maxDimension h3 h7
  generalize 1 <<< k = tile at *
  have ht : 0 < tile := Nat.pos_of_ne_zero fun h0 => by rw [h0] at htile; omega
  have hmax : maxDimension = n * 2 * tile := by
    rw [Nat.mul_right_comm, htile]
    rfl
  rw [hmax] at hw ⊢
  refine Nat.mul_le_mul_right _ (Nat.le_of_lt_succ ((Nat.div_lt_iff_lt_mul ht).2 ?_))
  rw [Nat.succ_mul]
  omega

theorem selectRefinement_ok_iff (hq : QualitiesFit e₀) (h3 : 3 ≤ e₀.tileLog2) (h7 : e₀.tileLog2 ≤ 7)
    (hv : validateDimensions frame.image.width frame.image.height = .ok ()) (h : Scanned e₀ frame request e)
    (refinement : Option (Nat × Nat)) : (∃ plan, (e.selectRefinement refinement).2 = .ok plan) ↔
      TilesFit (e₀.tilesOwed frame request refinement) e₀.tile := by
  obtain ⟨hw, hh, hwm, hhm, -⟩ := validateDimensions_ok hv
  have hlen := length_selection hq h refinement
  have htile := tile_of_model h.model
  have hle : e₀.tilesOwed frame request refinement ≤ e₀.tilesOf frame := tilesOwed_le refinement
  have hlt := h.tiles_lt
  have hkey : e₀.sendsKeyframe frame request = true → e₀.tilesOwed frame request refinement =
      divCeil frame.image.width e₀.tile * divCeil frame.image.height e₀.tile := fun hk => tilesOwed_keyframe hk refinement
  unfold selectRefinement
  rw [h.detected]
  simp only
  generalize e.selection (e₀.sendsKeyframe frame request) refinement = sel at *
  obtain ⟨cursor, bitmap, dirty⟩ := sel
  simp only at hlen ⊢
  rw [if_neg (by omega)]
  rcases Nat.eq_zero_or_pos (e₀.tilesOwed frame request refinement) with hzero | hpos
  · -- nothing to pack
    refine ⟨fun _ => by rw [hzero]; unfold TilesFit; omega, fun _ => ?_⟩
    split
    · exact ⟨_, rfl⟩
    · simp only [planAtlas, hlen, hzero, if_true]
      exact ⟨_, rfl⟩
  · have hplan : (∃ plan, planAtlas (e₀.sendsKeyframe frame request) dirty.length e.grid.1 e.tile = .ok plan) ↔
        TilesFit (e₀.tilesOwed frame request refinement) e₀.tile := by
      rw [hlen, htile, h.grid]
      have ht := tile_pos e₀
      cases hk : e₀.sendsKeyframe frame request with
      | true =>
        rw [hkey hk]
        exact planAtlas_keyframe ht (divCeil_pos hw ht) (divCeil_pos hh ht)
          (divCeil_mul_le_maxDimension h3 h7 hwm) (divCeil_mul_le_maxDimension h3 h7 hhm)
      | false => exact planAtlas_delta h3 h7 hpos
    have hd : 0 < dirty.length := by omega
    rw [← hplan]
    simp only [gt_iff_lt, hd, decide_true, Bool.true_or, Bool.not_true, Bool.false_eq_true, if_false]
    split
    · rename_i error herr
      change planAtlas _ _ _ e.tile = _ at herr
      refine ⟨?_, ?_⟩
      · rintro ⟨_, hok⟩
        cases hok
      · rintro ⟨_, hok⟩
        rw [herr] at hok
        cases hok
    · rename_i columns atlas hok
      exact ⟨fun _ => ⟨_, hok⟩, fun _ => ⟨_, rfl⟩⟩

theorem Scanned.select (hq : QualitiesFit e₀) (hw : 0 < frame.image.width) (hh : 0 < frame.image.height)
    (h : Scanned e₀ frame request e) (refinement : Option (Nat × Nat)) :
    Scanned e₀ frame request (e.selectRefinement refinement).1 := by
  refine ⟨(select_spec hq hw hh h.toDetected refinement).toDetected, ?_⟩
  rw [← h.scanned]
  unfold selectRefinement
  split
  · rfl
  simp only
  split
  · rfl
  split
  · rfl
  split
  · rfl
  · rfl

theorem Scanned.selections (hq : QualitiesFit e₀) (hw : 0 < frame.image.width) (hh : 0 < frame.image.height) :
    ∀ (refinements : List (Option (Nat × Nat))) {e : TileEncoder}, Scanned e₀ frame request e →
      Scanned e₀ frame request (refinements.foldl (fun e refinement => (e.selectRefinement refinement).1) e)
  | [], _, h => h
  | refinement :: refinements, _, h => Scanned.selections hq hw hh refinements (h.select hq hw hh refinement)

/-- A grid of a legal image fits the protocol, so that the detection succeeds. -/
theorem detectTiles_eq_ok (h3 : 3 ≤ e₀.tileLog2) (h7 : e₀.tileLog2 ≤ 7)
    (hsource : validateDimensions frame.sourceWidth frame.sourceHeight = .ok ())
    (hv : validateDimensions frame.image.width frame.image.height = .ok ()) :
    detectTiles e₀.tile frame = .ok (e₀.tilesOf frame) := by
  obtain ⟨-, -, hwm, hhm, -⟩ := validateDimensions_ok hv
  have ht := tile_pos e₀
  have hgw := divCeil_mul_le_maxDimension h3 h7 hwm
  have hgh := divCeil_mul_le_maxDimension h3 h7 hhm
  have hlt : e₀.tilesOf frame < 2 ^ 32 := by
    have hgw' : divCeil frame.image.width e₀.tile ≤ 16384 := Nat.le_trans (Nat.le_mul_of_pos_right _ ht) hgw
    have hgh' : divCeil frame.image.height e₀.tile ≤ 16384 := Nat.le_trans (Nat.le_mul_of_pos_right _ ht) hgh
    exact Nat.lt_of_le_of_lt (Nat.mul_le_mul hgw' hgh') (by decide)
  unfold maxDimension at hwm hhm
  simp only [detectTiles, unit_bind_eq_ok, rejectIf_eq_ok]
  refine ⟨by omega, by omega, hsource, hv, ?_⟩
  exact if_pos hlt

theorem detect_ok_scanned (h : (e₀.detect frame request).2 = .ok ()) :
    Scanned e₀ frame request (e₀.detect frame request).1 := by
  rcases detect_spec e₀ frame request with ⟨error, herr, -⟩ | ⟨-, hdet⟩
  · rw [herr] at h
    cases h
  · refine ⟨hdet, ?_⟩
    unfold detect at h ⊢
    split at h
    · cases h
    · rename_i totalTiles htiles
      rw [(detectTiles_ok htiles).1]
      rfl

theorem detect_scanned (h3 : 3 ≤ e₀.tileLog2) (h7 : e₀.tileLog2 ≤ 7)
    (hsource : validateDimensions frame.sourceWidth frame.sourceHeight = .ok ())
    (hv : validateDimensions frame.image.width frame.image.height = .ok ()) :
    (e₀.detect frame request).2 = .ok () ∧ Scanned e₀ frame request (e₀.detect frame request).1 := by
  have hok : (e₀.detect frame request).2 = .ok () := by
    unfold detect
    rw [detectTiles_eq_ok h3 h7 hsource hv]
  exact ⟨hok, detect_ok_scanned hok⟩

end Selection

/-! ## Streaming -/

/-- The atlas planned, if tiles are, is inside the limits and passes the viewer's checks. -/
def AtlasStreams (e : TileEncoder) : Prop :=
  ∀ p, e.planned = some p → 0 < p.dirtyTiles → ∃ rows,
    p.atlas = some (rows, p.columns * e.tile, rows * e.tile) ∧ p.dirtyTiles ≤ p.columns * rows ∧
    p.columns * e.tile ≤ maxDimension ∧ rows * e.tile ≤ maxDimension ∧
    p.columns * e.tile * (rows * e.tile) ≤ maxPixels ∧
    ∀ header : TileHeader, header.tileLog2 = e.tileLog2 → header.atlasColumns = p.columns →
      header.dirtyTiles = p.dirtyTiles → TileDecoder.atlasSize header = .ok (p.columns * e.tile, rows * e.tile)

/-- A call that plans: it succeeds, what is to be sent is planned, and its atlas can be streamed. -/
def PlanStreams (result : TileEncoder × Except String TilePlan) : Prop :=
  (∃ plan, result.2 = .ok plan ∧ (plan.emit = true → result.1.planned.isSome = true)) ∧ AtlasStreams result.1

def selections (e : TileEncoder) (frame : CapturedFrame) (request : TileEncodeRequest)
    (refinements : List (Option (Nat × Nat))) : TileEncoder :=
  refinements.foldl (fun e refinement => (e.selectRefinement refinement).1) (e.plan frame request).1

/-- The frame can be streamed: its plan, and any further selection. -/
structure Streams (e : TileEncoder) (frame : CapturedFrame) (request : TileEncodeRequest)
    (earlier : List (Option (Nat × Nat))) (refinement : Option (Nat × Nat)) : Prop where
  plan : PlanStreams (e.plan frame request)
  select : PlanStreams ((e.selections frame request earlier).selectRefinement refinement)

theorem selectRefinement_emit (e : TileEncoder) (refinement : Option (Nat × Nat)) : ∀ plan,
    (e.selectRefinement refinement).2 = .ok plan → plan.emit = true →
      (e.selectRefinement refinement).1.planned.isSome = true := by
  intro plan
  unfold selectRefinement
  split
  · rintro ⟨⟩
  simp only
  split
  · rintro ⟨⟩
  split
  · rename_i hno
    intro h hemit
    obtain rfl := Except.ok.inj h
    exact absurd hemit (by simpa using hno)
  split
  · rintro ⟨⟩
  · exact fun _ _ => rfl

section Streams

variable {e₀ e : TileEncoder} {frame : CapturedFrame} {request : TileEncodeRequest}

theorem atlasStreams_of_selected (h : Selected e₀ frame request e) : AtlasStreams e := by
  intro p hp hpos
  have hfits := h.planned p hp
  have htile := tile_of_model h.model
  have hlog2 := log2_of_model h.model
  rw [hfits.dirtyTiles] at hpos
  obtain ⟨hatlas, hv⟩ := hfits.atlas.size hpos
  obtain ⟨-, -, hw, hh, harea⟩ := validateDimensions_ok hv
  have hcols := hfits.atlas.columns_pos hpos
  have hle := hfits.atlas.columns_le
  rw [htile, hfits.dirtyTiles]
  refine ⟨divCeil e.dirty.length p.columns, hatlas, le_mul_divCeil hcols, hw, hh, harea, fun header hk hc hd => ?_⟩
  have htile' : 1 <<< header.tileLog2 = e₀.tile := by
    rw [hk, hlog2]
    rfl
  unfold maxDimension at hw hh
  unfold TileDecoder.atlasSize
  simp only [hc, hd, htile']
  refine unit_bind_eq_ok.2 ⟨rejectIf_eq_ok.2 (by omega), unit_bind_eq_ok.2 ⟨rejectIf_eq_ok.2 (by omega), ?_⟩⟩
  exact unit_bind_eq_ok.2 ⟨rejectIf_eq_ok.2 (by omega), unit_bind_eq_ok.2 ⟨rejectIf_eq_ok.2 (by omega),
    unit_bind_eq_ok.2 ⟨hv, rfl⟩⟩⟩

theorem planStreams_iff (hq : QualitiesFit e₀) (h3 : 3 ≤ e₀.tileLog2) (h7 : e₀.tileLog2 ≤ 7)
    (hv : validateDimensions frame.image.width frame.image.height = .ok ()) (h : Scanned e₀ frame request e)
    (refinement : Option (Nat × Nat)) : PlanStreams (e.selectRefinement refinement) ↔
      TilesFit (e₀.tilesOwed frame request refinement) e₀.tile := by
  obtain ⟨hw, hh, -⟩ := validateDimensions_ok hv
  rw [← selectRefinement_ok_iff hq h3 h7 hv h refinement]
  refine ⟨fun ⟨⟨plan, hok, _⟩, _⟩ => ⟨plan, hok⟩, fun ⟨plan, hok⟩ => ?_⟩
  exact ⟨⟨plan, hok, selectRefinement_emit _ _ plan hok⟩, atlasStreams_of_selected (select_spec hq hw hh h.toDetected refinement)⟩

theorem plan_eq_select (hok : (e₀.detect frame request).2 = .ok ()) :
    e₀.plan frame request = (e₀.detect frame request).1.selectRefinement none := by
  unfold plan
  generalize e₀.detect frame request = r at *
  obtain ⟨e, res⟩ := r
  simp only at hok
  rw [hok]

theorem streams_iff_fit {capture : Option CapturedFrame} (hs : EncoderHost.Sound ⟨e₀, capture⟩)
    (hsource : validateDimensions frame.sourceWidth frame.sourceHeight = .ok ())
    (hv : validateDimensions frame.image.width frame.image.height = .ok ())
    (earlier : List (Option (Nat × Nat))) (refinement : Option (Nat × Nat)) :
    Streams e₀ frame request earlier refinement ↔ TilesFit (e₀.tilesOwed frame request refinement) e₀.tile := by
  obtain ⟨h3, h7⟩ := hs.log2
  obtain ⟨hw, hh, -⟩ := validateDimensions_ok hv
  obtain ⟨hok, hscan⟩ := @detect_scanned e₀ frame request h3 h7 hsource hv
  have hplan := plan_eq_select hok
  have hafter : Scanned e₀ frame request (e₀.selections frame request earlier) := by
    unfold selections
    rw [hplan]
    exact Scanned.selections hs.qualities hw hh earlier (hscan.select hs.qualities hw hh none)
  have hselect := planStreams_iff hs.qualities h3 h7 hv hafter refinement
  refine ⟨fun h => hselect.1 h.select, fun h => ⟨?_, hselect.2 h⟩⟩
  rw [hplan, planStreams_iff hs.qualities h3 h7 hv hscan none]
  exact Nat.le_trans (Nat.mul_le_mul_right _ (tilesOwed_mono refinement)) h

end Streams

/-- In every state of the encoder, a frame with legal dimensions is streamed exactly when the whole
tiles it owes the viewer hold no more pixels than a frame may. -/
theorem streams_iff (coder : AtlasCoder) (tileLog2 tolerance : Nat) (calls : List EncoderCall) (frame : CapturedFrame)
    (request : TileEncodeRequest) (earlier : List (Option (Nat × Nat))) (refinement : Option (Nat × Nat))
    (hsource : validateDimensions frame.sourceWidth frame.sourceHeight = .ok ())
    (hv : validateDimensions frame.image.width frame.image.height = .ok ()) :
    Streams (EncoderHost.reached coder tileLog2 tolerance calls) frame request earlier refinement ↔
      TilesFit ((EncoderHost.reached coder tileLog2 tolerance calls).tilesOwed frame request refinement)
        (EncoderHost.reached coder tileLog2 tolerance calls).tile :=
  streams_iff_fit (EncoderHost.calls_sound coder calls (EncoderHost.new_sound tileLog2 tolerance)) hsource hv earlier
    refinement

theorem streams_iff_pixel : Streams (EncoderHost.reached rawCoder 4 4
    [.plan (greyPixel 100) .delta, .encode 1 85, .commit]) (greyPixel 120) .delta [none] (some (90, 1)) :=
  (streams_iff rawCoder 4 4 _ (greyPixel 120) .delta [none] (some (90, 1)) rfl rfl).2 (by decide +kernel)

theorem firstEpoch_lt : 1 < 2 ^ 64 := by decide

/-- A screen of just under 64 megapixels whose width leaves half a tile over. -/
def wideScreen : CapturedFrame where
  geometryEpoch := 1
  image := RgbImage.new 8200 8184
  sourceWidth := 8200
  sourceHeight := 8184
  epoch_lt := firstEpoch_lt
  sourceWidth_lt := by decide
  sourceHeight_lt := by decide

/-- A new encoder cannot plan the screen, although its dimensions are legal. -/
theorem wideScreen_fails : validateDimensions wideScreen.sourceWidth wideScreen.sourceHeight = .ok () ∧
    validateDimensions wideScreen.image.width wideScreen.image.height = .ok () ∧
    ¬ (∃ plan, (new.plan wideScreen .delta).2 = .ok plan) ∧ ¬ Streams new wideScreen .delta [] none := by
  have hv : validateDimensions 8200 8184 = .ok () := by decide
  have hs := EncoderHost.new_sound 4 4
  obtain ⟨hok, hscan⟩ := @detect_scanned new wideScreen .delta (by decide) (by decide) hv hv
  have howed : new.tilesOwed wideScreen .delta none = 513 * 512 := tilesOwed_keyframe rfl none
  have hfit : ¬ TilesFit (new.tilesOwed wideScreen .delta none) new.tile := by
    rw [howed]
    decide
  refine ⟨hv, hv, fun h => hfit ?_, fun h => hfit ((streams_iff_fit hs hv hv [] none).1 h)⟩
  rw [plan_eq_select hok] at h
  exact (selectRefinement_ok_iff hs.qualities (by decide) (by decide) hv hscan none).1 h

end Jwm.Remote.TileEncoder
