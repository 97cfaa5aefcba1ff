/-
Damage over whole runs: every pixel marked since the last clear lies in a tracked region, the regions stay few and on the screen, and
the cached union is the bounding box of the regions.
-/
import Jwm.Compositor.DirtyRegion
import Jwm.Data.Run

namespace Jwm.Compositor

open DirtyRect (OnScreen Within)
open List DirtyRect

/-! ## Lists of regions -/

/-- A region of a screen of this size, of positive size unless the screen is empty. -/
structure Fine (w h : Nat) (r : DirtyRect) : Prop where
  onScreen : r.OnScreen w h
  pos : 0 < w → 0 < h → 0 < r.width ∧ 0 < r.height

/-- Every rectangle of the one list lies within one of the other. -/
def Covers (regions regions' : List DirtyRect) : Prop := ∀ r ∈ regions, ∃ r' ∈ regions', r.Within r'

/-- The least rectangle around the regions: it contains them all, and each of its edges is an edge of one. -/
structure BoundingBox (regions : List DirtyRect) (b : DirtyRect) : Prop where
  contains : ∀ r ∈ regions, r.Within b
  left : ∃ r ∈ regions, r.x = b.x
  top : ∃ r ∈ regions, r.y = b.y
  right : ∃ r ∈ regions, r.x + r.width = b.x + b.width
  bottom : ∃ r ∈ regions, r.y + r.height = b.y + b.height

section

variable {w h : Nat} {r r' b : DirtyRect} {l l' l'' : List DirtyRect}

section

variable (hw : w ≤ 32767) (hh : h ≤ 32767) (hr : Fine w h r) (hr' : Fine w h r')
include hw hh hr hr'

theorem within_union_left : r.Within (r.union r') := by
  obtain ⟨hx, hy, hright, hbottom⟩ := union_edges hw hh hr.onScreen hr'.onScreen
  constructor <;> omega

theorem within_union_right : r'.Within (r.union r') := by
  obtain ⟨hx, hy, hright, hbottom⟩ := union_edges hw hh hr.onScreen hr'.onScreen
  constructor <;> omega

theorem fine_union : Fine w h (r.union r') := by
  obtain ⟨hx, hy, hright, hbottom⟩ := union_edges hw hh hr.onScreen hr'.onScreen
  obtain ⟨h1, h2, h3, h4⟩ := hr.onScreen
  obtain ⟨h1', h2', h3', h4'⟩ := hr'.onScreen
  constructor
  · refine ⟨?_, ?_, ?_, ?_⟩ <;> omega
  · intro hwpos hhpos
    have hpos := hr.pos hwpos hhpos
    omega

end

theorem Covers.refl (l : List DirtyRect) : Covers l l := fun r hr => ⟨r, hr, Within.refl r⟩

theorem Covers.trans (h : Covers l l') (h' : Covers l' l'') : Covers l l'' := by
  intro r hr
  obtain ⟨r', hr', hwithin⟩ := h r hr
  obtain ⟨r'', hr'', hwithin'⟩ := h' r' hr'
  exact ⟨r'', hr'', hwithin.trans hwithin'⟩

theorem covers_cons : Covers (r :: l) l' ↔ (∃ r' ∈ l', r.Within r') ∧ Covers l l' := forall_mem_cons

theorem Covers.cons (h : Covers l l') : Covers (r :: l) (r :: l') := by
  rw [covers_cons]
  constructor
  · exact ⟨r, mem_cons_self, Within.refl r⟩
  · intro s hs
    obtain ⟨s', hs', hwithin⟩ := h s hs
    exact ⟨s', mem_cons_of_mem _ hs', hwithin⟩

theorem boundingBox_singleton (r : DirtyRect) : BoundingBox [r] r := by
  constructor
  · intro s hs
    exact mem_singleton.1 hs ▸ Within.refl r
  all_goals exact ⟨r, mem_singleton.2 rfl, rfl⟩

/-- Each edge of a union is an edge of one of the two, so that it is still one of a region. -/
theorem BoundingBox.append_singleton (hw : w ≤ 32767) (hh : h ≤ 32767) (hb : BoundingBox l b) (hfine : Fine w h b)
    (hr : Fine w h r) : BoundingBox (l ++ [r]) (b.union r) := by
  obtain ⟨hx, hy, hright, hbottom⟩ := union_edges hw hh hfine.onScreen hr.onScreen
  have hnew : r ∈ l ++ [r] := mem_append_right _ (mem_singleton.2 rfl)
  constructor
  · intro s hs
    rcases mem_append.1 hs with hs | hs
    · exact (hb.contains s hs).trans (within_union_left hw hh hfine hr)
    · rw [mem_singleton.1 hs]
      exact within_union_right hw hh hfine hr
  · obtain ⟨s, hs, heq⟩ := hb.left
    by_cases hmin : b.x ≤ r.x
    · exact ⟨s, mem_append_left _ hs, by omega⟩
    · exact ⟨r, hnew, by omega⟩
  · obtain ⟨s, hs, heq⟩ := hb.top
    by_cases hmin : b.y ≤ r.y
    · exact ⟨s, mem_append_left _ hs, by omega⟩
    · exact ⟨r, hnew, by omega⟩
  · obtain ⟨s, hs, heq⟩ := hb.right
    by_cases hmax : r.x + r.width ≤ b.x + b.width
    · exact ⟨s, mem_append_left _ hs, by omega⟩
    · exact ⟨r, hnew, by omega⟩
  · obtain ⟨s, hs, heq⟩ := hb.bottom
    by_cases hmax : r.y + r.height ≤ b.y + b.height
    · exact ⟨s, mem_append_left _ hs, by omega⟩
    · exact ⟨r, hnew, by omega⟩

theorem foldl_union_spec (hw : w ≤ 32767) (hh : h ≤ 32767) : ∀ {rest done : List DirtyRect} {b : DirtyRect}, BoundingBox done b →
    Fine w h b → (∀ r ∈ rest, Fine w h r) →
    BoundingBox (done ++ rest) (rest.foldl union b) ∧ Fine w h (rest.foldl union b)
  | [], done, b, hb, hfine, _ => by
    rw [append_nil]
    exact ⟨hb, hfine⟩
  | r :: rest, done, b, hb, hfine, hrest => by
    obtain ⟨hr, hrest⟩ := forall_mem_cons.1 hrest
    rw [append_cons]
    exact foldl_union_spec hw hh (hb.append_singleton hw hh hfine hr) (fine_union hw hh hfine hr) hrest

end

/-! ## One call -/

namespace DirtyRegionTracker

section

variable {w h : Nat} {current clamped rect : DirtyRect} {rest : List DirtyRect} {t : DirtyRegionTracker}

theorem mergeAdjacent_spec (hw : w ≤ 32767) (hh : h ≤ 32767) : ∀ {rest : List DirtyRect} {current : DirtyRect} {count : Nat},
    Fine w h current → (∀ r ∈ rest, Fine w h r) →
    (∀ r ∈ (mergeAdjacent current rest count).1, Fine w h r) ∧ Covers (current :: rest) (mergeAdjacent current rest count).1 ∧
      (mergeAdjacent current rest count).1 ≠ []
  | [], current, count, hcurrent, _ => by
    refine ⟨?_, Covers.refl _, cons_ne_nil _ _⟩
    intro r hr
    exact mem_singleton.1 hr ▸ hcurrent
  | next :: rest, current, count, hcurrent, hrest => by
    obtain ⟨hnext, hrest⟩ := forall_mem_cons.1 hrest
    rw [mergeAdjacent]
    split
    · obtain ⟨hfine, hcovers, hne⟩ :=
        @mergeAdjacent_spec hw hh rest _ (saturatingAddU64 count 1) (fine_union hw hh hcurrent hnext) hrest
      obtain ⟨⟨u, hu, hwithin⟩, hcovers⟩ := covers_cons.1 hcovers
      refine ⟨hfine, ?_, hne⟩
      rw [covers_cons, covers_cons]
      exact ⟨⟨u, hu, (within_union_left hw hh hcurrent hnext).trans hwithin⟩,
        ⟨u, hu, (within_union_right hw hh hcurrent hnext).trans hwithin⟩, hcovers⟩
    · obtain ⟨hfine, hcovers, -⟩ := @mergeAdjacent_spec hw hh rest next count hnext hrest
      exact ⟨forall_mem_cons.2 ⟨hcurrent, hfine⟩, hcovers.cons, cons_ne_nil _ _⟩

/-- What a call leaves of the regions: as fine as before, with all of them still covered, on the same screen. -/
structure Keeps (t t' : DirtyRegionTracker) : Prop where
  screenW : t'.screenW = t.screenW
  screenH : t'.screenH = t.screenH
  maxRegions : t'.maxRegions = t.maxRegions
  fine : (∀ r ∈ t.regions, Fine t.screenW t.screenH r) → ∀ r ∈ t'.regions, Fine t.screenW t.screenH r
  covers : (∀ r ∈ t.regions, Fine t.screenW t.screenH r) → Covers t.regions t'.regions

theorem mergeRegions_keeps (hw : t.screenW ≤ 32767) (hh : t.screenH ≤ 32767) : t.Keeps t.mergeRegions := by
  unfold mergeRegions
  split
  · rename_i first second rest heq
    have hspec : (∀ r ∈ t.regions, Fine t.screenW t.screenH r) → _ := fun hfine =>
      @mergeAdjacent_spec _ _ hw hh (second :: rest) first t.mergeCount (hfine first (heq ▸ mem_cons_self))
        fun r hr => hfine r (heq ▸ mem_cons_of_mem _ hr)
    generalize mergeAdjacent first (second :: rest) t.mergeCount = merged at hspec
    dsimp only
    split
    · constructor
      · rfl
      · rfl
      · rfl
      · intro hfine
        obtain ⟨hmerged, -, hne⟩ := hspec hfine
        obtain ⟨head, tail, hcons⟩ := exists_cons_of_ne_nil hne
        rw [hcons] at hmerged ⊢
        obtain ⟨hhead, htail⟩ := forall_mem_cons.1 hmerged
        intro r hr
        rw [mem_singleton.1 hr]
        exact (foldl_union_spec hw hh (boundingBox_singleton head) hhead htail).2
      · intro hfine
        obtain ⟨hmerged, hcovers, hne⟩ := hspec hfine
        obtain ⟨head, tail, hcons⟩ := exists_cons_of_ne_nil hne
        rw [hcons] at hmerged hcovers ⊢
        obtain ⟨hhead, htail⟩ := forall_mem_cons.1 hmerged
        rw [heq]
        refine hcovers.trans fun r hr => ⟨_, mem_singleton.2 rfl, ?_⟩
        exact (foldl_union_spec hw hh (boundingBox_singleton head) hhead htail).1.contains r hr
    · constructor
      · rfl
      · rfl
      · rfl
      · exact fun hfine => (hspec hfine).1
      · exact fun hfine => heq ▸ (hspec hfine).2.1
  · exact ⟨rfl, rfl, rfl, fun hfine => hfine, fun _ => Covers.refl _⟩

/-- The bounding box is the last resort that keeps the number of regions down. -/
theorem length_mergeRegions (hmax : 1 ≤ t.maxRegions) : t.mergeRegions.regions.length ≤ max 1 t.maxRegions := by
  unfold mergeRegions
  split
  · dsimp only
    split <;> simp only [length_singleton] <;> omega
  · rename_i hshort
    rcases hregions : t.regions with _ | ⟨first, _ | ⟨second, rest⟩⟩
    · exact Nat.zero_le _
    · exact Nat.le_max_left 1 _
    · exact absurd hregions (hshort first second rest)

theorem mem_modify {α : Type} {f : α → α} {a : α} : ∀ {l : List α} {i : Nat}, a ∈ l.modify i f → a ∈ l ∨ ∃ b ∈ l, a = f b
  | [], i, h => .inl (modify_nil f i ▸ h)
  | b :: l, 0, h => by
    rw [modify_zero_cons] at h
    rcases mem_cons.1 h with rfl | h
    · exact .inr ⟨b, mem_cons_self, rfl⟩
    · exact .inl (mem_cons_of_mem _ h)
  | b :: l, i + 1, h => by
    rw [modify_succ_cons] at h
    rcases mem_cons.1 h with rfl | h
    · exact .inl mem_cons_self
    · rcases mem_modify h with h | ⟨c, hc, rfl⟩
      · exact .inl (mem_cons_of_mem _ h)
      · exact .inr ⟨c, mem_cons_of_mem _ hc, rfl⟩

theorem covers_modify {f : DirtyRect → DirtyRect} : ∀ {l : List DirtyRect} {i : Nat}, (∀ r ∈ l, r.Within (f r)) → Covers l (l.modify i f)
  | [], i, _ => fun r hr => absurd hr not_mem_nil
  | b :: l, 0, h => by
    rw [modify_zero_cons, covers_cons]
    constructor
    · exact ⟨f b, mem_cons_self, h b mem_cons_self⟩
    · exact fun r hr => ⟨r, mem_cons_of_mem _ hr, Within.refl r⟩
  | b :: l, i + 1, h => by
    rw [modify_succ_cons]
    exact (covers_modify fun r hr => h r (mem_cons_of_mem _ hr)).cons

theorem exists_mem_modify {α : Type} {f : α → α} : ∀ {l : List α} {i : Nat}, i < l.length → ∃ b ∈ l, f b ∈ l.modify i f
  | b :: l, 0, _ => ⟨b, mem_cons_self, by rw [modify_zero_cons]; exact mem_cons_self⟩
  | b :: l, i + 1, h => by
    obtain ⟨c, hc, hmem⟩ := @exists_mem_modify α f l i (Nat.lt_of_succ_lt_succ h)
    rw [modify_succ_cons]
    exact ⟨c, mem_cons_of_mem _ hc, mem_cons_of_mem _ hmem⟩

section

variable (hw : t.screenW ≤ 32767) (hh : t.screenH ≤ 32767) (hclamped : Fine t.screenW t.screenH clamped)
include hw hh hclamped

theorem insert_keeps : t.Keeps (t.insert clamped) := by
  unfold insert
  split
  · constructor
    · rfl
    · rfl
    · rfl
    · intro hfine r hr
      rcases mem_modify hr with hr | ⟨b, hb, rfl⟩
      · exact hfine r hr
      · exact fine_union hw hh (hfine b hb) hclamped
    · intro hfine
      exact covers_modify fun r hr => within_union_left hw hh (hfine r hr) hclamped
  · constructor
    · rfl
    · rfl
    · rfl
    · intro hfine r hr
      rcases mem_append.1 hr with hr | hr
      · exact hfine r hr
      · exact mem_singleton.1 hr ▸ hclamped
    · exact fun _ r hr => ⟨r, mem_append_left _ hr, Within.refl r⟩

theorem insert_covers (hfine : ∀ r ∈ t.regions, Fine t.screenW t.screenH r) : ∃ r ∈ (t.insert clamped).regions, clamped.Within r := by
  unfold insert
  split
  · rename_i idx hidx
    obtain ⟨b, hb, hmem⟩ := exists_mem_modify (f := fun existing => union existing clamped)
      (findIdx?_eq_some_iff_getElem.1 hidx).1
    exact ⟨_, hmem, within_union_right hw hh (hfine b hb) hclamped⟩
  · exact ⟨clamped, mem_append_right _ (mem_singleton.2 rfl), Within.refl clamped⟩

end

theorem length_insert (t : DirtyRegionTracker) (clamped : DirtyRect) : (t.insert clamped).regions.length ≤ t.regions.length + 1 := by
  unfold insert
  split <;> simp

theorem clip_spec (hw : t.screenW ≤ 32767) (hh : t.screenH ≤ 32767) (hrect : rect.EdgesFit) :
    (∀ clamped, t.clip rect = some clamped → Fine t.screenW t.screenH clamped) ∧
    ∀ px py, rect.Has px py → 0 ≤ px → px < t.screenW → 0 ≤ py → py < t.screenH →
      ∃ clamped, t.clip rect = some clamped ∧ clamped.Has px py := by
  have hl := hrect.left
  have hr := hrect.right
  have ht := hrect.top
  have hb := hrect.bottom
  unfold clip
  rw [hrect.right_eq, hrect.bottom_eq, wrapI32_eq (n := (t.screenW : Int)) (by omega) (by omega),
    wrapI32_eq (n := (t.screenH : Int)) (by omega) (by omega)]
  by_cases hempty : min (rect.x + rect.width) (t.screenW : Int) ≤ max rect.x 0 ∨
      min (rect.y + rect.height) (t.screenH : Int) ≤ max rect.y 0
  · rw [if_pos hempty]
    constructor
    · intro clamped hclamped
      cases hclamped
    · rintro px py ⟨h1, h2, h3, h4⟩ h5 h6 h7 h8
      omega
  · rw [if_neg hempty]
    have hwidth : (asU32 (wrapI32 (min (rect.x + rect.width) (t.screenW : Int) - max rect.x 0)) : Int) =
        min (rect.x + rect.width) (t.screenW : Int) - max rect.x 0 := by
      rw [wrapI32_eq (by omega) (by omega)]
      exact asU32_eq (by omega) (by omega)
    have hheight : (asU32 (wrapI32 (min (rect.y + rect.height) (t.screenH : Int) - max rect.y 0)) : Int) =
        min (rect.y + rect.height) (t.screenH : Int) - max rect.y 0 := by
      rw [wrapI32_eq (by omega) (by omega)]
      exact asU32_eq (by omega) (by omega)
    constructor
    · intro clamped hclamped
      cases hclamped
      constructor
      · refine ⟨?_, ?_, ?_, ?_⟩ <;> dsimp only <;> omega
      · intro _ _
        dsimp only
        omega
    · rintro px py ⟨h1, h2, h3, h4⟩ h5 h6 h7 h8
      refine ⟨_, rfl, ?_, ?_, ?_, ?_⟩ <;> dsimp only <;> omega

/-! ## The tracker between two calls -/

def Shows (t : DirtyRegionTracker) (px py : Int) : Prop := 0 ≤ px ∧ px < t.screenW ∧ 0 ≤ py ∧ py < t.screenH

structure Tracked (t : DirtyRegionTracker) : Prop where
  screenW : t.screenW ≤ 32767
  screenH : t.screenH ≤ 32767
  maxRegions : t.maxRegions = 16
  bounded : t.regions.length ≤ 16
  fine : ∀ r ∈ t.regions, Fine t.screenW t.screenH r
  cached : ∀ b, t.mergedRegion = some b → BoundingBox t.regions b

theorem withThresholds_tracked {minArea : Nat} {mergeDistance : Int} (hw : w ≤ 32767) (hh : h ≤ 32767) :
    (withThresholds w h minArea mergeDistance).Tracked where
  screenW := hw
  screenH := hh
  maxRegions := rfl
  bounded := Nat.zero_le _
  fine r hr := absurd hr not_mem_nil
  cached b hb := by cases hb

theorem fullScreen_fine (t : DirtyRegionTracker) : Fine t.screenW t.screenH t.fullScreen := by
  constructor
  · refine ⟨?_, ?_, ?_, ?_⟩ <;> simp [fullScreen]
  · exact fun hw hh => ⟨hw, hh⟩

theorem markAllDirty_tracked (hw : t.screenW ≤ 32767) (hh : t.screenH ≤ 32767) (hmax : t.maxRegions = 16) : t.markAllDirty.Tracked where
  screenW := hw
  screenH := hh
  maxRegions := hmax
  bounded := by simp [markAllDirty]
  fine r hr := by
    rw [mem_singleton.1 hr]
    exact t.fullScreen_fine
  cached b hb := by
    cases hb
    exact boundingBox_singleton t.fullScreen

theorem clear_tracked (ht : t.Tracked) : t.clear.Tracked where
  screenW := ht.screenW
  screenH := ht.screenH
  maxRegions := ht.maxRegions
  bounded := Nat.zero_le _
  fine r hr := absurd hr not_mem_nil
  cached b hb := by cases hb

/-- What `merged` answers, from the cache or from the regions. -/
theorem merged_spec (ht : t.Tracked) : (∀ b, t.merged.2 = some b → BoundingBox t.regions b) ∧ (t.merged.2 = none ↔ t.regions = []) := by
  unfold merged
  split
  · rename_i cached hcached
    have hbox := ht.cached cached hcached
    constructor
    · rintro b ⟨⟩
      exact hbox
    · obtain ⟨r, hr, -⟩ := hbox.left
      exact iff_of_false (Option.some_ne_none _) (ne_nil_of_mem hr)
  · split
    · rename_i heq
      constructor
      · intro b hb
        cases hb
      · exact iff_of_true rfl heq
    · rename_i first rest heq
      have hfine := ht.fine
      rw [heq] at hfine ⊢
      obtain ⟨hfirst, hrest⟩ := forall_mem_cons.1 hfine
      constructor
      · rintro b ⟨⟩
        exact (foldl_union_spec ht.screenW ht.screenH (boundingBox_singleton first) hfirst hrest).1
      · exact iff_of_false (Option.some_ne_none _) (cons_ne_nil _ _)

theorem merged_fst (t : DirtyRegionTracker) : t.merged.1 = { t with mergedRegion := t.merged.2 } := by
  unfold merged
  split
  · rename_i heq
    rw [← heq]
  · split
    · rename_i heq _ _
      rw [← heq]
    · rfl

theorem merged_tracked (ht : t.Tracked) : t.merged.1.Tracked := by
  rw [merged_fst]
  exact { ht with cached := fun b hb => (merged_spec ht).1 b hb }

/-- A mark loses nothing that was tracked and covers what of the rectangle is on the screen. -/
theorem markDirty_spec (ht : t.Tracked) (hrect : rect.EdgesFit) :
    (t.markDirty rect).Tracked ∧ t.Keeps (t.markDirty rect) ∧ (t.minRectArea ≤ rect.area →
      ∀ px py, rect.Has px py → t.Shows px py → ∃ r ∈ (t.markDirty rect).regions, r.Has px py) := by
  obtain ⟨hfineClip, hclip⟩ := clip_spec ht.screenW ht.screenH hrect
  have hsame : t.Keeps t := ⟨rfl, rfl, rfl, fun hfine => hfine, fun _ => Covers.refl _⟩
  unfold markDirty
  by_cases hsmall : rect.area < t.minRectArea
  · rw [if_pos hsmall]
    exact ⟨ht, hsame, fun hle => absurd hle (Nat.not_le_of_lt hsmall)⟩
  rw [if_neg hsmall]
  cases hclamped : t.clip rect with
  | none =>
    refine ⟨ht, hsame, ?_⟩
    rintro - px py hhas ⟨h1, h2, h3, h4⟩
    obtain ⟨clamped, hsome, -⟩ := hclip px py hhas h1 h2 h3 h4
    rw [hclamped] at hsome
    cases hsome
  | some clamped =>
    have hfine := hfineClip clamped hclamped
    have hinsert := insert_keeps ht.screenW ht.screenH hfine
    have hlen := length_insert t clamped
    obtain ⟨cover, hcover, hwithin⟩ := insert_covers ht.screenW ht.screenH hfine ht.fine
    dsimp only
    generalize t.insert clamped = inserted at *
    have hfineInserted : ∀ r ∈ inserted.regions, Fine inserted.screenW inserted.screenH r := by
      rw [hinsert.screenW, hinsert.screenH]
      exact hinsert.fine ht.fine
    -- one region too many is merged away, and what `insert` covered stays covered
    have hmerge : inserted.Keeps (if inserted.regions.length > inserted.maxRegions then inserted.mergeRegions else inserted) ∧
        (if inserted.regions.length > inserted.maxRegions then inserted.mergeRegions else inserted).regions.length ≤ 16 := by
      have hmax : inserted.maxRegions = 16 := hinsert.maxRegions.trans ht.maxRegions
      split
      · refine ⟨mergeRegions_keeps (hinsert.screenW ▸ ht.screenW) (hinsert.screenH ▸ ht.screenH), ?_⟩
        exact Nat.le_trans (length_mergeRegions (by omega)) (by omega)
      · exact ⟨⟨rfl, rfl, rfl, fun hfine => hfine, fun _ => Covers.refl _⟩, by omega⟩
    generalize (if inserted.regions.length > inserted.maxRegions then inserted.mergeRegions else inserted) = merged at hmerge
    obtain ⟨hmerged, hmergedLen⟩ := hmerge
    have hmergedFine := hmerged.fine hfineInserted
    have hmergedCovers := hmerged.covers hfineInserted
    rw [hinsert.screenW, hinsert.screenH] at hmergedFine
    have hkeeps : t.Keeps { merged with mergedRegion := none } :=
      { screenW := hmerged.screenW.trans hinsert.screenW
        screenH := hmerged.screenH.trans hinsert.screenH
        maxRegions := hmerged.maxRegions.trans hinsert.maxRegions
        fine := fun _ => hmergedFine
        covers := fun _ => (hinsert.covers ht.fine).trans hmergedCovers }
    refine ⟨?_, hkeeps, ?_⟩
    · constructor
      · exact hkeeps.screenW ▸ ht.screenW
      · exact hkeeps.screenH ▸ ht.screenH
      · exact hkeeps.maxRegions.trans ht.maxRegions
      · exact hmergedLen
      · rw [hkeeps.screenW, hkeeps.screenH]
        exact hmergedFine
      · intro b hb
        cases hb
    · rintro - px py hhas ⟨h1, h2, h3, h4⟩
      obtain ⟨clamped', hsome, hhas'⟩ := hclip px py hhas h1 h2 h3 h4
      rw [hclamped] at hsome
      cases hsome
      obtain ⟨r, hr, hwithin'⟩ := hmergedCovers cover hcover
      exact ⟨r, hr, hwithin'.has (hwithin.has hhas')⟩

end

end DirtyRegionTracker

/-! ## Runs -/

inductive DamageCall where
  | markDirty (rect : DirtyRect)
  | markAllDirty
  | merged
  | resize (newW newH : Nat)
  | clear

/-- Rectangles have `i32` edges, screens at most the size of an X screen. -/
def DamageCall.Valid : DamageCall → Prop
  | .markDirty rect => rect.EdgesFit
  | .resize newW newH => newW ≤ 32767 ∧ newH ≤ 32767
  | _ => True

/-- The tracker and the rectangles marked since the last clear. -/
structure DamageState where
  tracker : DirtyRegionTracker
  marks : List DirtyRect

/-- A call, and what `merged` answers; a rectangle below the least area is noise and no mark. -/
def DamageState.step (s : DamageState) : DamageCall → DamageState × Option DirtyRect
  | .markDirty rect =>
    (⟨s.tracker.markDirty rect, if rect.area < s.tracker.minRectArea then s.marks else rect :: s.marks⟩, none)
  | .markAllDirty => (⟨s.tracker.markAllDirty, s.tracker.fullScreen :: s.marks⟩, none)
  | .merged => (⟨s.tracker.merged.1, s.marks⟩, s.tracker.merged.2)
  | .resize newW newH => (⟨s.tracker.resize newW newH, ⟨0, 0, newW, newH⟩ :: s.marks⟩, none)
  | .clear => (⟨s.tracker.clear, []⟩, none)

def DamageState.start (screenW screenH minArea : Nat) (mergeDistance : Int) : DamageState :=
  ⟨.withThresholds screenW screenH minArea mergeDistance, []⟩

/-- The tracker keeps its invariant, and every marked pixel on the screen is in a region. -/
structure DamageState.Good (s : DamageState) : Prop where
  tracked : s.tracker.Tracked
  covered : ∀ m ∈ s.marks, ∀ px py, m.Has px py → s.tracker.Shows px py → ∃ r ∈ s.tracker.regions, r.Has px py

namespace DamageState

variable {s : DamageState}

open DirtyRegionTracker

theorem markAllDirty_good {t : DirtyRegionTracker} (marks : List DirtyRect) (ht : t.markAllDirty.Tracked) :
    Good ⟨t.markAllDirty, marks⟩ where
  tracked := ht
  covered m _ px py _ hshows := by
    refine ⟨t.fullScreen, mem_singleton.2 rfl, ?_⟩
    obtain ⟨h1, h2, h3, h4⟩ := hshows
    refine ⟨h1, ?_, h3, ?_⟩
    · rw [fullScreen, Int.zero_add]
      exact h2
    · rw [fullScreen, Int.zero_add]
      exact h4

theorem step_good (hs : s.Good) {call : DamageCall} (hcall : call.Valid) : (s.step call).1.Good := by
  cases call with
  | markDirty rect =>
    obtain ⟨htracked, hkeeps, hnew⟩ := markDirty_spec hs.tracked hcall
    refine ⟨htracked, ?_⟩
    intro m hm px py hhas hshows
    rw [DirtyRegionTracker.Shows, step, hkeeps.screenW, hkeeps.screenH] at hshows
    have hold : m ∈ s.marks → ∃ r ∈ (s.tracker.markDirty rect).regions, r.Has px py := by
      intro hm
      obtain ⟨r, hr, hhas'⟩ := hs.covered m hm px py hhas hshows
      obtain ⟨r', hr', hwithin⟩ := hkeeps.covers hs.tracked.fine r hr
      exact ⟨r', hr', hwithin.has hhas'⟩
    by_cases hsmall : rect.area < s.tracker.minRectArea
    · rw [step, if_pos hsmall] at hm
      exact hold hm
    · rw [step, if_neg hsmall] at hm
      rcases mem_cons.1 hm with rfl | hm
      · exact hnew (Nat.le_of_not_lt hsmall) px py hhas hshows
      · exact hold hm
  | markAllDirty =>
    exact markAllDirty_good _ (markAllDirty_tracked hs.tracked.screenW hs.tracked.screenH hs.tracked.maxRegions)
  | merged =>
    refine ⟨merged_tracked hs.tracked, ?_⟩
    intro m hm px py hhas hshows
    rw [DirtyRegionTracker.Shows, step, merged_fst] at hshows
    rw [step, merged_fst]
    exact hs.covered m hm px py hhas hshows
  | resize newW newH =>
    exact markAllDirty_good _ (markAllDirty_tracked hcall.1 hcall.2 hs.tracked.maxRegions)
  | clear => exact ⟨clear_tracked hs.tracked, fun m hm => absurd hm not_mem_nil⟩

theorem run_good : ∀ {calls : List DamageCall} {s : DamageState}, s.Good → (∀ call ∈ calls, call.Valid) → (after step s calls).Good
  | [], _, hs, _ => hs
  | call :: calls, s, hs, hcalls => by
    obtain ⟨hcall, hcalls⟩ := forall_mem_cons.1 hcalls
    rw [after]
    exact run_good (step_good hs hcall) hcalls

theorem start_good {screenW screenH minArea : Nat} {mergeDistance : Int} (hw : screenW ≤ 32767) (hh : screenH ≤ 32767) :
    (start screenW screenH minArea mergeDistance).Good where
  tracked := withThresholds_tracked hw hh
  covered _ hm := absurd hm not_mem_nil

/-- What the compositor may rely on. -/
structure Undropped (s : DamageState) : Prop where
  covered : ∀ m ∈ s.marks, ∀ px py, m.Has px py → s.tracker.Shows px py → ∃ r ∈ s.tracker.regions, r.Has px py
  bounded : s.tracker.regions.length ≤ 16
  fine : ∀ r ∈ s.tracker.regions, Fine s.tracker.screenW s.tracker.screenH r
  dirty : ∀ m ∈ s.marks, ∀ px py, m.Has px py → s.tracker.Shows px py →
    ∀ rect : DirtyRect, rect.EdgesFit → rect.Has px py → s.tracker.isRegionDirty rect = true
  merged : ∀ b, s.tracker.merged.2 = some b → BoundingBox s.tracker.regions b
  merged_none : s.tracker.merged.2 = none ↔ s.tracker.regions = []

theorem Good.undropped (hs : s.Good) : s.Undropped where
  covered := hs.covered
  bounded := hs.tracked.bounded
  fine := hs.tracked.fine
  dirty m hm px py hhas hshows rect hrect hin := by
    obtain ⟨r, hr, hhas'⟩ := hs.covered m hm px py hhas hshows
    have hfit := (hs.tracked.fine r hr).onScreen.edgesFit hs.tracked.screenW hs.tracked.screenH
    exact any_eq_true.2 ⟨r, hr, intersects_of_has hfit hrect hhas' hin⟩
  merged := (merged_spec hs.tracked).1
  merged_none := (merged_spec hs.tracked).2

end DamageState

/-- Damage is never dropped, whatever is marked, cleared or resized in whatever order. -/
theorem damage_undropped {screenW screenH minArea : Nat} {mergeDistance : Int} (hw : screenW ≤ 32767) (hh : screenH ≤ 32767)
    {calls : List DamageCall} (hcalls : ∀ call ∈ calls, call.Valid) :
    (after DamageState.step (DamageState.start screenW screenH minArea mergeDistance) calls).Undropped :=
  (DamageState.run_good (DamageState.start_good hw hh) hcalls).undropped

theorem damage_undropped_marked :
    (after DamageState.step (DamageState.start 1920 1080 100 50) [.markDirty ⟨0, 0, 100, 100⟩, .merged, .markDirty ⟨1900, 1000, 100, 100⟩,
      .resize 2560 1440, .clear, .markDirty ⟨-100, -100, 200, 200⟩]).Undropped := by
  apply damage_undropped (by decide) (by decide)
  simp only [forall_mem_cons, DamageCall.Valid]
  refine ⟨?_, trivial, ?_, ?_, trivial, ?_, fun _ h => absurd h not_mem_nil⟩
  · constructor <;> decide
  · constructor <;> decide
  · constructor <;> decide
  · constructor <;> decide

/-- A query as wide as a `u32` allows is cast to a negative width: it holds a marked pixel and is called clean. -/
theorem isRegionDirty_widest : ∃ (calls : List DamageCall) (query : DirtyRect),
    calls = [.markDirty ⟨0, 0, 100, 100⟩] ∧ query = ⟨0, 0, 2 ^ 32 - 1, 10⟩ ∧
      ⟨0, 0, 100, 100⟩ ∈ (after DamageState.step (DamageState.start 1920 1080 100 50) calls).marks ∧
      (⟨0, 0, 100, 100⟩ : DirtyRect).Has 5 5 ∧
      (after DamageState.step (DamageState.start 1920 1080 100 50) calls).tracker.Shows 5 5 ∧ query.Has 5 5 ∧
      (after DamageState.step (DamageState.start 1920 1080 100 50) calls).tracker.isRegionDirty query = false := by
  refine ⟨_, _, rfl, rfl, ?_⟩
  simp only [DirtyRect.Has, DirtyRegionTracker.Shows]
  decide +kernel

end Jwm.Compositor
