/-
Rows and columns shared out by factors fill their extent: whatever the factors, every client gets at least one pixel,
the gaps are all the same, and nothing is left over at the end. The float arithmetic only decides who gets how much: each
share is clamped to what leaves a pixel for every later client, and the last one takes the rest. The tilings at the end are
what the stacked layouts are put together from.
-/
import Jwm.Layout.Geometry
import Mathlib.Tactic.Ring
import Mathlib.Tactic.Linarith

namespace Jwm

open Span
open List

/-! ## Spans moved along -/

/-- A span `d` further on. -/
def Span.shift (d : Int) (s : Span) : Span := ⟨d + s.start, s.len⟩

theorem Span.Spaced.shift {gap lo hi : Int} {spans : List Span} (h : Spaced gap lo hi spans) (d : Int) :
    Spaced gap (d + lo) (d + hi) (spans.map (Span.shift d)) := by
  induction h with
  | @last lo len hlen =>
    rw [← Int.add_assoc]
    exact .last hlen
  | @cons lo hi len rest hlen hrest ih =>
    refine .cons hlen ?_
    rw [show d + lo + len + gap = d + (lo + len + gap) by omega]
    exact ih

namespace Layout

variable {K : Type}

/-! ## Areas -/

theorem boundedGap_nonneg (screenArea : Rect) (gap : Int) : 0 ≤ boundedGap screenArea gap := by
  refine (I32.clampTo_spec ?_ gap).1
  exact Int.ediv_nonneg (le_min (le_max_right _ _) (le_max_right _ _)) (by decide)

/-- The usable area has a pixel, and its sides are `i32`. -/
theorem usableArea_sides (screenArea : Rect) (gap : Int) :
    (1 ≤ (usableArea screenArea gap).w ∧ (usableArea screenArea gap).w ≤ I32.max) ∧
      1 ≤ (usableArea screenArea gap).h ∧ (usableArea screenArea gap).h ≤ I32.max := by
  have hle : ∀ a b, I32.saturatingSub a b ≤ I32.max := by
    intro a b
    unfold I32.saturatingSub I32.clamp I32.min I32.max
    omega
  have hone : 1 ≤ I32.max := by decide
  exact ⟨⟨le_max_right _ _, max_le (hle _ _) hone⟩, le_max_right _ _, max_le (hle _ _) hone⟩

/-! ## Gaps that fit -/

theorem fittingInnerGap_spec {extent : Int} {count : Nat} (requested : Int) (hpos : 1 ≤ count) (hfit : (count : Int) ≤ extent)
    (hmax : extent ≤ I32.max) :
    0 ≤ fittingInnerGap extent count requested ∧
      (count - 1 : Int) * fittingInnerGap extent count requested + count ≤ extent := by
  unfold fittingInnerGap
  split
  · rename_i hone
    have hcount : count = 1 := by omega
    subst hcount
    exact ⟨Int.le_refl _, by omega⟩
  · rename_i hmany
    rw [if_neg (by omega)]
    rw [I32.saturatingSub_eq (by omega) (by omega) hmax (by omega), max_eq_left (show 0 ≤ extent - (count : Int) by omega)]
    have hdiv : 0 ≤ (extent - count) / ((count : Int) - 1) := Int.ediv_nonneg (by omega) (by omega)
    have hle : min (max requested 0) ((extent - count) / ((count : Int) - 1)) ≤ (extent - count) / ((count : Int) - 1) :=
      min_le_right _ _
    refine ⟨le_min (le_max_right _ _) hdiv, ?_⟩
    calc (count - 1 : Int) * min (max requested 0) ((extent - count) / ((count : Int) - 1)) + count
        ≤ (count - 1 : Int) * ((extent - count) / ((count : Int) - 1)) + count := by
          have := Int.mul_le_mul_of_nonneg_left hle (show (0 : Int) ≤ count - 1 by omega)
          omega
      _ ≤ extent := by
          have := Int.mul_ediv_self_le (x := extent - count) (show (count : Int) - 1 ≠ 0 by omega)
          omega

theorem fittingInnerGap_nonneg (extent : Int) (count : Nat) (requested : Int) : 0 ≤ fittingInnerGap extent count requested := by
  unfold fittingInnerGap
  split
  · exact Int.le_refl _
  · split
    · exact Int.le_refl _
    · exact le_min (le_max_right _ _) (Int.ediv_nonneg (le_max_right _ _) (by omega))

/-! ## Shares -/

/-- What a share leaves: all of it to the last client, at least a pixel to each later one otherwise. -/
theorem distributeLength_spec {total gap used index count : Int} (factor remainingFactor : Float32) (hgap : 0 ≤ gap)
    (htotal : total ≤ I32.max) (hmax : count ≤ I32.max) (hused : 0 ≤ used) (hindex : 0 ≤ index) (hlt : index < count) (hinner : 0 ≤ (count - 1) * gap)
    (hfit : used + (count - index) ≤ total - (count - 1) * gap) :
    1 ≤ distributeLength total gap used index count factor remainingFactor ∧
      (index + 1 = count → distributeLength total gap used index count factor remainingFactor =
        total - (count - 1) * gap - used) ∧
      distributeLength total gap used index count factor remainingFactor + (count - index - 1) ≤
        total - (count - 1) * gap - used := by
  unfold distributeLength
  generalize hproduct : (count - 1) * gap = inner at hinner hfit ⊢
  have hcount : I32.saturatingSub count 1 = count - 1 :=
    I32.saturatingSub_eq (by omega) (by omega) (by omega) (by decide)
  have hgaps : I32.saturatingMul (count - 1) gap = inner := by
    unfold I32.saturatingMul
    rw [hproduct]
    exact I32.clamp_eq (by unfold I32.min; omega) (by omega)
  have havailable : I32.saturatingSub total inner = total - inner :=
    I32.saturatingSub_eq (by omega) hinner htotal (by omega)
  have hremaining : I32.saturatingSub (total - inner) used = total - inner - used :=
    I32.saturatingSub_eq (by omega) hused (by omega) (by omega)
  have hlater : I32.saturatingSub count index = count - index :=
    I32.saturatingSub_eq (by omega) hindex (by omega) (by omega)
  have hlater' : I32.saturatingSub (count - index) 1 = count - index - 1 :=
    I32.saturatingSub_eq (by omega) (by omega) (by omega) (by decide)
  dsimp only
  rw [hcount, max_eq_left (show 0 ≤ count - 1 by omega), max_eq_left hgap, hgaps, havailable,
    max_eq_left (show 1 ≤ total - inner by omega), hremaining, max_eq_left (show 1 ≤ total - inner - used by omega),
    hlater, hlater', max_eq_left (show 0 ≤ count - index - 1 by omega)]
  split
  · rename_i hlast
    exact ⟨by omega, fun _ => rfl, by omega⟩
  · rename_i hlast
    have hmaximum : I32.saturatingSub (total - inner - used) (count - index - 1) = total - inner - used - (count - index - 1) :=
      I32.saturatingSub_eq (by omega) (by omega) (by omega) (by omega)
    rw [hmaximum, max_eq_left (show 1 ≤ total - inner - used - (count - index - 1) by omega)]
    have hclamp := I32.clampTo_spec (show 1 ≤ total - inner - used - (count - index - 1) by omega)
    refine ⟨(hclamp _).1, fun h => absurd h (by omega), ?_⟩
    refine Int.le_trans (Int.add_le_add_right (hclamp _).2 _) ?_
    omega

theorem shareOut_fst (total gap count : Int) : ∀ (clients : List (LayoutClient K)) (i used : Int) (remaining : Float32),
    (shareOut total gap count i used remaining clients).map Prod.fst = clients
  | [], _, _, _ => rfl
  | c :: rest, i, used, remaining => by
    rw [shareOut, map_cons, shareOut_fst total gap count rest]

/-- The invariant of the loop: the pixels used, and one for each client still to place, are within what the gaps
leave. -/
theorem shareOut_spaced {total gap count : Int} (hgap : 0 ≤ gap) (htotal : total ≤ I32.max) (hmax : count ≤ I32.max)
    (hinner : 0 ≤ (count - 1) * gap) :
    ∀ (clients : List (LayoutClient K)) (i used : Int) (remaining : Float32), clients ≠ [] → 0 ≤ i → 0 ≤ used →
      i + clients.length = count → used + clients.length ≤ total - (count - 1) * gap →
      Spaced gap (used + i * gap) total ((shareOut total gap count i used remaining clients).map Prod.snd)
  | [], _, _, _, hne, _, _, _, _ => absurd rfl hne
  | [c], i, used, remaining, _, hi, hused, hcount, hfit => by
    rw [length_singleton] at hcount hfit
    obtain ⟨hpos, hlast, -⟩ := distributeLength_spec c.factor remaining hgap htotal hmax hused hi (by omega) hinner (by omega)
    rw [shareOut, shareOut, map_cons, map_nil]
    have hlast := hlast (by omega)
    have hstop : used + i * gap + distributeLength total gap used i count c.factor remaining = total := by
      have hi : i = count - 1 := by omega
      rw [hlast, hi]
      omega
    have hspan := @Spaced.last gap (used + i * gap) _ hpos
    rwa [hstop] at hspan
  | c :: d :: rest, i, used, remaining, _, hi, hused, hcount, hfit => by
    rw [length_cons, Nat.cast_add, Nat.cast_one] at hcount hfit
    obtain ⟨hpos, -, hleave⟩ := distributeLength_spec c.factor remaining hgap htotal hmax hused hi
      (by rw [← hcount, length_cons]; omega) hinner (by omega)
    rw [shareOut, map_cons]
    refine .cons hpos ?_
    generalize distributeLength total gap used i count c.factor remaining = len at hpos hleave ⊢
    rw [show used + i * gap + len + gap = used + len + (i + 1) * gap by ring]
    exact shareOut_spaced hgap htotal hmax hinner (d :: rest) (i + 1) (used + len) _ (cons_ne_nil _ _) (by omega) (by omega)
      (by omega) (by omega)

section

variable (clients : List (LayoutClient K))

theorem factorSpans_fst (extent gap : Int) :
    (factorSpans clients extent gap).map Prod.fst = clients := shareOut_fst _ _ _ _ _ _ _

theorem factorSpans_spaced {clients : List (LayoutClient K)} {extent : Int} (gap : Int) (hne : clients ≠ [])
    (hfit : (clients.length : Int) ≤ extent) (hmax : extent ≤ I32.max) :
    Spaced (fittingInnerGap extent clients.length gap) 0 extent ((factorSpans clients extent gap).map Prod.snd) := by
  have hlength : 1 ≤ clients.length := length_pos_iff.2 hne
  obtain ⟨hgap, hgaps⟩ := fittingInnerGap_spec gap hlength hfit hmax
  have hspaced := shareOut_spaced hgap hmax (Int.le_trans hfit hmax) (Int.mul_nonneg (by omega) hgap) clients 0 0 (totalFactor clients) hne
    (Int.le_refl _) (Int.le_refl _) (Int.zero_add _) (by omega)
  rwa [Int.zero_mul, Int.add_zero] at hspaced

/-! ## Rectangles -/

def Borderless : Prop := ∀ c ∈ clients, c.borderW = 0

instance (clients : List (LayoutClient K)) : Decidable (Borderless clients) :=
  inferInstanceAs (Decidable (∀ c ∈ clients, c.borderW = 0))

theorem clientRect_borderless {x y w h : Int} (hw : w ≤ I32.max) (hh : h ≤ I32.max) (hw' : 0 ≤ w) (hh' : 0 ≤ h) :
    clientRect x y w h 0 = ⟨x, y, max w 1, max h 1⟩ := by
  have hborder : I32.saturatingMul (max 0 0) 2 = 0 := by decide
  unfold clientRect
  dsimp only
  rw [hborder, I32.saturatingSub_eq hw' (Int.le_refl _) hw (by decide), I32.saturatingSub_eq hh' (Int.le_refl _) hh (by decide),
    Int.sub_zero, Int.sub_zero]

def rowSpan (r : Rect) : Span := ⟨r.x, r.w⟩

def columnSpan (r : Rect) : Span := ⟨r.y, r.h⟩

theorem pushFactorRow_keys (x y w h gap : Int) :
    (pushFactorRow clients x y w h gap).map LayoutResult.key = clients.map LayoutClient.key := by
  unfold pushFactorRow
  conv_rhs => rw [← factorSpans_fst clients w gap]
  rw [map_map, map_map]
  rfl

theorem pushFactorColumn_keys (x y w h gap : Int) :
    (pushFactorColumn clients x y w h gap).map LayoutResult.key = clients.map LayoutClient.key := by
  unfold pushFactorColumn
  conv_rhs => rw [← factorSpans_fst clients h gap]
  rw [map_map, map_map]
  rfl

theorem mapIdx_keys (rect : Nat → LayoutClient K → Rect) :
    (clients.mapIdx fun i c => ({ key := c.key, rect := rect i c } : LayoutResult K)).map LayoutResult.key =
      clients.map LayoutClient.key := by
  refine ext_getElem? fun i => ?_
  rw [getElem?_map, getElem?_mapIdx, getElem?_map, Option.map_map]
  rfl

theorem mem_factorSpans {clients : List (LayoutClient K)} {extent gap : Int} {e : LayoutClient K × Span}
    (hfit : (clients.length : Int) ≤ extent) (hmax : extent ≤ I32.max) (he : e ∈ factorSpans clients extent gap) :
    e.1 ∈ clients ∧ 0 ≤ e.2.start ∧ 1 ≤ e.2.len ∧ e.2.start + e.2.len ≤ extent := by
  have hclient : e.1 ∈ clients := by
    rw [← factorSpans_fst clients extent gap]
    exact mem_map_of_mem he
  have hspaced := factorSpans_spaced gap (ne_nil_of_mem hclient) hfit hmax
  exact ⟨hclient, hspaced.within (fittingInnerGap_nonneg _ _ _) e.2 (mem_map_of_mem he)⟩

/-- No sum that places a client leaves `i32` while both ends of the line are in it. -/
theorem factorSpans_in_i32 {clients : List (LayoutClient K)} {x extent gap : Int} (hfit : (clients.length : Int) ≤ extent)
    (hmax : extent ≤ I32.max) (hx : I32.min ≤ x) (hend : x + extent ≤ I32.max) :
    ∀ e ∈ factorSpans clients extent gap, I32.min ≤ x + e.2.start ∧ x + e.2.stop ≤ I32.max := by
  intro e he
  obtain ⟨-, hstart, -, hstop⟩ := mem_factorSpans hfit hmax he
  unfold Span.stop
  omega

section

variable {clients : List (LayoutClient K)} {x y w h gap : Int} (hborder : Borderless clients)
include hborder

theorem pushFactorRow_spans (hfit : (clients.length : Int) ≤ w) (hmax : w ≤ I32.max) (hh : 0 ≤ h) (hh' : h ≤ I32.max) :
    pushFactorRow clients x y w h gap =
      (factorSpans clients w gap).map fun e => { key := e.1.key, rect := ⟨x + e.2.start, y, e.2.len, max h 1⟩ } := by
  refine map_congr_left fun e he => ?_
  obtain ⟨hclient, hstart, hlen, hstop⟩ := mem_factorSpans hfit hmax he
  dsimp only
  rw [hborder _ hclient, clientRect_borderless (by omega) hh' (by omega) hh, max_eq_left hlen]

theorem pushFactorColumn_spans (hfit : (clients.length : Int) ≤ h) (hmax : h ≤ I32.max) (hw : 0 ≤ w) (hw' : w ≤ I32.max) :
    pushFactorColumn clients x y w h gap =
      (factorSpans clients h gap).map fun e => { key := e.1.key, rect := ⟨x, y + e.2.start, max w 1, e.2.len⟩ } := by
  refine map_congr_left fun e he => ?_
  obtain ⟨hclient, hstart, hlen, hstop⟩ := mem_factorSpans hfit hmax he
  dsimp only
  rw [hborder _ hclient, clientRect_borderless hw' (by omega) hw (by omega), max_eq_left hlen]

end

/-- Results that fill a line from `lo` to `hi`: one for each client in order, of at least a pixel, `gap` apart. -/
structure Fills (results : List (LayoutResult K)) (line : Rect → Span) (gap lo hi : Int) :
    Prop where
  keys : results.map LayoutResult.key = clients.map LayoutClient.key
  positive : ∀ r ∈ results, 1 ≤ (line r.rect).len
  next : ∀ i a b, results[i]? = some a → results[i + 1]? = some b → (line b.rect).start = (line a.rect).stop + gap
  first : results.head?.map (fun r => (line r.rect).start) = some lo
  last : results.getLast?.map (fun r => (line r.rect).stop) = some hi

theorem fills_of_spaced {clients : List (LayoutClient K)} {results : List (LayoutResult K)} {line : Rect → Span}
    {gap lo hi : Int} (hkeys : results.map LayoutResult.key = clients.map LayoutClient.key) (hgap : 0 ≤ gap)
    (h : Spaced gap lo hi (results.map fun r => line r.rect)) : Fills clients results line gap lo hi := by
  refine ⟨hkeys, fun r hr => (h.within hgap _ (mem_map_of_mem hr)).2.1, fun i a b ha hb => ?_, ?_, ?_⟩
  · refine h.next i (line a.rect) (line b.rect) ?_ ?_
    · rw [getElem?_map, ha, Option.map_some]
    · rw [getElem?_map, hb, Option.map_some]
  · have hhead := h.head
    rw [head?_map, Option.map_map] at hhead
    exact hhead
  · have hlast := h.getLast
    rw [getLast?_map, Option.map_map] at hlast
    exact hlast

theorem clientRect_line {x y w h : Int} : (1 ≤ w → w ≤ I32.max → rowSpan (clientRect x y w h 0) = ⟨x, w⟩) ∧
      (1 ≤ h → h ≤ I32.max → columnSpan (clientRect x y w h 0) = ⟨y, h⟩) := by
  have hborder : I32.saturatingMul (max 0 0) 2 = 0 := by decide
  unfold clientRect rowSpan columnSpan
  dsimp only
  rw [hborder]
  refine ⟨fun hpos hmax => ?_, fun hpos hmax => ?_⟩
  · rw [I32.saturatingSub_eq (by omega) (Int.le_refl _) hmax (by decide), Int.sub_zero, max_eq_left hpos]
  · rw [I32.saturatingSub_eq (by omega) (Int.le_refl _) hmax (by decide), Int.sub_zero, max_eq_left hpos]

theorem pushFactorRow_fills {clients : List (LayoutClient K)} (x y : Int) {w : Int} (h gap : Int) (hne : clients ≠ [])
    (hborder : Borderless clients) (hfit : (clients.length : Int) ≤ w) (hmax : w ≤ I32.max) :
    Fills clients (pushFactorRow clients x y w h gap) rowSpan (fittingInnerGap w clients.length gap) x (x + w) := by
  refine fills_of_spaced (pushFactorRow_keys clients x y w h gap) (fittingInnerGap_nonneg _ _ _) ?_
  have hspaced := (factorSpans_spaced gap hne hfit hmax).shift x
  rw [Int.add_zero] at hspaced
  unfold pushFactorRow
  rw [map_map] at hspaced ⊢
  refine (map_congr_left fun e he => ?_) ▸ hspaced
  obtain ⟨hclient, hstart, hlen, hstop⟩ := mem_factorSpans hfit hmax he
  dsimp only [Function.comp]
  rw [hborder _ hclient, clientRect_line.1 hlen (by omega)]
  rfl

theorem pushFactorColumn_fills {clients : List (LayoutClient K)} (x y w : Int) {h : Int} (gap : Int) (hne : clients ≠ [])
    (hborder : Borderless clients) (hfit : (clients.length : Int) ≤ h) (hmax : h ≤ I32.max) :
    Fills clients (pushFactorColumn clients x y w h gap) columnSpan (fittingInnerGap h clients.length gap) y (y + h) := by
  refine fills_of_spaced (pushFactorColumn_keys clients x y w h gap) (fittingInnerGap_nonneg _ _ _) ?_
  have hspaced := (factorSpans_spaced gap hne hfit hmax).shift y
  rw [Int.add_zero] at hspaced
  unfold pushFactorColumn
  rw [map_map] at hspaced ⊢
  refine (map_congr_left fun e he => ?_) ▸ hspaced
  obtain ⟨hclient, hstart, hlen, hstop⟩ := mem_factorSpans hfit hmax he
  dsimp only [Function.comp]
  rw [hborder _ hclient, clientRect_line.2 hlen (by omega)]
  rfl

/-- Rows and columns of factors fill their extent, whatever the factors, the gap and the other extent. -/
theorem factor_lines_fill (x y extent other gap : Int) (hne : clients ≠ [])
    (hborder : Borderless clients) (hfit : (clients.length : Int) ≤ extent) (hmax : extent ≤ I32.max) :
    Fills clients (pushFactorRow clients x y extent other gap) rowSpan (fittingInnerGap extent clients.length gap) x
        (x + extent) ∧
      Fills clients (pushFactorColumn clients x y other extent gap) columnSpan
        (fittingInnerGap extent clients.length gap) y (y + extent) :=
  ⟨pushFactorRow_fills x y other gap hne hborder hfit hmax, pushFactorColumn_fills x y other gap hne hborder hfit hmax⟩

/-- A NaN, an infinite and a negative factor on ten pixels. -/
def Sample.factors : List (LayoutClient Nat) := [⟨0, 0.0 / 0.0, 0⟩, ⟨1, 1.0 / 0.0, 0⟩, ⟨2, -3.0, 0⟩]

theorem factor_lines_fill_odd :
    (pushFactorRow Sample.factors 5 0 10 4 2).map LayoutResult.rect = [⟨5, 0, 1, 4⟩, ⟨8, 0, 1, 4⟩, ⟨11, 0, 4, 4⟩] ∧
      Fills Sample.factors (pushFactorRow Sample.factors 5 0 10 4 2) rowSpan (fittingInnerGap 10 3 2) 5 15 :=
  ⟨by decide +kernel, (factor_lines_fill Sample.factors 5 0 10 4 2 (by decide) (by decide) (by decide) (by decide)).1⟩

/-! ## Rows and columns as tilings -/

/-- Results that lie in an area, of at least a pixel each way, no two of them overlapping. -/
structure Tiles (results : List (LayoutResult K)) (area : Rect) : Prop where
  within : ∀ r ∈ results, r.rect.Within area
  positive : ∀ r ∈ results, r.rect.Positive
  apart : results.Pairwise fun a b => a.rect.Apart b.rect

theorem Tiles.append {results results' : List (LayoutResult K)} {area area' whole : Rect} (h : Tiles results area)
    (h' : Tiles results' area') (happart : area.Apart area') (hwithin : area.Within whole) (hwithin' : area'.Within whole) :
    Tiles (results ++ results') whole := by
  refine ⟨fun r hr => ?_, fun r hr => ?_, ?_⟩
  · rcases mem_append.1 hr with hr | hr
    · exact (h.within r hr).trans hwithin
    · exact (h'.within r hr).trans hwithin'
  · rcases mem_append.1 hr with hr | hr
    · exact h.positive r hr
    · exact h'.positive r hr
  · exact pairwise_append.2 ⟨h.apart, h'.apart, fun a ha b hb => happart.within (h.within a ha) (h'.within b hb)⟩

theorem factorSpans_ordered {extent gap : Int} (hfit : (clients.length : Int) ≤ extent)
    (hmax : extent ≤ I32.max) : (factorSpans clients extent gap).Pairwise fun a b => a.2.stop ≤ b.2.start := by
  cases clients with
  | nil => exact List.Pairwise.nil
  | cons c rest =>
    have hspaced := factorSpans_spaced gap (cons_ne_nil c rest) hfit hmax
    exact pairwise_map.1 (hspaced.ordered (fittingInnerGap_nonneg _ _ _))

end

section

variable {clients : List (LayoutClient K)} {x y w h gap : Int} (hborder : Borderless clients)
include hborder

theorem pushFactorRow_tiles (hfit : (clients.length : Int) ≤ w) (hmax : w ≤ I32.max) (hh : 0 ≤ h) (hh' : h ≤ I32.max) :
    Tiles (pushFactorRow clients x y w h gap) ⟨x, y, w, max h 1⟩ := by
  rw [pushFactorRow_spans hborder hfit hmax hh hh']
  refine ⟨fun r hr => ?_, fun r hr => ?_, ?_⟩
  · obtain ⟨e, he, rfl⟩ := mem_map.1 hr
    obtain ⟨-, hstart, -, hstop⟩ := mem_factorSpans hfit hmax he
    exact ⟨by dsimp only; omega, Int.le_refl _, by dsimp only; omega, Int.le_refl _⟩
  · obtain ⟨e, he, rfl⟩ := mem_map.1 hr
    obtain ⟨-, -, hlen, -⟩ := mem_factorSpans hfit hmax he
    exact ⟨hlen, le_max_right _ _⟩
  · refine pairwise_map.2 ((factorSpans_ordered clients hfit hmax).imp fun {a b} hab => .inl ?_)
    unfold Span.stop at hab
    dsimp only
    omega

theorem pushFactorColumn_tiles (hfit : (clients.length : Int) ≤ h) (hmax : h ≤ I32.max) (hw : 0 ≤ w) (hw' : w ≤ I32.max) :
    Tiles (pushFactorColumn clients x y w h gap) ⟨x, y, max w 1, h⟩ := by
  rw [pushFactorColumn_spans hborder hfit hmax hw hw']
  refine ⟨fun r hr => ?_, fun r hr => ?_, ?_⟩
  · obtain ⟨e, he, rfl⟩ := mem_map.1 hr
    obtain ⟨-, hstart, -, hstop⟩ := mem_factorSpans hfit hmax he
    exact ⟨Int.le_refl _, by dsimp only; omega, Int.le_refl _, by dsimp only; omega⟩
  · obtain ⟨e, he, rfl⟩ := mem_map.1 hr
    obtain ⟨-, -, hlen, -⟩ := mem_factorSpans hfit hmax he
    exact ⟨le_max_right _ _, hlen⟩
  · refine pairwise_map.2 ((factorSpans_ordered clients hfit hmax).imp fun {a b} hab => .inr (.inr (.inl ?_)))
    unfold Span.stop at hab
    dsimp only
    omega

end

end Layout

end Jwm
