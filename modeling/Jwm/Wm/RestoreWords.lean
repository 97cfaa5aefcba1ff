/-
The restart properties of a window on the wire (`backend/x11/wm/minimized_restore.rs`,
`maximize_restore.rs`, `floating_restore.rs`): fixed lists of 32-bit words. The decoders accept only what
the encoders write, so an accepted property is rewritten word for word.
-/
import Jwm.Wm.WindowModes

namespace Jwm

open Option

abbrev Word := BitVec 32

/-! ## Rectangles -/

def encodeI32Bits (value : Int) : Word := BitVec.ofInt 32 value

def decodeI32Bits (value : Word) : Int := value.toInt

def encodeRect (r : Rect) : Option (List Word) :=
  if isConfigurable r then some [encodeI32Bits r.x, encodeI32Bits r.y, encodeI32Bits r.w, encodeI32Bits r.h] else none

/-- `i32::try_from` of a side. -/
def tryI32 (value : Word) : Option Int := if (value.toNat : Int) ≤ I32.max then some value.toNat else none

/-- A rectangle whose sides are read by `side`. -/
def decodeRect (side : Word → Option Int) (x y w h : Word) : Option Rect :=
  match side w, side h with
  | some w, some h => some ({ x := decodeI32Bits x, y := decodeI32Bits y, w, h } : Rect) |>.filter isConfigurable
  | _, _ => none

variable {r : Rect}

theorem isConfigurable_iff : isConfigurable r = true ↔ (-32768 ≤ r.x ∧ r.x ≤ 32767) ∧
    (-32768 ≤ r.y ∧ r.y ≤ 32767) ∧ (1 ≤ r.w ∧ r.w ≤ 65535) ∧ (1 ≤ r.h ∧ r.h ≤ 65535) := by
  unfold isConfigurable
  simp only [Bool.and_eq_true, decide_eq_true_eq]
  tauto

theorem toInt_encodeI32Bits {v : Int} (h : I32.min ≤ v ∧ v ≤ I32.max) : (encodeI32Bits v).toInt = v := by
  unfold encodeI32Bits I32.min I32.max at *
  rw [BitVec.toInt_ofInt]
  exact Int.bmod_eq_of_le (by omega) (by omega)

theorem encodeI32Bits_decode (w : Word) : encodeI32Bits (decodeI32Bits w) = w := BitVec.ofInt_toInt

/-- A reading of a side that agrees with the two's complement on sides a window can have. -/
structure ReadsSide (side : Word → Option Int) : Prop where
  sound : ∀ w v, side w = some v → 1 ≤ v → encodeI32Bits v = w
  complete : ∀ v, 1 ≤ v → v ≤ 65535 → side (encodeI32Bits v) = some v

theorem readsSide_tryI32 : ReadsSide tryI32 where
  sound w v h _ := by
    unfold tryI32 at h
    split at h
    · cases h
      unfold encodeI32Bits
      rw [BitVec.ofInt_natCast, BitVec.ofNat_toNat, BitVec.setWidth_eq]
    · cases h
  complete v h1 h2 := by
    have hv : (encodeI32Bits v).toInt = v := toInt_encodeI32Bits ⟨by unfold I32.min; omega, by unfold I32.max; omega⟩
    have hnat : ((encodeI32Bits v).toNat : Int) = v := by
      rw [BitVec.toInt_eq_toNat_cond] at hv
      split at hv
      · exact hv
      · have := (encodeI32Bits v).isLt
        omega
    unfold tryI32
    rw [hnat, if_pos (by unfold I32.max; omega)]

theorem readsSide_cast : ReadsSide (fun w => some w.toInt) where
  sound w v h _ := by
    cases h
    exact BitVec.ofInt_toInt
  complete v h1 h2 :=
    congrArg some (toInt_encodeI32Bits ⟨by unfold I32.min; omega, by unfold I32.max; omega⟩)

variable {side : Word → Option Int} {x y w h mask : Word}

theorem encodeRect_decodeRect (hs : ReadsSide side)
    (hd : decodeRect side x y w h = some r) : encodeRect r = some [x, y, w, h] := by
  unfold decodeRect at hd
  split at hd
  · rename_i vw vh hw hh
    obtain ⟨hr, hc⟩ := filter_eq_some_iff.1 hd
    cases hr
    unfold encodeRect
    rw [if_pos hc]
    obtain ⟨-, -, ⟨h1, -⟩, ⟨h2, -⟩⟩ := isConfigurable_iff.1 hc
    rw [hs.sound w vw hw h1, hs.sound h vh hh h2]
    rw [encodeI32Bits_decode, encodeI32Bits_decode]
  · cases hd

theorem decodeRect_encodeRect (hs : ReadsSide side) (hc : isConfigurable r = true) :
    decodeRect side (encodeI32Bits r.x) (encodeI32Bits r.y) (encodeI32Bits r.w) (encodeI32Bits r.h) = some r := by
  obtain ⟨⟨x1, x2⟩, ⟨y1, y2⟩, ⟨w1, w2⟩, ⟨h1, h2⟩⟩ := isConfigurable_iff.1 hc
  unfold decodeRect
  rw [hs.complete r.w w1 w2, hs.complete r.h h1 h2]
  unfold decodeI32Bits
  rw [toInt_encodeI32Bits ⟨by unfold I32.min; omega, by unfold I32.max; omega⟩,
    toInt_encodeI32Bits ⟨by unfold I32.min; omega, by unfold I32.max; omega⟩]
  exact filter_eq_some_iff.2 ⟨rfl, hc⟩

def encodeOptionalRect : Option Rect → Option (List Word)
  | some r => encodeRect r
  | none => some [0, 0, 0, 0]

def decodeOptionalRect (present : Bool) (x y w h : Word) : Option (Option Rect) :=
  if present then (decodeRect tryI32 x y w h).map some
  else if x = 0 ∧ y = 0 ∧ w = 0 ∧ h = 0 then some none else none

theorem encodeOptionalRect_decode {present : Bool} {r : Option Rect} (hd : decodeOptionalRect present x y w h = some r) :
    encodeOptionalRect r = some [x, y, w, h] ∧ r.isSome = present := by
  unfold decodeOptionalRect at hd
  cases present with
  | true =>
    obtain ⟨v, hv, rfl⟩ := map_eq_some_iff.1 hd
    exact ⟨encodeRect_decodeRect readsSide_tryI32 hv, rfl⟩
  | false =>
    rw [if_neg Bool.false_ne_true] at hd
    split at hd
    · rename_i h0
      cases hd
      obtain ⟨rfl, rfl, rfl, rfl⟩ := h0
      exact ⟨rfl, rfl⟩
    · cases hd

/-! ## Flags -/

def flagFloating : Word := 1#32 <<< 0
def flagDragFloating : Word := 1#32 <<< 1
def flagHasFloatingRect : Word := 1#32 <<< 2
def flagPip : Word := 1#32 <<< 3
def flagOldState : Word := 1#32 <<< 4
def flagHasFullscreenRestore : Word := 1#32 <<< 5
def flagPipRestoreSticky : Word := 1#32 <<< 6
def flagPromoted : Word := 1#32 <<< 0

def knownFlags : Word := flagFloating ||| flagDragFloating ||| flagHasFloatingRect ||| flagPip ||| flagOldState |||
  flagHasFullscreenRestore ||| flagPipRestoreSticky

def hasFlag (flags flag : Word) : Bool := flags &&& flag != 0

/-- The flags of a minimized snapshot, in the order of their bits. -/
def minimizedFlags (floating dragFloating hasFloatingRect pip oldState hasFullscreenRestore pipRestoreSticky : Bool) :
    Word :=
  (if floating then flagFloating else 0) ||| (if dragFloating then flagDragFloating else 0) |||
    (if hasFloatingRect then flagHasFloatingRect else 0) ||| (if pip then flagPip else 0) |||
    (if oldState then flagOldState else 0) ||| (if hasFullscreenRestore then flagHasFullscreenRestore else 0) |||
    (if pipRestoreSticky then flagPipRestoreSticky else 0)

variable {flags : Word}

theorem eq_and_of_and_not (h : flags &&& ~~~mask = 0) : flags = flags &&& mask := by
  ext i hi
  have hb : (flags &&& ~~~mask)[i] = false := by
    rw [h]
    exact BitVec.getElem_zero hi
  rw [BitVec.getElem_and, BitVec.getElem_not] at hb
  rw [BitVec.getElem_and]
  cases hf : flags[i] with
  | false => rfl
  | true =>
    rw [hf, Bool.true_and, Bool.not_eq_false'] at hb
    rw [hb, Bool.true_and]

theorem toNat_le_of_and_not (h : flags &&& ~~~mask = 0) : flags.toNat ≤ mask.toNat := by
  rw [eq_and_of_and_not h, BitVec.toNat_and]
  exact Nat.and_le_right

theorem minimizedFlags_small : ∀ n : Fin 128, let flags := BitVec.ofNat 32 n
    minimizedFlags (hasFlag flags flagFloating) (hasFlag flags flagDragFloating) (hasFlag flags flagHasFloatingRect)
      (hasFlag flags flagPip) (hasFlag flags flagOldState) (hasFlag flags flagHasFullscreenRestore)
      (hasFlag flags flagPipRestoreSticky) = flags := by
  decide

theorem minimizedFlags_read (h : flags &&& ~~~knownFlags = 0) :
    minimizedFlags (hasFlag flags flagFloating) (hasFlag flags flagDragFloating) (hasFlag flags flagHasFloatingRect)
      (hasFlag flags flagPip) (hasFlag flags flagOldState) (hasFlag flags flagHasFullscreenRestore)
      (hasFlag flags flagPipRestoreSticky) = flags := by
  have hle : flags.toNat ≤ 127 := toNat_le_of_and_not h
  have hsmall := minimizedFlags_small ⟨flags.toNat, by omega⟩
  rwa [BitVec.ofNat_toNat, BitVec.setWidth_eq] at hsmall

theorem minimizedFlags_bits (a b c d e f g : Bool) :
    let flags := minimizedFlags a b c d e f g
    flags &&& ~~~knownFlags = 0 ∧ hasFlag flags flagFloating = a ∧ hasFlag flags flagDragFloating = b ∧
      hasFlag flags flagHasFloatingRect = c ∧ hasFlag flags flagPip = d ∧ hasFlag flags flagOldState = e ∧
      hasFlag flags flagHasFullscreenRestore = f ∧ hasFlag flags flagPipRestoreSticky = g := by
  revert a b c d e f g
  decide

/-! ## The minimized snapshot -/

def restoreVersion : Word := 1

/-- `encode_minimized_restore_v1` -/
def encodeMinimizedRestoreV1 (s : MinimizedRestoreState) : Option (List Word) :=
  if s.minimizedOrder = 0 || s.minimizedOrder > maxMinimizedRestoreOrder || (s.isDragFloating && !s.isFloating) ||
      (s.isPip && (!s.isFloating || s.floatingRect.isNone)) || (s.isPip && s.fullscreenRestoreRect.isSome) ||
      (!s.isPip && s.pipRestoreSticky) || (s.fullscreenRestoreRect.isSome && !s.isFloating) then none
  else do
    let visible ← encodeRect s.visibleRect
    let floating ← encodeOptionalRect s.floatingRect
    let fullscreenRestore ← encodeOptionalRect s.fullscreenRestoreRect
    let flags := minimizedFlags s.isFloating s.isDragFloating s.floatingRect.isSome s.isPip s.oldState
      s.fullscreenRestoreRect.isSome s.pipRestoreSticky
    some ([restoreVersion, flags, s.tags, encodeI32Bits s.monitorNum] ++ visible ++ floating ++ fullscreenRestore ++
      [BitVec.ofNat 32 s.minimizedOrder, BitVec.ofNat 32 (s.minimizedOrder >>> 32)])

/-- A property reply as X11 hands it over. -/
structure PropertyReply (A : Type) where
  actualType : A
  format : Nat
  bytesAfter : Nat
  words : List Word

/-- The whole property of the wanted type, in 32-bit items. -/
def PropertyReply.complete {A : Type} [DecidableEq A] (reply : PropertyReply A) (cardinal : A) : Bool :=
  reply.actualType = cardinal && reply.format = 32 && reply.bytesAfter = 0

section Decoders

variable {A : Type} [DecidableEq A]

def decodeOrder (low high : Word) : Nat := low.toNat ||| (high.toNat <<< 32)

/-- `decode_minimized_restore_v1` -/
def decodeMinimizedRestoreV1 (cardinal : A) (reply : PropertyReply A) : Option MinimizedRestoreState :=
  match reply.words with
  | [version, flags, tags, monitorNum, vx, vy, vw, vh, fx, fy, fw, fh, rx, ry, rw, rh, orderLow, orderHigh] =>
    if !reply.complete cardinal || version ≠ restoreVersion then none
    else if flags &&& ~~~knownFlags ≠ 0 then none
    else
      let isFloating := hasFlag flags flagFloating
      let isDragFloating := hasFlag flags flagDragFloating
      if isDragFloating && !isFloating then none
      else do
        let visibleRect ← decodeRect tryI32 vx vy vw vh
        let floatingRect ← decodeOptionalRect (hasFlag flags flagHasFloatingRect) fx fy fw fh
        let fullscreenRestoreRect ← decodeOptionalRect (hasFlag flags flagHasFullscreenRestore) rx ry rw rh
        let minimizedOrder := decodeOrder orderLow orderHigh
        if minimizedOrder = 0 || minimizedOrder > maxMinimizedRestoreOrder then none
        else
          let isPip := hasFlag flags flagPip
          if isPip && (!isFloating || floatingRect.isNone) then none
          else
            let pipRestoreSticky := hasFlag flags flagPipRestoreSticky
            if (isPip && fullscreenRestoreRect.isSome) || (!isPip && pipRestoreSticky) then none
            else if fullscreenRestoreRect.isSome && !isFloating then none
            else some { tags, monitorNum := decodeI32Bits monitorNum, visibleRect, isFloating, isDragFloating
                        floatingRect, isPip, pipRestoreSticky, oldState := hasFlag flags flagOldState
                        fullscreenRestoreRect, minimizedOrder }
  | _ => none

/-! ## The maximize and floating slots -/

structure MaximizeRestoreState where
  restoreRect : Rect
  promoted : Bool
deriving DecidableEq

structure FloatingRestoreState where
  floatingRect : Rect
deriving DecidableEq

/-- `encode_maximize_restore_v1` -/
def encodeMaximizeRestoreV1 (s : MaximizeRestoreState) : Option (List Word) := do
  let rect ← encodeRect s.restoreRect
  some ([restoreVersion, if s.promoted then flagPromoted else 0] ++ rect)

/-- `encode_floating_restore_v1` -/
def encodeFloatingRestoreV1 (s : FloatingRestoreState) : Option (List Word) := do
  let rect ← encodeRect s.floatingRect
  some ([restoreVersion, 0] ++ rect)

/-- The six words the maximize and floating properties share: version, flags among `known`, a rectangle. -/
def decodeSlot (known : Word) (cardinal : A) (reply : PropertyReply A) : Option (Word × Rect) :=
  match reply.words with
  | [version, flags, x, y, w, h] =>
    if !reply.complete cardinal || version ≠ restoreVersion then none
    else if flags &&& ~~~known ≠ 0 then none
    else (decodeRect (fun w => some w.toInt) x y w h).map fun r => (flags, r)
  | _ => none

/-- `decode_maximize_restore_v1` -/
def decodeMaximizeRestoreV1 (cardinal : A) (reply : PropertyReply A) : Option MaximizeRestoreState :=
  (decodeSlot flagPromoted cardinal reply).map fun p => { restoreRect := p.2, promoted := hasFlag p.1 flagPromoted }

/-- `decode_floating_restore_v1` -/
def decodeFloatingRestoreV1 (cardinal : A) (reply : PropertyReply A) : Option FloatingRestoreState :=
  (decodeSlot 0 cardinal reply).map fun p => { floatingRect := p.2 }

end Decoders

/-! ## Writing and reading back -/

/-- What the encoder asks of a snapshot. -/
structure MinimizedRestoreState.Adoptable (s : MinimizedRestoreState) : Prop where
  order : 1 ≤ s.minimizedOrder ∧ s.minimizedOrder ≤ maxMinimizedRestoreOrder
  drag : s.isDragFloating = true → s.isFloating = true
  pip : s.isPip = true → s.isFloating = true ∧ s.floatingRect.isSome = true ∧ s.fullscreenRestoreRect = none
  sticky : s.pipRestoreSticky = true → s.isPip = true
  fullscreen : s.fullscreenRestoreRect.isSome = true → s.isFloating = true
  visible : isConfigurable s.visibleRect = true
  floating : ∀ r, s.floatingRect = some r → isConfigurable r = true
  restore : ∀ r, s.fullscreenRestoreRect = some r → isConfigurable r = true

def optionalWords : Option Rect → Word × Word × Word × Word
  | some r => (encodeI32Bits r.x, encodeI32Bits r.y, encodeI32Bits r.w, encodeI32Bits r.h)
  | none => (0, 0, 0, 0)

theorem encodeOptionalRect_of {r : Option Rect} (h : ∀ v, r = some v → isConfigurable v = true) :
    encodeOptionalRect r =
      some [(optionalWords r).1, (optionalWords r).2.1, (optionalWords r).2.2.1, (optionalWords r).2.2.2] := by
  cases r with
  | none => rfl
  | some v => exact if_pos (h v rfl)

theorem decodeOptionalRect_of {r : Option Rect} (h : ∀ v, r = some v → isConfigurable v = true) :
    decodeOptionalRect r.isSome (optionalWords r).1 (optionalWords r).2.1 (optionalWords r).2.2.1
      (optionalWords r).2.2.2 = some r := by
  cases r with
  | none => rfl
  | some v =>
    exact congrArg (Option.map some) (decodeRect_encodeRect readsSide_tryI32 (h v rfl))

/-- The two words of an order below `2^63` hold all of it. -/
theorem decodeOrder_encode {n : Nat} (h : n ≤ maxMinimizedRestoreOrder) :
    decodeOrder (BitVec.ofNat 32 n) (BitVec.ofNat 32 (n >>> 32)) = n := by
  unfold maxMinimizedRestoreOrder at h
  have hhigh : n >>> 32 < 2 ^ 32 := by
    rw [Nat.shiftRight_eq_div_pow]
    omega
  unfold decodeOrder
  rw [BitVec.toNat_ofNat, BitVec.toNat_ofNat, Nat.mod_eq_of_lt hhigh, Nat.or_comm, Nat.shiftLeft_eq,
    Nat.mul_comm, ← Nat.two_pow_add_eq_or_of_lt (Nat.mod_lt n (by decide)), Nat.shiftRight_eq_div_pow]
  exact Nat.div_add_mod n (2 ^ 32)

theorem encodeOrder_decode (low high : Word) :
    BitVec.ofNat 32 (decodeOrder low high) = low ∧ BitVec.ofNat 32 (decodeOrder low high >>> 32) = high := by
  have horder : decodeOrder low high = 2 ^ 32 * high.toNat + low.toNat := by
    unfold decodeOrder
    rw [Nat.or_comm, Nat.shiftLeft_eq, Nat.mul_comm, ← Nat.two_pow_add_eq_or_of_lt low.isLt]
  rw [horder]
  refine ⟨?_, ?_⟩
  · apply BitVec.eq_of_toNat_eq
    rw [BitVec.toNat_ofNat, Nat.mul_add_mod, Nat.mod_eq_of_lt low.isLt]
  · apply BitVec.eq_of_toNat_eq
    rw [BitVec.toNat_ofNat, Nat.shiftRight_eq_div_pow, Nat.mul_add_div (by decide), Nat.div_eq_of_lt low.isLt,
      Nat.add_zero, Nat.mod_eq_of_lt high.isLt]

def minimizedWords (s : MinimizedRestoreState) : List Word :=
  let f := optionalWords s.floatingRect
  let r := optionalWords s.fullscreenRestoreRect
  [restoreVersion,
    minimizedFlags s.isFloating s.isDragFloating s.floatingRect.isSome s.isPip s.oldState
      s.fullscreenRestoreRect.isSome s.pipRestoreSticky,
    s.tags, encodeI32Bits s.monitorNum,
    encodeI32Bits s.visibleRect.x, encodeI32Bits s.visibleRect.y, encodeI32Bits s.visibleRect.w,
    encodeI32Bits s.visibleRect.h, f.1, f.2.1, f.2.2.1, f.2.2.2, r.1, r.2.1, r.2.2.1, r.2.2.2,
    BitVec.ofNat 32 s.minimizedOrder, BitVec.ofNat 32 (s.minimizedOrder >>> 32)]

variable {s : MinimizedRestoreState}

theorem encodeMinimizedRestoreV1_of (h : s.Adoptable) : encodeMinimizedRestoreV1 s = some (minimizedWords s) := by
  have hcheck : (s.minimizedOrder = 0 || s.minimizedOrder > maxMinimizedRestoreOrder ||
      (s.isDragFloating && !s.isFloating) || (s.isPip && (!s.isFloating || s.floatingRect.isNone)) ||
      (s.isPip && s.fullscreenRestoreRect.isSome) || (!s.isPip && s.pipRestoreSticky) ||
      (s.fullscreenRestoreRect.isSome && !s.isFloating)) = false := by
    obtain ⟨h1, h2⟩ := h.order
    simp only [Bool.or_eq_false_iff, decide_eq_false_iff_not, Bool.and_eq_false_iff, Bool.not_eq_false']
    refine ⟨⟨⟨⟨⟨⟨by omega, by omega⟩, ?_⟩, ?_⟩, ?_⟩, ?_⟩, ?_⟩
    · exact (Bool.eq_false_or_eq_true s.isDragFloating).symm.imp id h.drag
    · refine (Bool.eq_false_or_eq_true s.isPip).symm.imp id fun hp => ⟨(h.pip hp).1, ?_⟩
      rw [isNone_eq_false_iff]
      exact (h.pip hp).2.1
    · refine (Bool.eq_false_or_eq_true s.isPip).symm.imp id fun hp => ?_
      rw [(h.pip hp).2.2]
      rfl
    · exact (Bool.eq_false_or_eq_true s.pipRestoreSticky).imp h.sticky id
    · exact (Bool.eq_false_or_eq_true s.fullscreenRestoreRect.isSome).symm.imp id h.fullscreen
  have hv : encodeRect s.visibleRect = some _ := if_pos h.visible
  unfold encodeMinimizedRestoreV1
  rw [hcheck, if_neg Bool.false_ne_true, hv, encodeOptionalRect_of h.floating, encodeOptionalRect_of h.restore]
  rfl

theorem decodeMinimizedRestoreV1_of {A : Type} [DecidableEq A] (h : s.Adoptable)
    (hmon : I32.min ≤ s.monitorNum ∧ s.monitorNum ≤ I32.max) (cardinal : A) :
    decodeMinimizedRestoreV1 cardinal { actualType := cardinal, format := 32, bytesAfter := 0, words := minimizedWords s } =
      some s := by
  obtain ⟨hknown, b0, b1, b2, b3, b4, b5, b6⟩ := minimizedFlags_bits s.isFloating s.isDragFloating
    s.floatingRect.isSome s.isPip s.oldState s.fullscreenRestoreRect.isSome s.pipRestoreSticky
  obtain ⟨h1, h2⟩ := h.order
  unfold decodeMinimizedRestoreV1 minimizedWords PropertyReply.complete
  dsimp only
  revert hknown b0 b1 b2 b3 b4 b5 b6
  generalize minimizedFlags s.isFloating s.isDragFloating s.floatingRect.isSome s.isPip s.oldState
    s.fullscreenRestoreRect.isSome s.pipRestoreSticky = flags
  intro hknown b0 b1 b2 b3 b4 b5 b6
  rw [b0, b1, b2, b3, b4, b5, b6, decodeRect_encodeRect readsSide_tryI32 h.visible, decodeOptionalRect_of h.floating,
    decodeOptionalRect_of h.restore, decodeOrder_encode h2]
  unfold decodeI32Bits
  rw [toInt_encodeI32Bits hmon]
  suffices hchecks : (s.isDragFloating = true → s.isFloating = true) ∧
      (¬s.minimizedOrder = 0 ∧ s.minimizedOrder ≤ maxMinimizedRestoreOrder) ∧
      (s.isPip = true → s.isFloating = true ∧ ¬s.floatingRect = none) ∧
      ((s.isPip = true → s.fullscreenRestoreRect = none) ∧ (s.isPip = false → s.pipRestoreSticky = false)) ∧
      (s.fullscreenRestoreRect.isSome = true → s.isFloating = true) by simpa [hknown] using hchecks
  refine ⟨h.drag, ⟨by omega, h2⟩, fun hp => ⟨(h.pip hp).1, ?_⟩, ⟨fun hp => (h.pip hp).2.2, fun hp => ?_⟩, h.fullscreen⟩
  · exact isSome_iff_ne_none.1 (h.pip hp).2.1
  · exact eq_false_of_ne_true fun hs => absurd (h.sticky hs) (by rw [hp]; exact Bool.false_ne_true)

/-- A minimized property that is accepted is the one the decoded snapshot writes. -/
theorem encodeMinimizedRestoreV1_decode {A : Type} [DecidableEq A] {cardinal : A} {reply : PropertyReply A}
    (h : decodeMinimizedRestoreV1 cardinal reply = some s) :
    encodeMinimizedRestoreV1 s = some reply.words := by
  unfold decodeMinimizedRestoreV1 at h
  split at h
  case h_2 => cases h
  rename_i version flags tags monitorNum vx vy vw vh fx fy fw fh rx ry rw rh low high hwords
  rw [hwords]
  obtain ⟨hversion, h⟩ := ite_none_left_eq_some.1 h
  obtain ⟨hknown, h⟩ := ite_none_left_eq_some.1 h
  dsimp only at h
  obtain ⟨hdrag, h⟩ := ite_none_left_eq_some.1 h
  obtain ⟨visible, hv, h⟩ := bind_eq_some_iff.1 h
  obtain ⟨floating, hf, h⟩ := bind_eq_some_iff.1 h
  obtain ⟨restore, hr, h⟩ := bind_eq_some_iff.1 h
  obtain ⟨horder, h⟩ := ite_none_left_eq_some.1 h
  obtain ⟨hpip, h⟩ := ite_none_left_eq_some.1 h
  obtain ⟨hexcl, h⟩ := ite_none_left_eq_some.1 h
  obtain ⟨hfull, h⟩ := ite_none_left_eq_some.1 h
  cases h
  obtain ⟨hfe, hfs⟩ := encodeOptionalRect_decode hf
  obtain ⟨hre, hrs⟩ := encodeOptionalRect_decode hr
  obtain ⟨hlow, hhigh⟩ := encodeOrder_decode low high
  unfold encodeMinimizedRestoreV1
  rw [if_neg ?_]
  · rw [encodeRect_decodeRect readsSide_tryI32 hv, hfe, hre, hfs, hrs, encodeI32Bits_decode, hlow, hhigh,
      minimizedFlags_read (Decidable.not_not.1 hknown)]
    rw [Bool.or_eq_true, not_or, decide_eq_true_eq, Decidable.not_not] at hversion
    rw [hversion.2]
    rfl
  · simp only [Bool.or_eq_true, not_or, Bool.not_eq_true] at hdrag horder hpip hexcl hfull ⊢
    exact ⟨⟨⟨⟨⟨horder, hdrag⟩, hpip⟩, hexcl.1⟩, hexcl.2⟩, hfull⟩

theorem decodeSlot_words {A : Type} [DecidableEq A] {known : Word} {cardinal : A} {reply : PropertyReply A}
    (h : decodeSlot known cardinal reply = some (flags, r)) :
    flags &&& ~~~known = 0 ∧ ∃ x y w v, reply.words = [restoreVersion, flags, x, y, w, v] ∧
      encodeRect r = some [x, y, w, v] := by
  unfold decodeSlot at h
  split at h
  case h_2 => cases h
  rename_i version flags' x y w v hwords
  obtain ⟨hversion, h⟩ := ite_none_left_eq_some.1 h
  obtain ⟨hknown, h⟩ := ite_none_left_eq_some.1 h
  obtain ⟨r', hr, heq⟩ := map_eq_some_iff.1 h
  cases heq
  rw [Bool.or_eq_true, not_or, decide_eq_true_eq, Decidable.not_not] at hversion
  refine ⟨Decidable.not_not.1 hknown, x, y, w, v, ?_, encodeRect_decodeRect readsSide_cast hr⟩
  rw [hwords, hversion.2]

theorem promotedFlag_small : ∀ n : Fin 2, let flags := BitVec.ofNat 32 n
    (if hasFlag flags flagPromoted then flagPromoted else 0) = flags := by
  decide

theorem encodeMaximizeRestoreV1_decode {A : Type} [DecidableEq A] {cardinal : A} {reply : PropertyReply A}
    {s : MaximizeRestoreState} (h : decodeMaximizeRestoreV1 cardinal reply = some s) :
    encodeMaximizeRestoreV1 s = some reply.words := by
  obtain ⟨⟨flags, r⟩, hd, rfl⟩ := map_eq_some_iff.1 h
  obtain ⟨hknown, x, y, w, v, hwords, hr⟩ := decodeSlot_words hd
  have hle : flags.toNat ≤ 1 := toNat_le_of_and_not hknown
  have hflag := promotedFlag_small ⟨flags.toNat, by omega⟩
  rw [BitVec.ofNat_toNat, BitVec.setWidth_eq] at hflag
  unfold encodeMaximizeRestoreV1
  rw [hr, hwords, hflag]
  rfl

theorem encodeFloatingRestoreV1_decode {A : Type} [DecidableEq A] {cardinal : A} {reply : PropertyReply A}
    {s : FloatingRestoreState} (h : decodeFloatingRestoreV1 cardinal reply = some s) :
    encodeFloatingRestoreV1 s = some reply.words := by
  obtain ⟨⟨flags, r⟩, hd, rfl⟩ := map_eq_some_iff.1 h
  obtain ⟨hknown, x, y, w, v, hwords, hr⟩ := decodeSlot_words hd
  have hle : flags.toNat ≤ 0 := toNat_le_of_and_not hknown
  have hflag : flags = 0 := BitVec.eq_of_toNat_eq (Nat.le_zero.1 hle)
  unfold encodeFloatingRestoreV1
  rw [hr, hwords, hflag]
  rfl

end Jwm
