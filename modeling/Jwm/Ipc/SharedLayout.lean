/-
The layout of a shared ring (`shared_structures/src/typed_ring_buffer.rs`, `backends/common.rs`): where the header, the
backend's block and the two rows of slots lie in the mapping, as its creator computes it and as an opener computes it again
from the header. Paths, the mapping itself and the backend's own initialisation are not modelled.
-/
import Jwm.Data.Check
import Jwm.Data.Placement

namespace Jwm.Ipc

open List Word

/-! ## Errors -/

inductive ErrorKind where
  | invalidInput | invalidData | unsupported | wouldBlock | brokenPipe
deriving DecidableEq

structure ShmError where
  kind : ErrorKind
  message : String
deriving DecidableEq

def ensure (condition : Bool) (error : ShmError) : Except ShmError Unit := if condition then .ok () else .error error

/-- `ok_or_else`. -/
def okOr {α : Type} (o : Option α) (error : ShmError) : Except ShmError α := o.elim (.error error) .ok

/-! ## Builds -/

inductive SyncStrategy where
  | futex | semaphore | eventFd | unsupported
deriving DecidableEq

namespace SyncStrategy

def id : SyncStrategy → BitVec 32
  | futex => 1
  | semaphore => 2
  | eventFd => 3
  | unsupported => 0

def isSupported (s : SyncStrategy) : Bool := s != unsupported

def asStr : SyncStrategy → String
  | futex => "futex"
  | semaphore => "semaphore"
  | eventFd => "eventfd"
  | unsupported => "unsupported"

end SyncStrategy

/-- `size_of` and `align_of`. -/
structure TypeLayout (w : Nat) where
  size : BitVec w
  align : BitVec w
deriving DecidableEq

/-- What a build knows of the two payload types and of its backends; `usize` has `w` bits. -/
structure Build (w : Nat) where
  width_ge : 32 ≤ w
  width_le : w ≤ 64
  /-- The backends whose features are enabled. -/
  enabled : SyncStrategy → Bool
  backend : SyncStrategy → TypeLayout w
  messageSlot : TypeLayout w
  commandSlot : TypeLayout w
  messageFingerprint : BitVec 32
  commandFingerprint : BitVec 32

/-- `SyncStrategy::from_id`; zero never appears in an initialized header. -/
def Build.fromId {w : Nat} (b : Build w) (id : BitVec 32) : Option SyncStrategy :=
  [SyncStrategy.futex, .semaphore, .eventFd].find? fun s => s.id == id && b.enabled s

/-- The self-describing header, without its timestamp and cursors. -/
structure GenericHeader where
  magic : BitVec 64
  version : BitVec 64
  totalSize : BitVec 64
  bufferSize : BitVec 32
  commandBufferSize : BitVec 32
  backendId : BitVec 32
  messageSlotSize : BitVec 32
  commandSlotSize : BitVec 32
  layoutMarker : BitVec 32
  isDestroyed : BitVec 32
  creatorPid : BitVec 32
  messageFingerprint : BitVec 32
  commandFingerprint : BitVec 32
deriving DecidableEq

open GenericHeader

/-- Three and ten fields of eight and four bytes, the timestamp in its own cache line, and four cursors in theirs. -/
def GenericHeader.size : Nat := 3 * 8 + 10 * 4 + (8 + 56) + 4 * 64

def GenericHeader.align : Nat := 64

def ringBufferMagic : BitVec 64 := 0x52494E4742554646
def ringBufferVersion : BitVec 64 := 14
def layoutMarker : BitVec 32 := 0x53524234
def maxPayloadAlign : Nat := 4096

/-! ## The layout -/

structure BufferLayout (w : Nat) where
  backendOffset : BitVec w
  messagesOffset : BitVec w
  commandsOffset : BitVec w
  totalSize : BitVec w
deriving DecidableEq

variable {α β : Type} {error : ShmError} {f : α → Except ShmError β} {y : β} {x : Except ShmError α}

section

variable {w : Nat}

def alignUpOrError (value align : BitVec w) : Except ShmError (BitVec w) := do
  ensure (decide align.toNat.isPowerOfTwo) ⟨.invalidInput, "layout alignment must be a non-zero power of two"⟩
  okOr (checkedAlignUp value align) ⟨.invalidInput, "shared-memory layout overflows usize"⟩

/-- `u32::try_from`. -/
def fitsU32 (n : BitVec w) : Bool := n.toNat < 2 ^ 32

def BufferLayout.calculate (b : Build w) (strategy : SyncStrategy) (bufferSize commandBufferSize : BitVec w) :
    Except ShmError (BufferLayout w) := do
  ensure strategy.isSupported ⟨.unsupported, "no synchronization backend is enabled"⟩
  ensure (decide bufferSize.toNat.isPowerOfTwo) ⟨.invalidInput, "message capacity must be a non-zero power of two"⟩
  ensure (decide commandBufferSize.toNat.isPowerOfTwo) ⟨.invalidInput, "command capacity must be a non-zero power of two"⟩
  ensure (b.messageSlot.align.toNat ≤ maxPayloadAlign && b.commandSlot.align.toNat ≤ maxPayloadAlign)
    ⟨.invalidInput, "payload alignment exceeds the page-alignment guarantee of the mapping"⟩
  ensure (fitsU32 bufferSize && fitsU32 commandBufferSize)
    ⟨.invalidInput, "queue capacity does not fit the shared protocol"⟩
  ensure (fitsU32 b.messageSlot.size && fitsU32 b.commandSlot.size)
    ⟨.invalidInput, "slot size does not fit the shared protocol"⟩
  let backendOffset ← alignUpOrError (.ofNat w GenericHeader.size) (b.backend strategy).align
  let afterBackend ← okOr (Word.checkedAdd backendOffset (b.backend strategy).size)
    ⟨.invalidInput, "backend layout overflows usize"⟩
  let messagesOffset ← alignUpOrError afterBackend b.messageSlot.align
  let messagesSize ← okOr (Word.checkedMul bufferSize b.messageSlot.size) ⟨.invalidInput, "message layout overflows usize"⟩
  let afterMessages ← okOr (Word.checkedAdd messagesOffset messagesSize) ⟨.invalidInput, "message layout overflows usize"⟩
  let commandsOffset ← alignUpOrError afterMessages b.commandSlot.align
  let commandsSize ← okOr (Word.checkedMul commandBufferSize b.commandSlot.size)
    ⟨.invalidInput, "command layout overflows usize"⟩
  let totalSize ← okOr (Word.checkedAdd commandsOffset commandsSize) ⟨.invalidInput, "shared-memory layout overflows usize"⟩
  return { backendOffset, messagesOffset, commandsOffset, totalSize }

/-! ## Creating and opening -/

/-- A mapping: its length, its address and the header at its start. -/
structure Mapping (w : Nat) where
  len : BitVec w
  base : BitVec w
  header : GenericHeader

/-- A mapping of the layout's size at this address, with its header published. -/
def createImpl (b : Build w) (strategy : SyncStrategy) (bufferSize commandBufferSize : BitVec w) (base : BitVec w)
    (pid : BitVec 32) : Except ShmError (BufferLayout w × Mapping w) := do
  let layout ← BufferLayout.calculate b strategy bufferSize commandBufferSize
  ensure (base.toNat % align == 0) ⟨.invalidData, "shared-memory mapping is not sufficiently aligned"⟩
  return (layout,
    { len := layout.totalSize
      base := base
      header :=
        { magic := ringBufferMagic
          version := ringBufferVersion
          totalSize := layout.totalSize.setWidth 64
          bufferSize := bufferSize.setWidth 32
          commandBufferSize := commandBufferSize.setWidth 32
          backendId := strategy.id
          messageSlotSize := b.messageSlot.size.setWidth 32
          commandSlotSize := b.commandSlot.size.setWidth 32
          layoutMarker := layoutMarker
          isDestroyed := 0
          creatorPid := pid
          messageFingerprint := b.messageFingerprint
          commandFingerprint := b.commandFingerprint } })

/-- What an opener keeps. -/
structure Opened (w : Nat) where
  strategy : SyncStrategy
  layout : BufferLayout w
  bufferSize : BitVec 32
  commandBufferSize : BitVec 32
deriving DecidableEq

/-- `{:#x}`. -/
def hexString (n : BitVec 64) : String := "0x" ++ String.ofList (Nat.toDigits 16 n.toNat)

def openImpl (b : Build w) (mapping : Mapping w) (expectedStrategy : Option SyncStrategy) :
    Except ShmError (Opened w) := do
  let header := mapping.header
  ensure (GenericHeader.size ≤ mapping.len.toNat)
    ⟨.invalidData, "shared-memory mapping is shorter than the protocol header"⟩
  ensure (mapping.base.toNat % align == 0)
    ⟨.invalidData, "shared-memory mapping is not sufficiently aligned"⟩
  ensure (header.magic != 0) ⟨.wouldBlock, "shared-memory buffer is still initializing"⟩
  ensure (header.magic == ringBufferMagic)
    ⟨.invalidData, "invalid shared-memory magic: " ++ hexString header.magic⟩
  ensure (header.version == ringBufferVersion)
    ⟨.invalidData, "incompatible shared-memory protocol version " ++ toString header.version.toNat ++ "; expected 14"⟩
  ensure (header.totalSize == mapping.len.setWidth 64)
    ⟨.invalidData, "shared-memory recorded total size does not match mapping length"⟩
  ensure (header.creatorPid != 0) ⟨.invalidData, "shared-memory creator PID must be non-zero"⟩
  let strategy ← okOr (b.fromId header.backendId)
    ⟨if 1 ≤ header.backendId.toNat ∧ header.backendId.toNat ≤ 3 then .unsupported else .invalidData,
      "shared-memory backend id " ++ toString header.backendId.toNat ++ " is unavailable"⟩
  ensure strategy.isSupported ⟨.unsupported, "shared-memory buffer does not name a usable backend"⟩
  ensure (expectedStrategy.all (· == strategy))
    ⟨.invalidData, "synchronization backend mismatch: mapping uses " ++ strategy.asStr ++ ", caller requested " ++
      (expectedStrategy.getD strategy).asStr⟩
  let layout ← (BufferLayout.calculate b strategy (header.bufferSize.setWidth w) (header.commandBufferSize.setWidth w)).mapError
    fun error => ⟨.invalidData, "invalid shared-memory layout metadata: " ++ error.message⟩
  ensure (header.messageSlotSize.setWidth w == b.messageSlot.size && header.commandSlotSize.setWidth w == b.commandSlot.size &&
      header.layoutMarker == layoutMarker && header.totalSize == layout.totalSize.setWidth 64 &&
      mapping.len == layout.totalSize)
    ⟨.invalidData, "shared-memory layout metadata does not match this build"⟩
  ensure (header.messageFingerprint == b.messageFingerprint && header.commandFingerprint == b.commandFingerprint)
    ⟨.invalidData, "shared-memory payload type fingerprint mismatch; the mapping was created with different slot types"⟩
  ensure (header.isDestroyed == 0) ⟨.brokenPipe, "shared-memory buffer is destroyed"⟩
  return { strategy, layout, bufferSize := header.bufferSize, commandBufferSize := header.commandBufferSize }

/-! ## What the layout has to be -/

/-- The header, the backend's block and the two rows of slots. -/
def layoutBlocks (b : Build w) (strategy : SyncStrategy) (bufferSize commandBufferSize : BitVec w) : List Block :=
  [⟨GenericHeader.size, align⟩,
    ⟨(b.backend strategy).size.toNat, (b.backend strategy).align.toNat⟩,
    ⟨bufferSize.toNat * b.messageSlot.size.toNat, b.messageSlot.align.toNat⟩,
    ⟨commandBufferSize.toNat * b.commandSlot.size.toNat, b.commandSlot.align.toNat⟩]

/-- What the protocol takes for a queue. -/
structure Accepts (b : Build w) (strategy : SyncStrategy) (bufferSize commandBufferSize : BitVec w) : Prop where
  supported : strategy.isSupported = true
  capacity : bufferSize.toNat.isPowerOfTwo ∧ commandBufferSize.toNat.isPowerOfTwo
  payloadAlign : b.messageSlot.align.toNat ≤ maxPayloadAlign ∧ b.commandSlot.align.toNat ≤ maxPayloadAlign
  capacityFits : bufferSize.toNat < 2 ^ 32 ∧ commandBufferSize.toNat < 2 ^ 32
  slotFits : b.messageSlot.size.toNat < 2 ^ 32 ∧ b.commandSlot.size.toNat < 2 ^ 32
  aligned : (b.backend strategy).align.toNat.isPowerOfTwo ∧ b.messageSlot.align.toNat.isPowerOfTwo ∧
    b.commandSlot.align.toNat.isPowerOfTwo

namespace BufferLayout

def regions (layout : BufferLayout w) (b : Build w) (strategy : SyncStrategy) (bufferSize commandBufferSize : BitVec w) :
    List Region :=
  [⟨0, GenericHeader.size⟩,
    ⟨layout.backendOffset.toNat, (b.backend strategy).size.toNat⟩,
    ⟨layout.messagesOffset.toNat, bufferSize.toNat * b.messageSlot.size.toNat⟩,
    ⟨layout.commandsOffset.toNat, commandBufferSize.toNat * b.commandSlot.size.toNat⟩]

/-- Every sum and every product on the way to the layout. -/
def steps (layout : BufferLayout w) (b : Build w) (strategy : SyncStrategy) (bufferSize commandBufferSize : BitVec w) :
    List Nat :=
  let afterBackend := layout.backendOffset.toNat + (b.backend strategy).size.toNat
  let messagesSize := bufferSize.toNat * b.messageSlot.size.toNat
  let afterMessages := layout.messagesOffset.toNat + messagesSize
  let commandsSize := commandBufferSize.toNat * b.commandSlot.size.toNat
  [GenericHeader.size + ((b.backend strategy).align.toNat - 1), afterBackend,
    afterBackend + (b.messageSlot.align.toNat - 1), messagesSize, afterMessages,
    afterMessages + (b.commandSlot.align.toNat - 1), commandsSize, layout.commandsOffset.toNat + commandsSize]

/-- Nothing overlaps, everything is aligned and inside the mapping, and no step on the way has wrapped. -/
structure Sound (layout : BufferLayout w) (b : Build w) (strategy : SyncStrategy) (bufferSize commandBufferSize : BitVec w) :
    Prop where
  apart : (layout.regions b strategy bufferSize commandBufferSize).Pairwise Region.Apart
  aligned : List.Forall₂ (fun block r => r.size = block.size ∧ block.align ∣ r.start)
    (layoutBlocks b strategy bufferSize commandBufferSize) (layout.regions b strategy bufferSize commandBufferSize)
  within : ∀ r ∈ layout.regions b strategy bufferSize commandBufferSize, r.stop ≤ layout.totalSize.toNat
  steps : ∀ n ∈ layout.steps b strategy bufferSize commandBufferSize, n < 2 ^ w

end BufferLayout

section

variable {b : Build w} {strategy : SyncStrategy} {bufferSize commandBufferSize : BitVec w} {layout : BufferLayout w}

theorem ensure_bind_eq_ok {condition : Bool} {f : Unit → Except ShmError α} {a : α} :
    (ensure condition error >>= f) = .ok a ↔ condition = true ∧ f () = .ok a := by
  cases condition with
  | false =>
    refine iff_of_false (fun h => ?_) fun h => ?_
    · cases h
    · cases h.1
  | true => exact ⟨fun h => ⟨rfl, h⟩, fun h => h.2⟩

theorem okOr_bind_eq_ok {o : Option α} : (okOr o error >>= f) = .ok y ↔ ∃ x, o = some x ∧ f x = .ok y := by
  cases o with
  | none =>
    refine iff_of_false (fun h => nomatch h) ?_
    rintro ⟨x, hx, -⟩
    cases hx
  | some x =>
    refine ⟨fun h => ⟨x, rfl, h⟩, ?_⟩
    rintro ⟨x', hx, h⟩
    exact Option.some.inj hx ▸ h

theorem alignUpOrError_bind_eq_ok {value align : BitVec w} {f : BitVec w → Except ShmError β} :
    (alignUpOrError value align >>= f) = .ok y ↔
      align.toNat.isPowerOfTwo ∧ ∃ x, x.toNat = alignUp value.toNat align.toNat ∧ f x = .ok y := by
  unfold alignUpOrError
  rw [bind_assoc, ensure_bind_eq_ok, okOr_bind_eq_ok, decide_eq_true_eq]
  refine and_congr_right fun ha => exists_congr fun x => ?_
  rw [checkedAlignUp_eq_some ha]

theorem Build.toNat_header (b : Build w) : (BitVec.ofNat w GenericHeader.size).toNat = GenericHeader.size := by
  rw [BitVec.toNat_ofNat]
  refine Nat.mod_eq_of_lt (Nat.lt_of_lt_of_le ?_ (Nat.pow_le_pow_right (by decide) b.width_ge))
  decide

theorem accepts_iff : Accepts b strategy bufferSize commandBufferSize ↔
    strategy.isSupported = true ∧ bufferSize.toNat.isPowerOfTwo ∧ commandBufferSize.toNat.isPowerOfTwo ∧
      (decide (b.messageSlot.align.toNat ≤ maxPayloadAlign) && decide (b.commandSlot.align.toNat ≤ maxPayloadAlign)) = true ∧
      (fitsU32 bufferSize && fitsU32 commandBufferSize) = true ∧
      (fitsU32 b.messageSlot.size && fitsU32 b.commandSlot.size) = true ∧
      (b.backend strategy).align.toNat.isPowerOfTwo ∧ b.messageSlot.align.toNat.isPowerOfTwo ∧
      b.commandSlot.align.toNat.isPowerOfTwo := by
  unfold fitsU32
  simp only [Bool.and_eq_true, decide_eq_true_eq]
  refine ⟨fun h => ⟨h.supported, h.capacity.1, h.capacity.2, h.payloadAlign, h.capacityFits, h.slotFits, h.aligned⟩, ?_⟩
  rintro ⟨hs, hn, hm, hp, hc, hf, ha⟩
  exact ⟨hs, ⟨hn, hm⟩, hp, hc, hf, ha⟩

open BufferLayout

/-- The layout that is computed is the one that places the blocks one after another, where it fits. -/
theorem calculate_eq_ok : calculate b strategy bufferSize commandBufferSize = .ok layout ↔
    Accepts b strategy bufferSize commandBufferSize ∧
      layout.regions b strategy bufferSize commandBufferSize =
        place 0 (layoutBlocks b strategy bufferSize commandBufferSize) ∧
      layout.totalSize.toNat = placeEnd 0 (layoutBlocks b strategy bufferSize commandBufferSize) := by
  have hheader := b.toNat_header
  have hzero : alignUp 0 align + GenericHeader.size = GenericHeader.size := rfl
  unfold calculate
  simp only [ensure_bind_eq_ok, okOr_bind_eq_ok, alignUpOrError_bind_eq_ok, decide_eq_true_eq, checkedAdd_eq_some,
    checkedMul_eq_some]
  unfold regions layoutBlocks
  simp only [place, placeEnd, hzero]
  refine ⟨fun h => ?_, fun h => ?_⟩
  · obtain ⟨hs, hn, hm, hp, hc, hf, hba, backendOffset, hbackend, afterBackend, hafterBackend, hma, messagesOffset, hmessages,
      messagesSize, hmessagesSize, afterMessages, hafterMessages, hca, commandsOffset, hcommands, commandsSize,
      hcommandsSize, totalSize, htotal, hlayout⟩ := h
    obtain rfl := Except.ok.inj hlayout
    refine ⟨accepts_iff.2 ⟨hs, hn, hm, hp, hc, hf, hba, hma, hca⟩, ?_, ?_⟩
    · rw [hcommands, hafterMessages, hmessagesSize, hmessages, hafterBackend, hbackend, hheader]
      rfl
    · rw [htotal, hcommandsSize, hcommands, hafterMessages, hmessagesSize, hmessages, hafterBackend, hbackend, hheader]
  · obtain ⟨haccepts, hregions, htotal⟩ := h
    obtain ⟨hs, hn, hm, hp, hc, hf, hba, hma, hca⟩ := accepts_iff.1 haccepts
    simp only [cons.injEq, Region.mk.injEq, and_true] at hregions
    obtain ⟨-, hbackend, hmessages, hcommands⟩ := hregions
    rw [← hbackend] at hmessages hcommands htotal
    rw [← hmessages] at hcommands htotal
    rw [← hcommands] at htotal
    have hmessagesLt := layout.messagesOffset.isLt
    have hcommandsLt := layout.commandsOffset.isLt
    have htotalLt := layout.totalSize.isLt
    -- every sum is below an offset that fits
    have hbehindBackend := le_alignUp (n := layout.backendOffset.toNat + (b.backend strategy).size.toNat)
      (Nat.pos_of_isPowerOfTwo hma)
    have hbehindMessages := le_alignUp (n := layout.messagesOffset.toNat + bufferSize.toNat * b.messageSlot.size.toNat)
      (Nat.pos_of_isPowerOfTwo hca)
    obtain ⟨afterBackend, hafterBackend⟩ := exists_of_lt (w := w)
      (n := layout.backendOffset.toNat + (b.backend strategy).size.toNat) (by omega)
    obtain ⟨messagesSize, hmessagesSize⟩ := exists_of_lt (w := w)
      (n := bufferSize.toNat * b.messageSlot.size.toNat) (by omega)
    obtain ⟨afterMessages, hafterMessages⟩ := exists_of_lt (w := w)
      (n := layout.messagesOffset.toNat + bufferSize.toNat * b.messageSlot.size.toNat) (by omega)
    obtain ⟨commandsSize, hcommandsSize⟩ := exists_of_lt (w := w)
      (n := commandBufferSize.toNat * b.commandSlot.size.toNat) (by omega)
    refine ⟨hs, hn, hm, hp, hc, hf, hba, layout.backendOffset, by rw [hheader]; exact hbackend, afterBackend, hafterBackend,
      hma, layout.messagesOffset, by rw [hafterBackend]; exact hmessages, messagesSize, hmessagesSize, afterMessages,
      by rw [hafterMessages, hmessagesSize], hca, layout.commandsOffset, by rw [hafterMessages]; exact hcommands,
      commandsSize, hcommandsSize, layout.totalSize, by rw [htotal, hcommandsSize], rfl⟩

theorem Accepts.align_pos (h : Accepts b strategy bufferSize commandBufferSize) :
    ∀ block ∈ layoutBlocks b strategy bufferSize commandBufferSize, 0 < block.align := by
  unfold layoutBlocks
  simp only [mem_cons, not_mem_nil, or_false, forall_eq_or_imp, forall_eq]
  exact ⟨by decide, Nat.pos_of_isPowerOfTwo h.aligned.1, Nat.pos_of_isPowerOfTwo h.aligned.2.1,
    Nat.pos_of_isPowerOfTwo h.aligned.2.2⟩

theorem calculate_sound (h : calculate b strategy bufferSize commandBufferSize = .ok layout) :
    layout.Sound b strategy bufferSize commandBufferSize := by
  obtain ⟨haccepts, hregions, htotal⟩ := calculate_eq_ok.1 h
  have hpos := haccepts.align_pos
  have within : ∀ r ∈ layout.regions b strategy bufferSize commandBufferSize, r.stop ≤ layout.totalSize.toNat := by
    rw [hregions, htotal]
    exact fun r hr => (place_within hpos r hr).2
  refine ⟨?_, ?_, within, ?_⟩
  · rw [hregions]
    exact place_apart hpos
  · rw [hregions]
    exact place_fits _ _
  · obtain ⟨hba, hma, hca⟩ := haccepts.aligned
    have hzero : alignUp 0 align + GenericHeader.size = GenericHeader.size := rfl
    have hbackendLt := layout.backendOffset.isLt
    have hmessagesLt := layout.messagesOffset.isLt
    have hcommandsLt := layout.commandsOffset.isLt
    have htotalLt := layout.totalSize.isLt
    unfold regions at hregions within
    unfold layoutBlocks at hregions
    simp only [mem_cons, not_mem_nil, or_false, forall_eq_or_imp, forall_eq, Region.stop] at within
    simp only [place, hzero, cons.injEq, Region.mk.injEq, and_true] at hregions
    obtain ⟨-, hbackend, hmessages, hcommands⟩ := hregions
    rw [← hbackend] at hmessages hcommands
    rw [← hmessages] at hcommands
    have hbackendSum := lt_of_alignUp_lt (Nat.pos_of_isPowerOfTwo hba) (dvd_two_pow hba) (hbackend ▸ hbackendLt)
    have hmessagesSum := lt_of_alignUp_lt (Nat.pos_of_isPowerOfTwo hma) (dvd_two_pow hma) (hmessages ▸ hmessagesLt)
    have hcommandsSum := lt_of_alignUp_lt (Nat.pos_of_isPowerOfTwo hca) (dvd_two_pow hca) (hcommands ▸ hcommandsLt)
    unfold steps
    simp only [mem_cons, not_mem_nil, or_false, forall_eq_or_imp, forall_eq]
    omega

theorem slot_within {total start capacity size : Nat} (h : start + capacity * size ≤ total) (i : Nat) (hi : i < capacity) :
    start + (i + 1) * size ≤ total :=
  (Nat.add_le_add_left (Nat.mul_le_mul_right size hi) start).trans h

end

/-! ## What an opener accepts -/

/-- An opener keeps the layout of the header's own numbers, and all of it lies in the mapping. -/
structure Validated (b : Build w) (mapping : Mapping w) (opened : Opened w) : Prop where
  capacity : opened.bufferSize = mapping.header.bufferSize ∧ opened.commandBufferSize = mapping.header.commandBufferSize
  layout : BufferLayout.calculate b opened.strategy (opened.bufferSize.setWidth w) (opened.commandBufferSize.setWidth w) =
    .ok opened.layout
  sound : opened.layout.Sound b opened.strategy (opened.bufferSize.setWidth w) (opened.commandBufferSize.setWidth w)
  length : opened.layout.totalSize = mapping.len
  messageSlots : ∀ i < opened.bufferSize.toNat,
    opened.layout.messagesOffset.toNat + (i + 1) * b.messageSlot.size.toNat ≤ mapping.len.toNat
  commandSlots : ∀ i < opened.commandBufferSize.toNat,
    opened.layout.commandsOffset.toNat + (i + 1) * b.commandSlot.size.toNat ≤ mapping.len.toNat

section

variable {b : Build w} {mapping : Mapping w} {opened : Opened w} {expected : Option SyncStrategy}

theorem mapError_bind_eq_ok {f : ShmError → ShmError} {g : α → Except ShmError β} :
    (x.mapError f >>= g) = .ok y ↔ ∃ a, x = .ok a ∧ g a = .ok y := by
  rw [bind_eq_ok]
  cases x with
  | error e => exact exists_congr fun a => and_congr_left' (iff_of_false nofun nofun)
  | ok a => exact Iff.rfl

theorem openImpl_eq_ok : openImpl b mapping expected = .ok opened ↔
    GenericHeader.size ≤ mapping.len.toNat ∧ (mapping.base.toNat % align == 0) = true ∧
      (mapping.header.magic != 0) = true ∧ (mapping.header.magic == ringBufferMagic) = true ∧
      (mapping.header.version == ringBufferVersion) = true ∧ (mapping.header.totalSize == mapping.len.setWidth 64) = true ∧
      (mapping.header.creatorPid != 0) = true ∧ b.fromId mapping.header.backendId = some opened.strategy ∧
      opened.strategy.isSupported = true ∧ expected.all (· == opened.strategy) = true ∧
      BufferLayout.calculate b opened.strategy (mapping.header.bufferSize.setWidth w)
        (mapping.header.commandBufferSize.setWidth w) = .ok opened.layout ∧
      (mapping.header.messageSlotSize.setWidth w == b.messageSlot.size &&
        mapping.header.commandSlotSize.setWidth w == b.commandSlot.size && mapping.header.layoutMarker == layoutMarker &&
        mapping.header.totalSize == opened.layout.totalSize.setWidth 64 && mapping.len == opened.layout.totalSize) = true ∧
      (mapping.header.messageFingerprint == b.messageFingerprint &&
        mapping.header.commandFingerprint == b.commandFingerprint) = true ∧
      (mapping.header.isDestroyed == 0) = true ∧ opened.bufferSize = mapping.header.bufferSize ∧
      opened.commandBufferSize = mapping.header.commandBufferSize := by
  unfold openImpl
  simp only [ensure_bind_eq_ok, okOr_bind_eq_ok, mapError_bind_eq_ok, decide_eq_true_eq]
  refine and_congr_right fun _ => and_congr_right fun _ => and_congr_right fun _ => and_congr_right fun _ =>
    and_congr_right fun _ => and_congr_right fun _ => and_congr_right fun _ => ?_
  refine ⟨fun h => ?_, fun h => ?_⟩
  · obtain ⟨strategy, hid, hs, he, layout, hlayout, hm, hf, hd, hopened⟩ := h
    obtain rfl := Except.ok.inj hopened
    exact ⟨hid, hs, he, hlayout, hm, hf, hd, rfl, rfl⟩
  · obtain ⟨strategy, layout, bufferSize, commandBufferSize⟩ := opened
    obtain ⟨hid, hs, he, hlayout, hm, hf, hd, hn, hc⟩ := h
    obtain rfl : bufferSize = _ := hn
    obtain rfl : commandBufferSize = _ := hc
    exact ⟨strategy, hid, hs, he, layout, hlayout, hm, hf, hd, rfl⟩

theorem openImpl_validated (h : openImpl b mapping expected = .ok opened) : Validated b mapping opened := by
  obtain ⟨-, -, -, -, -, -, -, -, -, -, hlayout, hmeta, -, -, hn, hm⟩ := openImpl_eq_ok.1 h
  rw [← hn, ← hm] at hlayout
  have hlength : opened.layout.totalSize = mapping.len := (eq_of_beq (Bool.and_eq_true_iff.1 hmeta).2).symm
  have hsound := calculate_sound hlayout
  have hwithin := hsound.within
  unfold BufferLayout.regions at hwithin
  simp only [mem_cons, not_mem_nil, or_false, forall_eq_or_imp, forall_eq, Region.stop] at hwithin
  obtain ⟨-, -, hmessages, hcommands⟩ := hwithin
  have hcapacity : ∀ n : BitVec 32, (n.setWidth w).toNat = n.toNat := fun n => by
    rw [BitVec.toNat_setWidth]
    exact Nat.mod_eq_of_lt (Nat.lt_of_lt_of_le n.isLt (Nat.pow_le_pow_right (by decide) b.width_ge))
  rw [hlength, hcapacity] at hmessages hcommands
  exact ⟨⟨hn, hm⟩, hlayout, hsound, hlength, slot_within hmessages, slot_within hcommands⟩

end

section

variable {b : Build w} {strategy : SyncStrategy} {bufferSize commandBufferSize base : BitVec w} {pid : BitVec 32}
  {layout : BufferLayout w} {mapping : Mapping w}

theorem fromId_id (hs : strategy.isSupported = true) (he : b.enabled strategy = true) :
    b.fromId strategy.id = some strategy := by
  unfold Build.fromId
  cases strategy with
  | unsupported => cases hs
  | futex | semaphore | eventFd => simp [SyncStrategy.id, he]

theorem setWidth_back {n : BitVec w} (h : n.toNat < 2 ^ 32) : (n.setWidth 32).setWidth w = n := by
  refine BitVec.eq_of_toNat_eq ?_
  rw [BitVec.toNat_setWidth, BitVec.toNat_setWidth, Nat.mod_eq_of_lt h, Nat.mod_eq_of_lt n.isLt]

theorem created_opens (hs : b.enabled strategy = true) (hpid : pid ≠ 0) {expected : Option SyncStrategy}
    (hexpected : expected.all (· == strategy) = true)
    (h : createImpl b strategy bufferSize commandBufferSize base pid = .ok (layout, mapping)) :
    openImpl b mapping expected = .ok ⟨strategy, layout, bufferSize.setWidth 32, commandBufferSize.setWidth 32⟩ := by
  unfold createImpl at h
  rw [bind_eq_ok] at h
  obtain ⟨layout', hlayout, h⟩ := h
  rw [ensure_bind_eq_ok] at h
  obtain ⟨hbase, h⟩ := h
  obtain ⟨rfl, rfl⟩ := Prod.mk.inj (Except.ok.inj h)
  obtain ⟨haccepts, hregions, -⟩ := calculate_eq_ok.1 hlayout
  have hheader : GenericHeader.size ≤ layout'.totalSize.toNat := by
    have hwithin := (calculate_sound hlayout).within
    have hfirst := hwithin _ (mem_cons_self ..)
    rw [Region.stop, Nat.zero_add] at hfirst
    exact hfirst
  rw [openImpl_eq_ok]
  dsimp only
  rw [setWidth_back haccepts.capacityFits.1, setWidth_back haccepts.capacityFits.2, setWidth_back haccepts.slotFits.1,
    setWidth_back haccepts.slotFits.2]
  refine ⟨hheader, hbase, by decide, by decide, by decide, beq_self_eq_true _, bne_iff_ne.2 hpid,
    fromId_id haccepts.supported hs, haccepts.supported, hexpected, hlayout, ?_, ?_, by decide, rfl, rfl⟩
  · simp only [beq_self_eq_true, Bool.and_self]
  · simp only [beq_self_eq_true, Bool.and_self]

end

end

/-! ## Both sides of the mapping -/

/-- A layout that is computed is sound, an opener keeps none that reaches past its mapping, and it keeps its creator's. -/
theorem shared_layout_sound {w : Nat} (b : Build w) :
    (∀ strategy bufferSize commandBufferSize layout,
        BufferLayout.calculate b strategy bufferSize commandBufferSize = .ok layout →
        layout.Sound b strategy bufferSize commandBufferSize) ∧
      (∀ mapping expected opened, openImpl b mapping expected = .ok opened → Validated b mapping opened) ∧
      ∀ strategy bufferSize commandBufferSize base pid layout mapping expected, b.enabled strategy = true → pid ≠ 0 →
        expected.all (· == strategy) = true →
        createImpl b strategy bufferSize commandBufferSize base pid = .ok (layout, mapping) →
        openImpl b mapping expected = .ok ⟨strategy, layout, bufferSize.setWidth 32, commandBufferSize.setWidth 32⟩ :=
  ⟨fun _ _ _ _ h => calculate_sound h, fun _ _ _ h => openImpl_validated h,
    fun _ _ _ _ _ _ _ _ hs hpid hexpected h => created_opens hs hpid hexpected h⟩

/-- Slots of 24 bytes and of 8 in rows of 16 and 4, behind a futex header of a cache line. -/
def sampleBuild : Build 64 where
  width_ge := by decide
  width_le := by decide
  enabled s := s == .futex
  backend _ := ⟨64, 64⟩
  messageSlot := ⟨24, 8⟩
  commandSlot := ⟨8, 4⟩
  messageFingerprint := 1
  commandFingerprint := 2

/-- Its layout is sound, and an opener finds it in the header. -/
theorem shared_layout_sound_sample :
    BufferLayout.Sound ⟨384, 448, 832, 864⟩ sampleBuild .futex 16 4 ∧
      ∃ mapping, createImpl sampleBuild .futex 16 4 4096 7 = .ok (⟨384, 448, 832, 864⟩, mapping) ∧
        openImpl sampleBuild mapping none = .ok ⟨.futex, ⟨384, 448, 832, 864⟩, 16, 4⟩ := by
  obtain ⟨hsound, -, hopens⟩ := shared_layout_sound sampleBuild
  refine ⟨hsound .futex 16 4 ⟨384, 448, 832, 864⟩ (by decide), _, rfl, ?_⟩
  exact hopens .futex 16 4 4096 7 ⟨384, 448, 832, 864⟩ _ none (by decide) (by decide) rfl rfl

/-- The largest rows of the largest slots still end inside 64 bits. -/
example : BufferLayout.calculate { sampleBuild with messageSlot := ⟨0xffffffff, 1⟩, commandSlot := ⟨0xffffffff, 1⟩ }
    .futex 0x80000000 0x80000000 = .ok ⟨384, 448, 0x7fffffff800001c0, 0xffffffff000001c0⟩ := by decide

end Jwm.Ipc
