/-
Messages as the shared mapping holds them. Conversion clears what stands behind a terminator, what stands behind the counted
windows, and a count beyond the array, on both sides; what goes out therefore comes back canonical, and messages that read
alike are the same bytes.
-/
import Jwm.Ipc.SharedMessage
import Jwm.Ipc.TypedRingBuffer

namespace Jwm.Ipc

open FixedString

open List (findIdx?_eq_some_iff_getElem length_append length_replicate length_set length_take replicate reverseRecOn take_length
  take_of_length_le take_take take_takeWhile)

/-! ## Wire values -/

structure WireMinimizedWindowInfo where
  windowId : BitVec 64
  monitorId : BitVec 32
  flags : BitVec 32
  title : FixedString maxWindowTitleLen
  appId : FixedString maxAppIdLen
deriving DecidableEq, Inhabited

open WireMinimizedWindowInfo

@[ext] structure WireMessage where
  timestamp : BitVec 64
  wmSessionId : BitVec 64
  minimizedGeneration : BitVec 64
  monitorNum : BitVec 32
  monitorWidth : BitVec 32
  monitorHeight : BitVec 32
  monitorX : BitVec 32
  monitorY : BitVec 32
  tagFlags : Vector Byte maxTags
  clientName : FixedString maxClientNameLen
  clientAppId : FixedString maxAppIdLen
  ltsymbol : FixedString maxLtSymbolLen
  /-- The bar material, the version of the wallpaper metric and its value. -/
  reserved : Vector Byte 3
  layoutCount : BitVec 32
  layoutId : BitVec 32
  minimizedCount : BitVec 32
  minimizedFlags : BitVec 32
  minimizedWindows : Vector WireMinimizedWindowInfo maxMinimizedWindows
deriving DecidableEq, Inhabited

def wordMemory {w : Nat} (v : BitVec w) : List Byte := (wordBytes v).reverse

def WireMinimizedWindowInfo.bytes (window : WireMinimizedWindowInfo) : List Byte :=
  wordMemory window.windowId ++ wordMemory window.monitorId ++ wordMemory window.flags ++ window.title.bytes ++
    window.appId.bytes

/-- The fields stand one after another, without padding. -/
instance : WireSafe WireMessage where
  bytes message :=
    wordMemory message.timestamp ++ wordMemory message.wmSessionId ++ wordMemory message.minimizedGeneration ++
      wordMemory message.monitorNum ++ wordMemory message.monitorWidth ++ wordMemory message.monitorHeight ++
      wordMemory message.monitorX ++ wordMemory message.monitorY ++ message.tagFlags.toList ++ message.clientName.bytes ++
      message.clientAppId.bytes ++ message.ltsymbol.bytes ++ message.reserved.toList ++ wordMemory message.layoutCount ++
      wordMemory message.layoutId ++ wordMemory message.minimizedCount ++ wordMemory message.minimizedFlags ++
      message.minimizedWindows.toList.flatMap WireMinimizedWindowInfo.bytes

/-! ## Strings -/

theorem length_clearFrom (l : List Byte) (terminator : Nat) :
    (l.take terminator ++ List.replicate (l.length - terminator) 0).length = l.length := by
  rw [length_append, length_take, length_replicate]
  omega

/-- Zeros from the first zero on; where there is none, the last byte becomes one. -/
def clearTail (l : List Byte) : List Byte :=
  match l.findIdx? (· == 0) with
  | some terminator => l.take terminator ++ List.replicate (l.length - terminator) 0
  | none => l.set (l.length - 1) 0

theorem length_clearTail (l : List Byte) : (clearTail l).length = l.length := by
  unfold clearTail
  split
  · exact length_clearFrom l _
  · exact length_set

def canonicalizeFixedString {n : Nat} (value : FixedString n) : FixedString n :=
  ⟨clearTail value.bytes, (length_clearTail value.bytes).trans value.length_eq⟩

/-! ## Conversion -/

def WireMinimizedWindowInfo.ofWindow (window : MinimizedWindowInfo) : WireMinimizedWindowInfo where
  windowId := window.windowId
  monitorId := window.monitorId
  flags := window.flags
  title := canonicalizeFixedString window.title
  appId := canonicalizeFixedString window.appId

def MinimizedWindowInfo.ofWire (window : WireMinimizedWindowInfo) : MinimizedWindowInfo where
  windowId := window.windowId
  monitorId := window.monitorId
  flags := window.flags
  title := canonicalizeFixedString window.title
  appId := canonicalizeFixedString window.appId

def normalizeMinimizedMetadata (count flags : BitVec 32) : BitVec 32 × BitVec 32 :=
  let maximum := BitVec.ofNat 32 maxMinimizedWindows
  if maximum < count then (maximum, flags ||| minimizedListFlagOverflow) else (count, flags)

/-- The loop over the first entries of two arrays; entries past the count stay the default. -/
def convertFirst {α β : Type} [Inhabited β] (count : BitVec 32) (convert : α → β) (source : Vector α maxMinimizedWindows) :
    Vector β maxMinimizedWindows :=
  Vector.ofFn fun i => if i.val < count.toNat then convert source[i] else default

def TagStatus.flags (status : TagStatus) : Byte :=
  (BitVec.ofBool status.isSelected).setWidth 8 ||| (BitVec.ofBool status.isUrg).setWidth 8 <<< 1 |||
    (BitVec.ofBool status.isFilled).setWidth 8 <<< 2 ||| (BitVec.ofBool status.isOcc).setWidth 8 <<< 3

def TagStatus.ofFlags (flags : Byte) : TagStatus where
  isSelected := flags &&& 1 != 0
  isUrg := flags &&& 2 != 0
  isFilled := flags &&& 4 != 0
  isOcc := flags &&& 8 != 0

def blurByte : Option Bool → Byte
  | none => 0
  | some false => 1
  | some true => 2

def blurOfByte (b : Byte) : Option Bool :=
  if b = 1 then some false else if b = 2 then some true else none

def WireMessage.ofMessage (message : SharedMessage) : WireMessage :=
  let (minimizedCount, minimizedFlags) := normalizeMinimizedMetadata message.minimizedCount message.minimizedFlags
  { timestamp := message.timestamp
    wmSessionId := message.wmSessionId
    minimizedGeneration := message.minimizedGeneration
    monitorNum := message.monitorInfo.monitorNum
    monitorWidth := message.monitorInfo.monitorWidth
    monitorHeight := message.monitorInfo.monitorHeight
    monitorX := message.monitorInfo.monitorX
    monitorY := message.monitorInfo.monitorY
    tagFlags := message.monitorInfo.tagStatusVec.map TagStatus.flags
    clientName := canonicalizeFixedString message.monitorInfo.clientName
    clientAppId := canonicalizeFixedString message.monitorInfo.clientAppId
    ltsymbol := canonicalizeFixedString message.monitorInfo.ltsymbol
    reserved := #v[blurByte message.blurStatusBar, if message.wallpaperLuminance.isSome then 1 else 0,
      message.wallpaperLuminance.getD 0]
    layoutCount := message.monitorInfo.layoutCount
    layoutId := message.monitorInfo.layoutId
    minimizedCount := minimizedCount
    minimizedFlags := minimizedFlags
    minimizedWindows := convertFirst minimizedCount .ofWindow message.minimizedWindows }

def SharedMessage.ofWire (message : WireMessage) : SharedMessage :=
  let (minimizedCount, minimizedFlags) := normalizeMinimizedMetadata message.minimizedCount message.minimizedFlags
  { timestamp := message.timestamp
    blurStatusBar := blurOfByte message.reserved[0]
    wallpaperLuminance := if message.reserved[1] = 1 then some message.reserved[2] else none
    wmSessionId := message.wmSessionId
    minimizedGeneration := message.minimizedGeneration
    monitorInfo :=
      { monitorNum := message.monitorNum
        monitorWidth := message.monitorWidth
        monitorHeight := message.monitorHeight
        monitorX := message.monitorX
        monitorY := message.monitorY
        tagStatusVec := message.tagFlags.map TagStatus.ofFlags
        clientName := canonicalizeFixedString message.clientName
        clientAppId := canonicalizeFixedString message.clientAppId
        ltsymbol := canonicalizeFixedString message.ltsymbol
        layoutCount := message.layoutCount
        layoutId := message.layoutId }
    minimizedCount := minimizedCount
    minimizedFlags := minimizedFlags
    minimizedWindows := convertFirst minimizedCount .ofWire message.minimizedWindows }

/-! ## Canonical values -/

def FixedString.IsCanonical {n : Nat} (v : FixedString n) : Prop :=
  v.bytes = v.visible ++ List.replicate (n - v.visible.length) 0

namespace MinimizedWindowInfo

def canonical (window : MinimizedWindowInfo) : MinimizedWindowInfo :=
  { window with title := window.title.canonical, appId := window.appId.canonical }

structure IsCanonical (window : MinimizedWindowInfo) : Prop where
  title : window.title.IsCanonical
  appId : window.appId.IsCanonical

end MinimizedWindowInfo

def MonitorInfo.canonical (info : MonitorInfo) : MonitorInfo :=
  { info with
    clientName := info.clientName.canonical
    clientAppId := info.clientAppId.canonical
    ltsymbol := info.ltsymbol.canonical }

structure MonitorInfo.IsCanonical (info : MonitorInfo) : Prop where
  clientName : info.clientName.IsCanonical
  clientAppId : info.clientAppId.IsCanonical
  ltsymbol : info.ltsymbol.IsCanonical

namespace SharedMessage

def counted (m : SharedMessage) : Nat := min m.minimizedCount.toNat maxMinimizedWindows

/-- Strings end where they end visibly, and only the windows told of are there. -/
def canonical (m : SharedMessage) : SharedMessage :=
  { m with
    monitorInfo := m.monitorInfo.canonical
    minimizedCount := BitVec.ofNat 32 m.counted
    minimizedFlags :=
      if maxMinimizedWindows < m.minimizedCount.toNat then m.minimizedFlags ||| minimizedListFlagOverflow else m.minimizedFlags
    minimizedWindows := Vector.ofFn fun i => if i.val < m.counted then m.minimizedWindows[i].canonical else default }

structure IsCanonical (m : SharedMessage) : Prop where
  monitorInfo : m.monitorInfo.IsCanonical
  count_le : m.minimizedCount.toNat ≤ maxMinimizedWindows
  told : ∀ i : Fin maxMinimizedWindows, i.val < m.minimizedCount.toNat → m.minimizedWindows[i].IsCanonical
  rest : ∀ i : Fin maxMinimizedWindows, m.minimizedCount.toNat ≤ i.val → m.minimizedWindows[i] = default

end SharedMessage

section

variable {n : Nat} (v : FixedString n)

theorem FixedString.bytes_canonical : v.canonical.bytes = v.visible ++ List.replicate (n - v.visible.length) 0 := by
  show resize v.visible n 0 = _
  unfold resize
  rw [take_of_length_le (v.length_visible_le.trans (Nat.sub_le n 1))]

theorem FixedString.isCanonical_iff : v.IsCanonical ↔ v.canonical = v := by
  unfold IsCanonical
  rw [← v.bytes_canonical]
  exact ⟨fun h => FixedString.ext h.symm, fun h => congrArg bytes h.symm⟩

theorem FixedString.canonical_canonical : v.canonical.canonical = v.canonical := by
  show fill v.canonical.visible = v.canonical
  rw [v.visible_canonical]
  rfl

theorem canonicalizeFixedString_eq : canonicalizeFixedString v = v.canonical := by
  refine FixedString.ext ?_
  rw [v.bytes_canonical]
  obtain ⟨l, rfl⟩ := v
  show clearTail l = ((l.take (l.length - 1)).takeWhile (· != 0)) ++
    replicate (l.length - ((l.take (l.length - 1)).takeWhile (· != 0)).length) 0
  rw [← take_takeWhile, ← take_terminator]
  unfold clearTail
  split
  · rename_i terminator hfound
    obtain ⟨hlt, -, -⟩ := findIdx?_eq_some_iff_getElem.1 hfound
    rw [hfound, Option.getD_some, take_take, Nat.min_eq_right (by omega), length_take, Nat.min_eq_left (by omega)]
  · rename_i hnone
    rw [hnone, Option.getD_none, take_length, length_take]
    cases l using reverseRecOn with
    | nil => rfl
    | append_singleton l b => simp

end

/-! ## Fields -/

theorem TagStatus.ofFlags_flags (status : TagStatus) : ofFlags status.flags = status := by
  obtain ⟨a, b, c, d⟩ := status
  cases a <;> cases b <;> cases c <;> cases d <;> rfl

theorem blurOfByte_blurByte (blur : Option Bool) : blurOfByte (blurByte blur) = blur := by
  rcases blur with _ | _ | _ <;> rfl

theorem luminance_read (luminance : Option Byte) :
    (if (if luminance.isSome then (1 : Byte) else 0) = 1 then some (luminance.getD 0) else none) = luminance := by
  cases luminance <;> rfl

theorem tags_read (tags : Vector TagStatus maxTags) : (tags.map TagStatus.flags).map TagStatus.ofFlags = tags := by
  rw [Vector.map_map]
  exact (Vector.map_congr_left fun status _ => status.ofFlags_flags).trans (Vector.map_id _)

theorem window_codec : CanonicalCodec ofWindow MinimizedWindowInfo.ofWire MinimizedWindowInfo.canonical where
  decode_encode window := by
    unfold MinimizedWindowInfo.ofWire ofWindow MinimizedWindowInfo.canonical
    simp only [canonicalizeFixedString_eq, canonical_canonical]
  encode_canonical window := by
    unfold ofWindow MinimizedWindowInfo.canonical
    simp only [canonicalizeFixedString_eq, canonical_canonical]

section

variable {α β γ : Type} [Inhabited γ] {count : BitVec 32}

variable {a : Vector α maxMinimizedWindows}

theorem convertFirst_congr {f : α → γ} {g : β → γ} {b : Vector β maxMinimizedWindows}
    (h : ∀ i : Fin maxMinimizedWindows, i.val < count.toNat → f a[i] = g b[i]) :
    convertFirst count f a = convertFirst count g b := by
  unfold convertFirst
  congr 1
  funext i
  split
  · rename_i hi
    exact h i hi
  · rfl

theorem getElem_convertFirst {f : α → γ} (i : Fin maxMinimizedWindows) :
    (convertFirst count f a)[i] = if i.val < count.toNat then f a[i] else default := by
  exact Vector.getElem_ofFn i.isLt

theorem convertFirst_convertFirst [Inhabited β] {f : α → β} {g : β → γ} :
    convertFirst count g (convertFirst count f a) = convertFirst count (fun x => g (f x)) a := by
  exact convertFirst_congr fun i hi => congrArg g ((getElem_convertFirst i).trans (if_pos hi))

end

/-! ## The count -/

namespace SharedMessage

variable (m : SharedMessage)

theorem toNat_counted : (BitVec.ofNat 32 m.counted).toNat = m.counted := by
  have : m.counted ≤ 16 := Nat.min_le_right _ _
  rw [BitVec.toNat_ofNat, Nat.mod_eq_of_lt (by omega)]

theorem lt_count_iff (count : BitVec 32) : BitVec.ofNat 32 maxMinimizedWindows < count ↔ maxMinimizedWindows < count.toNat := by
  rw [BitVec.lt_def]
  rfl

theorem normalize_eq : normalizeMinimizedMetadata m.minimizedCount m.minimizedFlags =
    (m.canonical.minimizedCount, m.canonical.minimizedFlags) := by
  unfold normalizeMinimizedMetadata canonical counted
  by_cases h : maxMinimizedWindows < m.minimizedCount.toNat
  · rw [if_pos ((lt_count_iff _).2 h), if_pos h, Nat.min_eq_right (Nat.le_of_lt h)]
  · rw [if_neg (mt (lt_count_iff _).1 h), if_neg h, Nat.min_eq_left (Nat.le_of_not_lt h), BitVec.ofNat_toNat,
      BitVec.setWidth_eq]

theorem normalize_canonical : normalizeMinimizedMetadata m.canonical.minimizedCount m.canonical.minimizedFlags =
    (m.canonical.minimizedCount, m.canonical.minimizedFlags) := by
  refine if_neg fun hlt => ?_
  have hle : m.counted ≤ maxMinimizedWindows := Nat.min_le_right _ _
  have hgt : maxMinimizedWindows < (BitVec.ofNat 32 m.counted).toNat := (lt_count_iff _).1 hlt
  rw [m.toNat_counted] at hgt
  exact absurd hgt (Nat.not_lt_of_le hle)

theorem windows_canonical :
    m.canonical.minimizedWindows = convertFirst m.canonical.minimizedCount MinimizedWindowInfo.canonical m.minimizedWindows := by
  show _ = Vector.ofFn fun i : Fin maxMinimizedWindows =>
    if i.val < (BitVec.ofNat 32 m.counted).toNat then m.minimizedWindows[i].canonical else default
  rw [m.toNat_counted]
  rfl

end SharedMessage

/-! ## Messages -/

/-- A message goes out and comes back canonical, and what is not canonical about it does not go out. -/
theorem message_codec : CanonicalCodec WireMessage.ofMessage SharedMessage.ofWire SharedMessage.canonical where
  decode_encode m := by
    unfold SharedMessage.ofWire WireMessage.ofMessage
    simp only [m.normalize_eq, m.normalize_canonical, convertFirst_convertFirst, window_codec.decode_encode,
      canonicalizeFixedString_eq, canonical_canonical, tags_read]
    exact SharedMessage.ext rfl rfl rfl rfl rfl rfl m.windows_canonical.symm (blurOfByte_blurByte _) (luminance_read _)
  encode_canonical m := by
    have hwindows : convertFirst m.canonical.minimizedCount ofWindow m.canonical.minimizedWindows =
        convertFirst m.canonical.minimizedCount ofWindow m.minimizedWindows := by
      rw [m.windows_canonical, convertFirst_convertFirst]
      simp only [window_codec.encode_canonical]
    have hstring {n : Nat} (v : FixedString n) : canonicalizeFixedString v.canonical = canonicalizeFixedString v := by
      rw [canonicalizeFixedString_eq, canonicalizeFixedString_eq, v.canonical_canonical]
    unfold WireMessage.ofMessage
    simp only [m.normalize_eq, m.normalize_canonical, hwindows]
    exact WireMessage.ext rfl rfl rfl rfl rfl rfl rfl rfl rfl (hstring _) (hstring _) (hstring _) rfl rfl rfl rfl rfl rfl

theorem MinimizedWindowInfo.IsCanonical.canonical_eq {window : MinimizedWindowInfo} (h : window.IsCanonical) :
    window.canonical = window :=
  MinimizedWindowInfo.ext rfl rfl rfl ((isCanonical_iff _).1 h.title) ((isCanonical_iff _).1 h.appId)

namespace SharedMessage

variable (m : SharedMessage)

theorem isCanonical_canonical : m.canonical.IsCanonical where
  monitorInfo :=
    { clientName := (isCanonical_iff _).2 (canonical_canonical _)
      clientAppId := (isCanonical_iff _).2 (canonical_canonical _)
      ltsymbol := (isCanonical_iff _).2 (canonical_canonical _) }
  count_le := m.toNat_counted.le.trans (Nat.min_le_right _ _)
  told i hi := by
    rw [m.windows_canonical, getElem_convertFirst, if_pos hi]
    exact ⟨(isCanonical_iff _).2 (canonical_canonical _), (isCanonical_iff _).2 (canonical_canonical _)⟩
  rest i hi := by
    rw [m.windows_canonical, getElem_convertFirst, if_neg (Nat.not_lt_of_le hi)]

theorem IsCanonical.canonical_eq {m : SharedMessage} (h : m.IsCanonical) : m.canonical = m := by
  have hcount : m.counted = m.minimizedCount.toNat := Nat.min_eq_left h.count_le
  refine SharedMessage.ext rfl rfl rfl ?_ ?_ (if_neg (Nat.not_lt_of_le h.count_le)) ?_ rfl rfl
  · exact MonitorInfo.ext rfl rfl rfl rfl rfl rfl ((isCanonical_iff _).1 h.monitorInfo.clientName)
      ((isCanonical_iff _).1 h.monitorInfo.clientAppId)
      ((isCanonical_iff _).1 h.monitorInfo.ltsymbol) rfl rfl
  · show BitVec.ofNat 32 m.counted = m.minimizedCount
    rw [hcount, BitVec.ofNat_toNat, BitVec.setWidth_eq]
  · refine Vector.ext fun i hi => ?_
    show (Vector.ofFn fun j : Fin maxMinimizedWindows => if j.val < m.counted then m.minimizedWindows[j].canonical else default)[i] = _
    rw [Vector.getElem_ofFn, hcount]
    split
    · rename_i hlt
      exact (h.told ⟨i, hi⟩ hlt).canonical_eq
    · rename_i hge
      exact (h.rest ⟨i, hi⟩ (Nat.le_of_not_lt hge)).symm

def roundTrip : SharedMessage := ofWire (.ofMessage m)

/-- What the setters stored is read back as far as it was kept. -/
structure TextsKept : Prop where
  clientName : ∀ (info : MonitorInfo) (name : String), m.monitorInfo.clientName = (info.setClientName name).clientName →
    Keeps maxClientNameLen name m.roundTrip.monitorInfo.getClientName
  clientAppId : ∀ (info : MonitorInfo) (appId : String),
    m.monitorInfo.clientAppId = (info.setClientAppId appId).clientAppId →
    Keeps maxAppIdLen appId m.roundTrip.monitorInfo.getClientAppId
  ltsymbol : ∀ (info : MonitorInfo) (symbol : String), m.monitorInfo.ltsymbol = (info.setLtsymbol symbol).ltsymbol →
    Keeps maxLtSymbolLen symbol m.roundTrip.monitorInfo.getLtsymbol
  title : ∀ i : Fin maxMinimizedWindows, i.val < m.counted → ∀ (window : MinimizedWindowInfo) (title : String),
    m.minimizedWindows[i].title = (window.setTitle title).title →
    Keeps maxWindowTitleLen title m.roundTrip.minimizedWindows[i].getTitle
  appId : ∀ i : Fin maxMinimizedWindows, i.val < m.counted → ∀ (window : MinimizedWindowInfo) (appId : String),
    m.minimizedWindows[i].appId = (window.setAppId appId).appId →
    Keeps maxAppIdLen appId m.roundTrip.minimizedWindows[i].getAppId

theorem roundTrip_eq : m.roundTrip = m.canonical := message_codec.decode_encode m

theorem getElem_roundTrip {i : Fin maxMinimizedWindows} (hi : i.val < m.counted) :
    m.roundTrip.minimizedWindows[i] = m.minimizedWindows[i].canonical := by
  rw [m.roundTrip_eq, m.windows_canonical, getElem_convertFirst]
  exact if_pos (hi.trans_eq m.toNat_counted.symm)

theorem textsKept : m.TextsKept where
  clientName info name h := by
    rw [m.roundTrip_eq]
    show Keeps _ name (bytesLossy m.monitorInfo.clientName.canonical)
    rw [h]
    exact keeps_bytesLossy _ name
  clientAppId info appId h := by
    rw [m.roundTrip_eq]
    show Keeps _ appId (bytesLossy m.monitorInfo.clientAppId.canonical)
    rw [h]
    exact keeps_bytesLossy _ appId
  ltsymbol info symbol h := by
    rw [m.roundTrip_eq]
    show Keeps _ symbol (bytesLossy m.monitorInfo.ltsymbol.canonical)
    rw [h]
    exact keeps_bytesLossy _ symbol
  title i hi window title h := by
    rw [m.getElem_roundTrip hi]
    show Keeps _ title (bytesLossy m.minimizedWindows[i].title.canonical)
    rw [h]
    exact keeps_bytesLossy _ title
  appId i hi window appId h := by
    rw [m.getElem_roundTrip hi]
    show Keeps _ appId (bytesLossy m.minimizedWindows[i].appId.canonical)
    rw [h]
    exact keeps_bytesLossy _ appId

end SharedMessage

/-- What comes back of a message is its canonical form, which comes back as it is; messages with one canonical form are the
same bytes. -/
theorem wire_projection (m : SharedMessage) :
    m.roundTrip = m.canonical ∧ m.roundTrip.IsCanonical ∧ m.roundTrip.roundTrip = m.roundTrip ∧
      (m.IsCanonical → m.roundTrip = m) ∧
      (∀ other : SharedMessage, m.canonical = other.canonical →
        WireSafe.bytes (WireMessage.ofMessage m) = WireSafe.bytes (WireMessage.ofMessage other)) ∧ m.TextsKept := by
  refine ⟨m.roundTrip_eq, ?_, ?_, fun h => ?_, fun other h => ?_, m.textsKept⟩
  · rw [m.roundTrip_eq]
    exact m.isCanonical_canonical
  · rw [SharedMessage.roundTrip_eq, m.roundTrip_eq, message_codec.canonical_canonical]
  · rw [m.roundTrip_eq, h.canonical_eq]
  · rw [message_codec.encode_eq_iff.2 h]

theorem wire_projection_sample :
    let m : SharedMessage := { (default : SharedMessage) with monitorInfo := (default : MonitorInfo).setLtsymbol "[M]" }
    Keeps maxLtSymbolLen "[M]" m.roundTrip.monitorInfo.getLtsymbol := by
  intro m
  exact (wire_projection m).2.2.2.2.2.ltsymbol default "[M]" rfl

end Jwm.Ipc
