/-
What a bar is told about its monitor. Text is stored in arrays of fixed size that end at their first zero byte: storing cuts
it at a character, so that reading it back shows the longest run of characters that fits.
-/
import Jwm.Data.Utf8
import Jwm.Data.Vec

namespace Jwm.Ipc

open Utf8
open List (all_takeWhile append_nil findIdx_eq_getD_findIdx? findIdx_le_length length_take length_take_le mem_flatMap
  takeWhile_append_of_pos takeWhile_eq_take_findIdx_not takeWhile_replicate takeWhile_sublist take_append take_of_length_le
  take_replicate)

def maxClientNameLen : Nat := 128

def maxLtSymbolLen : Nat := 32

def maxTags : Nat := 9

/-- How many minimized windows one monitor snapshot carries. -/
def maxMinimizedWindows : Nat := 16

/-- Storage of a minimized window's title, its terminator included. -/
def maxWindowTitleLen : Nat := 96

/-- Storage of an app-id or class, its terminator included. -/
def maxAppIdLen : Nat := 64

def minimizedListFlagOverflow : BitVec 32 := 1

/-! ## Strings of fixed size -/

/-- `[u8; N]`. -/
structure FixedString (n : Nat) where
  bytes : List Byte
  length_eq : bytes.length = n
deriving DecidableEq

namespace FixedString

variable {n : Nat}

@[ext] theorem ext {v w : FixedString n} (h : v.bytes = w.bytes) : v = w := by
  cases v
  cases w
  cases h
  rfl

def fill (l : List Byte) : FixedString n := ⟨resize l n 0, length_resize l n 0⟩

instance : Inhabited (FixedString n) := ⟨fill []⟩

/-- The bytes before the first zero; the last byte is a terminator, whatever it is. -/
def visible (v : FixedString n) : List Byte := (v.bytes.take (n - 1)).takeWhile (· != 0)

def canonical (v : FixedString n) : FixedString n := fill v.visible

theorem length_visible_le (v : FixedString n) : v.visible.length ≤ n - 1 :=
  (takeWhile_sublist _).length_le.trans (length_take_le _ _)

theorem visible_fill {l : List Byte} (hlen : l.length ≤ n - 1) (h : ∀ b ∈ l, b ≠ 0) : (fill l : FixedString n).visible = l := by
  show ((resize l n 0).take (n - 1)).takeWhile (· != 0) = l
  unfold resize
  rw [take_of_length_le (hlen.trans (Nat.sub_le n 1)), take_append, take_of_length_le hlen,
    takeWhile_append_of_pos fun b hb => by simpa using h b hb, take_replicate, takeWhile_replicate]
  exact append_nil l

theorem ne_zero_of_mem_visible {v : FixedString n} {b : Byte} (hb : b ∈ v.visible) : b ≠ 0 := by
  simpa using List.all_eq_true.1 all_takeWhile b hb

theorem visible_canonical (v : FixedString n) : v.canonical.visible = v.visible :=
  visible_fill v.length_visible_le fun _ => ne_zero_of_mem_visible

end FixedString

/-- `copy_utf8_truncated`. -/
def copyUtf8Truncated {n : Nat} (destination : FixedString n) (value : String) : FixedString n :=
  let bytes := utf8Bytes value
  let contentLen := (bytes.findIdx? (· == 0)).getD bytes.length
  let len := floorBoundary bytes (min contentLen (destination.bytes.length - 1))
  .fill (bytes.take len)

/-- `bytes_lossy`. -/
def bytesLossy {n : Nat} (v : FixedString n) : String :=
  fromUtf8Lossy (v.bytes.take ((v.bytes.findIdx? (· == 0)).getD v.bytes.length))

theorem take_terminator (l : List Byte) : l.take ((l.findIdx? (· == 0)).getD l.length) = l.takeWhile (· != 0) := by
  rw [← findIdx_eq_getD_findIdx?, takeWhile_eq_take_findIdx_not]
  congr 2
  funext b
  exact (Bool.not_not _).symm

/-- What is read back of a stored text: the most of it that goes before its first NUL and leaves room for a terminator. -/
def Keeps (n : Nat) (value read : String) : Prop :=
  LongestFitting (value.toList.takeWhile (· != '\x00')) (n - 1) read.toList

section

variable {n : Nat}

theorem bytesLossy_fill {l : List Byte} (hlen : l.length ≤ n) (h : ∀ b ∈ l, b ≠ 0) :
    bytesLossy (.fill l : FixedString n) = fromUtf8Lossy l := by
  unfold bytesLossy
  rw [take_terminator]
  show fromUtf8Lossy ((resize l n 0).takeWhile (· != 0)) = fromUtf8Lossy l
  unfold resize
  rw [take_of_length_le hlen, takeWhile_append_of_pos fun b hb => by simpa using h b hb, takeWhile_replicate]
  exact congrArg fromUtf8Lossy (append_nil l)

theorem copyUtf8Truncated_eq (destination : FixedString n) (value : String) :
    ∃ p, LongestFitting (value.toList.takeWhile (· != '\x00')) (n - 1) p ∧
      copyUtf8Truncated destination value = .fill (encode p) := by
  have hcontent : ((utf8Bytes value).findIdx? (· == 0)).getD (utf8Bytes value).length =
      (encode (value.toList.takeWhile (· != '\x00'))).length := by
    rw [← takeWhile_encode, ← utf8Bytes_eq, ← take_terminator, length_take, Nat.min_eq_left]
    rw [← findIdx_eq_getD_findIdx?]
    exact findIdx_le_length
  have hle : (encode (value.toList.takeWhile (· != '\x00'))).length ≤ (encode value.toList).length := by
    rw [← takeWhile_encode]
    exact (takeWhile_sublist _).length_le
  obtain ⟨p, hp, htake⟩ := take_floorBoundary value.toList ((Nat.min_le_left _ (n - 1)).trans hle)
  refine ⟨p, ⟨?_, hp.fits.trans (Nat.min_le_right _ _), fun q hq hfits => ?_⟩, ?_⟩
  · exact prefix_of_length_le hp.isPrefix (List.takeWhile_prefix _) (hp.fits.trans (Nat.min_le_left _ _))
  · exact hp.longest q (hq.trans (List.takeWhile_prefix _)) (Nat.le_min.2 ⟨length_encode_le hq, hfits⟩)
  · unfold copyUtf8Truncated
    dsimp only
    rw [hcontent, destination.length_eq, utf8Bytes_eq, htake]

theorem keeps_bytesLossy (destination : FixedString n) (value : String) :
    Keeps n value (bytesLossy (copyUtf8Truncated destination value).canonical) := by
  obtain ⟨p, hp, hcopy⟩ := copyUtf8Truncated_eq destination value
  have hzero : ∀ b ∈ encode p, b ≠ 0 := by
    intro b hb
    obtain ⟨c, hc, hbc⟩ := mem_flatMap.1 hb
    refine ne_zero_of_mem_charBytes ?_ hbc
    simpa using List.all_eq_true.1 all_takeWhile c (hp.isPrefix.subset hc)
  rw [hcopy, FixedString.canonical, FixedString.visible_fill hp.fits hzero, bytesLossy_fill (hp.fits.trans (Nat.sub_le n 1)) hzero]
  have hread : fromUtf8Lossy (encode p) = String.ofList p := by
    rw [← fromUtf8Lossy_utf8Bytes (String.ofList p), utf8Bytes_eq, String.toList_ofList]
  unfold Keeps
  rw [hread, String.toList_ofList]
  exact hp

end

/-! ## Messages -/

structure TagStatus where
  isSelected : Bool
  isUrg : Bool
  isFilled : Bool
  isOcc : Bool
deriving DecidableEq, Inhabited

@[ext] structure MonitorInfo where
  monitorNum : BitVec 32
  monitorWidth : BitVec 32
  monitorHeight : BitVec 32
  monitorX : BitVec 32
  monitorY : BitVec 32
  tagStatusVec : Vector TagStatus maxTags
  clientName : FixedString maxClientNameLen
  /-- App-id or class of the focused client. -/
  clientAppId : FixedString maxAppIdLen
  ltsymbol : FixedString maxLtSymbolLen
  layoutCount : BitVec 32
  layoutId : BitVec 32
deriving DecidableEq, Inhabited

namespace MonitorInfo

def setClientName (info : MonitorInfo) (name : String) : MonitorInfo :=
  { info with clientName := copyUtf8Truncated info.clientName name }

def getClientName (info : MonitorInfo) : String := bytesLossy info.clientName

def setClientAppId (info : MonitorInfo) (appId : String) : MonitorInfo :=
  { info with clientAppId := copyUtf8Truncated info.clientAppId appId }

def getClientAppId (info : MonitorInfo) : String := bytesLossy info.clientAppId

def setLtsymbol (info : MonitorInfo) (symbol : String) : MonitorInfo :=
  { info with ltsymbol := copyUtf8Truncated info.ltsymbol symbol }

def getLtsymbol (info : MonitorInfo) : String := bytesLossy info.ltsymbol

end MonitorInfo

/-- A minimized window; its id is stable within the session of the message around it. -/
@[ext] structure MinimizedWindowInfo where
  windowId : BitVec 64
  monitorId : BitVec 32
  flags : BitVec 32
  title : FixedString maxWindowTitleLen
  appId : FixedString maxAppIdLen
deriving DecidableEq, Inhabited

namespace MinimizedWindowInfo

def setTitle (window : MinimizedWindowInfo) (title : String) : MinimizedWindowInfo :=
  { window with title := copyUtf8Truncated window.title title }

def getTitle (window : MinimizedWindowInfo) : String := bytesLossy window.title

def setAppId (window : MinimizedWindowInfo) (appId : String) : MinimizedWindowInfo :=
  { window with appId := copyUtf8Truncated window.appId appId }

def getAppId (window : MinimizedWindowInfo) : String := bytesLossy window.appId

end MinimizedWindowInfo

@[ext] structure SharedMessage where
  timestamp : BitVec 64
  wmSessionId : BitVec 64
  minimizedGeneration : BitVec 64
  monitorInfo : MonitorInfo
  minimizedCount : BitVec 32
  minimizedFlags : BitVec 32
  minimizedWindows : Vector MinimizedWindowInfo maxMinimizedWindows
  blurStatusBar : Option Bool
  /-- From black to white. -/
  wallpaperLuminance : Option Byte
deriving DecidableEq, Inhabited

end Jwm.Ipc
