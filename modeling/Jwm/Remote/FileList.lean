/-
Copied file lists (`clipboard_offer.rs`): what is read of a list that any application may put on the clipboard, and the lists served to
applications. A string slice that does not fall on character boundaries stops the thread; the parser takes one at a fixed offset.
-/
import Jwm.Data.Utf8
import Jwm.Ipc.IpcServer
import Mathlib.Data.List.DropRight

namespace Jwm.FileList

open Ipc (isWhitespace)
open List Option Utf8 Bool

/-- The bytes of a path. -/
abbrev Path := List Byte

/-- What stops the thread. -/
inductive Panic where
  | sliceBoundary (index : Nat)
  deriving DecidableEq

/-- `&text[..index]` and `&text[index..]`. -/
def sliceAt (text : List Char) (index : Nat) : Except Panic (List Char × List Char) :=
  match Utf8.splitAtByte text index with
  | some parts => .ok parts
  | none => .error (.sliceBoundary index)

/-- `str::len`. -/
def byteLen (text : List Char) : Nat := (Utf8.encode text).length

/-- `str::find` of a character: the byte offset of the first one. -/
def find (c : Char) (text : List Char) : Option Nat :=
  if c ∈ text then some (byteLen (text.takeWhile (· ≠ c))) else none

def eqIgnoreAsciiCase (a b : List Char) : Bool := a.map Char.toLower == b.map Char.toLower

/-- `str::trim`. -/
def trim (text : List Char) : List Char := (text.dropWhile isWhitespace).rdropWhile isWhitespace

def trimEndMatches (c : Char) (text : List Char) : List Char := text.rdropWhile (· == c)

/-! ## Reading -/

def hex (digit : Byte) : Option Byte :=
  if 0x30#8 ≤ digit ∧ digit ≤ 0x39#8 then some (digit - 0x30#8)
  else if 0x61#8 ≤ digit ∧ digit ≤ 0x66#8 then some (digit - 0x61#8 + 10#8)
  else if 0x41#8 ≤ digit ∧ digit ≤ 0x46#8 then some (digit - 0x41#8 + 10#8)
  else none

def percentDecode : List Byte → Option (List Byte)
  | [] => some []
  | byte :: rest =>
    if byte = 0x25#8 then
      match rest with
      | high :: low :: rest => do
        let high ← hex high
        let low ← hex low
        let decoded ← percentDecode rest
        return (high <<< 4 ||| low) :: decoded
      | _ => none
    else (percentDecode rest).map (byte :: ·)

def decodePath (path : List Char) : Option Path :=
  if path.contains '?' || path.contains '#' then none
  else (percentDecode (Utf8.encode path)).filter fun decoded => decoded.head? == some 0x2f#8 && !decoded.contains 0

def schemeLen : Nat := "file:".length

def localPathFromFileUri (uri : List Char) : Except Panic (Option Path) :=
  if byteLen uri < schemeLen then .ok none
  else do
    let parts ← sliceAt uri schemeLen
    if !eqIgnoreAsciiCase parts.1 "file:".toList then return none
    let rest := parts.2
    if ['/', '/'].isPrefixOf rest then
      let authorityAndPath := rest.drop 2
      match find '/' authorityAndPath with
      | none => return none
      | some slash =>
        let cut ← sliceAt authorityAndPath slash
        if !cut.1.isEmpty && !eqIgnoreAsciiCase cut.1 "localhost".toList then return none
        return decodePath cut.2
    else if rest.head? = some '/' then return decodePath rest
    else return none

def maxFileListItems : Nat := 4096

/-- The loop over the lines, with the paths read so far. -/
def readLines : List (List Char) → List Path → Except Panic (Option (List Path))
  | [], paths => .ok (if paths.isEmpty then none else some paths)
  | line :: lines, paths =>
    if (trim line).isEmpty || (trim line).head? == some '#' then readLines lines paths
    else if paths.length = maxFileListItems then .ok none
    else
      match localPathFromFileUri (trim line) with
      | .error panic => .error panic
      | .ok none => .ok none
      | .ok (some path) => readLines lines (paths ++ [path])

def gnomeCopiedFilesMime : String := "x-special/gnome-copied-files"

def uriListMime : String := "text/uri-list"

/-- The lines behind the operation, if there has to be one; nothing if this is no file list at all. -/
def listLines (mime : String) (bytes : List Byte) : Option (List (List Char)) :=
  match fromUtf8 bytes with
  | .error _ => none
  | .ok text =>
    let lines := ((trimEndMatches '\x00' text.toList).splitOn '\n').map (trimEndMatches '\r')
    if mime = gnomeCopiedFilesMime then
      match lines with
      | operation :: lines => if operation = "copy".toList ∨ operation = "cut".toList then some lines else none
      | [] => none
    else if mime = uriListMime then some lines
    else none

def parseFileList (mime : String) (bytes : List Byte) : Except Panic (Option (List Path)) :=
  match listLines mime bytes with
  | none => .ok none
  | some lines => readLines lines []

/-! ## Writing -/

/-- RFC 3986's unreserved set and `/`. -/
def isUnreserved (byte : Byte) : Bool :=
  (0x30#8 ≤ byte && byte ≤ 0x39#8) || (0x41#8 ≤ byte && byte ≤ 0x5a#8) || (0x61#8 ≤ byte && byte ≤ 0x7a#8) ||
    [0x2f#8, 0x2d#8, 0x2e#8, 0x5f#8, 0x7e#8].contains byte

def upperHex (n : Nat) : Char := Char.ofNat (if n < 10 then 0x30 + n else 0x37 + n)

def uriByte (byte : Byte) : List Char :=
  if isUnreserved byte then [Char.ofNat byte.toNat] else ['%', upperHex (byte.toNat / 16), upperHex (byte.toNat % 16)]

def fileUri (path : Path) : List Char := "file://".toList ++ path.flatMap uriByte

structure FileListPayloads where
  gnome : List Byte
  uriList : List Byte
  text : List Byte
  deriving DecidableEq

def fileListPayloads (paths : List Path) : FileListPayloads where
  gnome := Utf8.encode "copy".toList ++ paths.flatMap fun path => 0x0a#8 :: Utf8.encode (fileUri path)
  uriList := paths.flatMap fun path => Utf8.encode (fileUri path) ++ [0x0d#8, 0x0a#8]
  text := Utf8.encode (['\n'].intercalate (paths.map fun path => (Utf8.fromUtf8Lossy path).toList))

/-! ## Slices -/

/-- A character begins before the offset and ends behind it. -/
def Straddles (text : List Char) (index : Nat) : Prop :=
  ∃ (a b : List Char) (c : Char), text = a ++ c :: b ∧ byteLen a < index ∧ index < byteLen (a ++ [c])

section

variable {text : List Char} {index : Nat}

theorem byteLen_append (a b : List Char) : byteLen (a ++ b) = byteLen a + byteLen b := by
  rw [byteLen, encode_append, length_append, byteLen, byteLen]

theorem byteLen_cons (c : Char) (a : List Char) : byteLen (c :: a) = (charBytes c).length + byteLen a := by
  rw [byteLen, encode_cons, length_append, byteLen]

theorem boundary_or_straddles : ∀ {text : List Char} {index : Nat}, index ≤ byteLen text →
    (∃ a b, text = a ++ b ∧ byteLen a = index) ∨ Straddles text index
  | [], index, h => .inl ⟨[], [], rfl, (Nat.le_zero.1 h).symm⟩
  | c :: text, index, h => by
    rw [byteLen_cons] at h
    by_cases hzero : index = 0
    · exact .inl ⟨[], c :: text, rfl, hzero.symm⟩
    by_cases hc : (charBytes c).length ≤ index
    · rcases @boundary_or_straddles text (index - (charBytes c).length) (by omega) with
        ⟨a, b, rfl, hlen⟩ | ⟨a, b, d, rfl, hlow, hhigh⟩
      · refine .inl ⟨c :: a, b, rfl, ?_⟩
        rw [byteLen_cons]
        omega
      · refine .inr ⟨c :: a, b, d, rfl, ?_, ?_⟩
        · rw [byteLen_cons]
          omega
        · rw [cons_append, byteLen_cons]
          omega
    · refine .inr ⟨[], text, c, rfl, Nat.pos_of_ne_zero hzero, ?_⟩
      rw [nil_append, byteLen_cons]
      exact Nat.lt_of_lt_of_le (Nat.lt_of_not_le hc) (Nat.le_add_right _ _)

theorem not_boundary_of_straddles (h : Straddles text index) : ¬ ∃ a b, text = a ++ b ∧ byteLen a = index := by
  rintro ⟨p, q, hpq, hlen⟩
  obtain ⟨a, b, c, rfl, hlow, hhigh⟩ := h
  -- the boundary would be in front of the character or behind it
  rcases append_eq_append_iff.1 hpq with ⟨m, rfl, hm⟩ | ⟨m, rfl, -⟩
  · cases m with
    | nil =>
      rw [append_nil] at hlen
      omega
    | cons d m =>
      obtain ⟨rfl, -⟩ := List.cons.inj hm
      rw [append_cons, byteLen_append] at hlen
      omega
  · rw [byteLen_append] at hlow
    omega

theorem sliceAt_of_boundary {a b : List Char} (h : byteLen a = index) : sliceAt (a ++ b) index = .ok (a, b) := by
  rw [sliceAt, splitAtByte_eq_some.2 ⟨rfl, h⟩]

theorem sliceAt_of_straddles (h : Straddles text index) : sliceAt text index = .error (.sliceBoundary index) := by
  have hnone : splitAtByte text index = none := by
    rw [eq_none_iff_forall_not_mem]
    rintro ⟨a, b⟩ hparts
    exact not_boundary_of_straddles h ⟨a, b, splitAtByte_eq_some.1 hparts⟩
  rw [sliceAt, hnone]

end

/-! ## One line -/

/-- A path as the list may hold it: absolute, and without NUL. -/
def Absolute (path : Path) : Prop := path.head? = some 0x2f#8 ∧ 0 ∉ path

theorem absolute_of_decodePath {path : List Char} {p : Path} (h : decodePath path = some p) : Absolute p := by
  unfold decodePath at h
  split at h
  · cases h
  · obtain ⟨-, hp⟩ := filter_eq_some_iff.1 h
    simpa [Absolute] using hp

variable {c : Char}

theorem takeWhile_append_dropWhile_find {text : List Char} (h : c ∈ text) :
    ∃ rest, text = text.takeWhile (· ≠ c) ++ c :: rest := by
  obtain ⟨a, b, rfl, ha⟩ := eq_append_cons_of_mem h
  refine ⟨b, ?_⟩
  rw [takeWhile_append_of_pos fun d hd => by simpa using fun hdc : d = c => ha (hdc ▸ hd), takeWhile_cons_of_neg (by simp),
    append_nil]

/-- Only the slice behind the scheme can stop the thread, just when a character covers that offset. -/
theorem localPathFromFileUri_spec (uri : List Char) :
    (Straddles uri schemeLen ∧ localPathFromFileUri uri = .error (.sliceBoundary schemeLen)) ∨
    (¬ Straddles uri schemeLen ∧ ∃ path, localPathFromFileUri uri = .ok path ∧ ∀ p, path = some p → Absolute p) := by
  unfold localPathFromFileUri
  by_cases hshort : byteLen uri < schemeLen
  · rw [if_pos hshort]
    refine .inr ⟨?_, none, rfl, fun p hp => by cases hp⟩
    rintro ⟨a, b, c, rfl, -, hhigh⟩
    rw [append_cons, byteLen_append] at hshort
    omega
  rw [if_neg hshort]
  rcases boundary_or_straddles (Nat.le_of_not_lt hshort) with ⟨a, b, rfl, hlen⟩ | hstraddles
  · refine .inr ⟨fun h => not_boundary_of_straddles h ⟨a, b, rfl, hlen⟩, ?_⟩
    rw [sliceAt_of_boundary hlen]
    dsimp only [bind, Except.bind, pure, Except.pure]
    split
    · exact ⟨none, rfl, fun p hp => by cases hp⟩
    split
    · cases hfind : find '/' (b.drop 2) with
      | none => exact ⟨none, rfl, fun p hp => by cases hp⟩
      | some slash =>
        -- the slash begins a character, so that the slices around it are whole
        have hslash : '/' ∈ b.drop 2 := by
          by_contra hnot
          rw [find, if_neg hnot] at hfind
          cases hfind
        obtain ⟨rest, hrest⟩ := takeWhile_append_dropWhile_find hslash
        have hindex : byteLen ((b.drop 2).takeWhile (· ≠ '/')) = slash := by
          rw [find, if_pos hslash] at hfind
          exact some.inj hfind
        have hslice : sliceAt (b.drop 2) slash = .ok ((b.drop 2).takeWhile (· ≠ '/'), '/' :: rest) := by
          conv_lhs => rw [hrest]
          exact sliceAt_of_boundary hindex
        dsimp only
        rw [hslice]
        dsimp only
        split
        · exact ⟨none, rfl, fun p hp => by cases hp⟩
        · exact ⟨_, rfl, fun p hp => absolute_of_decodePath hp⟩
    · split
      · exact ⟨_, rfl, fun p hp => absolute_of_decodePath hp⟩
      · exact ⟨none, rfl, fun p hp => by cases hp⟩
  · refine .inl ⟨hstraddles, ?_⟩
    rw [sliceAt_of_straddles hstraddles]
    rfl

/-! ## All lines -/

/-- The trimmed lines that are neither blank nor comments. -/
def entries (lines : List (List Char)) : List (List Char) :=
  (lines.map trim).filter fun line => !(line.isEmpty || line.head? == some '#')

def IsLocalFileUri (line : List Char) : Prop := ∃ path, localPathFromFileUri line = .ok (some path)

/-- The reader, with `n` paths so far, comes to an entry whose scheme would be cut off inside a character: all entries before it name
local files, and there is room for another path. -/
def ComesToStraddling (n : Nat) (lines : List (List Char)) : Prop :=
  ∃ before line behind, entries lines = before ++ line :: behind ∧ Straddles line schemeLen ∧
    (∀ l ∈ before, IsLocalFileUri l) ∧ n + before.length < maxFileListItems

/-- What a file list may hand out. -/
structure ValidPaths (paths : List Path) : Prop where
  nonempty : 1 ≤ paths.length
  bounded : paths.length ≤ maxFileListItems
  absolute : ∀ path ∈ paths, Absolute path

variable {path : Path} {n : Nat} {lines : List (List Char)} {d : Char}

theorem not_comesToStraddling_of_nil (h : entries lines = []) : ¬ ComesToStraddling n lines := by
  rintro ⟨before, line, behind, heq, -⟩
  rw [h] at heq
  exact append_ne_nil_of_right_ne_nil before (cons_ne_nil line behind) heq.symm

theorem comesToStraddling_cons {line : List Char} {lines' : List (List Char)}
    (h : entries lines = line :: entries lines') : ComesToStraddling n lines ↔
      n < maxFileListItems ∧ (Straddles line schemeLen ∨ IsLocalFileUri line ∧ ComesToStraddling (n + 1) lines') := by
  constructor
  · rintro ⟨before, line', behind, heq, hstraddles, hlocal, hroom⟩
    rw [h] at heq
    refine ⟨by omega, ?_⟩
    cases before with
    | nil =>
      obtain ⟨rfl, -⟩ := List.cons.inj heq
      exact .inl hstraddles
    | cons first before =>
      obtain ⟨rfl, htail⟩ := List.cons.inj heq
      rw [length_cons] at hroom
      exact .inr ⟨hlocal _ mem_cons_self, before, line', behind, htail, hstraddles,
        fun l hl => hlocal l (mem_cons_of_mem _ hl), by omega⟩
  · rintro ⟨hroom, hstraddles | ⟨hlocal, before, line', behind, heq, hstraddles, hbefore, hroom'⟩⟩
    · exact ⟨[], line, entries lines', h, hstraddles, fun l hl => absurd hl not_mem_nil, hroom⟩
    · refine ⟨line :: before, line', behind, by rw [h, heq, cons_append], hstraddles, ?_, ?_⟩
      · exact forall_mem_cons.2 ⟨hlocal, hbefore⟩
      · rw [length_cons]
        omega

theorem readLines_spec : ∀ {lines : List (List Char)} {paths : List Path}, paths.length ≤ maxFileListItems →
    (∀ path ∈ paths, Absolute path) →
    (ComesToStraddling paths.length lines ∧ ∃ panic, readLines lines paths = .error panic) ∨
    (¬ ComesToStraddling paths.length lines ∧ ∃ result, readLines lines paths = .ok result ∧ ∀ ps, result = some ps → ValidPaths ps)
  | [], paths, hlen, habsolute => by
    refine .inr ⟨not_comesToStraddling_of_nil rfl, _, rfl, ?_⟩
    intro ps hps
    split at hps
    · cases hps
    · rename_i hne
      cases hps
      refine ⟨?_, hlen, habsolute⟩
      rw [List.isEmpty_iff] at hne
      exact length_pos_iff.2 hne
  | line :: lines, paths, hlen, habsolute => by
    rw [readLines]
    by_cases hskip : ((trim line).isEmpty || (trim line).head? == some '#') = true
    · have hentries : entries (line :: lines) = entries lines := by
        rw [entries, map_cons, filter_cons_of_neg (by rw [hskip]; exact Bool.false_ne_true), entries]
      have hsame : ComesToStraddling paths.length (line :: lines) ↔ ComesToStraddling paths.length lines := by
        unfold ComesToStraddling
        rw [hentries]
      rw [if_pos hskip, hsame]
      exact readLines_spec hlen habsolute
    have hentries : entries (line :: lines) = trim line :: entries lines := by
      rw [not_eq_true] at hskip
      rw [entries, map_cons, filter_cons_of_pos (by rw [hskip]; rfl), entries]
    rw [if_neg hskip, comesToStraddling_cons hentries]
    by_cases hfull : paths.length = maxFileListItems
    · rw [if_pos hfull]
      exact .inr ⟨fun h => by omega, none, rfl, fun ps hps => by cases hps⟩
    rw [if_neg hfull]
    rcases localPathFromFileUri_spec (trim line) with ⟨hstraddles, herror⟩ | ⟨hstraddles, path, hok, hpath⟩
    · rw [herror]
      exact .inl ⟨⟨by omega, .inl hstraddles⟩, _, rfl⟩
    · rw [hok]
      cases path with
      | none =>
        refine .inr ⟨?_, none, rfl, fun ps hps => by cases hps⟩
        rintro ⟨-, h | ⟨⟨path, hlocal⟩, -⟩⟩
        · exact hstraddles h
        · rw [hok] at hlocal
          cases hlocal
      | some path =>
        have hrest := @readLines_spec lines (paths ++ [path]) (by rw [length_append, length_singleton]; omega) (by
          intro p hp
          rcases mem_append.1 hp with hp | hp
          · exact habsolute p hp
          · exact mem_singleton.1 hp ▸ hpath path rfl)
        rw [length_append, length_singleton] at hrest
        have hlocal : IsLocalFileUri (trim line) := ⟨path, hok⟩
        rcases hrest with ⟨hcomes, hpanic⟩ | ⟨hcomes, hresult⟩
        · exact .inl ⟨⟨by omega, .inr ⟨hlocal, hcomes⟩⟩, hpanic⟩
        · refine .inr ⟨?_, hresult⟩
          rintro ⟨-, h | ⟨-, h⟩⟩
          · exact hstraddles h
          · exact hcomes h

/-- A list is read to its end, or the parser comes to an entry with a character across the end of its scheme. -/
theorem parseFileList_returns (mime : String) (bytes : List Byte) :
    (∃ result, parseFileList mime bytes = .ok result ∧ ∀ paths, result = some paths → ValidPaths paths) ↔
      ∀ lines, listLines mime bytes = some lines → ¬ ComesToStraddling 0 lines := by
  unfold parseFileList
  cases listLines mime bytes with
  | none =>
    refine iff_of_true ⟨none, rfl, fun ps hps => by cases hps⟩ ?_
    intro lines hlines
    cases hlines
  | some lines =>
    dsimp only
    rcases @readLines_spec lines [] (Nat.zero_le _) (fun p hp => absurd hp not_mem_nil) with
      ⟨hcomes, panic, herror⟩ | ⟨hcomes, hresult⟩
    · constructor
      · rintro ⟨result, hok, -⟩
        rw [herror] at hok
        cases hok
      · intro h
        exact absurd hcomes (h lines rfl)
    · refine iff_of_true hresult ?_
      intro lines' hlines'
      cases hlines'
      exact hcomes

/-! ## Lists that are served -/

def isUriChar (c : Char) : Bool := 0x20 < c.toNat && c.toNat < 0x7f && c != '?' && c != '#'

theorem uriByte_all : ∀ byte : Byte, (uriByte byte).all isUriChar = true := by decide

/-- An unreserved byte stands for itself, any other is escaped by its two digits. -/
theorem uriByte_bytes : ∀ byte : Byte,
    if isUnreserved byte then byte ≠ 0x25#8 ∧ (uriByte byte).map (fun c => BitVec.ofNat 8 c.toNat) = [byte]
    else ∃ high low, (uriByte byte).map (fun c => BitVec.ofNat 8 c.toNat) = [0x25#8, high, low] ∧
      hex high = some (byte >>> 4) ∧ hex low = some (byte &&& 0x0f#8) ∧ (byte >>> 4) <<< 4 ||| byte &&& 0x0f#8 = byte := by
  have key : ∀ byte : Byte,
      if isUnreserved byte then byte ≠ 0x25#8 ∧ (uriByte byte).map (fun c => BitVec.ofNat 8 c.toNat) = [byte]
      else (uriByte byte).map (fun c => BitVec.ofNat 8 c.toNat) =
          [0x25#8, BitVec.ofNat 8 (upperHex (byte.toNat / 16)).toNat, BitVec.ofNat 8 (upperHex (byte.toNat % 16)).toNat] ∧
        hex (BitVec.ofNat 8 (upperHex (byte.toNat / 16)).toNat) = some (byte >>> 4) ∧
        hex (BitVec.ofNat 8 (upperHex (byte.toNat % 16)).toNat) = some (byte &&& 0x0f#8) ∧
        (byte >>> 4) <<< 4 ||| byte &&& 0x0f#8 = byte := by decide
  intro byte
  have h := key byte
  split at h
  · rwa [if_pos ‹_›]
  · rw [if_neg ‹_›]
    exact ⟨_, _, h⟩

theorem ascii_of_isUriChar (h : isUriChar c = true) : c.toNat < 128 := by
  simp only [isUriChar, and_eq_true, decide_eq_true_eq] at h
  omega

theorem ne_of_isUriChar (h : isUriChar c = true) (hd : isUriChar d = false) : c ≠ d := by
  rintro rfl
  rw [h] at hd
  cases hd

theorem isWhitespace_of_isUriChar (h : isUriChar c = true) : isWhitespace c = false := by
  simp only [isUriChar, and_eq_true, decide_eq_true_eq] at h
  simp only [isWhitespace, or_eq_false_iff, and_eq_false_iff, decide_eq_false_iff_not]
  omega

theorem percentDecode_plain {byte : Byte} (h : byte ≠ 0x25#8) (rest : List Byte) :
    percentDecode (byte :: rest) = (percentDecode rest).map (byte :: ·) := by
  conv_lhs => unfold percentDecode
  rw [if_neg h]

theorem percentDecode_escape {high low h l : Byte} (hhigh : hex high = some h) (hlow : hex low = some l) (rest : List Byte) :
    percentDecode (0x25#8 :: high :: low :: rest) = (percentDecode rest).map ((h <<< 4 ||| l) :: ·) := by
  conv_lhs => unfold percentDecode
  rw [if_pos rfl]
  show ((hex high).bind fun high => (hex low).bind fun low =>
    (percentDecode rest).bind fun decoded => some ((high <<< 4 ||| low) :: decoded)) = _
  rw [hhigh, hlow]
  cases percentDecode rest <;> rfl

theorem contains_eq_false {text : List Char} (h : ∀ c ∈ text, isUriChar c = true) (hd : isUriChar d = false) :
    text.contains d = false := by
  rw [eq_false_iff]
  intro hmem
  exact ne_of_isUriChar (h d (contains_iff_mem.1 hmem)) hd rfl

theorem percentDecode_uriByte (byte : Byte) (rest : List Byte) :
    percentDecode (encode (uriByte byte) ++ rest) = (percentDecode rest).map (byte :: ·) := by
  rw [encode_ascii fun c hc => ascii_of_isUriChar (all_eq_true.1 (uriByte_all byte) c hc)]
  have h := uriByte_bytes byte
  split at h
  · obtain ⟨hne, heq⟩ := h
    rw [heq, singleton_append, percentDecode_plain hne]
  · obtain ⟨high, low, heq, hhigh, hlow, hbyte⟩ := h
    rw [heq, cons_append, cons_append, singleton_append, percentDecode_escape hhigh hlow, hbyte]

theorem percentDecode_path (path : Path) : percentDecode (encode (path.flatMap uriByte)) = some path := by
  induction path with
  | nil => rfl
  | cons byte path ih => rw [flatMap_cons, encode_append, percentDecode_uriByte, ih, map_some]

theorem isUriChar_of_mem_fileUri (h : c ∈ fileUri path) : isUriChar c = true := by
  rcases mem_append.1 h with h | h
  · exact all_eq_true.1 (by decide : "file://".toList.all isUriChar = true) c h
  · obtain ⟨byte, -, hc⟩ := mem_flatMap.1 h
    exact all_eq_true.1 (uriByte_all byte) c hc

theorem localPathFromFileUri_fileUri (h : Absolute path) : localPathFromFileUri (fileUri path) = .ok (some path) := by
  obtain ⟨hhead, hnul⟩ := h
  obtain ⟨tail, rfl⟩ : ∃ tail, path = 0x2f#8 :: tail := by
    cases path with
    | nil => cases hhead
    | cons byte tail =>
      obtain rfl := some.inj hhead
      exact ⟨tail, rfl⟩
  have hslash : (0x2f#8 :: tail).flatMap uriByte = '/' :: tail.flatMap uriByte := by
    rw [flatMap_cons]
    rfl
  have hchars : ∀ c ∈ (0x2f#8 :: tail).flatMap uriByte, isUriChar c = true := fun c hc =>
    isUriChar_of_mem_fileUri (mem_append_right _ hc)
  have hsplit : fileUri (0x2f#8 :: tail) = "file:".toList ++ ('/' :: '/' :: (0x2f#8 :: tail).flatMap uriByte) := rfl
  have hlen : byteLen "file:".toList = schemeLen := rfl
  have hquery : ((0x2f#8 :: tail).flatMap uriByte).contains '?' = false := contains_eq_false hchars (by decide)
  have hfragment : ((0x2f#8 :: tail).flatMap uriByte).contains '#' = false := contains_eq_false hchars (by decide)
  have hdecode : decodePath ((0x2f#8 :: tail).flatMap uriByte) = some (0x2f#8 :: tail) := by
    rw [decodePath, hquery, hfragment, percentDecode_path]
    simpa using hnul
  have hfind : find '/' ('/' :: tail.flatMap uriByte) = some 0 := by
    rw [find, if_pos mem_cons_self, takeWhile_cons_of_neg (by simp)]
    rfl
  have hshort : ¬ byteLen (fileUri (0x2f#8 :: tail)) < schemeLen := by
    rw [hsplit, byteLen_append, hlen]
    omega
  unfold localPathFromFileUri
  rw [if_neg hshort, hsplit, sliceAt_of_boundary hlen]
  dsimp only [bind, Except.bind, pure, Except.pure]
  have hscheme : eqIgnoreAsciiCase "file:".toList "file:".toList = true := by decide
  have hauthority : ['/', '/'].isPrefixOf ('/' :: '/' :: (0x2f#8 :: tail).flatMap uriByte) = true := by simp
  have hslice : sliceAt ('/' :: tail.flatMap uriByte) 0 = .ok ([], '/' :: tail.flatMap uriByte) := sliceAt_of_boundary (a := []) rfl
  rw [hscheme, Bool.not_true, if_neg Bool.false_ne_true, if_pos hauthority]
  have hdrop : drop 2 ('/' :: '/' :: (0x2f#8 :: tail).flatMap uriByte) = '/' :: tail.flatMap uriByte := by
    rw [hslash]
    rfl
  rw [hdrop, hfind]
  dsimp only
  rw [hslice]
  dsimp only
  rw [isEmpty_nil, Bool.not_true, Bool.false_and, if_neg Bool.false_ne_true, ← hslash, hdecode]

theorem rdropWhile_eq_self {text : List Char} {p : Char → Bool} (h : ∀ c ∈ text, p c = false) : text.rdropWhile p = text := by
  rw [rdropWhile_eq_self_iff]
  intro hne
  simp [h _ (getLast_mem hne)]

theorem trim_fileUri (path : Path) : trim (fileUri path) = fileUri path := by
  have hspace : ∀ c ∈ fileUri path, isWhitespace c = false := fun c hc => isWhitespace_of_isUriChar (isUriChar_of_mem_fileUri hc)
  have hhead : fileUri path = 'f' :: ("ile://".toList ++ path.flatMap uriByte) := rfl
  rw [trim, hhead, dropWhile_cons_of_neg (by decide), ← hhead]
  exact rdropWhile_eq_self hspace

theorem readLines_fileUris : ∀ {paths done : List Path} {rest : List (List Char)}, done.length + paths.length ≤ maxFileListItems →
    (∀ path ∈ paths, Absolute path) → readLines (paths.map fileUri ++ rest) done = readLines rest (done ++ paths)
  | [], done, rest, _, _ => by rw [map_nil, nil_append, append_nil]
  | path :: paths, done, rest, hlen, habsolute => by
    obtain ⟨hpath, hpaths⟩ := forall_mem_cons.1 habsolute
    rw [length_cons] at hlen
    have hkept : ((fileUri path).isEmpty || (fileUri path).head? == some '#') = false := rfl
    rw [map_cons, cons_append, readLines, trim_fileUri, hkept, if_neg Bool.false_ne_true, if_neg (by omega),
      localPathFromFileUri_fileUri hpath]
    dsimp only
    rw [readLines_fileUris (by rw [length_append, length_singleton]; omega) hpaths, append_assoc, singleton_append]

variable {paths : List Path}

theorem readLines_blank (h : paths ≠ []) : readLines [[]] paths = .ok (some paths) := by
  have hempty : paths.isEmpty = false := by simpa using h
  have hskip : ((trim []).isEmpty || (trim []).head? == some '#') = true := rfl
  rw [readLines, if_pos hskip, readLines, hempty]
  rfl

theorem readLines_nil (h : paths ≠ []) : readLines [] paths = .ok (some paths) := by
  have hempty : paths.isEmpty = false := by simpa using h
  rw [readLines, hempty]
  rfl

theorem intercalate_cons_eq (sep : Char) : ∀ (text : List Char) (texts : List (List Char)),
    [sep].intercalate (text :: texts) = text ++ texts.flatMap fun next => sep :: next
  | text, [] => by rw [intercalate_singleton, flatMap_nil, append_nil]
  | text, next :: texts => by
    have ih := intercalate_cons_eq sep next texts
    rw [intercalate_cons_cons, ih, flatMap_cons, append_assoc, singleton_append, cons_append]

theorem intercalate_terminated (sep : Char) : ∀ texts : List (List Char),
    [sep].intercalate (texts ++ [[]]) = texts.flatMap fun text => text ++ [sep]
  | [] => rfl
  | [text] => by
    rw [singleton_append, intercalate_cons_cons, intercalate_singleton, append_nil, flatMap_singleton]
  | text :: next :: texts => by
    have ih := intercalate_terminated sep (next :: texts)
    rw [cons_append] at ih
    rw [cons_append, cons_append, intercalate_cons_cons, ih, flatMap_cons (x := text)]

theorem fromUtf8_encode (text : List Char) : fromUtf8 (encode text) = .ok (String.ofList text) := by
  rw [fromUtf8_eq_ok, utf8Bytes_eq, String.toList_ofList]

/-- Lines that are put together with line feeds and end otherwise than in NUL are the lines that are read. -/
theorem lines_of_intercalate {texts : List (List Char)} (hne : texts ≠ []) (hfeed : ∀ text ∈ texts, '\n' ∉ text)
    (hnul : ∀ c ∈ ['\n'].intercalate texts, (c == '\x00') = false) :
    (trimEndMatches '\x00' (String.ofList (['\n'].intercalate texts)).toList).splitOn '\n' = texts := by
  rw [String.toList_ofList, trimEndMatches, rdropWhile_eq_self hnul, splitOn_intercalate '\n' hfeed hne]

theorem encode_flatMap (f : Path → List Char) (paths : List Path) :
    encode (paths.flatMap f) = paths.flatMap fun path => encode (f path) := by
  induction paths with
  | nil => rfl
  | cons path paths ih => rw [flatMap_cons, encode_append, ih, flatMap_cons]

theorem encode_feed_cons (text : List Char) : encode ('\n' :: text) = 0x0a#8 :: encode text := by
  rw [encode_cons, charBytes_ascii (by decide)]
  rfl

theorem gnome_eq (paths : List Path) : (fileListPayloads paths).gnome =
    encode (['\n'].intercalate ("copy".toList :: paths.map fileUri)) := by
  rw [intercalate_cons_eq, flatMap_map, encode_append, encode_flatMap]
  simp only [fileListPayloads, encode_feed_cons]

theorem uriList_eq (paths : List Path) : (fileListPayloads paths).uriList =
    encode (['\n'].intercalate ((paths.map fun path => fileUri path ++ ['\r']) ++ [[]])) := by
  have hend : encode ['\r', '\n'] = [0x0d#8, 0x0a#8] := by
    rw [encode_cons, charBytes_ascii (by decide), encode_feed_cons]
    rfl
  have hline : ∀ path, encode (fileUri path ++ ['\r'] ++ ['\n']) = encode (fileUri path) ++ [0x0d#8, 0x0a#8] := by
    intro path
    rw [append_assoc, singleton_append, encode_append, hend]
  rw [intercalate_terminated, flatMap_map, encode_flatMap]
  simp only [fileListPayloads, hline]

theorem trimEndMatches_fileUri (path : Path) : trimEndMatches '\r' (fileUri path) = fileUri path :=
  rdropWhile_eq_self fun c hc => beq_false_of_ne (ne_of_isUriChar (isUriChar_of_mem_fileUri hc) (by decide))

theorem trimEndMatches_return (path : Path) : trimEndMatches '\r' (fileUri path ++ ['\r']) = fileUri path := by
  rw [trimEndMatches, rdropWhile_concat_pos _ _ _ rfl]
  exact trimEndMatches_fileUri path

theorem map_trimEndMatches {f : Path → List Char} (h : ∀ path, trimEndMatches '\r' (f path) = fileUri path) (paths : List Path) :
    (paths.map f).map (trimEndMatches '\r') = paths.map fileUri := by
  rw [List.map_map]
  exact map_congr_left fun path _ => h path

theorem ValidPaths.ne_nil (h : ValidPaths paths) : paths ≠ [] := ne_nil_of_length_pos h.nonempty

theorem feed_notMem_fileUri (path : Path) : '\n' ∉ fileUri path := fun h =>
  ne_of_isUriChar (isUriChar_of_mem_fileUri h) (by decide) rfl

theorem parseFileList_gnome (h : ValidPaths paths) :
    parseFileList gnomeCopiedFilesMime (fileListPayloads paths).gnome = .ok (some paths) := by
  have hfeed : ∀ text ∈ "copy".toList :: paths.map fileUri, '\n' ∉ text := by
    rintro text (_ | ⟨_, htext⟩)
    · decide
    · obtain ⟨path, -, rfl⟩ := mem_map.1 htext
      exact feed_notMem_fileUri path
  have hnul : ∀ c ∈ ['\n'].intercalate ("copy".toList :: paths.map fileUri), (c == '\x00') = false := by
    intro c hc
    rw [intercalate_cons_eq, flatMap_map] at hc
    rcases mem_append.1 hc with hc | hc
    · exact beq_false_of_ne (ne_of_isUriChar (all_eq_true.1 (by decide : "copy".toList.all isUriChar = true) c hc) (by decide))
    · obtain ⟨path, -, hc⟩ := mem_flatMap.1 hc
      rcases mem_cons.1 hc with rfl | hc
      · rfl
      · exact beq_false_of_ne (ne_of_isUriChar (isUriChar_of_mem_fileUri hc) (by decide))
  have hlines : listLines gnomeCopiedFilesMime (fileListPayloads paths).gnome = some (paths.map fileUri) := by
    rw [listLines, gnome_eq, fromUtf8_encode]
    dsimp only
    rw [lines_of_intercalate (cons_ne_nil _ _) hfeed hnul, if_pos rfl, map_cons, map_trimEndMatches trimEndMatches_fileUri]
    rfl
  have hread := @readLines_fileUris paths [] [] (by rw [length_nil, Nat.zero_add]; exact h.bounded) h.absolute
  rw [append_nil, nil_append] at hread
  rw [parseFileList, hlines]
  exact hread.trans (readLines_nil h.ne_nil)

theorem parseFileList_uriList (h : ValidPaths paths) :
    parseFileList uriListMime (fileListPayloads paths).uriList = .ok (some paths) := by
  have hfeed : ∀ text ∈ (paths.map fun path => fileUri path ++ ['\r']) ++ [[]], '\n' ∉ text := by
    intro text htext
    rcases mem_append.1 htext with htext | htext
    · obtain ⟨path, -, rfl⟩ := mem_map.1 htext
      simpa using feed_notMem_fileUri path
    · rw [mem_singleton.1 htext]
      exact not_mem_nil
  have hnul : ∀ c ∈ ['\n'].intercalate ((paths.map fun path => fileUri path ++ ['\r']) ++ [[]]), (c == '\x00') = false := by
    intro c hc
    rw [intercalate_terminated, flatMap_map] at hc
    obtain ⟨path, -, hc⟩ := mem_flatMap.1 hc
    rw [append_assoc] at hc
    rcases mem_append.1 hc with hc | hc
    · exact beq_false_of_ne (ne_of_isUriChar (isUriChar_of_mem_fileUri hc) (by decide))
    · rcases mem_pair.1 hc with rfl | rfl <;> rfl
  have hne : uriListMime ≠ gnomeCopiedFilesMime := by decide
  have hlines : listLines uriListMime (fileListPayloads paths).uriList = some (paths.map fileUri ++ [[]]) := by
    rw [listLines, uriList_eq, fromUtf8_encode]
    dsimp only
    rw [lines_of_intercalate (append_ne_nil_of_right_ne_nil _ (cons_ne_nil _ _)) hfeed hnul, if_neg hne, if_pos rfl,
      map_append, map_trimEndMatches trimEndMatches_return]
    rfl
  have hread := @readLines_fileUris paths [] [[]] (by rw [length_nil, Nat.zero_add]; exact h.bounded) h.absolute
  rw [nil_append] at hread
  rw [parseFileList, hlines]
  exact hread.trans (readLines_blank h.ne_nil)

/-- File lists are parsed safely except where a character lies across the end of a scheme, and served lists are read back. -/
theorem parseFileList_safe (mime : String) (bytes : List Byte) (paths : List Path) :
    (mime = gnomeCopiedFilesMime ∨ mime = uriListMime →
      ((∃ result, parseFileList mime bytes = .ok result ∧ ∀ paths, result = some paths → ValidPaths paths) ↔
        ∀ lines, listLines mime bytes = some lines → ¬ ComesToStraddling 0 lines)) ∧
    (ValidPaths paths →
      parseFileList gnomeCopiedFilesMime (fileListPayloads paths).gnome = .ok (some paths) ∧
      parseFileList uriListMime (fileListPayloads paths).uriList = .ok (some paths)) := by
  constructor
  · intro _
    exact parseFileList_returns mime bytes
  · intro h
    exact ⟨parseFileList_gnome h, parseFileList_uriList h⟩

theorem parseFileList_safe_served :
    (∀ lines, listLines uriListMime (fileListPayloads [[0x2f, 0x0a, 0xff]]).uriList = some lines → ¬ ComesToStraddling 0 lines) ∧
    parseFileList gnomeCopiedFilesMime (fileListPayloads [[0x2f, 0x0a, 0xff]]).gnome = .ok (some [[0x2f, 0x0a, 0xff]]) := by
  obtain ⟨hsafe, hserved⟩ := parseFileList_safe uriListMime (fileListPayloads [[0x2f, 0x0a, 0xff]]).uriList [[0x2f, 0x0a, 0xff]]
  have hvalid : ValidPaths [[0x2f, 0x0a, 0xff]] := by
    refine ⟨by decide, by decide, ?_⟩
    simp [Absolute]
  obtain ⟨hgnome, huriList⟩ := hserved hvalid
  constructor
  · apply (hsafe (.inr rfl)).1
    refine ⟨_, huriList, ?_⟩
    rintro paths ⟨⟩
    exact hvalid
  · exact hgnome

/-- Six bytes of an application's choosing: the fifth character is not ASCII, and the slice behind the scheme ends inside it. -/
theorem parseFileList_panics :
    ¬ ∃ result, parseFileList uriListMime [0x61, 0x62, 0x63, 0x64, 0xc3, 0xa9] = .ok result := by
  have hpanic : parseFileList uriListMime [0x61, 0x62, 0x63, 0x64, 0xc3, 0xa9] = .error (.sliceBoundary 5) := by
    rfl
  rintro ⟨result, h⟩
  rw [hpanic] at h
  cases h

end Jwm.FileList
