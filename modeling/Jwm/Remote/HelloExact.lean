/-
Coherent hellos: a hello is decoded from its own encoding exactly when its flags, its clipboard
policy, its limits, its viewport and its keymap agree. An encode leaves out two things a decode
could not tell: a file flag without the clipboard flag, and a viewport of no size.
-/
import Jwm.Remote.HelloWire

namespace Jwm.Remote

open List KeymapTable

/-! ## The stream profile -/

namespace StreamCapabilities

/-- The clipboard policy and the limits agree. -/
structure Agrees (s : StreamCapabilities) : Prop where
  limits : s.frameLimits.limits.validate = .ok ()
  content : knownContent s.clipboardContent = true
  directions : s.clipboardDirections ≠ 0 ↔ s.clipboardContent ≠ 0

structure Coherent (s : StreamCapabilities) : Prop extends Agrees s where
  directions_le : s.clipboardDirections.toNat ≤ 3

theorem decodeCursor_eq_ok {modes : List Byte} {cursor : CursorMode} :
    decodeCursor modes = .ok cursor ↔ modes = [1, cursor.toU8, 1] := by
  unfold decodeCursor
  refine ⟨fun h => ?_, ?_⟩
  · split at h
    · obtain rfl := Except.ok.inj h
      assumption
    split at h
    · obtain rfl := Except.ok.inj h
      assumption
    · cases h
  · rintro rfl
    cases cursor <;> rfl

theorem length_encode (s : StreamCapabilities) : s.encode.length = streamCapabilitiesLen := by
  simp [encode, streamCapabilitiesLen]

theorem policy_iff {content directions : Byte} :
    rejectIf (!knownContent content || directions.toNat > 3 || (content = 0 : Bool) != (directions = 0 : Bool))
      "invalid clipboard content or direction policy" = .ok () ↔
    knownContent content = true ∧ directions.toNat ≤ 3 ∧ (directions ≠ 0 ↔ content ≠ 0) := by
  rw [rejectIf_eq_ok]
  simp only [Bool.or_eq_true, Bool.not_eq_true', decide_eq_true_eq, not_or, Bool.not_eq_false, Nat.not_lt, bne_iff_ne,
    ne_eq, not_not, decide_eq_decide, and_assoc]
  rw [not_iff_not, iff_comm (a := content = 0)]

theorem decode_eq_ok {payload : List Byte} {s : StreamCapabilities} :
    decode payload = .ok s ↔ s.Coherent ∧ payload = s.encode := by
  unfold decode
  rw [unit_bind_eq_ok, rejectIf_eq_ok, ne_eq, not_not]
  simp only [bind_eq_ok (x := decodeCursor _), unit_bind_eq_ok, policy_iff, pure_eq_ok, decodeCursor_eq_ok]
  refine ⟨fun ⟨hlen, cursor, hmodes, ⟨hcontent, hle, hdirections⟩, hlimits, h⟩ => ?_, fun ⟨hc, hp⟩ => ?_⟩
  · subst h
    refine ⟨⟨⟨hlimits, hcontent, hdirections⟩, hle⟩, ?_⟩
    unfold streamCapabilitiesLen at hlen
    have h0 := slice_append_drop payload (show 0 ≤ 3 by decide)
    have h3 := drop_eq_word (w := 64) rfl (a := 3) (b := 11) rfl (by omega : 11 ≤ payload.length)
    have h11 := drop_eq_word (w := 16) rfl (a := 11) (b := 13) rfl (by omega : 13 ≤ payload.length)
    have h13 := drop_eq_word (w := 16) rfl (a := 13) (b := 15) rfl (by omega : 15 ≤ payload.length)
    have h15 := drop_eq_word (w := 64) rfl (a := 15) (b := 23) rfl (by omega : 23 ≤ payload.length)
    have h23 := drop_eq_cons (0 : Byte) (by omega : 23 < payload.length)
    have h24 := drop_eq_cons (0 : Byte) (by omega : 24 < payload.length)
    rw [drop_of_length_le (Nat.le_of_eq hlen)] at h24
    rw [h24] at h23
    rw [hmodes, h3, h11, h13, h15, h23] at h0
    exact h0.symm
  · subst hp
    obtain ⟨limits, ⟨⟩, cursor, ⟨⟩, fileLimit, content, directions⟩ := s
    generalize hs : StreamCapabilities.mk limits .jpegTiles cursor .x11Keycodes fileLimit content directions = s at *
    have hhead : s.encode = [1, cursor.toU8, 1] ++ (wordBytes fileLimit ++ (wordBytes limits.maxWidth ++
        (wordBytes limits.maxHeight ++ (wordBytes limits.maxPixels ++ [content, directions])))) := by
      rw [← hs]
      rfl
    have hmodes : slice s.encode 0 3 = [1, cursor.toU8, 1] := by
      rw [hhead]
      exact slice_append_self rfl
    have h3 := congrArg (drop 3) hhead
    rw [drop_left' (show ([1, cursor.toU8, 1] : List Byte).length = 3 from rfl)] at h3
    obtain ⟨hfile, h11⟩ := word_next rfl (b := 11) h3 rfl
    obtain ⟨hwidth, h13⟩ := word_next rfl (b := 13) h11 rfl
    obtain ⟨hheight, h15⟩ := word_next rfl (b := 15) h13 rfl
    obtain ⟨hpixels, h23⟩ := word_next rfl (b := 23) h15 rfl
    have h24 : s.encode.drop 24 = [directions] := by
      rw [show 24 = 23 + 1 from rfl, ← drop_drop, h23]
      rfl
    rw [getD_of_drop h23, getD_of_drop h24, hfile, hwidth, hheight, hpixels]
    subst hs
    exact ⟨length_encode _, cursor, hmodes, ⟨hc.content, hc.directions_le, hc.directions⟩, hc.limits, rfl⟩

theorem encode_inj {s t : StreamCapabilities} (h : s.encode = t.encode) : s = t := by
  obtain ⟨limits, ⟨⟩, cursor, ⟨⟩, fileLimit, content, directions⟩ := s
  obtain ⟨limits', ⟨⟩, cursor', ⟨⟩, fileLimit', content', directions'⟩ := t
  obtain ⟨hmodes, h⟩ := append_inj h rfl
  obtain ⟨hfile, h⟩ := append_inj h (by rw [length_wordBytes, length_wordBytes])
  obtain ⟨hwidth, h⟩ := append_inj h (by rw [length_wordBytes, length_wordBytes])
  obtain ⟨hheight, h⟩ := append_inj h (by rw [length_wordBytes, length_wordBytes])
  obtain ⟨hpixels, h⟩ := append_inj h (by rw [length_wordBytes, length_wordBytes])
  have hcursor : cursor = cursor' := by
    cases cursor <;> cases cursor' <;> first | rfl | cases hmodes
  obtain ⟨w, hh, px⟩ := limits
  obtain ⟨w', hh', px'⟩ := limits'
  obtain ⟨rfl, h⟩ := cons.inj h
  obtain ⟨rfl, -⟩ := cons.inj h
  obtain rfl := wordBytes_inj rfl hfile
  obtain rfl := wordBytes_inj rfl hwidth
  obtain rfl := wordBytes_inj rfl hheight
  obtain rfl := wordBytes_inj rfl hpixels
  rw [hcursor]

end StreamCapabilities

/-! ## Prefix, flags and viewport -/

/-- Flags that a decode lets through. -/
structure FlagsKnown (flags : Byte) : Prop where
  known : flags &&& ~~~knownHelloFlags = 0
  files : flags &&& flagClipboardFiles ≠ 0 → flags &&& flagClipboard ≠ 0

variable {payload : List Byte} {flags : Byte}

theorem decodePrefix_eq_ok : decodePrefix payload = .ok flags ↔
    FlagsKnown flags ∧ payload = applicationMagic ++ (toBeBytes 2 applicationVersion ++ [flags]) := by
  unfold decodePrefix
  simp only [unit_bind_eq_ok, rejectIf_eq_ok, pure_eq_ok, Bool.or_eq_true, decide_eq_true_eq, not_or, ne_eq, not_not]
  refine ⟨fun ⟨⟨hlen, hmagic⟩, hversion, hknown, hfiles, h⟩ => ?_, fun ⟨hf, hp⟩ => ?_⟩
  · subst h
    refine ⟨⟨hknown, fun h h0 => hfiles ⟨h, h0⟩⟩, ?_⟩
    unfold helloPrefixLen at hlen
    have h0 := slice_append_drop payload (show 0 ≤ 8 by decide)
    have h8 := slice_append_drop payload (show 8 ≤ 10 by decide)
    have h10 := drop_eq_cons (0 : Byte) (by omega : 10 < payload.length)
    have hbytes := (toBeBytes_fromBeBytes (slice payload 8 10)).2
    rw [drop_of_length_le (Nat.le_of_eq hlen)] at h10
    rw [hversion, length_slice (by omega)] at hbytes
    rw [hmagic, ← h8, ← hbytes, h10] at h0
    exact h0.symm
  · subst hp
    exact ⟨⟨rfl, rfl⟩, rfl, hf.known, fun h => hf.files h.1 h.2, rfl⟩

theorem bne_bne_iff {v w : Nat} {a b : BitVec v} {c d : BitVec w} :
    ((a != b) != (c != d)) = true ↔ ¬ (a ≠ b ↔ c ≠ d) := by
  rw [bne_iff_ne, ne_eq, Bool.eq_iff_iff, bne_iff_ne, bne_iff_ne]

variable {stream : StreamCapabilities}

theorem validateClipboardFlags_eq_ok :
    validateClipboardFlags flags stream = .ok () ↔ (flags &&& flagClipboard ≠ 0 ↔ stream.clipboardContent ≠ 0) ∧
      (flags &&& flagClipboardFiles ≠ 0 ↔ stream.clipboardContent &&& 4 ≠ 0) ∧
      (stream.clipboardFileLimit ≠ 0 ↔ stream.clipboardContent &&& 4 ≠ 0) := by
  unfold validateClipboardFlags
  rw [rejectIf_eq_ok, Bool.or_eq_true, Bool.or_eq_true, bne_bne_iff, bne_bne_iff, bne_bne_iff, not_or, not_or, not_not,
    not_not, not_not, and_assoc]

def viewportBytes (viewport : Option (BitVec 16 × BitVec 16)) : List Byte :=
  encodeViewport (viewport.getD (0, 0)).1 (viewport.getD (0, 0)).2

def ViewportRequested (viewport : Option (BitVec 16 × BitVec 16)) : Prop :=
  ∀ size, viewport = some size → size.1 ≠ 0 ∧ size.2 ≠ 0

theorem length_viewportBytes (viewport : Option (BitVec 16 × BitVec 16)) : (viewportBytes viewport).length = 4 := by
  simp [viewportBytes, encodeViewport]

theorem encodeViewport_inj {w h w' h' : BitVec 16} (heq : encodeViewport w h = encodeViewport w' h') : w = w' ∧ h = h' := by
  obtain ⟨hw, hh⟩ := append_inj heq (by rw [length_wordBytes, length_wordBytes])
  exact ⟨wordBytes_inj rfl hw, wordBytes_inj rfl hh⟩

theorem decodeViewport_eq_ok {size : BitVec 16 × BitVec 16} : decodeViewport payload = .ok size ↔
    (size.1 ≠ 0 ∧ size.2 ≠ 0) ∧ payload = encodeViewport size.1 size.2 := by
  unfold decodeViewport
  simp only [unit_bind_eq_ok, rejectIf_eq_ok, pure_eq_ok, Bool.or_eq_true, decide_eq_true_eq, not_or, ne_eq, not_not]
  refine ⟨fun ⟨hlen, hne, h⟩ => ?_, fun ⟨hne, hp⟩ => ?_⟩
  · subst h
    refine ⟨hne, ?_⟩
    have hw : (payload.take 2).length = 2 := by rw [length_take]; omega
    have hh : (payload.drop 2).length = 2 := by rw [length_drop]; omega
    unfold encodeViewport
    rw [wordBytes_readWord rfl hw, wordBytes_readWord rfl hh, take_append_drop]
  · subst hp
    have hlen : (wordBytes size.1).length = 2 := length_wordBytes _
    unfold encodeViewport
    rw [take_left' hlen, drop_left' hlen, readWord_wordBytes rfl, readWord_wordBytes rfl]
    exact ⟨by simp, hne, rfl⟩

theorem readViewport_eq_ok {viewport : Option (BitVec 16 × BitVec 16)} :
    readViewport payload = .ok viewport ↔ ViewportRequested viewport ∧ payload = viewportBytes viewport := by
  unfold readViewport
  refine ⟨fun h => ?_, fun ⟨hv, hp⟩ => ?_⟩
  · split at h
    · obtain rfl := Except.ok.inj h
      refine ⟨fun size hs => (nomatch hs), ?_⟩
      assumption
    · cases hd : decodeViewport payload with
      | error e =>
        rw [hd] at h
        cases h
      | ok size =>
        rw [hd] at h
        obtain rfl := Except.ok.inj h
        obtain ⟨hne, hp⟩ := decodeViewport_eq_ok.1 hd
        refine ⟨fun size' hs => ?_, hp⟩
        obtain rfl := Option.some.inj hs
        exact hne
  · subst hp
    cases viewport with
    | none => rfl
    | some size =>
      have hne := hv size rfl
      have hnot : viewportBytes (some size) ≠ [0, 0, 0, 0] := fun h =>
        hne.1 (@encodeViewport_inj size.1 size.2 0 0 h).1
      rw [if_neg hnot, show viewportBytes (some size) = encodeViewport size.1 size.2 from rfl,
        decodeViewport_eq_ok.2 ⟨hne, rfl⟩]
      rfl

open StreamCapabilities

theorem length_encodeHello (flags : Byte) (stream : StreamCapabilities) :
    (encodeHello flags stream).length = serverHelloLen := by
  unfold encodeHello
  rw [length_append, length_append, length_append, length_encode, length_toBeBytes]
  rfl

theorem encodeHello_parts {rest : List Byte} : slice (encodeHello flags stream ++ rest) 0 helloPrefixLen =
        applicationMagic ++ (toBeBytes 2 applicationVersion ++ [flags]) ∧
      (encodeHello flags stream ++ rest).drop helloPrefixLen = stream.encode ++ rest := ⟨rfl, rfl⟩

theorem encodeHello_inj {flags' : Byte} {stream' : StreamCapabilities} {rest rest' : List Byte}
    (h : encodeHello flags stream ++ rest = encodeHello flags' stream' ++ rest') :
    flags = flags' ∧ stream = stream' ∧ rest = rest' := by
  obtain ⟨hhello, hrest⟩ := append_inj h (by rw [length_encodeHello, length_encodeHello])
  have hhello := append_cancel_left (append_cancel_left hhello)
  obtain ⟨hflags, hstream⟩ := cons.inj hhello
  exact ⟨hflags, encode_inj hstream, hrest⟩

theorem withClipboardFlags_known (flags : Byte) (hflags : flags = 0 ∨ flags = 1 ∨ flags = 2 ∨ flags = 3)
    (clipboard files : Bool) : FlagsKnown (withClipboardFlags flags clipboard files) ∧
      (withClipboardFlags flags clipboard files &&& inputFlags) = flags ∧
      (withClipboardFlags flags clipboard files &&& flagClipboard != 0) = clipboard ∧
      (withClipboardFlags flags clipboard files &&& flagClipboardFiles != 0) = (clipboard && files) := by
  rcases hflags with rfl | rfl | rfl | rfl <;> cases clipboard <;> cases files <;>
    exact ⟨⟨by decide, by decide⟩, by decide, by decide, by decide⟩

theorem files_of_content {content : Byte} {clipboard files : Bool} (hclip : clipboard = true ↔ content ≠ 0)
    (hfiles : files = true ↔ content &&& 4 ≠ 0) : (clipboard && files) = files := by
  cases files with
  | false => exact Bool.and_false _
  | true => rw [hclip.2 fun h0 => hfiles.1 rfl (by rw [h0]; rfl), Bool.true_and]

/-! ## The viewer's hello -/

namespace ClientHello

/-- Flags, contents, limits, viewport and keymap agree. -/
structure Agrees (h : ClientHello) : Prop where
  stream : h.stream.Agrees
  clipboard : h.requestClipboard = true ↔ h.stream.clipboardContent ≠ 0
  files : h.requestClipboardFiles = true ↔ h.stream.clipboardContent &&& 4 ≠ 0
  fileLimit : h.stream.clipboardFileLimit ≠ 0 ↔ h.stream.clipboardContent &&& 4 ≠ 0
  viewport : ViewportRequested h.initialViewport
  keymap : h.keymap.Coherent

structure Coherent (h : ClientHello) : Prop extends Agrees h where
  directions_le : h.stream.clipboardDirections.toNat ≤ 3

/-- What an encode keeps: files only with the clipboard, and no viewport without a size. -/
def normal (h : ClientHello) : ClientHello :=
  { h with
    requestClipboardFiles := h.requestClipboard && h.requestClipboardFiles
    initialViewport := if h.initialViewport = some (0, 0) then none else h.initialViewport }

/-- The flags were read into the hello. -/
structure ReadFrom (h : ClientHello) (flags : Byte) : Prop where
  known : FlagsKnown flags
  input : (flags &&& inputFlags != 0) = h.requestInput
  clipboard : (flags &&& flagClipboard != 0) = h.requestClipboard
  files : (flags &&& flagClipboardFiles != 0) = h.requestClipboardFiles

theorem encode_eq (h : ClientHello) :
    h.encode = encodeHello h.flags h.stream ++ (viewportBytes h.initialViewport ++ h.keymap.bytes) := by
  exact append_assoc ..

variable {h : ClientHello}

theorem normal_of_agrees (ha : h.Agrees) : h.normal = h := by
  obtain ⟨stream, viewport, input, clipboard, files, keymap⟩ := h
  have hfiles := files_of_content ha.clipboard ha.files
  have hviewport : ¬ viewport = some (0, 0) := fun h0 => (ha.viewport _ h0).1 rfl
  unfold normal
  simp only [hfiles, if_neg hviewport]

theorem decode_eq_ok {payload : List Byte} : decode payload = .ok h ↔ ∃ flags, h.ReadFrom flags ∧
    h.Coherent ∧ payload = encodeHello flags h.stream ++ (viewportBytes h.initialViewport ++ h.keymap.bytes) := by
  unfold decode
  rw [unit_bind_eq_ok, rejectIf_eq_ok, bind_eq_ok]
  simp only [Bool.or_eq_true, decide_eq_true_eq, not_or, Nat.not_lt]
  refine ⟨fun ⟨⟨hmin, hmax⟩, flags, hhead, h1⟩ => ?_, fun ⟨flags, hr, hc, hp⟩ => ?_⟩
  · obtain ⟨hheader, h1⟩ := unit_bind_eq_ok.1 h1
    obtain ⟨stream, hstream, h1⟩ := bind_eq_ok.1 h1
    obtain ⟨hflags, h1⟩ := unit_bind_eq_ok.1 h1
    obtain ⟨viewport, hviewport, h1⟩ := bind_eq_ok.1 h1
    obtain ⟨keymap, hkeymap, h1⟩ := bind_eq_ok.1 h1
    obtain rfl := pure_eq_ok.1 h1
    obtain ⟨hknown, hhead⟩ := decodePrefix_eq_ok.1 hhead
    obtain ⟨hsc, hstream⟩ := decode_eq_ok.1 hstream
    obtain ⟨hclip, hfiles, hlimit⟩ := validateClipboardFlags_eq_ok.1 hflags
    obtain ⟨hrequested, hviewport⟩ := readViewport_eq_ok.1 hviewport
    obtain ⟨hkc, hkeymap⟩ := bytes_of_decode hkeymap
    refine ⟨flags, ⟨hknown, rfl, rfl, rfl⟩, ⟨⟨hsc.toAgrees, ?_, ?_, hlimit, hrequested, hkc⟩, hsc.directions_le⟩, ?_⟩
    · exact bne_iff_ne.trans hclip
    · exact bne_iff_ne.trans hfiles
    · rw [hkeymap, ← hviewport, slice_append_drop _ (by decide)]
      have hsplit : encodeHello flags stream = slice payload 0 helloPrefixLen ++ stream.encode := by
        rw [hhead]
        rfl
      rw [hsplit, ← hstream, append_assoc, slice_append_drop _ (by decide), slice_append_drop _ (by decide),
        drop_zero]
  · obtain ⟨hhead, hdrop⟩ := @encodeHello_parts flags h.stream (viewportBytes h.initialViewport ++ h.keymap.bytes)
    rw [← hp] at hhead hdrop
    have hhello := length_encodeHello flags h.stream
    have hview := length_viewportBytes h.initialViewport
    have hkeys : h.keymap.bytes.length ≤ maxEncodedKeymapLen := by
      rw [length_bytes]
      rcases hc.keymap with h0 | ⟨hmin, hlen⟩
      · rw [h0]
        decide
      · unfold minKeymapKeycode at hmin
        exact Nat.add_le_add_left (Nat.mul_le_mul_right _ (show _ ≤ 256 - 8 by omega)) _
    have hlen : payload.length = clientHelloHeaderLen + h.keymap.bytes.length := by
      rw [hp, length_append, length_append, hhello, hview]
      unfold clientHelloHeaderLen
      omega
    have hstream : slice payload helloPrefixLen serverHelloLen = h.stream.encode := by
      unfold slice
      rw [hdrop]
      exact take_left' (length_encode _)
    have hrest : payload.drop serverHelloLen = viewportBytes h.initialViewport ++ h.keymap.bytes := by
      rw [hp]
      exact drop_left' hhello
    have hviewport : slice payload serverHelloLen clientHelloHeaderLen = viewportBytes h.initialViewport := by
      unfold slice
      rw [hrest]
      exact take_left' hview
    have hkeymap : payload.drop clientHelloHeaderLen = h.keymap.bytes := by
      unfold clientHelloHeaderLen
      rw [← drop_drop, hrest]
      exact drop_left' hview
    rw [hhead, hstream, hviewport, hkeymap, hlen]
    have hclip : flags &&& flagClipboard ≠ 0 ↔ h.stream.clipboardContent ≠ 0 := by
      rw [← hc.clipboard, ← hr.clipboard, bne_iff_ne]
    have hfiles : flags &&& flagClipboardFiles ≠ 0 ↔ h.stream.clipboardContent &&& 4 ≠ 0 := by
      rw [← hc.files, ← hr.files, bne_iff_ne]
    refine ⟨⟨?_, ?_⟩, flags, decodePrefix_eq_ok.2 ⟨hr.known, rfl⟩, unit_bind_eq_ok.2 ⟨rejectIf_eq_ok.2 (by omega), ?_⟩⟩
    · unfold clientHelloHeaderLen serverHelloLen
      omega
    · unfold maxClientHelloLen
      omega
    refine bind_eq_ok.2 ⟨h.stream, StreamCapabilities.decode_eq_ok.2 ⟨⟨hc.stream, hc.directions_le⟩, rfl⟩, ?_⟩
    refine unit_bind_eq_ok.2 ⟨validateClipboardFlags_eq_ok.2 ⟨hclip, hfiles, hc.fileLimit⟩, ?_⟩
    refine bind_eq_ok.2 ⟨h.initialViewport, readViewport_eq_ok.2 ⟨hc.viewport, rfl⟩, ?_⟩
    refine bind_eq_ok.2 ⟨h.keymap, decode_bytes hc.keymap, ?_⟩
    rw [hr.input, hr.clipboard, hr.files]
    rfl

theorem readFrom_flags (h : ClientHello) : h.normal.ReadFrom h.flags := by
  have hinput : (if h.requestInput then inputFlags else 0) = 0 ∨ (if h.requestInput then inputFlags else 0) = 1 ∨
      (if h.requestInput then inputFlags else 0) = 2 ∨ (if h.requestInput then inputFlags else 0) = (3 : Byte) := by
    cases h.requestInput <;> decide
  obtain ⟨hknown, hin, hclip, hfiles⟩ :=
    withClipboardFlags_known _ hinput h.requestClipboard h.requestClipboardFiles
  refine ⟨hknown, ?_, hclip, hfiles⟩
  unfold flags
  rw [hin]
  show _ = h.requestInput
  cases h.requestInput <;> rfl

theorem viewportBytes_normal (h : ClientHello) : viewportBytes h.normal.initialViewport = viewportBytes h.initialViewport := by
  unfold normal
  simp only
  split
  · rename_i h0
    rw [h0]
    rfl
  · rfl

theorem viewport_of_bytes {v w : Option (BitVec 16 × BitVec 16)} (hw : ViewportRequested w)
    (h : viewportBytes v = viewportBytes w) : w = if v = some (0, 0) then none else v := by
  obtain ⟨h1, h2⟩ := encodeViewport_inj h
  cases w with
  | none =>
    cases v with
    | none => rfl
    | some size =>
      have h0 : size = (0, 0) := Prod.ext h1 h2
      rw [h0, if_pos rfl]
  | some size =>
    have hne := hw size rfl
    cases v with
    | none => exact absurd h1.symm hne.1
    | some size' =>
      have heq : size' = size := Prod.ext h1 h2
      rw [heq, if_neg fun h0 => hne.1 (congrArg Prod.fst (Option.some.inj h0))]

/-- A decode of an encoding gives what the encode kept, if that is coherent, and fails otherwise. -/
theorem decode_encode {h' : ClientHello} : decode h.encode = .ok h' ↔ h.normal.Coherent ∧ h' = h.normal := by
  rw [decode_eq_ok]
  refine ⟨fun ⟨flags, hr, hc, hp⟩ => ?_, fun ⟨hc, heq⟩ => ?_⟩
  · rw [encode_eq] at hp
    obtain ⟨hflags, hstream, hrest⟩ := encodeHello_inj hp
    obtain ⟨hviewport, hkeymap⟩ := append_inj hrest (by rw [length_viewportBytes, length_viewportBytes])
    have hviewport := viewport_of_bytes hc.viewport hviewport
    have hkeymap := bytes_inj hkeymap
    have hmine := h.readFrom_flags
    rw [← hflags] at hr
    have heq : h' = h.normal := ClientHello.ext hstream.symm hviewport (hr.input.symm.trans hmine.input)
      (hr.clipboard.symm.trans hmine.clipboard) (hr.files.symm.trans hmine.files) hkeymap.symm
    exact ⟨heq ▸ hc, heq⟩
  · subst heq
    refine ⟨h.flags, h.readFrom_flags, hc, ?_⟩
    rw [encode_eq, viewportBytes_normal]
    rfl

theorem flags_of_readFrom {flags : Byte} (hr : h.ReadFrom flags) : h.flags ||| inputFlags = flags ||| inputFlags := by
  obtain ⟨⟨hknown, hfiles⟩, hinput, hclip, hfile⟩ := hr
  unfold ClientHello.flags
  rw [← hinput, ← hclip, ← hfile]
  clear hinput hclip hfile
  revert flags
  decide

end ClientHello

/-! ## The host's hello -/

namespace ServerHello

/-- Flags, contents and limits agree. -/
structure Agrees (h : ServerHello) : Prop where
  stream : h.stream.Agrees
  clipboard : h.clipboardEnabled = true ↔ h.stream.clipboardContent ≠ 0
  files : h.clipboardFilesEnabled = true ↔ h.stream.clipboardContent &&& 4 ≠ 0
  fileLimit : h.stream.clipboardFileLimit ≠ 0 ↔ h.stream.clipboardContent &&& 4 ≠ 0

structure Coherent (h : ServerHello) : Prop extends Agrees h where
  directions_le : h.stream.clipboardDirections.toNat ≤ 3

/-- What an encode keeps: files only with the clipboard. -/
def normal (h : ServerHello) : ServerHello :=
  { h with clipboardFilesEnabled := h.clipboardEnabled && h.clipboardFilesEnabled }

/-- The flags were read into the hello. -/
structure ReadFrom (h : ServerHello) (flags : Byte) : Prop where
  known : FlagsKnown flags
  pointer : (flags &&& flagPointer != 0) = h.pointerEnabled
  keyboard : (flags &&& flagKeyboard != 0) = h.keyboardEnabled
  clipboard : (flags &&& flagClipboard != 0) = h.clipboardEnabled
  files : (flags &&& flagClipboardFiles != 0) = h.clipboardFilesEnabled

variable {h : ServerHello}

theorem normal_of_agrees (ha : h.Agrees) : h.normal = h := by
  obtain ⟨stream, pointer, keyboard, clipboard, files⟩ := h
  have hfiles := files_of_content ha.clipboard ha.files
  unfold normal
  simp only [hfiles]

theorem decode_eq_ok {payload : List Byte} : decode payload = .ok h ↔ ∃ flags, h.ReadFrom flags ∧
    h.Coherent ∧ payload = encodeHello flags h.stream := by
  unfold decode
  rw [unit_bind_eq_ok, rejectIf_eq_ok, bind_eq_ok]
  refine ⟨fun ⟨hmin, flags, hhead, h1⟩ => ?_, fun ⟨flags, hr, hc, hp⟩ => ?_⟩
  · obtain ⟨hlen, h1⟩ := unit_bind_eq_ok.1 h1
    obtain ⟨stream, hstream, h1⟩ := bind_eq_ok.1 h1
    obtain ⟨hflags, h1⟩ := unit_bind_eq_ok.1 h1
    obtain rfl := pure_eq_ok.1 h1
    obtain ⟨hknown, hhead⟩ := decodePrefix_eq_ok.1 hhead
    obtain ⟨hsc, hstream⟩ := decode_eq_ok.1 hstream
    obtain ⟨hclip, hfiles, hlimit⟩ := validateClipboardFlags_eq_ok.1 hflags
    refine ⟨flags, ⟨hknown, rfl, rfl, rfl, rfl⟩, ⟨⟨hsc.toAgrees, ?_, ?_, hlimit⟩, hsc.directions_le⟩, ?_⟩
    · exact bne_iff_ne.trans hclip
    · exact bne_iff_ne.trans hfiles
    · have hsplit : encodeHello flags stream = slice payload 0 helloPrefixLen ++ stream.encode := by
        rw [hhead]
        rfl
      rw [hsplit, ← hstream, slice_append_drop _ (by decide), drop_zero]
  · obtain ⟨hhead, hdrop⟩ := @encodeHello_parts flags h.stream []
    rw [append_nil] at hhead hdrop
    have hlen := length_encodeHello flags h.stream
    subst hp
    have hclip : flags &&& flagClipboard ≠ 0 ↔ h.stream.clipboardContent ≠ 0 := by
      rw [← hc.clipboard, ← hr.clipboard, bne_iff_ne]
    have hfiles : flags &&& flagClipboardFiles ≠ 0 ↔ h.stream.clipboardContent &&& 4 ≠ 0 := by
      rw [← hc.files, ← hr.files, bne_iff_ne]
    rw [hhead, hdrop, append_nil, hlen]
    refine ⟨by decide, flags, decodePrefix_eq_ok.2 ⟨hr.known, rfl⟩, unit_bind_eq_ok.2 ⟨rfl, ?_⟩⟩
    refine bind_eq_ok.2 ⟨h.stream, StreamCapabilities.decode_eq_ok.2 ⟨⟨hc.stream, hc.directions_le⟩, rfl⟩, ?_⟩
    refine unit_bind_eq_ok.2 ⟨validateClipboardFlags_eq_ok.2 ⟨hclip, hfiles, hc.fileLimit⟩, ?_⟩
    rw [hr.pointer, hr.keyboard, hr.clipboard, hr.files]
    rfl

def inputBits (pointer keyboard : Bool) : Byte :=
  let flags : Byte := if pointer then 0 ||| flagPointer else 0
  if keyboard then flags ||| flagKeyboard else flags

theorem bits_withClipboardFlags : ∀ pointer keyboard clipboard files : Bool,
    (withClipboardFlags (inputBits pointer keyboard) clipboard files &&& flagPointer != 0) = pointer ∧
    (withClipboardFlags (inputBits pointer keyboard) clipboard files &&& flagKeyboard != 0) = keyboard ∧
    (inputBits pointer keyboard = 0 ∨ inputBits pointer keyboard = 1 ∨ inputBits pointer keyboard = 2 ∨
      inputBits pointer keyboard = 3) := by
  decide

theorem readFrom_flags (h : ServerHello) : h.normal.ReadFrom h.flags := by
  obtain ⟨hpointer, hkeyboard, hinput⟩ :=
    bits_withClipboardFlags h.pointerEnabled h.keyboardEnabled h.clipboardEnabled h.clipboardFilesEnabled
  obtain ⟨hknown, -, hclip, hfiles⟩ := withClipboardFlags_known _ hinput h.clipboardEnabled h.clipboardFilesEnabled
  exact ⟨hknown, hpointer, hkeyboard, hclip, hfiles⟩

theorem decode_encode {h' : ServerHello} : decode h.encode = .ok h' ↔ h.normal.Coherent ∧ h' = h.normal := by
  rw [decode_eq_ok]
  refine ⟨fun ⟨flags, hr, hc, hp⟩ => ?_, fun ⟨hc, heq⟩ => ?_⟩
  · have hp : encodeHello h.flags h.stream ++ [] = encodeHello flags h'.stream ++ [] := by
      rw [append_nil, append_nil]
      exact hp
    obtain ⟨hflags, hstream, -⟩ := encodeHello_inj hp
    have hmine := h.readFrom_flags
    rw [← hflags] at hr
    have heq : h' = h.normal := ServerHello.ext hstream.symm (hr.pointer.symm.trans hmine.pointer)
      (hr.keyboard.symm.trans hmine.keyboard) (hr.clipboard.symm.trans hmine.clipboard) (hr.files.symm.trans hmine.files)
    exact ⟨heq ▸ hc, heq⟩
  · subst heq
    exact ⟨h.flags, h.readFrom_flags, hc, rfl⟩

theorem flags_of_readFrom {flags : Byte} (hr : h.ReadFrom flags) : h.flags = flags := by
  obtain ⟨⟨hknown, hfiles⟩, hpointer, hkeyboard, hclip, hfile⟩ := hr
  unfold ServerHello.flags
  rw [← hpointer, ← hkeyboard, ← hclip, ← hfile]
  clear hpointer hkeyboard hclip hfile
  revert flags
  decide

end ServerHello

/-! ## Hellos round trip -/

/-- A coherent hello is decoded from its encoding; any other encoding fails, or gives the coherent
hello that was encoded in its place. What is decoded is encoded to the same bytes, but for the input
flags of a viewer. -/
structure HellosRoundTrip : Prop where
  client : ∀ h : ClientHello, ClientHello.decode h.encode = .ok h ↔ h.Coherent
  client_normal : ∀ h : ClientHello, h.normal.Coherent → ClientHello.decode h.encode = .ok h.normal
  client_error : ∀ h : ClientHello, ¬ h.normal.Coherent → ∃ error, ClientHello.decode h.encode = .error error
  client_bytes : ∀ (payload : List Byte) (h : ClientHello), ClientHello.decode payload = .ok h → ∃ flags,
    h.encode = payload.set 10 flags ∧ flags ||| inputFlags = payload.getD 10 0 ||| inputFlags
  server : ∀ h : ServerHello, ServerHello.decode h.encode = .ok h ↔ h.Coherent
  server_normal : ∀ h : ServerHello, h.normal.Coherent → ServerHello.decode h.encode = .ok h.normal
  server_error : ∀ h : ServerHello, ¬ h.normal.Coherent → ∃ error, ServerHello.decode h.encode = .error error
  server_bytes : ∀ (payload : List Byte) (h : ServerHello), ServerHello.decode payload = .ok h → h.encode = payload

theorem error_of_not_ok {α ε : Type} {x : Except ε α} (h : ∀ a, x ≠ .ok a) : ∃ error, x = .error error := by
  cases x with
  | error e => exact ⟨e, rfl⟩
  | ok a => exact absurd rfl (h a)

theorem set_encodeHello (flags flags' : Byte) (stream : StreamCapabilities) (rest : List Byte) :
    (encodeHello flags stream ++ rest).set 10 flags' = encodeHello flags' stream ++ rest ∧
      (encodeHello flags stream ++ rest).getD 10 0 = flags := ⟨rfl, rfl⟩

theorem hellosRoundTrip : HellosRoundTrip where
  client h := by
    rw [ClientHello.decode_encode]
    refine ⟨fun ⟨hc, heq⟩ => by rw [heq]; exact hc, fun hc => ?_⟩
    rw [ClientHello.normal_of_agrees hc.toAgrees]
    exact ⟨hc, rfl⟩
  client_normal h hc := ClientHello.decode_encode.2 ⟨hc, rfl⟩
  client_error h hc := error_of_not_ok fun _ hok => hc (ClientHello.decode_encode.1 hok).1
  client_bytes payload h hok := by
    obtain ⟨flags, hr, -, hp⟩ := ClientHello.decode_eq_ok.1 hok
    obtain ⟨hset, hget⟩ := set_encodeHello flags h.flags h.stream (viewportBytes h.initialViewport ++ h.keymap.bytes)
    refine ⟨h.flags, ?_, ?_⟩
    · rw [hp, hset, ClientHello.encode_eq]
    · rw [hp, hget, ClientHello.flags_of_readFrom hr]
  server h := by
    rw [ServerHello.decode_encode]
    refine ⟨fun ⟨hc, heq⟩ => by rw [heq]; exact hc, fun hc => ?_⟩
    rw [ServerHello.normal_of_agrees hc.toAgrees]
    exact ⟨hc, rfl⟩
  server_normal h hc := ServerHello.decode_encode.2 ⟨hc, rfl⟩
  server_error h hc := error_of_not_ok fun _ hok => hc (ServerHello.decode_encode.1 hok).1
  server_bytes payload h hok := by
    obtain ⟨flags, hr, -, hp⟩ := ServerHello.decode_eq_ok.1 hok
    rw [hp, ← ServerHello.flags_of_readFrom hr]
    rfl

def quietStream : StreamCapabilities where
  frameLimits := ⟨640, 480, 307200⟩
  codec := .jpegTiles
  cursor := .composited
  input := .x11Keycodes
  clipboardFileLimit := 0
  clipboardContent := 0
  clipboardDirections := 0

/-- A hello with a third direction is refused; one with a file flag alone, and one with a viewport of no size, are decoded to
other hellos. -/
theorem hellos_not_exact :
    (∃ h : ServerHello, h.Agrees ∧ h.stream.clipboardDirections = 4 ∧ ∀ h', ServerHello.decode h.encode ≠ .ok h') ∧
    (∃ h h' : ServerHello, ¬ h.Agrees ∧ h' ≠ h ∧ ServerHello.decode h.encode = .ok h') ∧
    (∃ h h' : ClientHello, ¬ h.Agrees ∧ h.initialViewport = some (0, 0) ∧ h' ≠ h ∧ ClientHello.decode h.encode = .ok h') := by
  refine ⟨⟨⟨{ quietStream with clipboardContent := 1, clipboardDirections := 4 }, false, false, true, false⟩, ?_, rfl, ?_⟩,
    ⟨⟨quietStream, false, false, false, true⟩, ⟨quietStream, false, false, false, false⟩, ?_, by decide, by decide⟩,
    ⟨⟨quietStream, some (0, 0), false, false, false, .empty⟩, ⟨quietStream, none, false, false, false, .empty⟩, ?_, rfl,
      by decide, by decide⟩⟩
  · exact ⟨⟨by decide, by decide, by decide⟩, by decide, by decide, by decide⟩
  · intro h' hok
    have hle := (ServerHello.decode_encode.1 hok).1.directions_le
    exact absurd hle (by decide)
  · exact fun h => absurd h.files (by decide)
  · exact fun h => (h.viewport _ rfl).1 rfl

end Jwm.Remote
