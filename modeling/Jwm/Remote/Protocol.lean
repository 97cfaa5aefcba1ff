/-
The encrypted record layer of the remote transport (`remote/protocol.rs`): each record is sealed under
its sequence number, with its header as associated data and its payload padded to a bucket.
-/
import Jwm.Data.Bytes
import Jwm.Data.Run

namespace Jwm.Remote

open List Option

/-! ## Message kinds -/

inductive MessageKind
  | hello
  | helloAck
  | frame
  | pointer
  | key
  | button
  | releaseAll
  | close
  | heartbeat
  | frameAck
  | inputBatch
  | viewport
  | clipboard
  | clipboardTransfer
  | cursorShape
  | cursorPosition
  | sourceCatalog
  | sourceRequest
  | sourceChanged
deriving DecidableEq

namespace MessageKind

/-- `MessageKind as u8`. -/
def toU8 : MessageKind → Byte
  | hello => 1
  | helloAck => 2
  | frame => 3
  | pointer => 4
  | key => 5
  | button => 6
  | releaseAll => 7
  | close => 8
  | heartbeat => 9
  | frameAck => 10
  | inputBatch => 11
  | viewport => 12
  | clipboard => 13
  | clipboardTransfer => 14
  | cursorShape => 15
  | cursorPosition => 16
  | sourceCatalog => 17
  | sourceRequest => 18
  | sourceChanged => 19

/-- `MessageKind::try_from`; `none` is an unknown kind. -/
def tryFrom (value : Byte) : Option MessageKind :=
  match value.toNat with
  | 1 => some hello
  | 2 => some helloAck
  | 3 => some frame
  | 4 => some pointer
  | 5 => some key
  | 6 => some button
  | 7 => some releaseAll
  | 8 => some close
  | 9 => some heartbeat
  | 10 => some frameAck
  | 11 => some inputBatch
  | 12 => some viewport
  | 13 => some clipboard
  | 14 => some clipboardTransfer
  | 15 => some cursorShape
  | 16 => some cursorPosition
  | 17 => some sourceCatalog
  | 18 => some sourceRequest
  | 19 => some sourceChanged
  | _ => none

@[simp] theorem tryFrom_toU8 (kind : MessageKind) : tryFrom kind.toU8 = some kind := by cases kind <;> rfl

theorem toU8_injective {a b : MessageKind} (h : a.toU8 = b.toU8) : a = b := by
  have := congrArg tryFrom h
  simpa using this

end MessageKind

/-! ## Records -/

def tagLen : Nat := 16
def recordHeaderLen : Nat := 13
def maxPayloadLen : Nat := 32 * 1024 * 1024
def paddingMarker : Byte := 0x01
def paddingBuckets : List Nat := [64, 256, 704]

inductive ProtocolError
  | io (error : String)
  | authenticationFailed
  | unknownMessageKind (kind : Byte)
  | payloadTooLarge (len max : Nat)
  | sequenceMismatch (expected received : Nat)
  | sequenceExhausted
  | malformedPadding
deriving DecidableEq

def recordNonce (sequence : Nat) : List Byte := List.replicate 4 0 ++ toBeBytes 8 sequence

/-- Sealed length of a payload: `payload || marker`, bucketed. -/
def paddedLen (payloadLen : Nat) : Nat :=
  let minimum := payloadLen + 1
  (paddingBuckets.find? (minimum ≤ ·)).getD minimum

/-- `Iterator::rposition`. -/
def rposition {α : Type} (p : α → Bool) (l : List α) : Option Nat := (l.reverse.findIdx? p).map (l.length - 1 - ·)

/-- Remove trailing padding: the marker is the last byte that is not zero. -/
def stripPadding (plaintext : List Byte) : Except ProtocolError (List Byte) :=
  match rposition (· != 0) plaintext with
  | none => .error .malformedPadding
  | some boundary =>
    if plaintext.getD boundary 0 ≠ paddingMarker then .error .malformedPadding else .ok (plaintext.take boundary)

def recordHeader (kind : MessageKind) (sequence sealedLen : Nat) : List Byte :=
  [kind.toU8] ++ toBeBytes 8 sequence ++ toBeBytes 4 sealedLen

/-- `payload || marker || 0 * padding`. -/
def padPayload (payload : List Byte) : List Byte :=
  payload ++ [paddingMarker] ++ List.replicate (paddedLen payload.length - (payload.length + 1)) 0

/-! ## Padding -/

theorem lt_paddedLen (payloadLen : Nat) : payloadLen < paddedLen payloadLen := by
  simp only [paddedLen]
  cases h : paddingBuckets.find? (payloadLen + 1 ≤ ·) with
  | none => rw [getD_none]; exact Nat.lt_succ_self _
  | some bucket => rw [getD_some]; exact Nat.lt_of_succ_le (by simpa using find?_some h)

@[simp] theorem length_padPayload (payload : List Byte) : (padPayload payload).length = paddedLen payload.length := by
  have := lt_paddedLen payload.length
  simp only [padPayload, length_append, length_cons, length_nil, length_replicate]
  omega

/-- The last entry that `p` holds of. -/
theorem rposition_cut {α : Type} {p : α → Bool} {before later : List α} {e : α} (he : p e = true)
    (hlater : later.any p = false) : rposition p (before ++ e :: later) = some before.length := by
  have hfind : ∀ (l m : List α), l.any p = false → (l ++ e :: m).findIdx? p = some l.length := by
    intro l m hl
    induction l with
    | nil => rw [nil_append, findIdx?_cons, if_pos he, length_nil]
    | cons x l ih =>
      rw [any_cons, Bool.or_eq_false_iff] at hl
      rw [cons_append, findIdx?_cons, hl.1, ih hl.2]
      rfl
  have hrev : (before ++ e :: later).reverse = later.reverse ++ e :: before.reverse := by simp
  rw [rposition, hrev, hfind _ _ (by rw [any_reverse]; exact hlater), map_some]
  simp only [length_append, length_cons, length_reverse]
  congr 1
  omega

theorem rposition_append_zeros {l : List Byte} {marker : Byte} (hm : marker ≠ 0) (zeros : Nat) :
    rposition (· != 0) (l ++ [marker] ++ List.replicate zeros 0) = some l.length := by
  rw [append_assoc]
  refine rposition_cut (bne_iff_ne.2 hm) ?_
  rw [List.any_eq_false]
  intro b hb
  rw [eq_of_mem_replicate hb]
  exact Bool.false_ne_true

theorem stripPadding_padPayload (payload : List Byte) : stripPadding (padPayload payload) = .ok payload := by
  have hget : (padPayload payload).getD payload.length 0 = paddingMarker := by
    unfold padPayload
    rw [append_assoc, getD_append_right (le_refl _), Nat.sub_self]
    rfl
  have htake : (padPayload payload).take payload.length = payload := by
    unfold padPayload
    rw [append_assoc, take_left']
    rfl
  unfold stripPadding
  rw [padPayload, rposition_append_zeros (by decide), ← padPayload]
  simp only
  rw [if_neg (by rw [hget]; simp), htake]

theorem padPayload_injective {a b : List Byte} (h : padPayload a = padPayload b) : a = b := by
  have := congrArg stripPadding h
  rw [stripPadding_padPayload, stripPadding_padPayload] at this
  exact Except.ok.inj this

/-! ## Headers -/

theorem length_recordHeader (kind : MessageKind) (sequence sealedLen : Nat) :
    (recordHeader kind sequence sealedLen).length = recordHeaderLen := by
  simp [recordHeader, recordHeaderLen]

theorem recordHeader_kind (kind : MessageKind) (sequence sealedLen : Nat) :
    (recordHeader kind sequence sealedLen).getD 0 0 = kind.toU8 := rfl

theorem recordHeader_sequence (kind : MessageKind) {sequence : Nat} (sealedLen : Nat) (h : sequence < 2 ^ 64) :
    fromBeBytes (slice (recordHeader kind sequence sealedLen) 1 9) = sequence := by
  rw [recordHeader, append_assoc, slice_append_right (by simp), length_singleton, Nat.sub_self,
    slice_append_self (by simp)]
  exact fromBeBytes_toBeBytes (show sequence < 256 ^ 8 from h)

theorem recordHeader_sealedLen (kind : MessageKind) (sequence : Nat) {sealedLen : Nat} (h : sealedLen < 2 ^ 32) :
    fromBeBytes (slice (recordHeader kind sequence sealedLen) 9 13) = sealedLen := by
  have hlen : ([kind.toU8] ++ toBeBytes 8 sequence).length = 9 := by simp
  rw [recordHeader, slice_append_right (le_of_eq hlen), hlen]
  have hself : slice (toBeBytes 4 sealedLen) (9 - 9) (13 - 9) = toBeBytes 4 sealedLen := by
    unfold slice
    rw [Nat.sub_self, drop_zero, take_of_length_le (by simp)]
  rw [hself]
  exact fromBeBytes_toBeBytes (show sealedLen < 256 ^ 4 from h)

theorem recordNonce_injective {a b : Nat} (ha : a < 2 ^ 64) (hb : b < 2 ^ 64) (h : recordNonce a = recordNonce b) : a = b := by
  have hbytes : toBeBytes 8 a = toBeBytes 8 b := append_cancel_left h
  have := congrArg fromBeBytes hbytes
  rwa [fromBeBytes_toBeBytes (show a < 256 ^ 8 from ha), fromBeBytes_toBeBytes (show b < 256 ^ 8 from hb)] at this

/-! ## The cipher -/

/-- `ChaCha20Poly1305` under one key: what it seals to a ciphertext and a tag, and what it opens. -/
structure Cipher where
  encryptInoutDetached : (nonce header plaintext : List Byte) → Option (List Byte × List Byte)
  decryptInoutDetached : (nonce header ciphertext tag : List Byte) → Option (List Byte)

/-- The arguments of one call of the cipher. -/
structure Sealed where
  nonce : List Byte
  header : List Byte
  plaintext : List Byte
deriving DecidableEq

/-! ## Writing -/

/-- The writer half: the bytes it has emitted and its counter. -/
structure SessionWriter where
  inner : List Byte
  nextSequence : Nat
deriving DecidableEq

/-- One `write_message` call. `fault` is the fate of its `write_all`: `none` when it succeeds, else
how many bytes it emits before it fails. -/
structure WriteCall where
  kind : MessageKind
  payload : List Byte
  fault : Option Nat
deriving DecidableEq

namespace SessionWriter

def new : SessionWriter := ⟨[], 0⟩

/-- `write_message`: the state it leaves, what it hands to the cipher, and its result. -/
def writeMessage (cipher : Cipher) (w : SessionWriter) (call : WriteCall) :
    SessionWriter × Option Sealed × Except ProtocolError Unit :=
  if call.payload.length > maxPayloadLen then
    (w, none, .error (.payloadTooLarge call.payload.length maxPayloadLen))
  else if w.nextSequence = u64Max then (w, none, .error .sequenceExhausted)
  else
    let sealedLen := paddedLen call.payload.length
    if sealedLen > maxPayloadLen then (w, none, .error (.payloadTooLarge sealedLen maxPayloadLen))
    else
      let header := recordHeader call.kind w.nextSequence sealedLen
      let nonce := recordNonce w.nextSequence
      let plaintext := padPayload call.payload
      match cipher.encryptInoutDetached nonce header plaintext with
      | none => (w, some ⟨nonce, header, plaintext⟩, .error .authenticationFailed)
      | some (ciphertext, tag) =>
        let record := header ++ ciphertext ++ tag
        match call.fault with
        | some emitted =>
          ({ w with inner := w.inner ++ record.take emitted }, some ⟨nonce, header, plaintext⟩, .error (.io "write failed"))
        | none =>
          ({ inner := w.inner ++ record, nextSequence := (w.nextSequence + 1) % 2 ^ 64 }, some ⟨nonce, header, plaintext⟩, .ok ())

end SessionWriter

/-! ## Reading -/

/-- The reader half: the bytes still to come, and the sequence number it asks for. -/
structure SessionReader where
  inner : List Byte
  expectedSequence : Nat
  maxPayloadLen : Nat
deriving DecidableEq

/-- `read_exact`: the bytes and what follows them; `none` at the end of the stream. -/
def readExact (inner : List Byte) (len : Nat) : Option (List Byte × List Byte) :=
  if inner.length < len then none else some (inner.take len, inner.drop len)

namespace SessionReader

def new (inner : List Byte) : SessionReader := ⟨inner, 0, Remote.maxPayloadLen⟩

def setMaxPayloadLen (r : SessionReader) (maxPayloadLen : Nat) : SessionReader :=
  { r with maxPayloadLen := min maxPayloadLen Remote.maxPayloadLen }

def unexpectedEof : ProtocolError := .io "failed to fill whole buffer"

/-- The body of `read_message_into`, which writes to `payload` as it goes. -/
def readRecord (cipher : Cipher) (r : SessionReader) (payload : List Byte) :
    SessionReader × List Byte × Except ProtocolError MessageKind :=
  if r.expectedSequence = u64Max then (r, payload, .error .sequenceExhausted)
  else
    match readExact r.inner recordHeaderLen with
    | none => ({ r with inner := [] }, payload, .error unexpectedEof)
    | some (header, inner) =>
      let received := fromBeBytes (slice header 1 9)
      if received ≠ r.expectedSequence then
        ({ r with inner := inner }, payload, .error (.sequenceMismatch r.expectedSequence received))
      else
        let payloadLen := fromBeBytes (slice header 9 13)
        if payloadLen > r.maxPayloadLen then
          ({ r with inner := inner }, payload, .error (.payloadTooLarge payloadLen r.maxPayloadLen))
        else
          match readExact inner payloadLen with
          | none =>
            ({ r with inner := [] }, inner ++ List.replicate (payloadLen - inner.length) 0, .error unexpectedEof)
          | some (ciphertext, inner) =>
            match readExact inner tagLen with
            | none => ({ r with inner := [] }, ciphertext, .error unexpectedEof)
            | some (tag, inner) =>
              match cipher.decryptInoutDetached (recordNonce received) header ciphertext tag with
              | none => ({ r with inner := inner }, ciphertext, .error .authenticationFailed)
              | some plaintext =>
                match stripPadding plaintext with
                | .error error => ({ r with inner := inner }, plaintext, .error error)
                | .ok stripped =>
                  match MessageKind.tryFrom (header.getD 0 0) with
                  | none => ({ r with inner := inner }, stripped, .error (.unknownMessageKind (header.getD 0 0)))
                  | some kind =>
                    ({ r with inner := inner, expectedSequence := r.expectedSequence + 1 }, stripped, .ok kind)

/-- `read_message_into`: every error leaves the caller's buffer empty. -/
def readMessageInto (cipher : Cipher) (r : SessionReader) (payload : List Byte) :
    SessionReader × List Byte × Except ProtocolError MessageKind :=
  match readRecord cipher r payload with
  | (r, payload, .ok kind) => (r, payload, .ok kind)
  | (r, _, .error error) => (r, [], .error error)

end SessionReader

end Jwm.Remote
