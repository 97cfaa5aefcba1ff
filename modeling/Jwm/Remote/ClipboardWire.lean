/-
Clipboard records (`remote/clipboard_sync.rs`, `backend/clipboard_x11.rs`): the transfer operations and
their wire form, what was negotiated, local copies, and the requests served to the local clipboard.
A record that is encoded is decoded to itself.
-/
import Jwm.Data.Bytes
import Jwm.Data.Check

namespace Jwm.Remote

/-! ## Constants -/

def transferChunkBytes : Nat := 128 * 1024
def transferWindowBytes : Nat := 1024 * 1024
def maxSharedImageBytes : Nat := 32 * 1024 * 1024
def maxTransferRecordBytes : Nat := 1 + 4 + transferChunkBytes
def reservedFreeBytes : Nat := 256 * 1024 * 1024

/-- `clipboard_offer::MAX_TEXT_BYTES`, which is `MAX_CLIPBOARD_BYTES` too. -/
def maxTextBytes : Nat := 256 * 1024
def maxFileListItems : Nat := 4096

/-- `clipboard_files::MAX_ENTRIES`. -/
def maxEntries : Nat := 100000

/-! ## Transfer operations -/

inductive TransferKind where
  | image
  | files
deriving DecidableEq

inductive TransferOp where
  | begin (id : Nat) (kind : TransferKind) (length entries items : Nat)
  | data (id : Nat) (bytes : List Byte)
  /-- `End`. -/
  | finish (id : Nat)
  | cancel (id : Nat)
  | ack (id consumed : Nat)
  | refuse (id : Nat)
deriving DecidableEq

namespace TransferOp

def kindByte : TransferKind → Byte
  | .image => 1
  | .files => 2

def encode : TransferOp → List Byte
  | .begin id kind length entries items =>
    [1] ++ (toBeBytes 4 id ++ ([kindByte kind] ++ (toBeBytes 8 length ++ (toBeBytes 4 entries ++ toBeBytes 4 items))))
  | .data id bytes => [2] ++ (toBeBytes 4 id ++ bytes)
  | .finish id => [3] ++ (toBeBytes 4 id ++ [])
  | .cancel id => [4] ++ (toBeBytes 4 id ++ [])
  | .ack id consumed => [5] ++ (toBeBytes 4 id ++ toBeBytes 8 consumed)
  | .refuse id => [6] ++ (toBeBytes 4 id ++ [])

/-- `exact`: the body has a fixed length. -/
def exact (body : List Byte) (len : Nat) : Except String Unit :=
  if body.length = len then .ok () else .error "clipboard transfer record has the wrong length"

def decodeKind : Nat → Except String TransferKind
  | 1 => .ok .image
  | 2 => .ok .files
  | _ => .error "unknown clipboard transfer kind"

/-- The record's own part of `decode`. -/
def decodeBody (op id : Nat) (body : List Byte) : Except String TransferOp :=
  match op with
  | 1 => do
    exact body (1 + 8 + 4 + 4)
    let kind ← decodeKind (body.getD 0 0).toNat
    return .begin id kind (fromBeBytes (slice body 1 9)) (fromBeBytes (slice body 9 13)) (fromBeBytes (slice body 13 17))
  | 2 => do
    rejectIf (body = []) "clipboard transfer chunk is empty"
    return .data id body
  | 3 => do
    exact body 0
    return .finish id
  | 4 => do
    exact body 0
    return .cancel id
  | 5 => do
    exact body 8
    return .ack id (fromBeBytes (slice body 0 8))
  | 6 => do
    exact body 0
    return .refuse id
  | _ => .error "unknown clipboard transfer operation"

def decode (payload : List Byte) : Except String TransferOp := do
  rejectIf (payload.length < 5) "clipboard transfer record is too short"
  rejectIf (payload.length > maxTransferRecordBytes) "clipboard transfer record is too large"
  decodeBody (payload.getD 0 0).toNat (fromBeBytes (slice payload 1 5)) (payload.drop 5)

/-- The fields fit their integers; a chunk is not empty and no longer than a record carries. -/
def Fits : TransferOp → Prop
  | .begin id _ length entries items => id < 2 ^ 32 ∧ length < 2 ^ 64 ∧ entries < 2 ^ 32 ∧ items < 2 ^ 32
  | .data id bytes => id < 2 ^ 32 ∧ bytes ≠ [] ∧ bytes.length ≤ transferChunkBytes
  | .ack id consumed => id < 2 ^ 32 ∧ consumed < 2 ^ 64
  | .finish id | .cancel id | .refuse id => id < 2 ^ 32

/-! ## Round trip -/

variable {id len : Nat} {body : List Byte}

/-- `decode` takes the operation, the id and the body off a record. -/
theorem decode_record {op : Byte} (hid : id < 2 ^ 32) (hbody : body.length ≤ transferChunkBytes) :
    decode ([op] ++ (toBeBytes 4 id ++ body)) = decodeBody op.toNat id body := by
  have hlen : ([op] ++ (toBeBytes 4 id ++ body)).length = 5 + body.length := by
    simp only [List.length_append, List.length_singleton, length_toBeBytes]
    omega
  have hslice : slice ([op] ++ (toBeBytes 4 id ++ body)) 1 5 = toBeBytes 4 id := by
    rw [slice_append_right (Nat.le_refl 1)]
    exact slice_append_self (length_toBeBytes ..).symm
  have hdrop : ([op] ++ (toBeBytes 4 id ++ body)).drop 5 = body := by
    exact List.drop_left' (length_toBeBytes ..)
  unfold decode
  rw [hslice, hdrop, hlen, fromBeBytes_toBeBytes hid, rejectIf, if_neg (by omega), rejectIf,
    if_neg (by unfold maxTransferRecordBytes; omega)]
  rfl

theorem exact_eq_ok {u : Unit} : exact body len = .ok u ↔ body.length = len := by
  unfold exact
  split
  · exact ⟨fun _ => ‹_›, fun _ => rfl⟩
  · refine ⟨fun h => ?_, fun h => absurd h ‹_›⟩
    cases h

theorem fromBeBytes_field {n : Nat} (h : n < 256 ^ len) (rest : List Byte) :
    fromBeBytes (slice (toBeBytes len n ++ rest) 0 len) = n := by
  rw [slice_append_self (length_toBeBytes ..).symm, fromBeBytes_toBeBytes h]

theorem decodeBody_begin {length entries items : Nat} (kind : TransferKind) (hlength : length < 2 ^ 64)
    (hentries : entries < 2 ^ 32) (hitems : items < 2 ^ 32) :
    decodeBody 1 id ([kindByte kind] ++ (toBeBytes 8 length ++ (toBeBytes 4 entries ++ toBeBytes 4 items))) =
      .ok (.begin id kind length entries items) := by
  simp only [decodeBody, bind_eq_ok, exact_eq_ok]
  refine ⟨(), by simp, kind, ?_, ?_⟩
  · cases kind <;> rfl
  · have h1 : slice ([kindByte kind] ++ (toBeBytes 8 length ++ (toBeBytes 4 entries ++ toBeBytes 4 items))) 1 9 =
        slice (toBeBytes 8 length ++ (toBeBytes 4 entries ++ toBeBytes 4 items)) 0 8 := slice_append_right (Nat.le_refl 1)
    have h2 : slice ([kindByte kind] ++ (toBeBytes 8 length ++ (toBeBytes 4 entries ++ toBeBytes 4 items))) 9 13 =
        slice (toBeBytes 4 entries ++ toBeBytes 4 items) 0 4 := by
      refine (slice_append_right (show 1 ≤ 9 by decide)).trans ((slice_append_right ?_).trans ?_)
      · rw [length_toBeBytes]
        exact Nat.le_refl 8
      · rw [length_toBeBytes]
        rfl
    have h3 : slice ([kindByte kind] ++ (toBeBytes 8 length ++ (toBeBytes 4 entries ++ toBeBytes 4 items))) 13 17 =
        slice (toBeBytes 4 items ++ []) 0 4 := by
      rw [List.append_nil]
      refine (slice_append_right (show 1 ≤ 13 by decide)).trans ((slice_append_right ?_).trans ((slice_append_right ?_).trans ?_))
      · rw [length_toBeBytes]
        exact Nat.le_add_left 8 4
      · rw [length_toBeBytes, length_toBeBytes]
        exact Nat.le_refl 4
      · rw [length_toBeBytes, length_toBeBytes]
        rfl
    rw [pure_eq_ok, h1, h2, h3, fromBeBytes_field hlength, fromBeBytes_field hentries, fromBeBytes_field hitems]

theorem decode_encode {op : TransferOp} (h : op.Fits) : decode op.encode = .ok op := by
  cases op with
  | begin id kind length entries items =>
    obtain ⟨hid, hlength, hentries, hitems⟩ := h
    exact (decode_record hid (by simp [transferChunkBytes])).trans (decodeBody_begin kind hlength hentries hitems)
  | data id bytes =>
    obtain ⟨hid, hne, hlen⟩ := h
    refine (decode_record hid hlen).trans ?_
    show (rejectIf (bytes = []) _ >>= fun _ => _) = _
    rw [rejectIf, if_neg hne]
    rfl
  | finish id | cancel id => exact decode_record h (Nat.zero_le _)
  | ack id consumed =>
    obtain ⟨hid, hconsumed⟩ := h
    refine (decode_record hid (by rw [length_toBeBytes]; decide)).trans ?_
    show decodeBody 5 id _ = _
    simp only [decodeBody, bind_eq_ok, exact_eq_ok, pure_eq_ok]
    refine ⟨(), length_toBeBytes .., ?_⟩
    rw [← List.append_nil (toBeBytes 8 consumed), fromBeBytes_field hconsumed]
  | refuse id => exact decode_record h (Nat.zero_le _)

end TransferOp

/-! ## What was negotiated -/

/-- How this end shares its clipboard. -/
structure SyncOptions where
  send : Bool
  receive : Bool
  images : Bool
  files : Bool
  fileLimit : Nat
deriving DecidableEq

def SyncOptions.validatePeerOp (o : SyncOptions) (op : TransferOp) : Except String Unit :=
  if !o.images && (!o.files || o.fileLimit = 0) then .error "clipboard transfers were not negotiated"
  else
    match op with
    | .ack .. | .refuse .. => if !o.send then .error "clipboard send direction was not negotiated" else .ok ()
    | .begin _ kind _ _ _ =>
      if !o.receive then .error "clipboard receive direction was not negotiated"
      else
        match kind with
        | .image => if !o.images then .error "image sharing was not negotiated" else .ok ()
        | .files => if !o.files || o.fileLimit = 0 then .error "file sharing was not negotiated" else .ok ()
    | _ => if !o.receive then .error "clipboard receive direction was not negotiated" else .ok ()

/-! ## Local copies and requests -/

abbrev Path := List Byte

inductive CopiedClipboard where
  | text (value : List Byte)
  | png (image : List Byte)
  | files (paths : List Path)
deriving DecidableEq

inductive PendingKind where
  | png
  | files
deriving DecidableEq

inductive RemoteServe where
  | text (value : List Byte)
  | announce (token : Nat) (kind : PendingKind)
  | fulfilPng (token : Nat) (png : List Byte)
  | fulfilFiles (token : Nat) (paths : List Path)
  | abandon (token : Nat)
deriving DecidableEq

/-- `if len <= limit { Some(len) }`; allocations are taken at their length. -/
def withinBytes (len limit : Nat) : Option Nat := if len ≤ limit then some len else none

/-- `paths_bytes`; a `PathBuf` is 24 bytes. -/
def pathsBytes (paths : List Path) : Option Nat :=
  let retained := paths.length * 24 + (paths.map List.length).sum
  let encoded := 4 + (paths.map fun path => path.length * 9 + 18).sum
  if paths.length > maxFileListItems then none
  else if retained ≤ maxTextBytes ∧ encoded ≤ maxTextBytes then some retained
  else none

def CopiedClipboard.retainedBytes : CopiedClipboard → Option Nat
  | .text value => withinBytes value.length maxTextBytes
  | .png image => withinBytes image.length maxSharedImageBytes
  | .files paths => pathsBytes paths

def RemoteServe.retainedBytes : RemoteServe → Option Nat
  | .text value => withinBytes value.length maxTextBytes
  | .fulfilPng _ png => withinBytes png.length maxSharedImageBytes
  | .fulfilFiles _ paths => pathsBytes paths
  | .announce .. | .abandon .. => some 0

end Jwm.Remote
