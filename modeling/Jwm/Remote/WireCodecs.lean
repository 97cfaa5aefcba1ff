/-
The wire formats of the remote desktop side by side: each decodes its own encodings and nothing
else, the formats with a leading count are prefix-free, and a failed encode of input leaves nothing
behind.
-/
import Jwm.Remote.CatalogWire
import Jwm.Remote.ClipboardWire
import Jwm.Remote.CursorWire
import Jwm.Remote.InputExact
import Jwm.Remote.KeymapTable

namespace Jwm.Remote

open KeymapTable

/-! ## Clipboard transfers -/

namespace TransferOp

theorem toBeBytes_slice {payload : List Byte} {n a b : Nat} (hab : a + n = b) (hb : b ≤ payload.length) :
    toBeBytes n (fromBeBytes (slice payload a b)) = slice payload a b ∧ fromBeBytes (slice payload a b) < 256 ^ n := by
  have hlen : (slice payload a b).length = n := by
    rw [length_slice hb]
    omega
  obtain ⟨hlt, heq⟩ := toBeBytes_fromBeBytes (slice payload a b)
  rw [hlen] at hlt heq
  exact ⟨heq, hlt⟩

theorem decodeKind_eq_ok {b : Byte} {kind : TransferKind} (h : decodeKind b.toNat = .ok kind) : b = kindByte kind := by
  have hcases : (b.toNat = 1 ∧ kind = .image) ∨ (b.toNat = 2 ∧ kind = .files) := by
    unfold decodeKind at h
    split at h
    · rename_i hb
      exact .inl ⟨hb, (Except.ok.inj h).symm⟩
    · rename_i hb
      exact .inr ⟨hb, (Except.ok.inj h).symm⟩
    · cases h
  rcases hcases with ⟨hb, rfl⟩ | ⟨hb, rfl⟩
  · exact BitVec.eq_of_toNat_eq hb
  · exact BitVec.eq_of_toNat_eq hb

/-- The record of an operation with this body. -/
structure Record (op id : Nat) (body : List Byte) (value : TransferOp) : Prop where
  fits : value.Fits
  bytes : value.encode = [BitVec.ofNat 8 op] ++ (toBeBytes 4 id ++ body)

theorem record_of_decodeBody {op id : Nat} {body : List Byte} {value : TransferOp} (hid : id < 2 ^ 32)
    (hlen : body.length ≤ transferChunkBytes) (h : decodeBody op id body = .ok value) : Record op id body value := by
  unfold decodeBody at h
  split at h
  · obtain ⟨hexact, h⟩ := unit_bind_eq_ok.1 h
    obtain ⟨kind, hkind, h⟩ := bind_eq_ok.1 h
    obtain rfl := pure_eq_ok.1 h
    have hbody : body.length = 17 := exact_eq_ok.1 hexact
    obtain ⟨hlength, hl⟩ := @toBeBytes_slice body 8 1 9 rfl (by omega)
    obtain ⟨hentries, he⟩ := @toBeBytes_slice body 4 9 13 rfl (by omega)
    obtain ⟨hitems, hi⟩ := @toBeBytes_slice body 4 13 17 rfl (by omega)
    refine ⟨⟨hid, hl, he, hi⟩, ?_⟩
    have hfirst : body = [body.getD 0 0] ++ body.drop 1 := by
      match body, hbody with
      | b :: rest, _ => rfl
    have hlast : slice body 13 17 = body.drop 13 := by
      rw [← hbody, slice_length]
    show [1] ++ (toBeBytes 4 id ++ ([kindByte kind] ++ (_ ++ (_ ++ _)))) = [1] ++ (toBeBytes 4 id ++ body)
    rw [hlength, hentries, hitems, hlast, slice_append_drop _ (by decide), slice_append_drop _ (by decide),
      ← decodeKind_eq_ok hkind, ← hfirst]
  · obtain ⟨hne, h⟩ := unit_bind_eq_ok.1 h
    obtain rfl := pure_eq_ok.1 h
    exact ⟨⟨hid, rejectIf_eq_ok.1 hne, hlen⟩, rfl⟩
  · obtain ⟨hexact, h⟩ := unit_bind_eq_ok.1 h
    obtain rfl := pure_eq_ok.1 h
    obtain rfl := List.eq_nil_of_length_eq_zero (exact_eq_ok.1 hexact)
    exact ⟨hid, rfl⟩
  · obtain ⟨hexact, h⟩ := unit_bind_eq_ok.1 h
    obtain rfl := pure_eq_ok.1 h
    obtain rfl := List.eq_nil_of_length_eq_zero (exact_eq_ok.1 hexact)
    exact ⟨hid, rfl⟩
  · obtain ⟨hexact, h⟩ := unit_bind_eq_ok.1 h
    obtain rfl := pure_eq_ok.1 h
    have hbody : body.length = 8 := exact_eq_ok.1 hexact
    obtain ⟨hconsumed, hc⟩ := @toBeBytes_slice body 8 0 8 rfl (by omega)
    refine ⟨⟨hid, hc⟩, ?_⟩
    have hall : slice body 0 8 = body := by
      rw [← hbody, slice_length, List.drop_zero]
    show [5] ++ (toBeBytes 4 id ++ toBeBytes 8 _) = [5] ++ (toBeBytes 4 id ++ body)
    rw [hconsumed, hall]
  · obtain ⟨hexact, h⟩ := unit_bind_eq_ok.1 h
    obtain rfl := pure_eq_ok.1 h
    obtain rfl := List.eq_nil_of_length_eq_zero (exact_eq_ok.1 hexact)
    exact ⟨hid, rfl⟩
  · cases h

/-- A decoded record is the encoding of its operation, which keeps the limits. -/
theorem encode_of_decode {payload : List Byte} {op : TransferOp} (h : decode payload = .ok op) :
    op.Fits ∧ op.encode = payload := by
  unfold decode at h
  simp only [unit_bind_eq_ok, rejectIf_eq_ok, Nat.not_lt] at h
  obtain ⟨hmin, hmax, h⟩ := h
  obtain ⟨hid, hlt⟩ := @toBeBytes_slice payload 4 1 5 rfl hmin
  have hbody : (payload.drop 5).length ≤ transferChunkBytes := by
    unfold maxTransferRecordBytes at hmax
    rw [List.length_drop]
    omega
  obtain ⟨hfits, hbytes⟩ := record_of_decodeBody hlt hbody h
  refine ⟨hfits, ?_⟩
  rw [hbytes, hid, slice_append_drop _ (by decide), BitVec.ofNat_toNat, BitVec.setWidth_eq]
  cases payload with
  | nil => exact absurd hmin (by decide)
  | cons b rest => rfl

end TransferOp

/-! ## All formats -/

variable {events : List InputEvent} {output : List Byte} {error : String}

theorem encodeInputBatchInto_clears
    (h : (encodeInputBatchInto events output).2 = .error error) : (encodeInputBatchInto events output).1 = [] := by
  rcases encodeInputBatchInto_spec events output with ⟨-, heq⟩ | ⟨-, error', heq⟩
  · rw [heq] at h
    cases h
  · rw [heq]

theorem encodeSourceInputInto_clears {sourceEpoch geometryEpoch : BitVec 64}
        (h : (encodeSourceInputInto sourceEpoch geometryEpoch events output).2 = .error error) :
    (encodeSourceInputInto sourceEpoch geometryEpoch events output).1 = [] := by
  rcases encodeSourceInputInto_spec sourceEpoch geometryEpoch events output with ⟨-, -, -, heq⟩ | ⟨-, error', heq⟩
  · rw [heq] at h
    cases h
  · rw [heq]

/-- Every value that is encoded is decoded to itself, every byte string that is decoded is the
encoding of its value, and what is accepted under a count ends where the count says. -/
structure ExactFormats : Prop where
  inputBatch : ExactCodec encodeInputBatch decodeInputBatch
  inputBatch_ends : PrefixFree decodeInputBatch
  inputBatch_failed : ∀ (events : List InputEvent) (output : List Byte) (error : String),
    (encodeInputBatchInto events output).2 = .error error → (encodeInputBatchInto events output).1 = []
  sourceInput :
    ExactCodec (fun v : BitVec 64 × BitVec 64 × List InputEvent => encodeSourceInput v.1 v.2.1 v.2.2) decodeSourceInput
  sourceInput_ends : PrefixFree decodeSourceInput
  sourceInput_failed : ∀ (sourceEpoch geometryEpoch : BitVec 64) (events : List InputEvent) (output : List Byte)
    (error : String), (encodeSourceInputInto sourceEpoch geometryEpoch events output).2 = .error error →
      (encodeSourceInputInto sourceEpoch geometryEpoch events output).1 = []
  transfer : ∀ op : TransferOp, op.Fits → TransferOp.decode op.encode = .ok op
  transfer_back : ∀ (payload : List Byte) (op : TransferOp), TransferOp.decode payload = .ok op → op.encode = payload
  catalog : ExactCodec SourceCatalog.encode SourceCatalog.decode
  catalog_ends : PrefixFree SourceCatalog.decode
  cursorShape : ExactCodec CursorShape.encode CursorShape.decode
  cursorPosition : ExactCodec CursorPosition.encode CursorPosition.decode
  keymap : ∀ t : KeymapTable, t.Coherent → KeymapTable.decode (t.encodeInto []) = .ok t
  keymap_back : ∀ (payload : List Byte) (t : KeymapTable), KeymapTable.decode payload = .ok t → t.encodeInto [] = payload
  keymap_ends : PrefixFree KeymapTable.decode

/-- The wire formats are exact bijections. -/
theorem exactFormats : ExactFormats where
  inputBatch := inputBatch_exact
  inputBatch_ends := inputBatch_prefixFree
  inputBatch_failed _ _ _ h := encodeInputBatchInto_clears h
  sourceInput := sourceInput_exact
  sourceInput_ends := sourceInput_prefixFree
  sourceInput_failed _ _ _ _ _ h := encodeSourceInputInto_clears h
  transfer _ h := TransferOp.decode_encode h
  transfer_back _ _ h := (TransferOp.encode_of_decode h).2
  catalog := SourceCatalog.exact
  catalog_ends := SourceCatalog.prefixFree
  cursorShape := CursorShape.exact
  cursorPosition := CursorPosition.exact
  keymap _ h := by
    rw [encodeInto, List.nil_append]
    exact decode_bytes h
  keymap_back _ _ h := by
    rw [encodeInto, List.nil_append]
    exact (bytes_of_decode h).2
  keymap_ends := prefixFree

/-- A release and a key pressed. -/
example : decodeInputBatch [2, 4, 2, 38, 1] = .ok [.releaseAll, .key 38 true] := by decide

end Jwm.Remote
