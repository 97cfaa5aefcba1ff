/-
Integrity of the record stream: a reader gets back the messages that were written, and from any bytes
an attacker builds it delivers a prefix of them, with an empty buffer on every error.
-/
import Jwm.Remote.ProtocolNonce

namespace Jwm.Remote

open List Option MessageKind

abbrev Message := MessageKind × List Byte

/-- What the transport assumes of the cipher: it seals every plaintext a record may carry, to a
ciphertext of the same length and a tag, and opens exactly what was sealed. -/
structure Authentic (cipher : Cipher) (sealings : List Sealed) : Prop where
  seals : ∀ nonce header plaintext, plaintext.length ≤ maxPayloadLen → ∃ ciphertext tag,
    cipher.encryptInoutDetached nonce header plaintext = some (ciphertext, tag) ∧
      ciphertext.length = plaintext.length ∧ tag.length = tagLen
  opens : ∀ nonce header ciphertext tag plaintext,
    cipher.decryptInoutDetached nonce header ciphertext tag = some plaintext ↔
      ⟨nonce, header, plaintext⟩ ∈ sealings ∧ cipher.encryptInoutDetached nonce header plaintext = some (ciphertext, tag)

/-! ## Writing a stream -/

variable {w : SessionWriter} {m : Message} {sealings : List Sealed}

namespace SessionWriter

/-- The calls that write `messages`, with a stream that takes everything. -/
def writes (messages : List Message) : List WriteCall := messages.map fun m => ⟨m.1, m.2, none⟩

/-- The messages whose `write_message` returned `Ok`. -/
def sentBy (cipher : Cipher) (w : SessionWriter) (calls : List WriteCall) : List Message :=
  (trace (writeMessage cipher) w calls).filterMap fun e =>
    match e.2.2 with
    | .ok () => some (e.1.kind, e.1.payload)
    | .error _ => none

def recordOf (cipher : Cipher) (sequence : Nat) (m : Message) : List Byte :=
  let s := sealing sequence ⟨m.1, m.2, none⟩
  let sealed := (cipher.encryptInoutDetached s.nonce s.header s.plaintext).getD ([], [])
  s.header ++ sealed.1 ++ sealed.2

/-- The records of a list of messages, numbered from `sequence` on. -/
def recordsFrom (cipher : Cipher) (sequence : Nat) (messages : List Message) : List Byte :=
  (messages.zipIdx sequence).flatMap fun m => recordOf cipher m.2 m.1

def sealingsFrom (sequence : Nat) (messages : List Message) : List Sealed :=
  (messages.zipIdx sequence).map fun m => sealing m.2 ⟨m.1.1, m.1.2, none⟩

section Writing

variable {cipher : Cipher}

def SealsAll (cipher : Cipher) : Prop :=
  ∀ nonce header plaintext, plaintext.length ≤ maxPayloadLen → (cipher.encryptInoutDetached nonce header plaintext).isSome = true

theorem writeMessage_of_seals (seals : SealsAll cipher) (hlen : paddedLen m.2.length ≤ maxPayloadLen)
    (hlt : w.nextSequence < u64Max) :
    w.writeMessage cipher ⟨m.1, m.2, none⟩ =
      (⟨w.inner ++ recordOf cipher w.nextSequence m, w.nextSequence + 1⟩, some (sealing w.nextSequence ⟨m.1, m.2, none⟩), .ok ()) := by
  have hpayload := lt_paddedLen m.2.length
  obtain ⟨sealed, hsealed⟩ := isSome_iff_exists.1 (seals (recordNonce w.nextSequence)
    (recordHeader m.1 w.nextSequence (paddedLen m.2.length)) (padPayload m.2) (by rw [length_padPayload]; exact hlen))
  rw [writeMessage, if_neg (by simp only; omega), if_neg (by omega)]
  simp only
  rw [if_neg (by omega), hsealed]
  simp only [succ_mod_eq hlt]
  rw [recordOf, sealing]
  simp only [hsealed, getD_some]

theorem writeMessage_of_exhausted (hlen : paddedLen m.2.length ≤ maxPayloadLen) (h : w.nextSequence = u64Max) :
    w.writeMessage cipher ⟨m.1, m.2, none⟩ = (w, none, .error .sequenceExhausted) := by
  have hpayload := lt_paddedLen m.2.length
  rw [writeMessage, if_neg (by simp only; omega), if_pos h]

/-- A run on a stream that takes everything: the messages are sent until the numbers are used up. -/
theorem run_writes (seals : SealsAll cipher) : ∀ (messages : List Message) {w : SessionWriter}, w.nextSequence ≤ u64Max →
    (∀ m ∈ messages, paddedLen m.2.length ≤ maxPayloadLen) →
    sentBy cipher w (writes messages) = messages.take (u64Max - w.nextSequence) ∧
    sealedBy cipher w (writes messages) = sealingsFrom w.nextSequence (messages.take (u64Max - w.nextSequence)) ∧
    (after (writeMessage cipher) w (writes messages)).inner =
      w.inner ++ recordsFrom cipher w.nextSequence (messages.take (u64Max - w.nextSequence))
  | [], w, _, _ => by simp [writes, sentBy, sealedBy, answers, trace, sealingsFrom, recordsFrom, after]
  | m :: messages, w, hb, hlen => by
    have hm := hlen m mem_cons_self
    have hrest : ∀ m ∈ messages, paddedLen m.2.length ≤ maxPayloadLen := fun m h => hlen m (mem_cons_of_mem _ h)
    rcases Nat.lt_or_ge w.nextSequence u64Max with hlt | hge
    · have hw := writeMessage_of_seals seals hm hlt
      obtain ⟨hsent, hsealed, hinner⟩ := run_writes seals messages (w := ⟨w.inner ++ recordOf cipher w.nextSequence m, w.nextSequence + 1⟩)
        hlt hrest
      have htake : u64Max - w.nextSequence = u64Max - (w.nextSequence + 1) + 1 := by omega
      rw [htake, take_succ_cons]
      refine ⟨?_, ?_, ?_⟩
      · unfold sentBy at hsent ⊢
        rw [writes, map_cons, trace, hw, filterMap_cons]
        simp only
        rw [← writes, hsent]
      · rw [writes, map_cons, sealedBy_cons, hw, ← writes, hsealed]
        simp [sealingsFrom]
      · rw [writes, map_cons, after, hw, ← writes, hinner]
        simp [recordsFrom]
    · have hmax : w.nextSequence = u64Max := by omega
      have hw : w.writeMessage cipher ⟨m.1, m.2, none⟩ = (w, none, .error .sequenceExhausted) := writeMessage_of_exhausted hm hmax
      obtain ⟨hsent, hsealed, hinner⟩ := run_writes seals messages hb hrest
      have hzero : u64Max - w.nextSequence = 0 := by omega
      rw [hzero, take_zero] at hsent hsealed hinner ⊢
      refine ⟨?_, ?_, ?_⟩
      · unfold sentBy at hsent ⊢
        rw [writes, map_cons, trace, hw, filterMap_cons]
        simp only
        rw [← writes, hsent]
      · rw [writes, map_cons, sealedBy_cons, hw, ← writes, hsealed]
        rfl
      · rw [writes, map_cons, after, hw, ← writes, hinner]

end Writing

end SessionWriter

/-! ## Reading a stream -/

namespace SessionReader

open SessionWriter (sealing recordOf recordsFrom sealingsFrom)

/-- Everything `read_message_into` can do. -/
inductive Read (cipher : Cipher) (r : SessionReader) : SessionReader → List Byte → Except ProtocolError MessageKind → Prop
  | failed {inner error} : Read cipher r { r with inner := inner } [] (.error error)
  | delivered {inner header ciphertext tag plaintext payload kind} (notLast : r.expectedSequence ≠ u64Max)
    (opened : cipher.decryptInoutDetached (recordNonce r.expectedSequence) header ciphertext tag = some plaintext)
    (stripped : stripPadding plaintext = .ok payload) (known : MessageKind.tryFrom (header.getD 0 0) = some kind) :
    Read cipher r { r with inner := inner, expectedSequence := r.expectedSequence + 1 } payload (.ok kind)

theorem readMessageInto_read (cipher : Cipher) (r : SessionReader) (buffer : List Byte) :
    Read cipher r (r.readMessageInto cipher buffer).1 (r.readMessageInto cipher buffer).2.1
      (r.readMessageInto cipher buffer).2.2 := by
  unfold readMessageInto readRecord
  split_ifs with hlast
  · exact (.failed : Read cipher r { r with inner := r.inner } [] _)
  · cases readExact r.inner recordHeaderLen with
    | none => exact .failed
    | some out =>
      obtain ⟨header, inner⟩ := out
      simp only
      split_ifs with hsequence hlen
      · exact .failed
      · exact .failed
      · have hseq := not_not.1 hsequence
        cases readExact inner (fromBeBytes (slice header 9 13)) with
        | none => exact .failed
        | some out =>
          obtain ⟨ciphertext, inner⟩ := out
          simp only
          cases readExact inner tagLen with
          | none => exact .failed
          | some out =>
            obtain ⟨tag, inner⟩ := out
            simp only
            cases hopen : cipher.decryptInoutDetached (recordNonce (fromBeBytes (slice header 1 9))) header ciphertext tag with
            | none => exact .failed
            | some plaintext =>
              simp only
              cases hstrip : stripPadding plaintext with
              | error error => exact .failed
              | ok payload =>
                simp only
                cases hkind : tryFrom (header.getD 0 0) with
                | none => exact .failed
                | some kind =>
                  rw [hseq] at hopen
                  exact .delivered hlast hopen hstrip hkind

theorem readExact_append (a b : List Byte) : readExact (a ++ b) a.length = some (a, b) := by
  rw [readExact, if_neg (by simp), take_left', drop_left'] <;> rfl

theorem readMessageInto_recordOf {cipher : Cipher} (aead : Authentic cipher sealings) {r : SessionReader}
    {rest : List Byte} (hinner : r.inner = recordOf cipher r.expectedSequence m ++ rest)
    (hlt : r.expectedSequence < u64Max) (hlen : paddedLen m.2.length ≤ r.maxPayloadLen) (hmax : r.maxPayloadLen ≤ Remote.maxPayloadLen)
    (hsealed : sealing r.expectedSequence ⟨m.1, m.2, none⟩ ∈ sealings) (buffer : List Byte) :
    r.readMessageInto cipher buffer =
      ({ r with inner := rest, expectedSequence := r.expectedSequence + 1 }, m.2, .ok m.1) := by
  have hpadded : (padPayload m.2).length ≤ Remote.maxPayloadLen := by rw [length_padPayload]; omega
  obtain ⟨ciphertext, tag, hseal, hct, htag⟩ := aead.seals (recordNonce r.expectedSequence)
    (recordHeader m.1 r.expectedSequence (paddedLen m.2.length)) (padPayload m.2) hpadded
  have hopen := (aead.opens _ _ _ _ _).2 ⟨hsealed, hseal⟩
  rw [length_padPayload] at hct
  have hseq := recordHeader_sequence m.1 (paddedLen m.2.length) (show r.expectedSequence < 2 ^ 64 by unfold u64Max at hlt; omega)
  have hfield := recordHeader_sealedLen m.1 r.expectedSequence
    (show paddedLen m.2.length < 2 ^ 32 by unfold Remote.maxPayloadLen at hmax; omega)
  have hbytes : r.inner = recordHeader m.1 r.expectedSequence (paddedLen m.2.length) ++ (ciphertext ++ (tag ++ rest)) := by
    rw [hinner, recordOf, sealing]
    simp only [hseal, getD_some, append_assoc]
  unfold readMessageInto readRecord
  rw [if_neg (by omega), hbytes, ← length_recordHeader m.1 r.expectedSequence (paddedLen m.2.length), readExact_append]
  simp only [hseq, hfield]
  rw [if_neg (by simp), if_neg (by omega), ← hct, readExact_append]
  simp only
  rw [← htag, readExact_append]
  simp only
  rw [hct, hopen]
  simp only [stripPadding_padPayload, recordHeader_kind, tryFrom_toU8]

/-- The messages among the results of a sequence of reads. -/
def delivered (results : List (List Byte × Except ProtocolError MessageKind)) : List Message :=
  results.filterMap fun e =>
    match e.2 with
    | .ok kind => some (kind, e.1)
    | .error _ => none

section Reading

variable {cipher : Cipher}

/-- The records of `messages`, read one after the other. -/
theorem answers_recordsFrom (aead : Authentic cipher sealings) : ∀ (messages : List Message)
    {r : SessionReader} (buffers : List (List Byte)), r.inner = recordsFrom cipher r.expectedSequence messages →
    buffers.length = messages.length → r.expectedSequence + messages.length ≤ u64Max →
    r.maxPayloadLen ≤ Remote.maxPayloadLen → (∀ m ∈ messages, paddedLen m.2.length ≤ r.maxPayloadLen) →
    (∀ s ∈ sealingsFrom r.expectedSequence messages, s ∈ sealings) →
    answers (readMessageInto cipher) r buffers = messages.map fun m => (m.2, .ok m.1)
  | [], r, [], _, _, _, _, _, _ => rfl
  | m :: messages, r, buffer :: buffers, hinner, hcount, hseq, hmax, hlen, hsealed => by
    simp only [length_cons] at hcount hseq
    have hsplit : r.inner = recordOf cipher r.expectedSequence m ++ recordsFrom cipher (r.expectedSequence + 1) messages := by
      rw [hinner]
      simp [recordsFrom]
    have hread := readMessageInto_recordOf aead hsplit (by omega) (hlen m mem_cons_self) hmax
      (hsealed _ (by simp [sealingsFrom])) buffer
    have rest := answers_recordsFrom aead messages
      (r := { r with inner := recordsFrom cipher (r.expectedSequence + 1) messages, expectedSequence := r.expectedSequence + 1 })
      buffers rfl (by omega) (by simp only; omega) hmax (fun m h => hlen m (mem_cons_of_mem _ h))
      fun s hs => hsealed s (by
        rw [sealingsFrom, zipIdx_cons, map_cons]
        exact mem_cons_of_mem _ hs)
    unfold answers at rest ⊢
    rw [trace, hread, map_cons, map_cons, rest]

/-- From any bytes, the reader has delivered the messages up to its sequence number. -/
structure Reads (sent : List Message) (h : List (List Byte × List Byte × Except ProtocolError MessageKind)) (r : SessionReader) :
    Prop where
  count : r.expectedSequence ≤ sent.length
  messages : delivered (h.map Prod.snd) = sent.take r.expectedSequence
  empty : ∀ e ∈ h, ∀ error, e.2.2 = .error error → e.2.1 = []

theorem delivered_snoc (results : List (List Byte × Except ProtocolError MessageKind)) (payload : List Byte) (kind : MessageKind) :
    delivered (results ++ [(payload, .ok kind)]) = delivered results ++ [(kind, payload)] := by
  rw [delivered, filterMap_append]
  rfl

theorem delivered_snoc_error (results : List (List Byte × Except ProtocolError MessageKind)) (payload : List Byte)
    (error : ProtocolError) : delivered (results ++ [(payload, .error error)]) = delivered results := by
  rw [delivered, filterMap_append]
  exact append_nil _

/-- What opens under the nonce of `k` is the `k`-th message sent. -/
theorem getElem?_of_opened {sent : List Message} (hcount : sent.length ≤ u64Max) (aead : Authentic cipher (sealingsFrom 0 sent))
    {k : Nat} (hk : k < u64Max) {header ciphertext tag plaintext payload : List Byte} {kind : MessageKind}
    (opened : cipher.decryptInoutDetached (recordNonce k) header ciphertext tag = some plaintext)
    (stripped : stripPadding plaintext = .ok payload) (known : tryFrom (header.getD 0 0) = some kind) :
    sent[k]? = some (kind, payload) := by
  have hmem := ((aead.opens _ _ _ _ _).1 opened).1
  rw [sealingsFrom, List.mem_map] at hmem
  obtain ⟨⟨m, i⟩, hmem, heq⟩ := hmem
  have hget : sent[i]? = some m := by simpa using mem_zipIdx_iff_getElem?.1 hmem
  obtain ⟨hlt, _⟩ := List.getElem?_eq_some_iff.1 hget
  obtain ⟨hnonce, hheader, hplaintext⟩ := Sealed.mk.inj heq
  have hik : i = k := recordNonce_injective (by unfold u64Max at hcount; omega) (by unfold u64Max at hk; omega) hnonce
  subst hik
  subst hheader hplaintext
  rw [stripPadding_padPayload] at stripped
  rw [recordHeader_kind, tryFrom_toU8] at known
  rw [hget, ← Except.ok.inj stripped, ← some.inj known]

theorem Reads.step {sent : List Message} (hcount : sent.length ≤ u64Max) (aead : Authentic cipher (sealingsFrom 0 sent))
    {h : List (List Byte × List Byte × Except ProtocolError MessageKind)} {r : SessionReader} (ok : Reads sent h r) (buffer : List Byte) :
    Reads sent (h ++ [(buffer, (r.readMessageInto cipher buffer).2)]) (r.readMessageInto cipher buffer).1 := by
  cases hr : r.readMessageInto cipher buffer with
  | mk r' out =>
    obtain ⟨payload, result⟩ := out
    have read := readMessageInto_read cipher r buffer
    rw [hr] at read
    cases read with
    | failed =>
      refine ⟨ok.count, ?_, ?_⟩
      · rw [map_append, map_singleton, delivered_snoc_error]
        exact ok.messages
      · intro e he error herror
        rcases mem_append.1 he with he | he
        · exact ok.empty e he error herror
        · rw [mem_singleton.1 he]
    | delivered notLast opened stripped known =>
      have hget := getElem?_of_opened hcount aead (lt_of_le_of_ne (le_trans ok.count hcount) notLast) opened stripped known
      obtain ⟨hlt, _⟩ := List.getElem?_eq_some_iff.1 hget
      refine ⟨hlt, ?_, ?_⟩
      · rw [map_append, map_singleton, delivered_snoc, ok.messages]
        simp only
        rw [take_add_one, hget]
        rfl
      · intro e he error herror
        rcases mem_append.1 he with he | he
        · exact ok.empty e he error herror
        · rw [mem_singleton.1 he] at herror
          cases herror

end Reading

end SessionReader

/-! ## Integrity -/

open SessionWriter SessionReader

/-- Integrity of the encrypted record stream. A reader under the same key returns the messages that were written, in order;
from any stream an attacker builds it delivers a prefix of those sent, and every error leaves the caller's buffer empty. -/
theorem record_stream_integrity {cipher : Cipher} {messages : List Message} (maxLen : Nat)
    (aead : Authentic cipher (sealedBy cipher .new (writes messages)))
    (hlen : ∀ m ∈ messages, paddedLen m.2.length ≤ ((SessionReader.new []).setMaxPayloadLen maxLen).maxPayloadLen) :
    sentBy cipher .new (writes messages) = messages.take u64Max ∧
    (∀ buffers : List (List Byte), buffers.length = (sentBy cipher .new (writes messages)).length →
      answers (readMessageInto cipher)
          ((SessionReader.new (after (writeMessage cipher) .new (writes messages)).inner).setMaxPayloadLen maxLen) buffers =
        (sentBy cipher .new (writes messages)).map fun m => (m.2, .ok m.1)) ∧
    ∀ (stream : List Byte) (buffers : List (List Byte)),
      delivered (answers (readMessageInto cipher) ((SessionReader.new stream).setMaxPayloadLen maxLen) buffers) <+:
        sentBy cipher .new (writes messages) ∧
      ∀ e ∈ answers (readMessageInto cipher) ((SessionReader.new stream).setMaxPayloadLen maxLen) buffers,
        ∀ error, e.2 = .error error → e.1 = [] := by
  have hmax : min maxLen Remote.maxPayloadLen ≤ Remote.maxPayloadLen := Nat.min_le_right _ _
  have seals : SealsAll cipher := fun nonce header plaintext hp => by
    obtain ⟨ciphertext, tag, hseal, _⟩ := aead.seals nonce header plaintext hp
    rw [hseal]
    rfl
  obtain ⟨hsent, hsealed, hinner⟩ := run_writes seals messages (w := .new) (Nat.zero_le _) fun m hm => le_trans (hlen m hm) hmax
  simp only [SessionWriter.new, Nat.sub_zero, nil_append] at hsent hsealed hinner
  rw [SessionWriter.new, hsealed] at aead
  have hcount : (messages.take u64Max).length ≤ u64Max := by rw [length_take]; exact Nat.min_le_left _ _
  simp only [SessionWriter.new, hsent, hinner]
  refine ⟨trivial, fun buffers hbuffers => ?_, fun stream buffers => ?_⟩
  · exact answers_recordsFrom aead (messages.take u64Max)
      (r := (SessionReader.new (recordsFrom cipher 0 (messages.take u64Max))).setMaxPayloadLen maxLen) buffers rfl hbuffers
      (by simp [SessionReader.new, setMaxPayloadLen]) hmax
      (fun m hm => hlen m (mem_of_mem_take hm)) fun s hs => hs
  · have ok : Reads (messages.take u64Max)
        (trace (readMessageInto cipher) ((SessionReader.new stream).setMaxPayloadLen maxLen) buffers)
        (after (readMessageInto cipher) ((SessionReader.new stream).setMaxPayloadLen maxLen) buffers) :=
      trace_invariant (fun _ _ buffer ok => ok.step hcount aead buffer)
        ⟨Nat.zero_le _, rfl, fun _ he => absurd he not_mem_nil⟩ buffers
    constructor
    · rw [answers, ok.messages]
      exact take_prefix _ _
    · intro e he error herror
      obtain ⟨e', he', rfl⟩ := List.mem_map.1 he
      exact ok.empty e' he' error herror

/-! ## Reading on after an error -/

/-- A cipher that seals to the plaintext itself and opens exactly the records of a list. -/
def tableCipher (sealings : List Sealed) : Cipher where
  encryptInoutDetached _ _ plaintext := some (plaintext, List.replicate tagLen 0)
  decryptInoutDetached nonce header ciphertext tag :=
    if ⟨nonce, header, ciphertext⟩ ∈ sealings ∧ tag = List.replicate tagLen 0 then some ciphertext else none

theorem tableCipher_authentic (sealings : List Sealed) : Authentic (tableCipher sealings) sealings where
  seals _ _ plaintext _ := ⟨plaintext, replicate tagLen 0, rfl, rfl, length_replicate⟩
  opens nonce header ciphertext tag plaintext := by
    simp only [tableCipher]
    split_ifs with h
    · constructor
      · intro he
        obtain rfl := some.inj he
        exact ⟨h.1, by rw [h.2]⟩
      · rintro ⟨_, he⟩
        rw [(Prod.mk.inj (some.inj he)).1]
    · constructor
      · intro he
        cases he
      · rintro ⟨hmem, he⟩
        obtain ⟨rfl, rfl⟩ := Prod.mk.inj (some.inj he)
        exact absurd ⟨hmem, rfl⟩ h

/-- Two messages, the second ending in the padding's own bytes. -/
def sampleMessages : List Message := [(.heartbeat, []), (.clipboard, [7, 1, 0])]

theorem record_stream_integrity_sample :
    answers (readMessageInto (tableCipher (sealingsFrom 0 sampleMessages)))
        ((SessionReader.new (after (writeMessage (tableCipher (sealingsFrom 0 sampleMessages))) .new (writes sampleMessages)).inner).setMaxPayloadLen
          4096) [[], [5]] =
      [([], .ok .heartbeat), ([7, 1, 0], .ok .clipboard)] := by
  have h : sealedBy (tableCipher (sealingsFrom 0 sampleMessages)) .new (writes sampleMessages) = sealingsFrom 0 sampleMessages := by
    decide +kernel
  have aead : Authentic (tableCipher (sealingsFrom 0 sampleMessages))
      (sealedBy (tableCipher (sealingsFrom 0 sampleMessages)) .new (writes sampleMessages)) := by
    rw [h]
    exact tableCipher_authentic _
  rw [(record_stream_integrity 4096 aead (by decide)).2.1 [[], [5]] (by decide +kernel)]
  decide +kernel

/-- A stray header makes one read fail; the next read delivers the first message all the same. -/
theorem message_delivered_after_error :
    ∃ (messages : List Message) (cipher : Cipher) (stream : List Byte),
      Authentic cipher (sealedBy cipher .new (writes messages)) ∧
      answers (readMessageInto cipher) (SessionReader.new stream) [[], []] =
        [([], .error (.sequenceMismatch 0 5)), ([], .ok .heartbeat)] := by
  refine ⟨[(.heartbeat, [])], tableCipher (sealingsFrom 0 [(.heartbeat, [])]),
    recordHeader .heartbeat 5 64 ++ recordsFrom (tableCipher []) 0 [(.heartbeat, [])], ?_, by decide +kernel⟩
  have h : sealedBy (tableCipher (sealingsFrom 0 [(.heartbeat, [])])) .new (writes [(.heartbeat, [])]) =
      sealingsFrom 0 [(.heartbeat, [])] := by decide +kernel
  rw [h]
  exact tableCipher_authentic _

end Jwm.Remote
