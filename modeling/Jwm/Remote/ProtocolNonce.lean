/-
Nonces of the record layer. The counter advances only after a record was written, so a record whose
write fails leaves its nonce to the next one: the nonces are used once exactly when a caller that
goes on after a failure repeats the failed record.
-/
import Jwm.Remote.Protocol

namespace Jwm.Remote

open List

namespace SessionWriter

/-! ## What one call does -/

/-- What a call with this sequence number hands to the cipher. -/
def sealing (sequence : Nat) (call : WriteCall) : Sealed :=
  ⟨recordNonce sequence, recordHeader call.kind sequence (paddedLen call.payload.length), padPayload call.payload⟩

def reachesCipher (w : SessionWriter) (call : WriteCall) : Bool :=
  paddedLen call.payload.length ≤ maxPayloadLen && w.nextSequence ≠ u64Max

section

variable (cipher : Cipher)

/-- The cipher seals the record and `write_all` succeeds. -/
def completes (w : SessionWriter) (call : WriteCall) : Bool :=
  let s := sealing w.nextSequence call
  (cipher.encryptInoutDetached s.nonce s.header s.plaintext).isSome && call.fault.isNone

/-- Everything `write_message` can do to the counter and the cipher. -/
inductive Write (cipher : Cipher) (w : SessionWriter) (call : WriteCall) :
    SessionWriter → Option Sealed → Except ProtocolError Unit → Prop
  | rejected {error} (reaches : w.reachesCipher call = false) : Write cipher w call w none (.error error)
  | broken {inner error} (reaches : w.reachesCipher call = true) (completes : completes cipher w call = false) :
    Write cipher w call { w with inner := inner } (some (sealing w.nextSequence call)) (.error error)
  | written {ciphertext tag} (reaches : w.reachesCipher call = true) (completes : completes cipher w call = true)
    (seals : cipher.encryptInoutDetached (recordNonce w.nextSequence)
      (recordHeader call.kind w.nextSequence (paddedLen call.payload.length)) (padPayload call.payload) = some (ciphertext, tag)) :
    Write cipher w call
      { inner := w.inner ++ (recordHeader call.kind w.nextSequence (paddedLen call.payload.length) ++ ciphertext ++ tag)
        nextSequence := (w.nextSequence + 1) % 2 ^ 64 }
      (some (sealing w.nextSequence call)) (.ok ())

theorem writeMessage_write (w : SessionWriter) (call : WriteCall) :
    Write cipher w call (w.writeMessage cipher call).1 (w.writeMessage cipher call).2.1 (w.writeMessage cipher call).2.2 := by
  have hlen := lt_paddedLen call.payload.length
  unfold writeMessage
  split
  · exact .rejected (by simp only [reachesCipher, Bool.and_eq_false_iff, decide_eq_false_iff_not]; omega)
  · split
    · exact .rejected (by simp [reachesCipher, *])
    · rename_i hseq
      simp only
      split
      · exact .rejected (by simp only [reachesCipher, Bool.and_eq_false_iff, decide_eq_false_iff_not]; omega)
      · rename_i hsealed
        have hreaches : w.reachesCipher call = true := by
          simp only [reachesCipher, Bool.and_eq_true, decide_eq_true_eq]
          exact ⟨by omega, hseq⟩
        split
        · rename_i hnone
          exact .broken hreaches (by simp [completes, sealing, hnone])
        · rename_i ciphertext tag hsome
          split
          · rename_i emitted hfault
            exact .broken hreaches (by simp [completes, hfault])
          · rename_i hfault
            exact .written hreaches (by simp [completes, sealing, hsome, hfault]) hsome

variable {sequence : Nat} {a b : WriteCall}

theorem sealing_injective (h : sealing sequence a = sealing sequence b) : a.kind = b.kind ∧ a.payload = b.payload := by
  obtain ⟨_, hheader, hplaintext⟩ := Sealed.mk.inj h
  refine ⟨MessageKind.toU8_injective ?_, padPayload_injective hplaintext⟩
  rw [← recordHeader_kind a.kind sequence (paddedLen a.payload.length), hheader, recordHeader_kind]

theorem sealing_congr (hkind : a.kind = b.kind) (hpayload : a.payload = b.payload) : sealing sequence a = sealing sequence b := by
  rw [sealing, sealing, hkind, hpayload]

/-! ## Runs -/

def sealedBy (w : SessionWriter) (calls : List WriteCall) : List Sealed :=
  (answers (writeMessage cipher) w calls).filterMap Prod.fst

/-- No two cipher calls share a nonce unless they are the same in everything. -/
def NonceOnce (sealings : List Sealed) : Prop := ∀ a ∈ sealings, ∀ b ∈ sealings, a.nonce = b.nonce → a = b

/-- A call that reaches the cipher after one that did but was not written repeats its record.
`unwritten` is the last record sealed under the current number and not written. -/
def RepeatsUnwritten (cipher : Cipher) : SessionWriter → Option WriteCall → List WriteCall → Prop
  | _, _, [] => True
  | w, unwritten, call :: calls =>
    let w' := (w.writeMessage cipher call).1
    if w.reachesCipher call then
      (∀ earlier, unwritten = some earlier → earlier.kind = call.kind ∧ earlier.payload = call.payload) ∧
        RepeatsUnwritten cipher w' (if completes cipher w call then none else some call) calls
    else RepeatsUnwritten cipher w' unwritten calls

/-- The cipher calls so far: those under the current number are one record, the others are older. -/
structure Used (sealings : List Sealed) (w : SessionWriter) (unwritten : Option WriteCall) : Prop where
  bounded : w.nextSequence ≤ u64Max
  once : NonceOnce sealings
  current : ∀ call, unwritten = some call → sealing w.nextSequence call ∈ sealings
  older : ∀ s ∈ sealings, (∃ sequence < w.nextSequence, s.nonce = recordNonce sequence) ∨
    ∃ call, unwritten = some call ∧ s = sealing w.nextSequence call

variable {w : SessionWriter} {call : WriteCall}

theorem lt_of_reachesCipher (hb : w.nextSequence ≤ u64Max) (h : w.reachesCipher call = true) :
    w.nextSequence < u64Max := by
  simp only [reachesCipher, Bool.and_eq_true, decide_eq_true_eq] at h
  exact lt_of_le_of_ne hb h.2

theorem succ_mod_eq {n : Nat} (h : n < u64Max) : (n + 1) % 2 ^ 64 = n + 1 := by
  unfold u64Max at h
  omega

theorem sealedBy_cons (w : SessionWriter) (call : WriteCall) (calls : List WriteCall) :
    sealedBy cipher w (call :: calls) =
      (w.writeMessage cipher call).2.1.toList ++ sealedBy cipher (w.writeMessage cipher call).1 calls := by
  unfold sealedBy answers
  rw [trace, map_cons, filterMap_cons]
  cases (w.writeMessage cipher call).2.1 <;> rfl

variable {sealings : List Sealed} {unwritten : Option WriteCall}

section

variable (used : Used sealings w unwritten) (hlt : w.nextSequence < u64Max)
   (hsame : ∀ earlier, unwritten = some earlier → earlier.kind = call.kind ∧ earlier.payload = call.payload)
include used hlt hsame

theorem Used.nonce_fresh :
    ∀ s ∈ sealings, s.nonce = recordNonce w.nextSequence → s = sealing w.nextSequence call := by
  intro s hs hnonce
  rcases used.older s hs with ⟨sequence, hseq, hold⟩ | ⟨earlier, hearlier, rfl⟩
  · unfold u64Max at hlt
    have := recordNonce_injective (a := sequence) (b := w.nextSequence) (by omega) (by omega) (hold.symm.trans hnonce)
    omega
  · exact sealing_congr (hsame earlier hearlier).1 (hsame earlier hearlier).2

/-- A call that reaches the cipher and repeats what was left unwritten keeps the nonces apart. -/
theorem Used.once_snoc : NonceOnce (sealings ++ [sealing w.nextSequence call]) := by
  have fresh := used.nonce_fresh hlt hsame
  intro a ha b hb hnonce
  rcases mem_append.1 ha with ha | ha <;> rcases mem_append.1 hb with hb | hb
  · exact used.once a ha b hb hnonce
  · obtain rfl := mem_singleton.1 hb
    exact fresh a ha hnonce
  · obtain rfl := mem_singleton.1 ha
    exact (fresh b hb hnonce.symm).symm
  · rw [mem_singleton.1 ha, mem_singleton.1 hb]

end

theorem Used.older_snoc (used : Used sealings w unwritten)
    (hsame : ∀ earlier, unwritten = some earlier → earlier.kind = call.kind ∧ earlier.payload = call.payload) :
    ∀ s ∈ sealings ++ [sealing w.nextSequence call],
      (∃ sequence < w.nextSequence, s.nonce = recordNonce sequence) ∨ s = sealing w.nextSequence call := by
  intro s hs
  rcases mem_append.1 hs with hs | hs
  · rcases used.older s hs with hold | ⟨earlier, hearlier, rfl⟩
    · exact .inl hold
    · exact .inr (sealing_congr (hsame earlier hearlier).1 (hsame earlier hearlier).2)
  · exact .inr (mem_singleton.1 hs)

/-- The nonces are used once exactly when every record left unwritten is repeated. -/
theorem nonceOnce_iff (cipher : Cipher) : ∀ (calls : List WriteCall) {sealings : List Sealed} {w : SessionWriter}
    {unwritten : Option WriteCall}, Used sealings w unwritten →
    (NonceOnce (sealings ++ sealedBy cipher w calls) ↔ RepeatsUnwritten cipher w unwritten calls)
  | [], sealings, w, unwritten, used => by
    rw [show sealedBy cipher w [] = [] from rfl, append_nil]
    exact ⟨fun _ => trivial, fun _ => used.once⟩
  | call :: calls, sealings, w, unwritten, used => by
    rw [sealedBy_cons, RepeatsUnwritten]
    cases hw : w.writeMessage cipher call with
    | mk w' out =>
      obtain ⟨sealed, result⟩ := out
      have write := writeMessage_write cipher w call
      rw [hw] at write
      simp only at write ⊢
      -- The two ways of reaching the cipher differ in what is left unwritten.
      have reach : ∀ unwritten' : Option WriteCall, w.reachesCipher call = true →
          ((∀ earlier, unwritten = some earlier → earlier.kind = call.kind ∧ earlier.payload = call.payload) →
            Used (sealings ++ [sealing w.nextSequence call]) w' unwritten') →
          (NonceOnce (sealings ++ ([sealing w.nextSequence call] ++ sealedBy cipher w' calls)) ↔
            (∀ earlier, unwritten = some earlier → earlier.kind = call.kind ∧ earlier.payload = call.payload) ∧
              RepeatsUnwritten cipher w' unwritten' calls) := by
        intro unwritten' hreaches keep
        by_cases hsame : ∀ earlier, unwritten = some earlier → earlier.kind = call.kind ∧ earlier.payload = call.payload
        · rw [← append_assoc, nonceOnce_iff cipher calls (keep hsame)]
          exact ⟨fun h => ⟨hsame, h⟩, fun h => h.2⟩
        · refine ⟨fun honce => ?_, fun h => absurd h.1 hsame⟩
          refine absurd (fun earlier hearlier => ?_) hsame
          refine sealing_injective (honce _ (mem_append_left _ (used.current earlier hearlier)) _ ?_ rfl)
          exact mem_append_right _ (mem_append_left _ (mem_singleton_self _))
      cases write with
      | rejected hreaches =>
        rw [hreaches]
        exact nonceOnce_iff cipher calls used
      | broken hreaches hcompletes =>
        rw [hreaches, hcompletes]
        refine reach (some call) hreaches fun hsame => ?_
        have hlt := lt_of_reachesCipher used.bounded hreaches
        refine ⟨used.bounded, used.once_snoc hlt hsame, ?_, fun s hs => ?_⟩
        · intro earlier hearlier
          obtain rfl := Option.some.inj hearlier
          exact mem_append_right _ (mem_singleton_self _)
        · rcases used.older_snoc hsame s hs with hold | rfl
          · exact .inl hold
          · exact .inr ⟨call, rfl, rfl⟩
      | written hreaches hcompletes =>
        rw [hreaches, hcompletes]
        refine reach none hreaches fun hsame => ?_
        have hlt := lt_of_reachesCipher used.bounded hreaches
        have hnext := succ_mod_eq hlt
        refine ⟨by rw [hnext]; exact hlt, used.once_snoc hlt hsame, fun _ h => absurd h (by simp), fun s hs => ?_⟩
        rw [hnext]
        rcases used.older_snoc hsame s hs with ⟨sequence, hseq, hold⟩ | rfl
        · exact .inl ⟨sequence, Nat.lt_succ_of_lt hseq, hold⟩
        · exact .inl ⟨w.nextSequence, Nat.lt_succ_self _, rfl⟩

theorem writeMessage_nextSequence {cipher : Cipher} (hb : w.nextSequence ≤ u64Max) (call : WriteCall) :
    w.nextSequence ≤ (w.writeMessage cipher call).1.nextSequence ∧ (w.writeMessage cipher call).1.nextSequence ≤ u64Max := by
  cases hw : w.writeMessage cipher call with
  | mk w' out =>
    obtain ⟨sealed, result⟩ := out
    have write := writeMessage_write cipher w call
    rw [hw] at write
    cases write with
    | rejected | broken => exact ⟨le_refl _, hb⟩
    | written hreaches =>
      have hlt := lt_of_reachesCipher hb hreaches
      simp only [succ_mod_eq hlt]
      exact ⟨Nat.le_succ _, hlt⟩

/-- The counter of a run never falls and never passes `u64::MAX`. -/
def NeverWraps (w : SessionWriter) (calls : List WriteCall) : Prop :=
  ∀ earlier call later, calls = earlier ++ call :: later →
    (after (writeMessage cipher) w earlier).nextSequence ≤ (after (writeMessage cipher) w (earlier ++ [call])).nextSequence ∧
      (after (writeMessage cipher) w (earlier ++ [call])).nextSequence ≤ u64Max

theorem neverWraps (hb : w.nextSequence ≤ u64Max) (calls : List WriteCall) :
    NeverWraps cipher w calls := by
  rintro earlier call later -
  have hbound : (after (writeMessage cipher) w earlier).nextSequence ≤ u64Max :=
    after_invariant (I := fun w : SessionWriter => w.nextSequence ≤ u64Max) (fun _ call hb => (writeMessage_nextSequence hb call).2) hb earlier
  rw [after_append]
  exact writeMessage_nextSequence hbound call

/-- A nonce never seals two different records, and the counter never wraps, exactly in the runs where
a call after a record that was sealed and not written repeats that record. -/
theorem nonce_once_iff_repeats (calls : List WriteCall) :
    (NonceOnce (sealedBy cipher new calls) ∧ NeverWraps cipher new calls) ↔ RepeatsUnwritten cipher new none calls := by
  have used : Used [] new none :=
    ⟨Nat.zero_le _, fun _ h => absurd h not_mem_nil, fun _ h => absurd h (by simp), fun _ h => absurd h not_mem_nil⟩
  rw [← nonceOnce_iff cipher calls used, nil_append]
  exact and_iff_left (neverWraps cipher (Nat.zero_le _) calls)

end

/-- The first heartbeat fails to be written; the next record is sealed under its nonce. -/
theorem nonce_reused_after_failed_write :
    ¬ NonceOnce (sealedBy ⟨fun _ _ plaintext => some (plaintext, List.replicate 16 0), fun _ _ _ _ => none⟩ new
      [⟨.heartbeat, [1], some 0⟩, ⟨.heartbeat, [2], none⟩]) := by
  intro once
  have hsame := once (sealing 0 ⟨.heartbeat, [1], some 0⟩) (by decide) (sealing 0 ⟨.heartbeat, [2], none⟩) (by decide) rfl
  exact absurd (sealing_injective hsame).2 (by decide)

end SessionWriter

end Jwm.Remote
