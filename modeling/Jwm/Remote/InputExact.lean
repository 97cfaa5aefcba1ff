/-
The input formats are exact: a reader takes from the payload just the bytes its value is written
with, so that a batch or an envelope is decoded from its own encoding and from nothing else. A
failed encode leaves the output empty.
-/
import Jwm.Remote.InputWire

namespace Jwm.Remote

open List ReadsAt

/-! ## What is read -/

variable {payload : List Byte} {offset after : Nat}

theorem takeByte_eq_ok {value : Byte} :
    takeByte payload offset = .ok (value, after) ↔ ReadsAt payload offset [value] after := by
  have hget : payload[offset]? = (payload.drop offset).head? := by rw [head?_drop]
  unfold takeByte ReadsAt
  rw [hget]
  cases payload.drop offset with
  | nil =>
    refine ⟨fun h => ?_, fun h => ?_⟩
    · cases h
    · obtain ⟨⟨rest, hr⟩, -⟩ := h
      cases hr
  | cons b rest =>
    refine ⟨fun h => ?_, fun h => ?_⟩
    · obtain ⟨rfl, rfl⟩ := Prod.mk.inj (Except.ok.inj h)
      exact ⟨⟨rest, rfl⟩, rfl⟩
    · obtain ⟨⟨rest', hr⟩, rfl⟩ := h
      obtain ⟨rfl, -⟩ := List.cons.inj hr
      rfl

theorem takeU16_eq_ok {value : BitVec 16} :
    takeU16 payload offset = .ok (value, after) ↔ ReadsAt payload offset (wordBytes value) after := by
  unfold takeU16
  rw [bind_eq_ok]
  refine ⟨fun h => ?_, fun h => ?_⟩
  · obtain ⟨⟨high, o⟩, hhigh, h⟩ := h
    obtain ⟨⟨low, o'⟩, hlow, h⟩ := bind_eq_ok.1 h
    obtain ⟨rfl, rfl⟩ := Prod.mk.inj (pure_eq_ok.1 h)
    have hhigh := takeByte_eq_ok.1 hhigh
    have hlow := takeByte_eq_ok.1 hlow
    rw [wordBytes_readWord rfl rfl]
    refine (append (a := [high])).2 ⟨?_, ?_⟩
    · rw [← hhigh.2]
      exact hhigh
    · rw [← hhigh.2]
      exact hlow
  · -- the two bytes of the word
    obtain ⟨high, low, hbytes⟩ : ∃ high low, wordBytes value = [high, low] := by
      have hlen : (wordBytes value).length = 2 := length_wordBytes value
      match wordBytes value, hlen with
      | [high, low], _ => exact ⟨high, low, rfl⟩
    rw [hbytes] at h
    obtain ⟨hhigh, hlow⟩ := (append (a := [high])).1 h
    refine ⟨_, takeByte_eq_ok.2 hhigh, bind_eq_ok.2 ⟨_, takeByte_eq_ok.2 hlow, pure_eq_ok.2 ?_⟩⟩
    rw [← hbytes, readWord_wordBytes rfl]

theorem decodeEdge_eq_ok {edge : Byte} {pressed : Bool} : decodeEdge edge = .ok pressed ↔ edge = edgeByte pressed := by
  unfold decodeEdge
  refine ⟨fun h => ?_, ?_⟩
  · split at h
    · obtain rfl := Except.ok.inj h
      assumption
    split at h
    · obtain rfl := Except.ok.inj h
      assumption
    · cases h
  · rintro rfl
    cases pressed <;> rfl

variable {event : InputEvent}

/-- The part of `decodeEvent` after the tag of a key or a button. -/
theorem takeEdge_eq_ok (make : Byte → Bool → InputEvent) :
    (do
      let (value, offset) ← takeByte payload offset
      let (edge, offset) ← takeByte payload offset
      let pressed ← decodeEdge edge
      return (make value pressed, offset) : Except String (InputEvent × Nat)) = .ok (event, after) ↔
    ∃ value pressed, event = make value pressed ∧ ReadsAt payload offset [value, edgeByte pressed] after := by
  rw [bind_eq_ok]
  refine ⟨fun h => ?_, fun h => ?_⟩
  · obtain ⟨⟨value, o⟩, hvalue, h⟩ := h
    obtain ⟨⟨edge, o'⟩, hedge, h⟩ := bind_eq_ok.1 h
    obtain ⟨pressed, hpressed, h⟩ := bind_eq_ok.1 h
    obtain ⟨rfl, rfl⟩ := Prod.mk.inj (pure_eq_ok.1 h)
    obtain rfl := decodeEdge_eq_ok.1 hpressed
    have hvalue := takeByte_eq_ok.1 hvalue
    have hedge := takeByte_eq_ok.1 hedge
    obtain rfl := hvalue.2
    exact ⟨value, pressed, rfl, (append (a := [value])).2 ⟨hvalue, hedge⟩⟩
  · obtain ⟨value, pressed, rfl, h⟩ := h
    obtain ⟨hvalue, hedge⟩ := (append (a := [value])).1 h
    exact ⟨_, takeByte_eq_ok.2 hvalue, bind_eq_ok.2 ⟨_, takeByte_eq_ok.2 hedge,
      bind_eq_ok.2 ⟨_, decodeEdge_eq_ok.2 rfl, rfl⟩⟩⟩

theorem takePoint_eq_ok :
    (do
      let (x, offset) ← takeU16 payload offset
      let (y, offset) ← takeU16 payload offset
      return (.pointer x y, offset) : Except String (InputEvent × Nat)) = .ok (event, after) ↔
    ∃ x y, event = .pointer x y ∧ ReadsAt payload offset (wordBytes x ++ wordBytes y) after := by
  rw [bind_eq_ok]
  refine ⟨fun h => ?_, fun h => ?_⟩
  · obtain ⟨⟨x, o⟩, hx, h⟩ := h
    obtain ⟨⟨y, o'⟩, hy, h⟩ := bind_eq_ok.1 h
    obtain ⟨rfl, rfl⟩ := Prod.mk.inj (pure_eq_ok.1 h)
    have hx := takeU16_eq_ok.1 hx
    have hy := takeU16_eq_ok.1 hy
    obtain rfl := hx.2
    exact ⟨x, y, rfl, append.2 ⟨hx, hy⟩⟩
  · obtain ⟨x, y, rfl, h⟩ := h
    obtain ⟨hx, hy⟩ := append.1 h
    exact ⟨_, takeU16_eq_ok.2 hx, bind_eq_ok.2 ⟨_, takeU16_eq_ok.2 hy, rfl⟩⟩

theorem tagged {rest : List Byte} {tag : Byte} :
    ReadsAt payload offset ([tag] ++ rest) after ↔
      takeByte payload offset = .ok (tag, offset + 1) ∧ ReadsAt payload (offset + 1) rest after := by
  rw [append, takeByte_eq_ok]
  rfl

theorem decodeEvent_eq_ok :
    decodeEvent payload offset = .ok (event, after) ↔ ReadsAt payload offset (encodeEvent event) after := by
  unfold decodeEvent
  rw [bind_eq_ok]
  refine ⟨fun h => ?_, fun h => ?_⟩
  · obtain ⟨⟨tag, o⟩, htag, h⟩ := h
    obtain rfl := (takeByte_eq_ok.1 htag).2
    simp only at h
    split at h
    · obtain rfl := ‹tag = inputTagPointer›
      obtain ⟨x, y, rfl, hread⟩ := takePoint_eq_ok.1 h
      exact tagged.2 ⟨htag, hread⟩
    split at h
    · obtain rfl := ‹tag = inputTagKey›
      obtain ⟨keycode, pressed, rfl, hread⟩ := (takeEdge_eq_ok .key).1 h
      exact tagged.2 ⟨htag, hread⟩
    split at h
    · obtain rfl := ‹tag = inputTagButton›
      obtain ⟨button, pressed, rfl, hread⟩ := (takeEdge_eq_ok .button).1 h
      exact tagged.2 ⟨htag, hread⟩
    split at h
    · obtain rfl := ‹tag = inputTagReleaseAll›
      obtain ⟨rfl, rfl⟩ := Prod.mk.inj (pure_eq_ok.1 h)
      exact takeByte_eq_ok.1 htag
    · cases h
  · cases event with
    | pointer x y =>
      obtain ⟨htag, h⟩ := tagged.1 h
      exact ⟨_, htag, takePoint_eq_ok.2 ⟨x, y, rfl, h⟩⟩
    | key keycode pressed =>
      obtain ⟨htag, h⟩ := tagged.1 (show ReadsAt _ _ ([inputTagKey] ++ [keycode, edgeByte pressed]) _ from h)
      exact ⟨_, htag, (takeEdge_eq_ok .key).2 ⟨keycode, pressed, rfl, h⟩⟩
    | button button pressed =>
      obtain ⟨htag, h⟩ := tagged.1 (show ReadsAt _ _ ([inputTagButton] ++ [button, edgeByte pressed]) _ from h)
      exact ⟨_, htag, (takeEdge_eq_ok .button).2 ⟨button, pressed, rfl, h⟩⟩
    | releaseAll =>
      obtain rfl := h.2
      exact ⟨_, takeByte_eq_ok.2 h, rfl⟩

theorem decodeEvents_eq_ok : ∀ {count offset after : Nat} {events : List InputEvent},
    decodeEvents payload count offset = .ok (events, after) ↔ events.length = count ∧
      (∀ event ∈ events, validateBatchEvent event = .ok ()) ∧ ReadsAt payload offset (events.flatMap encodeEvent) after
  | 0, offset, after, events => by
    rw [decodeEvents]
    refine ⟨fun h => ?_, fun ⟨hlen, _, h⟩ => ?_⟩
    · obtain ⟨rfl, rfl⟩ := Prod.mk.inj (Except.ok.inj h)
      exact ⟨rfl, fun _ h => absurd h not_mem_nil, ReadsAt.nil.2 rfl⟩
    · obtain rfl := eq_nil_of_length_eq_zero hlen
      obtain rfl := ReadsAt.nil.1 h
      rfl
  | count + 1, offset, after, events => by
    rw [decodeEvents, bind_eq_ok]
    refine ⟨fun h => ?_, fun ⟨hlen, hvalid, h⟩ => ?_⟩
    · obtain ⟨⟨event, o⟩, hevent, h⟩ := h
      obtain ⟨hv, h⟩ := unit_bind_eq_ok.1 h
      obtain ⟨⟨rest, o'⟩, hrest, h⟩ := bind_eq_ok.1 h
      obtain ⟨rfl, rfl⟩ := Prod.mk.inj (pure_eq_ok.1 h)
      have hevent := decodeEvent_eq_ok.1 hevent
      obtain ⟨hlen, hvalid, hrest⟩ := decodeEvents_eq_ok.1 hrest
      obtain rfl := hevent.2
      refine ⟨by rw [length_cons, hlen], forall_mem_cons.2 ⟨hv, hvalid⟩, ?_⟩
      rw [flatMap_cons]
      exact append.2 ⟨hevent, hrest⟩
    · cases events with
      | nil => cases hlen
      | cons event events =>
        rw [flatMap_cons] at h
        obtain ⟨hevent, hrest⟩ := append.1 h
        obtain ⟨hv, hvalid⟩ := forall_mem_cons.1 hvalid
        refine ⟨_, decodeEvent_eq_ok.2 hevent, unit_bind_eq_ok.2 ⟨hv, bind_eq_ok.2 ⟨(events, after), ?_, rfl⟩⟩⟩
        exact decodeEvents_eq_ok.2 ⟨Nat.succ.inj hlen, hvalid, hrest⟩

/-! ## Exactness -/

/-- A batch that may be sent. -/
structure BatchValid (events : List InputEvent) : Prop where
  nonempty : events ≠ []
  length : events.length ≤ maxInputBatchEvents
  events : ∀ event ∈ events, validateBatchEvent event = .ok ()

def batchBytes (events : List InputEvent) : List Byte :=
  [BitVec.ofNat 8 events.length] ++ events.flatMap encodeEvent

theorem length_encodeEvent (event : InputEvent) : (encodeEvent event).length = batchEventLen event := by
  cases event with
  | pointer x y => simp [encodeEvent, batchEventLen, pointerInputLen]
  | _ => rfl

theorem batchEventLen_le (event : InputEvent) : batchEventLen event ≤ pointerInputLen := by
  cases event <;> simp [batchEventLen, pointerInputLen]

theorem length_flatMap_encodeEvent : ∀ events : List InputEvent,
    (events.flatMap encodeEvent).length = (events.map batchEventLen).sum ∧
      (events.map batchEventLen).sum ≤ events.length * pointerInputLen
  | [] => ⟨rfl, Nat.zero_le _⟩
  | event :: events => by
    obtain ⟨hlen, hle⟩ := length_flatMap_encodeEvent events
    have he := batchEventLen_le event
    rw [flatMap_cons, length_append, length_encodeEvent, map_cons, sum_cons, length_cons,
      Nat.succ_mul]
    omega

variable {events : List InputEvent}

theorem foldlM_validate : ∀ {start len : Nat},
    events.foldlM (fun payloadLen event => do
      validateBatchEvent event
      return payloadLen + batchEventLen event : Nat → InputEvent → Except String Nat) start = .ok len ↔
    (∀ event ∈ events, validateBatchEvent event = .ok ()) ∧ len = start + (events.map batchEventLen).sum := by
  induction events with
  | nil =>
    intro start len
    rw [foldlM_nil, pure_eq_ok]
    simp [eq_comm]
  | cons event events ih =>
    intro start len
    rw [foldlM_cons, bind_eq_ok, forall_mem_cons, map_cons, sum_cons, ← Nat.add_assoc]
    refine ⟨fun ⟨next, hnext, hrest⟩ => ?_, fun ⟨⟨hv, hrest⟩, hlen⟩ => ?_⟩
    · obtain ⟨hv, hnext⟩ := unit_bind_eq_ok.1 hnext
      obtain rfl := pure_eq_ok.1 hnext
      obtain ⟨hall, hlen⟩ := ih.1 hrest
      exact ⟨⟨hv, hall⟩, hlen⟩
    · exact ⟨_, unit_bind_eq_ok.2 ⟨hv, rfl⟩, ih.2 ⟨hrest, hlen⟩⟩

theorem foldl_append_encodeEvent (events : List InputEvent) : ∀ output : List Byte,
    events.foldl (fun output event => output ++ encodeEvent event) output = output ++ events.flatMap encodeEvent := by
  induction events with
  | nil => simp
  | cons event events ih =>
    intro output
    rw [foldl_cons, ih, flatMap_cons, append_assoc]

variable {bytes : List Byte}

theorem writeInputBatch_eq_ok {output : List Byte} :
    writeInputBatch events output = .ok bytes ↔ BatchValid events ∧ bytes = output ++ batchBytes events := by
  have hbound := length_flatMap_encodeEvent events
  unfold writeInputBatch
  rw [unit_bind_eq_ok, rejectIf_eq_ok, bind_eq_ok]
  simp only [Bool.or_eq_true, List.isEmpty_iff, decide_eq_true_eq, not_or, Nat.not_lt]
  refine ⟨fun ⟨⟨hne, hlen⟩, payloadLen, hfold, h⟩ => ?_, fun ⟨hv, hbytes⟩ => ?_⟩
  · obtain ⟨hvalid, -⟩ := foldlM_validate.1 hfold
    obtain ⟨-, h⟩ := unit_bind_eq_ok.1 h
    rw [pure_eq_ok, foldl_append_encodeEvent] at h
    exact ⟨⟨hne, hlen, hvalid⟩, by rw [← h, batchBytes, append_assoc]⟩
  · have hlen := hv.length
    have hmul : events.length * pointerInputLen ≤ maxInputBatchEvents * pointerInputLen := Nat.mul_le_mul_right _ hlen
    refine ⟨⟨hv.nonempty, hlen⟩, _, foldlM_validate.2 ⟨hv.events, rfl⟩, unit_bind_eq_ok.2 ⟨rejectIf_eq_ok.2 ?_, ?_⟩⟩
    · show ¬ _ > 1 + maxInputBatchEvents * pointerInputLen
      omega
    · rw [pure_eq_ok, foldl_append_encodeEvent, hbytes, batchBytes, append_assoc]

theorem encodeInputBatchInto_spec (events : List InputEvent) (output : List Byte) :
    (BatchValid events ∧ encodeInputBatchInto events output = (batchBytes events, .ok ())) ∨
      (¬ BatchValid events ∧ ∃ error, encodeInputBatchInto events output = ([], .error error)) := by
  unfold encodeInputBatchInto
  simp only [take_zero]
  cases hw : writeInputBatch events [] with
  | ok bytes =>
    obtain ⟨hv, rfl⟩ := writeInputBatch_eq_ok.1 hw
    exact .inl ⟨hv, rfl⟩
  | error error =>
    refine .inr ⟨fun hv => ?_, error, rfl⟩
    rw [writeInputBatch_eq_ok.2 ⟨hv, rfl⟩] at hw
    cases hw

theorem encodeInputBatch_eq_ok :
    encodeInputBatch events = .ok bytes ↔ BatchValid events ∧ bytes = batchBytes events := by
  unfold encodeInputBatch
  rcases encodeInputBatchInto_spec events [] with ⟨hv, h⟩ | ⟨hv, error, h⟩
  · rw [h]
    refine ⟨fun h => ⟨hv, (Except.ok.inj h).symm⟩, fun ⟨_, h⟩ => ?_⟩
    rw [h]
  · rw [h]
    refine ⟨fun h => ?_, fun ⟨h, _⟩ => absurd h hv⟩
    cases h

theorem length_batchBytes (events : List InputEvent) :
    1 ≤ (batchBytes events).length ∧ (batchBytes events).length ≤ 1 + events.length * pointerInputLen := by
  obtain ⟨hlen, hle⟩ := length_flatMap_encodeEvent events
  rw [batchBytes, length_append, length_singleton]
  omega

theorem decodeInputBatch_eq_ok :
    decodeInputBatch payload = .ok events ↔ BatchValid events ∧ payload = batchBytes events := by
  unfold decodeInputBatch
  simp only [unit_bind_eq_ok, rejectIf_eq_ok, Bool.or_eq_true, List.isEmpty_iff, decide_eq_true_eq, not_or, Nat.not_lt]
  refine ⟨fun ⟨⟨hne, hlen⟩, ⟨hcount, hmax⟩, h⟩ => ?_, fun ⟨hv, hp⟩ => ?_⟩
  · obtain ⟨⟨events', after⟩, hevents, h⟩ := bind_eq_ok.1 h
    obtain ⟨hafter, h⟩ := unit_bind_eq_ok.1 h
    obtain rfl := pure_eq_ok.1 h
    obtain ⟨hn, hvalid, hread⟩ := decodeEvents_eq_ok.1 hevents
    rw [rejectIf_eq_ok, ne_eq, not_not] at hafter
    subst hafter
    cases payload with
    | nil => exact absurd rfl hne
    | cons first rest =>
      have hrest := (ReadsAt.all (Nat.le_add_left ..)).1 hread
      rw [getD_cons_zero] at hn hcount hmax
      simp only at hn hvalid hrest ⊢
      refine ⟨⟨fun h0 => hcount (by rw [← hn, h0]; rfl), by omega, hvalid⟩, ?_⟩
      rw [batchBytes, hn, BitVec.ofNat_toNat, BitVec.setWidth_eq]
      exact congrArg (first :: ·) hrest
  · subst hp
    obtain ⟨h1, hle⟩ := length_batchBytes events
    have hlen := hv.length
    have hpos : 0 < events.length := length_pos_iff.2 hv.nonempty
    have hmul : events.length * pointerInputLen ≤ maxInputBatchEvents * pointerInputLen := Nat.mul_le_mul_right _ hlen
    have hcount : ((batchBytes events).getD 0 0).toNat = events.length := by
      show (BitVec.ofNat 8 events.length).toNat = _
      unfold maxInputBatchEvents at hlen
      rw [BitVec.toNat_ofNat, Nat.mod_eq_of_lt (by omega)]
    rw [hcount]
    refine ⟨⟨fun h0 => ?_, Nat.le_trans hle (Nat.add_le_add_left hmul 1)⟩, ⟨by omega, hlen⟩, ?_⟩
    · rw [h0] at h1
      cases h1
    · refine bind_eq_ok.2 ⟨(events, (batchBytes events).length), decodeEvents_eq_ok.2 ⟨rfl, hv.events, ?_⟩, ?_⟩
      · exact (ReadsAt.all h1).2 rfl
      · exact unit_bind_eq_ok.2 ⟨rejectIf_eq_ok.2 fun h => h rfl, rfl⟩

theorem inputBatch_exact : ExactCodec encodeInputBatch decodeInputBatch :=
  ⟨fun h => decodeInputBatch_eq_ok.2 (encodeInputBatch_eq_ok.1 h), fun h => encodeInputBatch_eq_ok.2 (decodeInputBatch_eq_ok.1 h)⟩

theorem inputBatch_prefixFree : PrefixFree decodeInputBatch := by
  intro bytes extension a b ha hb
  obtain ⟨hva, rfl⟩ := decodeInputBatch_eq_ok.1 ha
  obtain ⟨hvb, heq⟩ := decodeInputBatch_eq_ok.1 hb
  have hcount : a.length = b.length := by
    have hla := hva.length
    have hlb := hvb.length
    have hfirst := congrArg (fun l => (l.getD 0 0).toNat) heq
    unfold maxInputBatchEvents at hla hlb
    simpa [batchBytes, Nat.mod_eq_of_lt (show a.length < 256 by omega), Nat.mod_eq_of_lt (show b.length < 256 by omega)]
      using hfirst
  -- the loop reads the same events from both
  have hread : ReadsAt (batchBytes a ++ extension) 1 (a.flatMap encodeEvent) (1 + (a.flatMap encodeEvent).length) :=
    ⟨⟨extension, rfl⟩, rfl⟩
  have hread' : ReadsAt (batchBytes a ++ extension) 1 (b.flatMap encodeEvent) (1 + (b.flatMap encodeEvent).length) := by
    rw [heq]
    exact ⟨⟨[], (append_nil _).symm⟩, rfl⟩
  have hsame := (decodeEvents_eq_ok.2 ⟨hcount, hva.events, hread⟩).symm.trans (decodeEvents_eq_ok.2 ⟨rfl, hvb.events, hread'⟩)
  obtain ⟨rfl, -⟩ := Prod.mk.inj (Except.ok.inj hsame)
  exact append_right_eq_self.1 heq

theorem copyAt_middle {α : Type} (a b c : List α) {src : List α} (h : b.length = src.length) :
    copyAt (a ++ (b ++ c)) a.length src = a ++ (src ++ c) := by
  have hlen : src.length ≤ (a ++ (b ++ c)).length - a.length := by
    rw [length_append, length_append]
    omega
  unfold copyAt
  rw [take_left, take_of_length_le hlen, ← drop_drop, drop_left, ← h, drop_left]

def sourceInputBytes (sourceEpoch geometryEpoch : BitVec 64) (events : List InputEvent) : List Byte :=
  wordBytes sourceEpoch ++ (wordBytes geometryEpoch ++ batchBytes events)

theorem blit_envelope (sourceEpoch geometryEpoch : BitVec 64) (batch : List Byte) :
    blit (batch ++ List.replicate 16 0) [(16, batch), (0, wordBytes sourceEpoch), (8, wordBytes geometryEpoch)] =
      wordBytes sourceEpoch ++ (wordBytes geometryEpoch ++ batch) := by
  obtain ⟨head, next, tail, hbatch, hh, hn, ht⟩ : ∃ head next tail : List Byte,
      batch ++ replicate 16 0 = head ++ (next ++ tail) ∧ head.length = 8 ∧ next.length = 8 ∧
        tail.length = batch.length := by
    refine ⟨(batch ++ replicate 16 0).take 8, ((batch ++ replicate 16 0).drop 8).take 8,
      ((batch ++ replicate 16 0).drop 8).drop 8, ?_, ?_, ?_, ?_⟩
    · rw [take_append_drop, take_append_drop]
    · simp
    · simp
    · simp
  have hs : (wordBytes sourceEpoch).length = 8 := length_wordBytes _
  have hg : (wordBytes geometryEpoch).length = 8 := length_wordBytes _
  have hmove := copyAt_middle (head ++ next) tail [] ht
  have hsource := copyAt_middle [] head (next ++ batch) (hh.trans hs.symm)
  have hgeometry := copyAt_middle (wordBytes sourceEpoch) next batch (hn.trans hg.symm)
  rw [append_nil, append_nil, length_append, hh, hn, append_assoc, append_assoc] at hmove
  rw [nil_append, length_nil] at hsource
  rw [hs] at hgeometry
  show copyAt (copyAt (copyAt (batch ++ replicate 16 0) 16 batch) 0 (wordBytes sourceEpoch)) 8
    (wordBytes geometryEpoch) = _
  rw [hbatch, hmove, hsource, nil_append, hgeometry]

theorem encodeSourceInputInto_spec (sourceEpoch geometryEpoch : BitVec 64) (events : List InputEvent) (output : List Byte) :
    (sourceEpoch ≠ 0 ∧ geometryEpoch ≠ 0 ∧ BatchValid events ∧
      encodeSourceInputInto sourceEpoch geometryEpoch events output =
        (sourceInputBytes sourceEpoch geometryEpoch events, .ok ())) ∨
    (¬ (sourceEpoch ≠ 0 ∧ geometryEpoch ≠ 0 ∧ BatchValid events) ∧
      ∃ error, encodeSourceInputInto sourceEpoch geometryEpoch events output = ([], .error error)) := by
  unfold encodeSourceInputInto
  simp only [take_zero]
  split
  · rename_i hzero
    rw [Bool.or_eq_true, decide_eq_true_eq, decide_eq_true_eq] at hzero
    refine .inr ⟨fun ⟨hs, hg, _⟩ => ?_, _, rfl⟩
    rcases hzero with h | h
    · exact hs h
    · exact hg h
  · rename_i hzero
    rw [Bool.or_eq_true, decide_eq_true_eq, decide_eq_true_eq, not_or] at hzero
    rcases encodeInputBatchInto_spec events [] with ⟨hv, h⟩ | ⟨hv, error, h⟩
    · rw [h]
      refine .inl ⟨hzero.1, hzero.2, hv, ?_⟩
      simp only [blit_envelope]
      rfl
    · rw [h]
      exact .inr ⟨fun ⟨_, _, h⟩ => hv h, error, rfl⟩

variable {sourceEpoch geometryEpoch : BitVec 64}

theorem encodeSourceInput_eq_ok :
    encodeSourceInput sourceEpoch geometryEpoch events = .ok bytes ↔ sourceEpoch ≠ 0 ∧ geometryEpoch ≠ 0 ∧
      BatchValid events ∧ bytes = sourceInputBytes sourceEpoch geometryEpoch events := by
  unfold encodeSourceInput
  rcases encodeSourceInputInto_spec sourceEpoch geometryEpoch events [] with ⟨hs, hg, hv, h⟩ | ⟨hno, error, h⟩
  · rw [h]
    refine ⟨fun h => ⟨hs, hg, hv, (Except.ok.inj h).symm⟩, fun ⟨_, _, _, h⟩ => ?_⟩
    rw [h]
  · rw [h]
    refine ⟨fun h => ?_, fun ⟨hs, hg, hv, _⟩ => absurd ⟨hs, hg, hv⟩ hno⟩
    cases h

theorem decodeSourceInput_eq_ok :
    decodeSourceInput payload = .ok (sourceEpoch, geometryEpoch, events) ↔ sourceEpoch ≠ 0 ∧ geometryEpoch ≠ 0 ∧
      BatchValid events ∧ payload = sourceInputBytes sourceEpoch geometryEpoch events := by
  unfold decodeSourceInput
  simp only [unit_bind_eq_ok]
  simp only [rejectIf_eq_ok, bind_eq_ok, pure_eq_ok, Bool.or_eq_true, decide_eq_true_eq, not_or, Nat.not_lt,
    decodeInputBatch_eq_ok, Prod.mk.injEq]
  refine ⟨fun ⟨⟨hmin, hmax⟩, ⟨hs, hg⟩, events', ⟨hv, hrest⟩, hs', hg', he⟩ => ?_, fun ⟨hs, hg, hv, hp⟩ => ?_⟩
  · subst he
    rw [hs'] at hs
    rw [hg'] at hg
    refine ⟨hs, hg, hv, ?_⟩
    have hfirst := drop_eq_word (w := 64) rfl (a := 0) (b := 8) rfl (by omega : 8 ≤ payload.length)
    have hsecond := drop_eq_word (w := 64) rfl (a := 8) (b := 16) rfl (by omega : 16 ≤ payload.length)
    rw [hs', hsecond, hg', hrest, drop_zero] at hfirst
    exact hfirst
  · subst hp
    obtain ⟨h1, hle⟩ := length_batchBytes events
    have hlen := hv.length
    have hmul : events.length * pointerInputLen ≤ maxInputBatchEvents * pointerInputLen := Nat.mul_le_mul_right _ hlen
    have hall : (sourceInputBytes sourceEpoch geometryEpoch events).length = 16 + (batchBytes events).length := by
      rw [sourceInputBytes, length_append, length_append, length_wordBytes, length_wordBytes]
      omega
    obtain ⟨hsource, h8⟩ := word_next rfl (l := sourceInputBytes sourceEpoch geometryEpoch events) (a := 0) (b := 8) rfl rfl
    obtain ⟨hgeometry, hdrop⟩ := word_next rfl (b := 16) h8 rfl
    rw [hall, hsource, hgeometry, hdrop]
    refine ⟨⟨by omega, ?_⟩, ⟨hs, hg⟩, events, ⟨hv, rfl⟩, rfl, rfl, rfl⟩
    show _ ≤ 16 + (1 + maxInputBatchEvents * pointerInputLen)
    omega

theorem sourceInput_exact :
    ExactCodec (fun v : BitVec 64 × BitVec 64 × List InputEvent => encodeSourceInput v.1 v.2.1 v.2.2) decodeSourceInput :=
  ⟨fun h => decodeSourceInput_eq_ok.2 (encodeSourceInput_eq_ok.1 h),
    fun h => encodeSourceInput_eq_ok.2 (decodeSourceInput_eq_ok.1 h)⟩

theorem sourceInput_prefixFree : PrefixFree decodeSourceInput := by
  rintro bytes extension ⟨s, g, a⟩ ⟨s', g', b⟩ ha hb
  obtain ⟨-, -, hva, rfl⟩ := decodeSourceInput_eq_ok.1 ha
  obtain ⟨-, -, hvb, heq⟩ := decodeSourceInput_eq_ok.1 hb
  unfold sourceInputBytes at heq
  rw [append_assoc, append_assoc] at heq
  obtain ⟨-, heq⟩ := append_inj heq (by rw [length_wordBytes, length_wordBytes])
  obtain ⟨-, heq⟩ := append_inj heq (by rw [length_wordBytes, length_wordBytes])
  exact inputBatch_prefixFree (decodeInputBatch_eq_ok.2 ⟨hva, rfl⟩) (decodeInputBatch_eq_ok.2 ⟨hvb, heq⟩)

end Jwm.Remote
