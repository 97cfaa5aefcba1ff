/-
What the operations of a client do to its output: the bytes on the wire and in the buffer are the lines that were
queued, and reading touches neither.
-/
import Jwm.Ipc.IpcClient

namespace Jwm.Ipc.IpcClient

open List

variable {V : Type} {c c' : IpcClient}

/-! ## Bytes -/

/-- The bytes written so far, followed by the buffer from its cursor on, are the lines that were queued. -/
structure Sent (c : IpcClient) : Prop where
  start_le : c.outStart ≤ c.outBuf.length
  bytes : c.stream.sent ++ c.outBuf.drop c.outStart = c.queued.flatMap QueuedLine.bytes

theorem compactOutputBuffer_spec {buf : List Byte} {start : Nat} (h : start ≤ buf.length) :
    (compactOutputBuffer buf start).2 ≤ (compactOutputBuffer buf start).1.length ∧
      (compactOutputBuffer buf start).1.drop (compactOutputBuffer buf start).2 = buf.drop start := by
  unfold compactOutputBuffer
  split
  · exact ⟨h, rfl⟩
  split
  next hend =>
    refine ⟨Nat.le_refl 0, ?_⟩
    rw [hend, drop_length]
    rfl
  split
  · exact ⟨Nat.zero_le _, rfl⟩
  · exact ⟨h, rfl⟩

/-- However a write is cut short, what it took goes from the buffer to the wire. -/
theorem writeLoop_spec (buf : List Byte) : ∀ (writes : List WriteOutcome) (start : Nat) (sent : List Byte), start ≤ buf.length →
    (writeLoop buf writes start sent).2.1 ≤ buf.length ∧
      (writeLoop buf writes start sent).2.2.1 ++ buf.drop (writeLoop buf writes start sent).2.1 = sent ++ buf.drop start
  | [], start, sent, h => ⟨h, rfl⟩
  | outcome :: writes, start, sent, h => by
    unfold writeLoop
    split
    · cases outcome with
      | written count =>
        dsimp only
        split
        · exact ⟨h, rfl⟩
        · generalize hn : min count (buf.length - start) = n
          obtain ⟨hle, hbytes⟩ := writeLoop_spec buf writes (start + n) (sent ++ slice buf start (start + n)) (by omega)
          refine ⟨hle, hbytes.trans ?_⟩
          rw [append_assoc, slice, Nat.add_sub_cancel_left, ← drop_drop, take_append_drop]
      | wouldBlock => exact ⟨h, rfl⟩
      | interrupted => exact writeLoop_spec buf writes start sent h
      | failed => exact ⟨h, rfl⟩
    · exact ⟨h, rfl⟩

theorem Sent.new (stream : UnixStream) (h : stream.sent = []) : Sent (IpcClient.new stream) :=
  ⟨Nat.le_refl 0, by rw [IpcClient.new, h]; rfl⟩

theorem Sent.queue (h : Sent c) (kind : LineKind) (json : List Byte) : Sent (c.queue kind json) := by
  obtain ⟨hle, hdrop⟩ := compactOutputBuffer_spec h.start_le
  have hbytes := h.bytes
  rw [← hdrop] at hbytes
  unfold IpcClient.queue
  generalize compactOutputBuffer c.outBuf c.outStart = compacted at hle hbytes ⊢
  obtain ⟨outBuf, outStart⟩ := compacted
  dsimp only at hle hbytes ⊢
  refine ⟨?_, ?_⟩
  · show outStart ≤ (outBuf ++ json ++ [newline]).length
    rw [length_append, length_append]
    omega
  · rw [append_assoc outBuf, drop_append_of_le_length hle, ← append_assoc, hbytes, flatMap_append, flatMap_singleton]
    rfl

theorem Sent.flushOut (h : Sent c) : Sent c.flushOut.1 := by
  obtain ⟨hle, hbytes⟩ := writeLoop_spec c.outBuf c.stream.writes c.outStart c.stream.sent h.start_le
  rw [h.bytes] at hbytes
  unfold IpcClient.flushOut
  generalize writeLoop c.outBuf c.stream.writes c.outStart c.stream.sent = written at hle hbytes ⊢
  obtain ⟨writes, start, sent, error⟩ := written
  cases error with
  | some error => exact ⟨hle, hbytes⟩
  | none =>
    obtain ⟨hle', hdrop⟩ := compactOutputBuffer_spec hle
    exact ⟨hle', (congrArg (sent ++ ·) hdrop).trans hbytes⟩

/-! ## What flushing and reading leave alone -/

/-- The state of the replies is the same. -/
structure SameReplies (c c' : IpcClient) : Prop where
  frames : c'.frames = c.frames
  queued : c'.queued = c.queued
  deliveredFrames : c'.deliveredFrames = c.deliveredFrames
  answeredFrames : c'.answeredFrames = c.answeredFrames
  deferredErrors : c'.deferredErrors = c.deferredErrors

theorem flushOut_same (c : IpcClient) : SameReplies c c.flushOut.1 := by
  unfold flushOut
  generalize writeLoop c.outBuf c.stream.writes c.outStart c.stream.sent = written
  obtain ⟨writes, start, sent, error⟩ := written
  cases error <;> exact ⟨rfl, rfl, rfl, rfl, rfl⟩

def InputOnly (c c' : IpcClient) : Prop :=
  ∃ incoming reads buf bufStart scanPos readClosed,
    c' = { c with stream := { c.stream with incoming := incoming, reads := reads }, buf := buf, bufStart := bufStart,
                  scanPos := scanPos, readClosed := readClosed }

namespace InputOnly

theorem refl (c : IpcClient) : InputOnly c c := ⟨_, _, _, _, _, _, rfl⟩

theorem trans {c₁ c₂ c₃ : IpcClient} (h₁ : InputOnly c₁ c₂) (h₂ : InputOnly c₂ c₃) : InputOnly c₁ c₃ := by
  obtain ⟨_, _, _, _, _, _, rfl⟩ := h₁
  obtain ⟨_, _, _, _, _, _, rfl⟩ := h₂
  exact ⟨_, _, _, _, _, _, rfl⟩

theorem same (h : InputOnly c c') : SameReplies c c' := by
  obtain ⟨_, _, _, _, _, _, rfl⟩ := h
  exact ⟨rfl, rfl, rfl, rfl, rfl⟩

theorem sent (h : InputOnly c c') (hsent : Sent c) : Sent c' := by
  obtain ⟨_, _, _, _, _, _, rfl⟩ := h
  exact ⟨hsent.start_le, hsent.bytes⟩

end InputOnly

theorem takeCompleteMessages_inputOnly (c : IpcClient) (limit : Nat) : InputOnly c (c.takeCompleteMessages limit).1 := by
  unfold takeCompleteMessages
  split
  · exact .refl c
  · exact ⟨_, _, _, _, _, _, rfl⟩

theorem compactInputBuffer_inputOnly (c : IpcClient) : InputOnly c c.compactInputBuffer := by
  unfold compactInputBuffer
  split
  · exact .refl c
  split
  · exact ⟨_, _, _, _, _, _, rfl⟩
  split
  · exact ⟨_, _, _, _, _, _, rfl⟩
  · exact .refl c

theorem takeUnterminatedFinalFrame_inputOnly (c : IpcClient) (limit : Nat) (messages : List (List Byte)) :
    InputOnly c (c.takeUnterminatedFinalFrame limit messages).1 := by
  unfold takeUnterminatedFinalFrame
  split
  · exact .refl c
  · have hconsumed : InputOnly c { c with bufStart := c.buf.length, scanPos := c.buf.length } := ⟨_, _, _, _, _, _, rfl⟩
    exact hconsumed.trans (compactInputBuffer_inputOnly _)

theorem readLoop_inputOnly (limit : Nat) : ∀ (reads : List ReadOutcome) (c : IpcClient) (bytesRead : Nat),
    InputOnly c (c.readLoop limit reads bytesRead).1
  | [], c, _ => .refl c
  | outcome :: reads, c, bytesRead => by
    have hpopped : InputOnly c { c with stream := { c.stream with reads := reads } } := ⟨_, _, _, _, _, _, rfl⟩
    unfold readLoop
    split
    · cases outcome with
      | ready count =>
        dsimp only
        split
        · exact ⟨_, _, _, _, _, _, rfl⟩
        split
        · exact ⟨_, _, _, _, _, _, rfl⟩
        · refine InputOnly.trans ?_ (readLoop_inputOnly limit reads _ _)
          exact ⟨_, _, _, _, _, _, rfl⟩
      | wouldBlock => exact hpopped
      | interrupted => exact hpopped.trans (readLoop_inputOnly limit reads _ _)
      | failed => exact hpopped
    · exact .refl c

theorem readMessages_inputOnly (c : IpcClient) (messageBudget readByteBudget : Nat) :
    InputOnly c (c.readMessages messageBudget readByteBudget).1 := by
  unfold readMessages
  dsimp only
  generalize min messageBudget maxMessagesPerPoll = limit
  generalize min readByteBudget maxReadBytesPerPoll = byteLimit
  split
  · exact .refl c
  have htook := (takeCompleteMessages_inputOnly c limit).trans (compactInputBuffer_inputOnly _)
  generalize c.takeCompleteMessages limit = taken at htook ⊢
  obtain ⟨c₁, messages⟩ := taken
  split
  · exact htook
  split
  · exact htook.trans (takeUnterminatedFinalFrame_inputOnly _ _ _)
  have hread := htook.trans (readLoop_inputOnly byteLimit c₁.compactInputBuffer.stream.reads c₁.compactInputBuffer 0)
  generalize c₁.compactInputBuffer.readLoop byteLimit c₁.compactInputBuffer.stream.reads 0 = looped at hread ⊢
  obtain ⟨c₂, error, bytesRead⟩ := looped
  cases error with
  | some error => exact hread
  | none =>
    exact ((hread.trans (takeCompleteMessages_inputOnly _ _)).trans (compactInputBuffer_inputOnly _)).trans
      (takeUnterminatedFinalFrame_inputOnly _ _ _)

end Jwm.Ipc.IpcClient
