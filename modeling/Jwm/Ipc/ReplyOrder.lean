/-
Replies come in frame order. The protocol has no correlation ids: a parse error behind frames that still wait for
their replies is held until those are sent, or until the next poll gives them up.
-/
import Jwm.Data.Run
import Jwm.Ipc.IpcOutput
import Jwm.Ipc.IpcServer

namespace Jwm.Ipc

open List IpcServer

variable {V : Type} {json : Json V}

/-! ## Frames and their replies -/

def frameError (json : Json V) (line : List Byte) : Option String :=
  match json.parse line with
  | .ok _ => none
  | .error error => some ("parse error: " ++ error)

def frameMessage (json : Json V) (line : List Byte) : Option (IpcMessage V) := (json.parse line).toOption

def errorLine (json : Json V) (error : String) : QueuedLine := ⟨.parseError, json.response (IpcResponse.err error)⟩

def replyLine (json : Json V) (resp : IpcResponse V) : QueuedLine := ⟨.reply, json.response resp⟩

/-- One line for each frame, in frame order: the caller's response to a valid one, an error for a malformed one. Nothing
follows a valid frame that has no response yet. -/
def replyLines (json : Json V) : List (List Byte) → List (IpcResponse V) → List QueuedLine
  | [], _ => []
  | line :: lines, resps =>
    match frameError json line with
    | some error => errorLine json error :: replyLines json lines resps
    | none =>
      match resps with
      | resp :: resps => replyLine json resp :: replyLines json lines resps
      | [] => []

variable {line : List Byte} {error : String}

theorem replyLines_error (h : frameError json line = some error) (lines : List (List Byte))
    (resps : List (IpcResponse V)) :
    replyLines json (line :: lines) resps = errorLine json error :: replyLines json lines resps := by
  rw [replyLines.eq_def]
  simp only [h]

theorem replyLines_ok (h : frameError json line = none) (lines : List (List Byte)) (resp : IpcResponse V)
    (resps : List (IpcResponse V)) :
    replyLines json (line :: lines) (resp :: resps) = replyLine json resp :: replyLines json lines resps := by
  rw [replyLines.eq_def]
  simp only [h]

/-- The errors of malformed frames, each with the number of valid frames before it, of which `seen` come before `lines`. -/
def dueErrors (json : Json V) : Nat → List (List Byte) → List (Nat × String)
  | _, [] => []
  | seen, line :: lines =>
    match frameError json line with
    | some error => (seen, error) :: dueErrors json seen lines
    | none => dueErrors json (seen + 1) lines

def messages (json : Json V) (lines : List (List Byte)) : List (IpcMessage V) := lines.filterMap (frameMessage json)

theorem messages_append (xs ys : List (List Byte)) : messages json (xs ++ ys) = messages json xs ++ messages json ys :=
  filterMap_append

theorem messages_of_error (h : frameError json line = some error) : messages json [line] = [] := by
  unfold frameError at h
  cases hparse : json.parse line with
  | ok message => rw [hparse] at h; cases h
  | error text =>
    rw [messages, filterMap_cons, frameMessage, hparse]
    rfl

theorem messages_of_ok {message : IpcMessage V} (h : json.parse line = .ok message) :
    messages json [line] = [message] := by
  rw [messages, filterMap_cons, frameMessage, h]
  rfl

theorem frameError_of_ok {message : IpcMessage V} (h : json.parse line = .ok message) :
    frameError json line = none := by
  rw [frameError, h]

theorem frameError_of_error (h : json.parse line = .error error) :
    frameError json line = some ("parse error: " ++ error) := by
  rw [frameError, h]

theorem parse_of_frameError (h : frameError json line = none) : ∃ message, json.parse line = .ok message := by
  unfold frameError at h
  cases hparse : json.parse line with
  | ok message => exact ⟨message, rfl⟩
  | error error => rw [hparse] at h; cases h

/-- Once all valid frames are answered, the replies go on with the next frame. -/
theorem replyLines_append : ∀ (done more : List (List Byte)) (resps rest : List (IpcResponse V)),
    resps.length = (messages json done).length →
    replyLines json (done ++ more) (resps ++ rest) = replyLines json done resps ++ replyLines json more rest
  | [], more, [], rest, _ => rfl
  | [], _, _ :: _, _, h => by cases h
  | line :: done, more, resps, rest, h => by
    have hsplit : messages json (line :: done) = messages json [line] ++ messages json done := messages_append [line] done
    cases herror : frameError json line with
    | some error =>
      rw [hsplit, messages_of_error herror, nil_append] at h
      rw [cons_append, replyLines_error herror, replyLines_error herror, replyLines_append done more resps rest h,
        cons_append]
    | none =>
      obtain ⟨message, hparse⟩ := parse_of_frameError herror
      rw [hsplit, messages_of_ok hparse] at h
      cases resps with
      | nil => cases h
      | cons resp resps =>
        rw [cons_append, cons_append, replyLines_ok herror, replyLines_ok herror,
          replyLines_append done more resps rest (Nat.succ.inj h), cons_append]

theorem replyLines_waiting {lines : List (List Byte)} (h : ∀ line ∈ lines.head?, frameError json line = none) :
    replyLines json lines [] = [] := by
  cases lines with
  | nil => rfl
  | cons line lines =>
    rw [replyLines.eq_def]
    simp only [h line rfl]

theorem length_replyLines : ∀ (lines : List (List Byte)) (resps : List (IpcResponse V)),
    resps.length = (messages json lines).length → (replyLines json lines resps).length = lines.length
  | [], _, _ => rfl
  | line :: lines, resps, h => by
    have hsplit : messages json (line :: lines) = messages json [line] ++ messages json lines := messages_append [line] lines
    cases herror : frameError json line with
    | some error =>
      rw [hsplit, messages_of_error herror, nil_append] at h
      rw [replyLines_error herror, length_cons, length_cons, length_replyLines lines resps h]
    | none =>
      obtain ⟨message, hparse⟩ := parse_of_frameError herror
      rw [hsplit, messages_of_ok hparse] at h
      cases resps with
      | nil => cases h
      | cons resp resps =>
        rw [replyLines_ok herror, length_cons, length_cons, length_replyLines lines resps (Nat.succ.inj h)]

theorem dueErrors_append : ∀ (seen : Nat) (xs ys : List (List Byte)),
    dueErrors json seen (xs ++ ys) = dueErrors json seen xs ++ dueErrors json (seen + (messages json xs).length) ys
  | _, [], _ => rfl
  | seen, line :: xs, ys => by
    have hsplit : messages json (line :: xs) = messages json [line] ++ messages json xs := messages_append [line] xs
    rw [cons_append, dueErrors, dueErrors, hsplit]
    cases herror : frameError json line with
    | some error =>
      rw [dueErrors_append seen xs ys, messages_of_error herror, nil_append, cons_append]
    | none =>
      obtain ⟨message, hparse⟩ := parse_of_frameError herror
      rw [dueErrors_append (seen + 1) xs ys, messages_of_ok hparse, length_append, length_singleton, Nat.add_assoc]

theorem le_of_dueErrors : ∀ {seen : Nat} {lines : List (List Byte)} {d : Nat × String}, d ∈ dueErrors json seen lines →
    seen ≤ d.1 ∧ d.1 ≤ seen + (messages json lines).length
  | seen, line :: lines, d, h => by
    have hsplit : messages json (line :: lines) = messages json [line] ++ messages json lines := messages_append [line] lines
    rw [dueErrors] at h
    cases herror : frameError json line with
    | some error =>
      rw [herror] at h
      rw [hsplit, messages_of_error herror, nil_append]
      rcases mem_cons.1 h with rfl | h
      · exact ⟨Nat.le_refl _, Nat.le_add_right _ _⟩
      · exact le_of_dueErrors h
    | none =>
      obtain ⟨message, hparse⟩ := parse_of_frameError herror
      rw [herror] at h
      have := le_of_dueErrors h
      rw [hsplit, messages_of_ok hparse, length_append, length_singleton]
      omega

/-! ## Held errors -/

def parseErrors (lines : List QueuedLine) : List QueuedLine := lines.filter fun line => line.kind = .parseError

def replies (lines : List QueuedLine) : List QueuedLine := lines.filter fun line => line.kind ≠ .event

theorem parseErrors_append (xs ys : List QueuedLine) : parseErrors (xs ++ ys) = parseErrors xs ++ parseErrors ys :=
  filter_append xs ys

theorem replies_append (xs ys : List QueuedLine) : replies (xs ++ ys) = replies xs ++ replies ys := filter_append xs ys

theorem parseErrors_errorLines (errors : List (Nat × String)) :
    parseErrors (errors.map fun d => errorLine json d.2) = errors.map fun d => errorLine json d.2 := by
  refine filter_eq_self.2 fun line hline => ?_
  obtain ⟨d, _, rfl⟩ := mem_map.1 hline
  rfl

theorem replies_errorLines (errors : List (Nat × String)) :
    replies (errors.map fun d => errorLine json d.2) = errors.map fun d => errorLine json d.2 := by
  refine filter_eq_self.2 fun line hline => ?_
  obtain ⟨d, _, rfl⟩ := mem_map.1 hline
  rfl

namespace IpcClient

variable {c c' : IpcClient}

/-- The first of the deferred errors were queued: those due, up to one that is not. -/
structure Released (json : Json V) (c : IpcClient) (released held : List (Nat × String)) (c' : IpcClient) : Prop where
  due : ∀ d ∈ released, d.1 ≤ c.answeredFrames
  waits : ∀ d ∈ held.head?, c.answeredFrames < d.1
  queued : c'.queued = c.queued ++ released.map fun d => errorLine json d.2
  deferredErrors : c'.deferredErrors = held
  frames : c'.frames = c.frames
  deliveredFrames : c'.deliveredFrames = c.deliveredFrames
  answeredFrames : c'.answeredFrames = c.answeredFrames
  sent : Sent c → Sent c'

theorem queueDueParseErrors_spec (json : Json V) : ∀ (deferred : List (Nat × String)) (c : IpcClient),
    ∃ released held, deferred = released ++ held ∧ Released json c released held (queueDueParseErrors json deferred c)
  | [], c => ⟨[], [], rfl, nofun, nofun, (append_nil _).symm, rfl, rfl, rfl, rfl, fun h => ⟨h.start_le, h.bytes⟩⟩
  | (due, error) :: rest, c => by
    unfold queueDueParseErrors
    split
    next hdue =>
      obtain ⟨released, held, hrest, h⟩ := queueDueParseErrors_spec json rest (c.queueParseError json error)
      refine ⟨(due, error) :: released, held, by rw [hrest]; rfl, ?_, h.waits, ?_, h.deferredErrors, h.frames, h.deliveredFrames,
        h.answeredFrames, fun hsent => h.sent (hsent.queue _ _)⟩
      · intro d hd
        rcases mem_cons.1 hd with rfl | hd
        · exact hdue
        · exact h.due d hd
      · rw [h.queued]
        show c.queued ++ [errorLine json error] ++ _ = c.queued ++ (errorLine json error :: _)
        rw [append_assoc]
        rfl
    next hdue =>
      refine ⟨[], (due, error) :: rest, rfl, nofun, ?_, (append_nil _).symm, rfl, rfl, rfl, rfl,
        fun h => ⟨h.start_le, h.bytes⟩⟩
      rintro d ⟨⟩
      exact Nat.lt_of_not_le hdue

/-- Lines were added, nothing was taken back, and the wire is still right. -/
structure Grows (c c' : IpcClient) : Prop where
  queued : c.queued <+: c'.queued
  sent : Sent c → Sent c'

namespace Grows

theorem refl (c : IpcClient) : Grows c c := ⟨prefix_rfl, id⟩

theorem trans {c₁ c₂ c₃ : IpcClient} (h₁ : Grows c₁ c₂) (h₂ : Grows c₂ c₃) : Grows c₁ c₃ :=
  ⟨h₁.queued.trans h₂.queued, fun h => h₂.sent (h₁.sent h)⟩

theorem queue (c : IpcClient) (kind : LineKind) (text : List Byte) : Grows c (c.queue kind text) :=
  ⟨prefix_append _ _, fun h => h.queue kind text⟩

theorem flushOut (c : IpcClient) : Grows c c.flushOut.1 :=
  ⟨(flushOut_same c).queued ▸ prefix_rfl, Sent.flushOut⟩

theorem inputOnly (h : InputOnly c c') : Grows c c' := ⟨h.same.queued ▸ prefix_rfl, h.sent⟩

theorem queueDueParseErrors (json : Json V) (deferred : List (Nat × String)) (c : IpcClient) :
    Grows c (queueDueParseErrors json deferred c) := by
  obtain ⟨released, held, _, h⟩ := queueDueParseErrors_spec json deferred c
  exact ⟨h.queued ▸ prefix_append _ _, h.sent⟩

theorem sendResponse (json : Json V) (c : IpcClient) (resp : IpcResponse V) : Grows c (c.sendResponse json resp).1 := by
  have hcounted : Grows c { c with answeredFrames := min (c.answeredFrames + 1) c.deliveredFrames } :=
    ⟨prefix_rfl, fun h => ⟨h.start_le, h.bytes⟩⟩
  exact ((hcounted.trans (.queue _ _ _)).trans (.queueDueParseErrors json _ _)).trans (.flushOut _)

theorem sendEvent (json : Json V) (c : IpcClient) (event : IpcEvent V) : Grows c (c.sendEvent json event).1 :=
  (Grows.queue c _ _).trans (.flushOut _)

theorem releaseAbandonedReplies (json : Json V) (c : IpcClient) : Grows c (c.releaseAbandonedReplies json) := by
  have hcounted : Grows c { c with answeredFrames := c.deliveredFrames } := ⟨prefix_rfl, fun h => ⟨h.start_le, h.bytes⟩⟩
  unfold IpcClient.releaseAbandonedReplies
  split
  · exact .refl c
  · exact hcounted.trans (.queueDueParseErrors json _ _)

theorem takeFrame (json : Json V) (id : Nat) (c : IpcClient) (line : List Byte) : Grows c (takeFrame json id c line).1 := by
  have htaken : Grows c { c with frames := c.frames ++ [line] } := ⟨prefix_rfl, fun h => ⟨h.start_le, h.bytes⟩⟩
  unfold IpcServer.takeFrame
  dsimp only
  split
  · exact ⟨prefix_rfl, fun h => ⟨h.start_le, h.bytes⟩⟩
  · unfold rejectFrame
    split
    · exact (htaken.trans (.queue _ _ _)).trans (.flushOut _)
    · exact ⟨prefix_rfl, fun h => ⟨h.start_le, h.bytes⟩⟩

theorem takeFrames (json : Json V) (id : Nat) : ∀ (lines : List (List Byte)) (c : IpcClient),
    Grows c (takeFrames json id c lines).1
  | [], c => .refl c
  | line :: lines, c => (Grows.takeFrame json id c line).trans (takeFrames json id lines _)

theorem visit (json : Json V) (id a b : Nat) (c : IpcClient) :
    Grows (c.releaseAbandonedReplies json) (visit json id c a b).client := by
  have hflushed := Grows.flushOut (c.releaseAbandonedReplies json)
  unfold IpcServer.visit
  generalize (c.releaseAbandonedReplies json).flushOut = flushed at hflushed ⊢
  obtain ⟨c₁, error⟩ := flushed
  cases error with
  | some error => exact hflushed
  | none =>
    have hread := hflushed.trans (Grows.inputOnly (readMessages_inputOnly c₁ a b))
    dsimp only at hread ⊢
    generalize c₁.readMessages a b = answer at hread ⊢
    obtain ⟨c₂, result, bytesRead⟩ := answer
    cases result with
    | error error => exact hread
    | ok lines => exact hread.trans (.takeFrames json id lines c₂)

end Grows

/-- The parse errors that were queued and those that are held are the errors of the frames, in frame order, each once. -/
structure Errors (json : Json V) (c : IpcClient) : Prop where
  lines : parseErrors c.queued ++ c.deferredErrors.map (fun d => errorLine json d.2) =
    (c.frames.filterMap (frameError json)).map (errorLine json)
  due : ∀ d ∈ c.deferredErrors, d.1 ≤ c.deliveredFrames

namespace Errors

theorem new (stream : UnixStream) : Errors json (IpcClient.new stream) := ⟨rfl, nofun⟩

section

variable (h : Errors json c)
include h

theorem same (hs : SameReplies c c') : Errors json c' := by
  refine ⟨?_, ?_⟩
  · rw [hs.queued, hs.deferredErrors, hs.frames]
    exact h.lines
  · rw [hs.deferredErrors, hs.deliveredFrames]
    exact h.due

theorem queue (kind : LineKind) (hkind : kind ≠ .parseError) (text : List Byte) : Errors json (c.queue kind text) := by
  refine ⟨?_, h.due⟩
  have hnone : parseErrors [QueuedLine.mk kind text] = [] := filter_eq_nil_iff.2 (by simpa using hkind)
  show parseErrors (c.queued ++ [QueuedLine.mk kind text]) ++ _ = _
  rw [parseErrors_append, hnone, append_nil]
  exact h.lines

theorem release {released held : List (Nat × String)} (hd : c.deferredErrors = released ++ held)
    (hr : Released json c released held c') : Errors json c' := by
  refine ⟨?_, ?_⟩
  · rw [hr.queued, hr.deferredErrors, hr.frames, parseErrors_append, parseErrors_errorLines, append_assoc, ← map_append,
      ← hd]
    exact h.lines
  · rw [hr.deferredErrors, hr.deliveredFrames]
    intro d hmem
    exact h.due d (hd ▸ mem_append_right released hmem)

theorem queueDueParseErrors : Errors json (queueDueParseErrors json c.deferredErrors c) := by
  obtain ⟨released, held, hd, hr⟩ := queueDueParseErrors_spec json c.deferredErrors c
  exact h.release hd hr

theorem sendResponse (resp : IpcResponse V) : Errors json (c.sendResponse json resp).1 := by
  have hcounted : Errors json { c with answeredFrames := min (c.answeredFrames + 1) c.deliveredFrames } := ⟨h.lines, h.due⟩
  exact ((hcounted.queue .reply nofun (json.response resp)).queueDueParseErrors).same (flushOut_same _)

theorem sendEvent (event : IpcEvent V) : Errors json (c.sendEvent json event).1 :=
  (h.queue .event nofun (json.event event)).same (flushOut_same _)

theorem releaseAbandonedReplies :
    Errors json (c.releaseAbandonedReplies json) ∧ (c.releaseAbandonedReplies json).deferredErrors = [] := by
  unfold IpcClient.releaseAbandonedReplies
  split
  next hnone => exact ⟨h, hnone⟩
  next hsome =>
    have hcounted : Errors json { c with answeredFrames := c.deliveredFrames } := ⟨h.lines, h.due⟩
    obtain ⟨released, held, hd, hr⟩ := queueDueParseErrors_spec json c.deferredErrors { c with answeredFrames := c.deliveredFrames }
    refine ⟨hcounted.release hd hr, hr.deferredErrors.trans ?_⟩
    cases hheld : held with
    | nil => rfl
    | cons d rest =>
      have hwaits := hr.waits d (by rw [hheld]; rfl)
      have hdue := h.due d (by rw [hd, hheld]; exact mem_append_right _ mem_cons_self)
      exact absurd hdue (Nat.not_le_of_lt hwaits)

theorem takeFrame (id : Nat) (line : List Byte) : Errors json (takeFrame json id c line).1 := by
  unfold IpcServer.takeFrame
  cases hparse : json.parse line with
  | ok message =>
    refine ⟨?_, fun d hd => Nat.le_succ_of_le (h.due d hd)⟩
    rw [filterMap_append, filterMap_cons_none (frameError_of_ok hparse), filterMap_nil, append_nil]
    exact h.lines
  | error error =>
    have hframes : ((c.frames ++ [line]).filterMap (frameError json)).map (errorLine json) =
        parseErrors c.queued ++ c.deferredErrors.map (fun d => errorLine json d.2) ++ [errorLine json ("parse error: " ++ error)] := by
      rw [filterMap_append, filterMap_cons_some (frameError_of_error hparse), map_append, h.lines]
      rfl
    unfold rejectFrame
    dsimp only
    split
    next hnow =>
      refine Errors.same ?_ (flushOut_same _)
      refine ⟨?_, h.due⟩
      show parseErrors (c.queued ++ [errorLine json ("parse error: " ++ error)]) ++ c.deferredErrors.map _ = _
      rw [parseErrors_append]
      refine Eq.trans ?_ hframes.symm
      rw [hnow.2]
      simp only [map_nil, append_nil]
      rfl
    next hlater =>
      refine ⟨?_, ?_⟩
      · rw [map_append, ← append_assoc]
        exact hframes.symm
      · intro d hd
        rcases mem_append.1 hd with hold | hnew
        · exact h.due d hold
        · rw [mem_singleton.1 hnew]

end

theorem takeFrames (id : Nat) : ∀ (lines : List (List Byte)) {c : IpcClient}, Errors json c →
    Errors json (takeFrames json id c lines).1
  | [], _, h => h
  | line :: lines, _, h => takeFrames id lines (h.takeFrame id line)

theorem visit (h : Errors json c) (id a b : Nat) : Errors json (visit json id c a b).client := by
  obtain ⟨hreleased, hnone⟩ := h.releaseAbandonedReplies
  have hflushed := hreleased.same (flushOut_same _)
  unfold IpcServer.visit
  generalize (c.releaseAbandonedReplies json).flushOut = flushed at hflushed ⊢
  obtain ⟨c₁, error⟩ := flushed
  cases error with
  | some error => exact hflushed
  | none =>
    have hread := hflushed.same (readMessages_inputOnly c₁ a b).same
    dsimp only at hread ⊢
    generalize c₁.readMessages a b = answer at hread ⊢
    obtain ⟨c₂, result, bytesRead⟩ := answer
    cases result with
    | error error => exact hread
    | ok lines => exact hread.takeFrames id lines

end Errors

end IpcClient

end Jwm.Ipc
