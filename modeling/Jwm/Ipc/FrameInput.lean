/-
Frames come out of the input buffer as lines of the stream, however the socket cuts it into reads and whatever
the budgets of the polls are.
-/
import Jwm.Data.Lines
import Jwm.Data.Run
import Jwm.Ipc.IpcClient
import Mathlib.Data.List.TakeWhile

namespace Jwm.Ipc

open List

/-! ## Frames of a stream -/

def lineFrames (bytes : List Byte) : List (List Byte) := (lines newline bytes).filter fun line => !line.isEmpty

def finalFrame (bytes : List Byte) : List (List Byte) :=
  if (tail newline bytes).all IpcClient.isAsciiWhitespace then [] else [tail newline bytes]

/-- What a stream is to be delivered as; the tail is a frame once the stream has ended. -/
def streamFrames (bytes : List Byte) (closed : Bool) : List (List Byte) :=
  lineFrames bytes ++ if closed then finalFrame bytes else []

theorem lineFrames_append (xs ys : List Byte) : lineFrames (xs ++ ys) = lineFrames xs ++ lineFrames (tail newline xs ++ ys) := by
  rw [lineFrames, lines_append, filter_append]
  rfl

variable {bytes : List Byte} {messages : List (List Byte)} {c' : IpcClient}

theorem lineFrames_of_notMem (h : newline ∉ bytes) : lineFrames bytes = [] := by
  rw [lineFrames, lines_of_notMem h]
  rfl

theorem lineFrames_line {line : List Byte} (h : newline ∉ line) (rest : List Byte) :
    lineFrames (line ++ newline :: rest) = (if line.isEmpty then [] else [line]) ++ lineFrames rest := by
  rw [lineFrames, lines_cut, lines_of_notMem h, tail_of_notMem h, nil_append, filter_cons]
  cases line <;> rfl

theorem streamFrames_nil (closed : Bool) : streamFrames [] closed = [] := by
  cases closed <;> rfl

theorem streamFrames_prefix (bytes more : List Byte) {closed : Bool} (h : closed = true → more = []) :
    streamFrames bytes closed <+: streamFrames (bytes ++ more) closed := by
  cases closed with
  | true =>
    refine ⟨[], ?_⟩
    rw [h rfl, append_nil, append_nil]
  | false =>
    refine ⟨lineFrames (tail newline bytes ++ more), ?_⟩
    simp only [streamFrames, Bool.false_eq_true, if_false, append_nil]
    exact (lineFrames_append bytes more).symm

open IpcClient

theorem trimAscii_isEmpty (bytes : List Byte) : (trimAscii bytes).isEmpty = bytes.all isAsciiWhitespace := by
  rw [Bool.eq_iff_iff, trimAscii, isEmpty_reverse, List.isEmpty_iff, dropWhile_eq_nil_iff, ← all_eq_true, all_reverse]
  constructor
  · intro h
    rw [← takeWhile_append_dropWhile (p := isAsciiWhitespace) (l := bytes), all_append, h, all_takeWhile]
    rfl
  · intro h
    rw [dropWhile_eq_nil_iff.2 (all_eq_true.1 h)]
    rfl

namespace IpcClient

/-! ## Scanning -/

variable {c : IpcClient}

def pending (c : IpcClient) : List Byte := c.buf.drop c.bufStart

/-- The cursors are in order, and what was scanned has no newline. -/
structure Cursors (c : IpcClient) : Prop where
  start_le : c.bufStart ≤ c.scanPos
  scan_le : c.scanPos ≤ c.buf.length
  clean : newline ∉ slice c.buf c.bufStart c.scanPos

theorem drop_eq_slice_append (buf : List Byte) {a b : Nat} (h : a ≤ b) : buf.drop a = slice buf a b ++ buf.drop b := by
  have hcut := take_append_drop (b - a) (buf.drop a)
  rw [drop_drop, show a + (b - a) = b by omega] at hcut
  exact hcut.symm

/-- The lines found from `lineStart` on, with what is left of the buffer. -/
structure Scanned (buf : List Byte) (limit lineStart : Nat) (messages : List (List Byte))
    (result : Nat × Nat × List (List Byte)) : Prop where
  start_le : result.1 ≤ result.2.1
  scan_le : result.2.1 ≤ buf.length
  clean : newline ∉ slice buf result.1 result.2.1
  bounded : result.2.2.length ≤ limit
  found : ∃ found, result.2.2 = messages ++ found ∧ lineFrames (buf.drop lineStart) = found ++ lineFrames (buf.drop result.1)
  sameTail : tail newline (buf.drop lineStart) = tail newline (buf.drop result.1)
  all : result.2.2.length < limit → newline ∉ buf.drop result.1

theorem scanLines_spec (buf : List Byte) (limit : Nat) : ∀ (rest : List Byte) (lineStart scanPos : Nat) (messages : List (List Byte)),
    rest = buf.drop scanPos → lineStart ≤ scanPos → scanPos ≤ buf.length → newline ∉ slice buf lineStart scanPos →
    messages.length < limit → Scanned buf limit lineStart messages (scanLines buf limit rest lineStart scanPos messages)
  | [], lineStart, scanPos, messages, hrest, hle, hscan, hclean, hlimit => by
    refine ⟨hle, hscan, hclean, Nat.le_of_lt hlimit, ⟨[], (append_nil _).symm, rfl⟩, rfl, fun _ => ?_⟩
    show newline ∉ buf.drop lineStart
    rw [drop_eq_slice_append buf hle, ← hrest, append_nil]
    exact hclean
  | byte :: rest, lineStart, scanPos, messages, hrest, hle, hscan, hclean, hlimit => by
    have hlt : scanPos < buf.length := by
      rw [← drop_eq_nil_iff.not.trans Nat.not_le, ← hrest]
      exact cons_ne_nil byte rest
    have hrest' : rest = buf.drop (scanPos + 1) := by
      rw [← tail_drop, ← hrest]
      rfl
    have hget : buf[scanPos]? = some byte := by
      rw [← head?_drop, ← hrest]
      rfl
    have hstep : slice buf lineStart (scanPos + 1) = slice buf lineStart scanPos ++ [byte] := by
      rw [slice, show scanPos + 1 - lineStart = (scanPos - lineStart) + 1 by omega, take_add_one, getElem?_drop,
        show lineStart + (scanPos - lineStart) = scanPos by omega, hget]
      rfl
    unfold scanLines
    split
    next hbyte =>
      refine scanLines_spec buf limit rest lineStart (scanPos + 1) messages hrest' (by omega) hlt ?_ hlimit
      rw [hstep, mem_append, mem_singleton]
      rintro (h | h)
      · exact hclean h
      · exact hbyte h.symm
    next hbyte =>
      obtain rfl : byte = newline := by simpa using hbyte
      -- the line ends here; the next one starts behind it, unscanned
      have hline : buf.drop lineStart = slice buf lineStart scanPos ++ newline :: buf.drop (scanPos + 1) := by
        rw [drop_eq_slice_append buf hle, ← hrest, hrest']
      have hnone : newline ∉ slice buf (scanPos + 1) (scanPos + 1) := by
        simp [slice]
      have hframes := lineFrames_line hclean (buf.drop (scanPos + 1))
      rw [← hline] at hframes
      have htail : tail newline (buf.drop lineStart) = tail newline (buf.drop (scanPos + 1)) := by
        rw [hline, tail_cut]
      dsimp only
      split
      next hempty =>
        have h := scanLines_spec buf limit rest (scanPos + 1) (scanPos + 1) messages hrest' (Nat.le_refl _) hlt hnone hlimit
        obtain ⟨found, hfound, hrestFrames⟩ := h.found
        rw [if_pos hempty, nil_append] at hframes
        exact ⟨h.start_le, h.scan_le, h.clean, h.bounded, ⟨found, hfound, hframes.trans hrestFrames⟩, htail.trans h.sameTail, h.all⟩
      next hempty =>
        rw [if_neg hempty] at hframes
        have hlength : (messages ++ [slice buf lineStart scanPos]).length = messages.length + 1 := length_append
        split
        next hfull =>
          refine ⟨Nat.le_refl _, hlt, hnone, Nat.le_of_eq hfull, ⟨_, rfl, hframes⟩, htail, fun hless => ?_⟩
          exact absurd hfull (Nat.ne_of_lt hless)
        next hfull =>
          have h := scanLines_spec buf limit rest (scanPos + 1) (scanPos + 1) (messages ++ [slice buf lineStart scanPos]) hrest'
            (Nat.le_refl _) hlt hnone (by omega)
          obtain ⟨found, hfound, hrestFrames⟩ := h.found
          refine ⟨h.start_le, h.scan_le, h.clean, h.bounded, ⟨slice buf lineStart scanPos :: found, ?_, ?_⟩,
            htail.trans h.sameTail, h.all⟩
          · rw [hfound, append_assoc]
            rfl
          · rw [hframes, hrestFrames]
            rfl

/-! ## Taking frames -/

/-- `c'` is `c` with `messages` taken from its buffer. -/
structure Took (c : IpcClient) (messages : List (List Byte)) (c' : IpcClient) : Prop where
  cursors : c'.Cursors
  stream : c'.stream = c.stream
  readClosed : c'.readClosed = c.readClosed
  frames : streamFrames c.pending c.readClosed = messages ++ streamFrames c'.pending c.readClosed
  sameTail : c.readClosed = false → tail newline c.pending = tail newline c'.pending

theorem Took.refl (h : c.Cursors) : Took c [] c := ⟨h, rfl, rfl, rfl, fun _ => rfl⟩

theorem Took.trans {c₁ c₂ c₃ : IpcClient} {xs ys : List (List Byte)} (h₁ : Took c₁ xs c₂) (h₂ : Took c₂ ys c₃) :
    Took c₁ (xs ++ ys) c₃ := by
  refine ⟨h₂.cursors, h₂.stream.trans h₁.stream, h₂.readClosed.trans h₁.readClosed, ?_, fun hopen => ?_⟩
  · rw [h₁.frames, ← h₁.readClosed, h₂.frames, append_assoc]
  · exact (h₁.sameTail hopen).trans (h₂.sameTail (h₁.readClosed.trans hopen))

theorem takeCompleteMessages_spec (h : c.Cursors) (limit : Nat) :
    Took c (c.takeCompleteMessages limit).2 (c.takeCompleteMessages limit).1 ∧ (c.takeCompleteMessages limit).2.length ≤ limit ∧
      ((c.takeCompleteMessages limit).2.length < limit → newline ∉ (c.takeCompleteMessages limit).1.pending) := by
  unfold takeCompleteMessages
  split
  next hnone =>
    refine ⟨Took.refl h, Nat.zero_le _, fun hlimit => ?_⟩
    rcases hnone with hzero | hempty
    · exact absurd hlimit (by rw [hzero]; exact Nat.lt_irrefl 0)
    · show newline ∉ c.buf.drop c.bufStart
      rw [hempty, drop_length]
      exact not_mem_nil
  next hsome =>
    obtain ⟨hlimit, _⟩ := not_or.1 hsome
    simp only [Nat.max_eq_left h.start_le]
    have hscan := scanLines_spec c.buf limit (c.buf.drop c.scanPos) c.bufStart c.scanPos [] rfl h.start_le h.scan_le h.clean
      (Nat.pos_of_ne_zero hlimit)
    generalize scanLines c.buf limit (c.buf.drop c.scanPos) c.bufStart c.scanPos [] = result at hscan
    obtain ⟨lineStart, scanPos, messages⟩ := result
    obtain ⟨found, hfound, hframes⟩ := hscan.found
    obtain rfl : messages = found := hfound
    refine ⟨⟨⟨hscan.start_le, hscan.scan_le, hscan.clean⟩, rfl, rfl, ?_, fun _ => hscan.sameTail⟩, hscan.bounded, hscan.all⟩
    have hfinal : finalFrame (c.buf.drop c.bufStart) = finalFrame (c.buf.drop lineStart) := by
      unfold finalFrame
      rw [hscan.sameTail]
    show lineFrames (c.buf.drop c.bufStart) ++ (if c.readClosed then finalFrame (c.buf.drop c.bufStart) else []) =
      messages ++ (lineFrames (c.buf.drop lineStart) ++ if c.readClosed then finalFrame (c.buf.drop lineStart) else [])
    rw [hframes, hfinal, append_assoc]

theorem compactInputBuffer_spec (h : c.Cursors) :
    Took c [] c.compactInputBuffer ∧ c.compactInputBuffer.pending = c.pending := by
  have hle := h.start_le.trans h.scan_le
  have took : ∀ {c' : IpcClient}, c'.Cursors → c'.stream = c.stream → c'.readClosed = c.readClosed → c'.pending = c.pending →
      Took c [] c' ∧ c'.pending = c.pending := by
    intro c' hcursors hstream hclosed hpending
    exact ⟨⟨hcursors, hstream, hclosed, by rw [hpending]; rfl, fun _ => by rw [hpending]⟩, hpending⟩
  unfold compactInputBuffer
  split
  · exact took h rfl rfl rfl
  split
  next hempty =>
    refine took ⟨Nat.le_refl _, Nat.le_refl _, not_mem_nil⟩ rfl rfl ?_
    show [] = c.buf.drop c.bufStart
    rw [hempty, drop_length]
  split
  · refine took ⟨Nat.zero_le _, ?_, ?_⟩ rfl rfl rfl
    · rw [length_drop]
      exact Nat.sub_le_sub_right h.scan_le _
    · exact h.clean
  · exact took h rfl rfl rfl

theorem takeUnterminatedFinalFrame_spec (h : c.Cursors) {limit : Nat} (hbound : messages.length ≤ limit)
    (hall : messages.length < limit → newline ∉ c.pending) :
    ∃ final, (c.takeUnterminatedFinalFrame limit messages).2 = messages ++ final ∧
      Took c final (c.takeUnterminatedFinalFrame limit messages).1 ∧
      (c.takeUnterminatedFinalFrame limit messages).2.length ≤ limit ∧
      (messages.length < limit → c.readClosed = true → (c.takeUnterminatedFinalFrame limit messages).1.pending = []) := by
  unfold takeUnterminatedFinalFrame
  split
  next hnone =>
    refine ⟨[], (append_nil _).symm, Took.refl h, hbound, fun hless hclosed => ?_⟩
    rcases hnone with hopen | hfull | hempty
    · rw [hclosed] at hopen
      cases hopen
    · exact absurd hless (Nat.not_lt.2 hfull)
    · show c.buf.drop c.bufStart = []
      rw [hempty, drop_length]
  next hsome =>
    simp only [not_or, Bool.not_eq_true', Bool.not_eq_false, Nat.not_le] at hsome
    obtain ⟨hclosed, hless, _⟩ := hsome
    have hnl := hall hless
    have hconsumed : Cursors { c with bufStart := c.buf.length, scanPos := c.buf.length } :=
      ⟨Nat.le_refl _, Nat.le_refl _, by simp [slice]⟩
    have hempty : pending { c with bufStart := c.buf.length, scanPos := c.buf.length } = [] := drop_length
    have hfinal : (if (trimAscii (c.buf.drop c.bufStart)).isEmpty then messages else messages ++ [c.buf.drop c.bufStart]) =
        messages ++ finalFrame c.pending := by
      unfold finalFrame
      rw [tail_of_notMem hnl, trimAscii_isEmpty]
      show (if c.pending.all isAsciiWhitespace then messages else messages ++ [c.pending]) = _
      split
      · exact (append_nil _).symm
      · rfl
    obtain ⟨hcompact, hpending⟩ := compactInputBuffer_spec hconsumed
    refine ⟨finalFrame c.pending, hfinal, ⟨hcompact.cursors, hcompact.stream, hcompact.readClosed, ?_, ?_⟩, ?_, ?_⟩
    · rw [hpending, hempty, streamFrames_nil, streamFrames, lineFrames_of_notMem hnl, hclosed, if_pos rfl, append_nil]
      rfl
    · intro hopen
      rw [hclosed] at hopen
      cases hopen
    · show (if (trimAscii (c.buf.drop c.bufStart)).isEmpty then messages else messages ++ [c.buf.drop c.bufStart]).length ≤ limit
      split
      · exact hbound
      · rw [length_append]
        exact hless
    · intro _ _
      exact hpending.trans hempty

/-! ## Reading -/

/-- `c'` is `c` after `bytes` were read. -/
structure Received (c : IpcClient) (bytes : List Byte) (c' : IpcClient) : Prop where
  buf : c'.buf = c.buf ++ bytes
  bufStart : c'.bufStart = c.bufStart
  scanPos : c'.scanPos = c.scanPos
  incoming : c.stream.incoming = bytes ++ c'.stream.incoming
  closed : c'.readClosed = true → c.readClosed = true ∨ c'.stream.incoming = []

theorem Received.cursors (h : Received c bytes c') (hc : c.Cursors) : c'.Cursors := by
  have hslice : slice c'.buf c'.bufStart c'.scanPos = slice c.buf c.bufStart c.scanPos := by
    rw [h.buf, h.bufStart, h.scanPos, slice, slice, drop_append_of_le_length (hc.start_le.trans hc.scan_le),
      take_append_of_le_length]
    rw [length_drop]
    exact Nat.sub_le_sub_right hc.scan_le _
  refine ⟨?_, ?_, by rw [hslice]; exact hc.clean⟩
  · rw [h.bufStart, h.scanPos]
    exact hc.start_le
  · rw [h.scanPos, h.buf, length_append]
    exact Nat.le_add_right_of_le hc.scan_le

theorem Received.pending (h : Received c bytes c') (hc : c.Cursors) : c'.pending = c.pending ++ bytes := by
  rw [IpcClient.pending, IpcClient.pending, h.buf, h.bufStart, drop_append_of_le_length (hc.start_le.trans hc.scan_le)]

/-- The loop reads within its budget; without an error it has appended to the buffer what it read. -/
theorem readLoop_spec (limit : Nat) : ∀ (reads : List ReadOutcome) (c : IpcClient) (bytesRead : Nat), bytesRead ≤ limit →
    (c.readLoop limit reads bytesRead).2.2 ≤ limit ∧ (c.readLoop limit reads bytesRead).2.1 ≠ some clientDisconnected ∧
      ∃ bytes, Received c bytes (c.readLoop limit reads bytesRead).1
  | [], c, bytesRead, hle => ⟨hle, nofun, [], ⟨(append_nil _).symm, rfl, rfl, rfl, Or.inl⟩⟩
  | outcome :: reads, c, bytesRead, hle => by
    have hnone : Received c [] { c with stream := { c.stream with reads := reads } } := ⟨(append_nil _).symm, rfl, rfl, rfl, Or.inl⟩
    unfold readLoop
    split
    next hlt =>
      cases outcome with
      | ready count =>
        dsimp only
        split
        next hempty =>
          refine ⟨hle, nofun, [], ⟨(append_nil _).symm, rfl, rfl, rfl, fun _ => .inr ?_⟩⟩
          have hpos : min (count + 1) (min (limit - bytesRead) 4096) ≠ 0 := by omega
          exact (take_eq_nil_iff.1 (List.isEmpty_iff.1 hempty)).resolve_left hpos
        next hempty =>
          generalize hn : min (count + 1) (min (limit - bytesRead) 4096) = n
          have hread : Received c (c.stream.incoming.take n)
              { c with stream := { c.stream with reads := reads, incoming := c.stream.incoming.drop n },
                       buf := c.buf ++ c.stream.incoming.take n } :=
            ⟨rfl, rfl, rfl, (take_append_drop n _).symm, Or.inl⟩
          have hbytes : bytesRead + (c.stream.incoming.take n).length ≤ limit := by
            rw [length_take]
            omega
          split
          · exact ⟨hbytes, nofun, _, hread⟩
          · obtain ⟨hbudget, herror, bytes, hrest⟩ := readLoop_spec limit reads _ _ hbytes
            refine ⟨hbudget, herror, c.stream.incoming.take n ++ bytes, ⟨?_, hrest.bufStart, hrest.scanPos, ?_, hrest.closed⟩⟩
            · rw [hrest.buf, append_assoc]
            · rw [append_assoc, ← hrest.incoming]
              exact hread.incoming
      | wouldBlock => exact ⟨hle, nofun, [], hnone⟩
      | interrupted =>
        obtain ⟨hbudget, herror, bytes, hrest⟩ :=
          readLoop_spec limit reads { c with stream := { c.stream with reads := reads } } bytesRead hle
        exact ⟨hbudget, herror, bytes, ⟨hrest.buf, hrest.bufStart, hrest.scanPos, hrest.incoming, hrest.closed⟩⟩
      | failed => exact ⟨hle, nofun, [], hnone⟩
    · exact ⟨hle, nofun, [], ⟨(append_nil _).symm, rfl, rfl, rfl, Or.inl⟩⟩

/-! ## Calls -/

/-- What was returned, with what is in the buffer, is what was read of the stream. -/
structure Reading (stream : List Byte) (returned : List (List Byte)) (c : IpcClient) : Prop where
  cursors : c.Cursors
  closed : c.readClosed = true → c.stream.incoming = []
  read : ∃ bytes, stream = bytes ++ c.stream.incoming ∧
    streamFrames bytes c.readClosed = returned ++ streamFrames c.pending c.readClosed ∧
    (c.readClosed = false → tail newline bytes = tail newline c.pending)

namespace Reading

variable {stream : List Byte} {returned : List (List Byte)}

theorem new (socket : UnixStream) : Reading socket.incoming [] (IpcClient.new socket) :=
  ⟨⟨Nat.le_refl _, Nat.le_refl _, not_mem_nil⟩, nofun, ⟨[], rfl, rfl, fun _ => rfl⟩⟩

theorem took (h : Reading stream returned c) (ht : Took c messages c') : Reading stream (returned ++ messages) c' := by
  obtain ⟨bytes, hstream, hframes, htail⟩ := h.read
  refine ⟨ht.cursors, ?_, bytes, ?_, ?_, ?_⟩
  · intro hclosed
    rw [ht.stream]
    exact h.closed (ht.readClosed.symm.trans hclosed)
  · rw [ht.stream]
    exact hstream
  · rw [ht.readClosed, hframes, ht.frames, append_assoc]
  · intro hopen
    rw [ht.readClosed] at hopen
    exact (htail hopen).trans (ht.sameTail hopen)

theorem received (h : Reading stream returned c) (hopen : c.readClosed = false)
    (hr : Received c bytes c') : Reading stream returned c' := by
  obtain ⟨before, hstream, hframes, htail⟩ := h.read
  have htail' : tail newline (before ++ bytes) = tail newline c'.pending := by
    rw [hr.pending h.cursors, tail_append, htail hopen, ← tail_append]
  have hlines : lineFrames (before ++ bytes) = returned ++ lineFrames c'.pending := by
    have hbefore : lineFrames before = returned ++ lineFrames c.pending := by
      simpa only [streamFrames, hopen, Bool.false_eq_true, if_false, append_nil] using hframes
    rw [hr.pending h.cursors, lineFrames_append before, lineFrames_append c.pending, hbefore, htail hopen, append_assoc]
  refine ⟨hr.cursors h.cursors, ?_, before ++ bytes, ?_, ?_, fun _ => htail'⟩
  · intro hclosed
    rcases hr.closed hclosed with hwas | hend
    · rw [hopen] at hwas
      cases hwas
    · exact hend
  · rw [hstream, hr.incoming, append_assoc]
  · unfold streamFrames finalFrame
    rw [hlines, htail', append_assoc]

theorem all_returned (h : Reading stream returned c) (hclosed : c.readClosed = true) (hempty : c.pending = []) :
    returned = streamFrames stream true := by
  obtain ⟨bytes, hstream, hframes, _⟩ := h.read
  rw [hstream, h.closed hclosed, append_nil, ← hclosed, hframes, hempty, streamFrames_nil, append_nil]

end Reading

/-- What a call of `read_messages` returned. -/
def received (result : Except IoError (List (List Byte))) : List (List Byte) :=
  match result with
  | .ok messages => messages
  | .error _ => []

/-- What is known of a call and its answer. -/
structure Answered (stream : List Byte) (returned : List (List Byte)) (messageBudget readByteBudget : Nat)
    (answer : IpcClient × Except IoError (List (List Byte)) × Nat) : Prop where
  messages : (received answer.2.1).length ≤ messageBudget
  bytes : answer.2.2 ≤ readByteBudget
  reading : (∀ error, answer.2.1 = .error error → error = clientDisconnected) → Reading stream (returned ++ received answer.2.1) answer.1
  disconnected : answer.2.1 = .error clientDisconnected → returned = streamFrames stream true

theorem Answered.of_reading {stream : List Byte} {returned : List (List Byte)} {messageBudget readByteBudget bytesRead : Nat}
    {c : IpcClient} (h : Reading stream (returned ++ messages) c) (hmessages : messages.length ≤ messageBudget)
    (hbytes : bytesRead ≤ readByteBudget) (closed : Bool) (hclosed : closed = true → c.readClosed = true)
    (hall : c.readClosed = true → messages = [] → c.pending = []) :
    Answered stream returned messageBudget readByteBudget
      (c, if messages.isEmpty && closed then .error clientDisconnected else .ok messages, bytesRead) := by
  split
  next hend =>
    rw [Bool.and_eq_true, List.isEmpty_iff] at hend
    obtain ⟨rfl, hc⟩ := hend
    rw [append_nil] at h
    refine ⟨Nat.zero_le _, hbytes, fun _ => ?_, fun _ => h.all_returned (hclosed hc) (hall (hclosed hc) rfl)⟩
    show Reading stream (returned ++ []) c
    rw [append_nil]
    exact h
  · exact ⟨hmessages, hbytes, fun _ => h, nofun⟩

/-- A call keeps to its budgets and, unless a read fails or the buffer grows too large, accounts for what it takes. -/
theorem readMessages_spec {stream : List Byte} {returned : List (List Byte)} (h : Reading stream returned c)
    (messageBudget readByteBudget : Nat) :
    Answered stream returned messageBudget readByteBudget (c.readMessages messageBudget readByteBudget) := by
  have hlimit : min messageBudget maxMessagesPerPoll ≤ messageBudget := Nat.min_le_left _ _
  have hbytes : min readByteBudget maxReadBytesPerPoll ≤ readByteBudget := Nat.min_le_left _ _
  unfold readMessages
  dsimp only
  generalize min messageBudget maxMessagesPerPoll = limit at hlimit ⊢
  generalize min readByteBudget maxReadBytesPerPoll = byteLimit at hbytes ⊢
  split
  · refine ⟨Nat.zero_le _, Nat.zero_le _, fun _ => ?_, nofun⟩
    show Reading stream (returned ++ []) c
    rw [append_nil]
    exact h
  obtain ⟨htook, hcount, hall⟩ := takeCompleteMessages_spec h.cursors limit
  generalize c.takeCompleteMessages limit = taken at htook hcount hall ⊢
  obtain ⟨c₁, messages⟩ := taken
  obtain ⟨hcompact, hpending⟩ := compactInputBuffer_spec htook.cursors
  rw [← hpending] at hall
  have hreading : Reading stream (returned ++ messages) c₁.compactInputBuffer := by
    have := h.took (htook.trans hcompact)
    rwa [append_nil] at this
  generalize c₁.compactInputBuffer = c₂ at hall hreading ⊢
  split
  · exact ⟨hcount.trans hlimit, Nat.zero_le _, fun _ => hreading, nofun⟩
  next hmore =>
  have hless : messages.length < limit := Nat.lt_of_le_of_ne hcount hmore
  split
  next hclosed =>
    obtain ⟨final, hfinal, htail, hbound, hempty⟩ := takeUnterminatedFinalFrame_spec hreading.cursors hcount hall
    generalize c₂.takeUnterminatedFinalFrame limit messages = taken at hfinal htail hbound hempty ⊢
    obtain ⟨c₃, messages'⟩ := taken
    have hnow := hreading.took htail
    rw [append_assoc, ← hfinal] at hnow
    have := Answered.of_reading hnow (hbound.trans hlimit) (Nat.zero_le readByteBudget) true
      (fun _ => htail.readClosed.trans hclosed) (fun _ _ => hempty hless hclosed)
    rwa [Bool.and_true] at this
  next hopen =>
    obtain ⟨hread, hkind, bytes, hreceived⟩ := readLoop_spec byteLimit c₂.stream.reads c₂ 0 (Nat.zero_le _)
    generalize c₂.readLoop byteLimit c₂.stream.reads 0 = looped at hread hkind hreceived ⊢
    obtain ⟨c₃, error, bytesRead⟩ := looped
    cases error with
    | some error =>
      refine ⟨Nat.zero_le _, hread.trans hbytes, fun honly => ?_, fun hend => ?_⟩
      · exact absurd (congrArg some (honly error rfl)) hkind
      · exact absurd (congrArg some (Except.error.inj hend)) hkind
    | none =>
      dsimp only at hread hreceived ⊢
      have hreading₃ := hreading.received (by simpa using hopen) hreceived
      obtain ⟨htook', hcount', hall'⟩ := takeCompleteMessages_spec hreading₃.cursors (limit - messages.length)
      generalize c₃.takeCompleteMessages (limit - messages.length) = taken at htook' hcount' hall' ⊢
      obtain ⟨c₄, more⟩ := taken
      dsimp only at htook' hcount' hall' ⊢
      obtain ⟨hcompact', hpending'⟩ := compactInputBuffer_spec htook'.cursors
      rw [← hpending'] at hall'
      have hlength : (messages ++ more).length = messages.length + more.length := length_append
      have hcount'' : (messages ++ more).length ≤ limit := by omega
      obtain ⟨final, hfinal, htail, hbound, hempty⟩ :=
        takeUnterminatedFinalFrame_spec hcompact'.cursors hcount'' fun hroom => hall' (by omega)
      have hnow := hreading₃.took ((htook'.trans hcompact').trans htail)
      rw [append_nil, append_assoc, ← append_assoc messages, ← hfinal] at hnow
      have hclosed₅ := htail.readClosed
      generalize c₄.compactInputBuffer.takeUnterminatedFinalFrame limit (messages ++ more) = taken
        at hfinal htail hbound hempty hnow hclosed₅ ⊢
      obtain ⟨c₅, messages'⟩ := taken
      refine Answered.of_reading hnow (hbound.trans hlimit) (hread.trans hbytes) c₅.readClosed id ?_
      intro hclosed hnone
      refine hempty ?_ (hclosed₅.symm.trans hclosed)
      have hmessages : messages ++ more = [] := (append_eq_nil_iff.1 (hfinal.symm.trans hnone)).1
      rw [hmessages]
      exact Nat.lt_of_le_of_lt (Nat.zero_le _) hless

/-! ## Runs of polls -/

theorem streamFrames_of_hasBufferedFrame (h : c.Cursors) (hnone : c.hasBufferedFrame = false) :
    streamFrames c.pending c.readClosed = [] := by
  rw [hasBufferedFrame, Nat.max_eq_left h.start_le, Bool.or_eq_false_iff, Bool.and_eq_false_iff, decide_eq_false_iff_not] at hnone
  obtain ⟨hend, hscan⟩ := hnone
  have hnl : newline ∉ c.pending := by
    rw [pending, drop_eq_slice_append c.buf h.start_le, mem_append]
    rintro (hclean | hlater)
    · exact h.clean hclean
    · simp [hlater] at hscan
  cases hclosed : c.readClosed with
  | false => rw [streamFrames, lineFrames_of_notMem hnl]; rfl
  | true =>
    have hempty : c.pending = [] := by
      rw [pending, drop_eq_nil_iff]
      exact Nat.not_lt.1 (hend.resolve_left (by rw [hclosed]; decide))
    rw [hempty, streamFrames_nil]

/-- A poll of the client: its budgets of messages and of bytes. -/
def readStep (c : IpcClient) (budgets : Nat × Nat) : IpcClient × Except IoError (List (List Byte)) × Nat :=
  c.readMessages budgets.1 budgets.2

def intact (result : Except IoError (List (List Byte))) : Bool :=
  match result with
  | .ok _ => true
  | .error error => error = clientDisconnected

theorem only_disconnected {result : Except IoError (List (List Byte))} (h : intact result = true) :
    ∀ error, result = .error error → error = clientDisconnected := by
  rintro error rfl
  exact of_decide_eq_true h

def returned (answers : List (Except IoError (List (List Byte)) × Nat)) : List (List Byte) :=
  answers.flatMap fun answer => received answer.1

/-- However the socket delivers the stream and whatever the budgets are, the frames come out as the lines of the stream and
its tail, in order, each once, and the end is reported only behind the last frame. -/
theorem frames_independent_of_chunking (socket : UnixStream) {budgets : List (Nat × Nat)}
    (hintact : Along (fun c b => intact (c.readMessages b.1 b.2).2.1 = true) readStep (new socket) budgets) :
    let c := after readStep (new socket) budgets
    let returned := returned (answers readStep (new socket) budgets)
    returned <+: streamFrames socket.incoming c.readClosed ∧
    (c.bufStart ≤ c.scanPos ∧ c.scanPos ≤ c.buf.length ∧ newline ∉ slice c.buf c.bufStart c.scanPos) ∧
    (∀ call ∈ trace readStep (new socket) budgets, (received call.2.1).length ≤ call.1.1 ∧ call.2.2 ≤ call.1.2) ∧
    (∃ bytes, socket.incoming = bytes ++ c.stream.incoming ∧
      (returned ≠ streamFrames bytes c.readClosed → c.hasBufferedFrame = true)) ∧
    ∀ messageBudget readByteBudget, (c.readMessages messageBudget readByteBudget).2.1 = .error clientDisconnected →
      returned = streamFrames socket.incoming true := by
  intro c returned
  have keep : ∀ (calls : List ((Nat × Nat) × Except IoError (List (List Byte)) × Nat)) (c : IpcClient) (b : Nat × Nat),
      intact (c.readMessages b.1 b.2).2.1 = true →
      (Reading socket.incoming (IpcClient.returned (calls.map Prod.snd)) c ∧
        ∀ call ∈ calls, (received call.2.1).length ≤ call.1.1 ∧ call.2.2 ≤ call.1.2) →
      Reading socket.incoming (IpcClient.returned ((calls ++ [(b, (readStep c b).2)]).map Prod.snd)) (readStep c b).1 ∧
        ∀ call ∈ calls ++ [(b, (readStep c b).2)], (received call.2.1).length ≤ call.1.1 ∧ call.2.2 ≤ call.1.2 := by
    rintro calls c b hok ⟨hreading, hbudgets⟩
    have hanswer := readMessages_spec hreading b.1 b.2
    refine ⟨?_, ?_⟩
    · rw [map_append, IpcClient.returned, flatMap_append, map_singleton, flatMap_singleton]
      exact hanswer.reading (only_disconnected hok)
    · intro call hcall
      rcases mem_append.1 hcall with hold | hnew
      · exact hbudgets call hold
      · rw [mem_singleton.1 hnew]
        exact ⟨hanswer.messages, hanswer.bytes⟩
  have hinit : Reading socket.incoming (IpcClient.returned (([] : List ((Nat × Nat) × Except IoError (List (List Byte)) × Nat)).map Prod.snd))
      (new socket) := Reading.new socket
  obtain ⟨hreading, hbudgets⟩ := trace_invariant_along keep ⟨hinit, nofun⟩ hintact
  have hreading : Reading socket.incoming returned c := hreading
  obtain ⟨bytes, hstream, hframes, htail⟩ := hreading.read
  refine ⟨?_, ⟨hreading.cursors.start_le, hreading.cursors.scan_le, hreading.cursors.clean⟩, hbudgets, ⟨bytes, hstream, ?_⟩, ?_⟩
  · have hall := streamFrames_prefix bytes c.stream.incoming hreading.closed
    rw [← hstream, hframes] at hall
    exact (prefix_append _ _).trans hall
  · intro hmissing
    rw [hframes] at hmissing
    by_contra hnone
    rw [streamFrames_of_hasBufferedFrame hreading.cursors (by simpa using hnone), append_nil] at hmissing
    exact hmissing rfl
  · intro messageBudget readByteBudget hend
    exact (readMessages_spec hreading messageBudget readByteBudget).disconnected hend

/-- Two lines, a blank one and a tail, in reads of one to three bytes. -/
theorem frames_independent_of_chunking_tail :
    let socket : UnixStream := ⟨[97, 10, 10, 98, 10, 99], [.ready 0, .interrupted, .ready 1, .wouldBlock, .ready 2, .ready 0], [], []⟩
    let budgets := [(1, 4), (1, 8), (1, 8), (1, 8)]
    returned (answers readStep (new socket) budgets) = [[97], [98], [99]] ∧
      returned (answers readStep (new socket) budgets) <+: streamFrames socket.incoming true := by
  intro socket budgets
  have hintact : Along (fun c b => intact (c.readMessages b.1 b.2).2.1 = true) readStep (new socket) budgets := by decide +kernel
  have hclosed : (after readStep (new socket) budgets).readClosed = true := by decide +kernel
  have h := (frames_independent_of_chunking socket hintact).1
  rw [hclosed] at h
  exact ⟨by decide +kernel, h⟩

end IpcClient

end Jwm.Ipc
