/-
The host's source grants and its fail-closed switching policy (`remote/source_session.rs`): input is
accepted only for a source whose first frame the viewer has drawn.
-/
import Jwm.Data.Bytes
import Jwm.Data.KeyMap
import Jwm.Data.Run

namespace Jwm.Remote

open List Option

/-! ## Sources -/

def maxGrantedSources : Nat := 32

abbrev SourceId := BitVec 32

structure SourceVersion where
  source : SourceId
  epoch : Nat
deriving DecidableEq

inductive SourceError
  | invalidGrants
  | notGranted
  | staleEpoch
  | transitionPending
  | epochExhausted
  | invalidFrame
deriving DecidableEq

structure CaptureRegion where
  x : Int
  y : Int
  width : Nat
  height : Nat
deriving DecidableEq

/-- What the operator asked to share. -/
inductive CaptureArea
  | root
  | monitor (name : String)
  | region (region : CaptureRegion)
deriving DecidableEq

/-- `char::is_control`. -/
def isControl (c : Char) : Bool := c.toNat < 0x20 || (0x7f ≤ c.toNat && c.toNat ≤ 0x9f)

def CaptureArea.valid : CaptureArea → Bool
  | root => true
  | monitor name => !name.isEmpty && name.utf8ByteSize ≤ 256 && !name.toList.any isControl
  | region r => r.width != 0 && r.height != 0

/-! ## The session -/

inductive Phase
  | quiescing
  | failed
  | waitingForFrame
  | waitingForPresentation (frame : Nat)
  | ready
deriving DecidableEq

structure SourceSession where
  grants : KeyMap SourceId CaptureArea
  current : SourceVersion
  phase : Phase
  lastFrame : Option Nat

namespace SourceSession

def collectGrants : KeyMap SourceId CaptureArea → List (SourceId × CaptureArea) → Except SourceError (KeyMap SourceId CaptureArea)
  | granted, [] => .ok granted
  | granted, (id, area) :: rest =>
    if id = 0 || granted.entries.length = maxGrantedSources || !area.valid || granted.contains id then .error .invalidGrants
    else collectGrants (granted.insert id area) rest

/-- Every connection starts at epoch 1 and waits for a keyframe. -/
def new (grants : List (SourceId × CaptureArea)) (initial : SourceId) : Except SourceError SourceSession :=
  match collectGrants .empty grants with
  | .error error => .error error
  | .ok granted =>
    if !granted.contains initial then .error .notGranted
    else .ok { grants := granted, current := ⟨initial, 1⟩, phase := .waitingForFrame, lastFrame := none }

def checkVersion (s : SourceSession) (version : SourceVersion) : Except SourceError Unit :=
  if s.current ≠ version then .error .staleEpoch else .ok ()

/-- `begin_switch`: fence old input before any native change. -/
def beginSwitch (s : SourceSession) (expected : Nat) (target : SourceId) : SourceSession × Except SourceError SourceVersion :=
  if expected ≠ s.current.epoch then (s, .error .staleEpoch)
  else if !s.grants.contains target then (s, .error .notGranted)
  else if s.phase ≠ .ready then (s, .error .transitionPending)
  else if s.current.epoch = u64Max then (s, .error .epochExhausted)
  else
    let version : SourceVersion := ⟨target, s.current.epoch + 1⟩
    ({ s with current := version, phase := .quiescing }, .ok version)

/-- `finish_switch`: the callback gets the selected area; an error of it blocks the session for good. -/
def finishSwitch {E : Type} (s : SourceSession) (version : SourceVersion) (quiesceAndInstall : Option CaptureArea → Except E Unit) :
    SourceSession × Except SourceError (Except E Unit) :=
  match s.checkVersion version with
  | .error error => (s, .error error)
  | .ok () =>
    if s.phase ≠ .quiescing then (s, .error .transitionPending)
    else
      match quiesceAndInstall (s.grants.get? s.current.source) with
      | .ok () => ({ s with phase := .waitingForFrame }, .ok (.ok ()))
      | .error error => ({ s with phase := .failed }, .ok (.error error))

def publishKeyframe (s : SourceSession) (version : SourceVersion) (frameId : Nat) : SourceSession × Except SourceError Unit :=
  match s.checkVersion version with
  | .error error => (s, .error error)
  | .ok () =>
    if s.phase ≠ .waitingForFrame then (s, .error .transitionPending)
    else if s.lastFrame.any (frameId ≤ ·) then (s, .error .invalidFrame)
    else ({ s with lastFrame := some frameId, phase := .waitingForPresentation frameId }, .ok ())

def acknowledgePresentation (s : SourceSession) (version : SourceVersion) (frameId : Nat) :
    SourceSession × Except SourceError Unit :=
  match s.checkVersion version with
  | .error error => (s, .error error)
  | .ok () =>
    if s.phase ≠ .waitingForPresentation frameId then (s, .error .invalidFrame)
    else ({ s with phase := .ready }, .ok ())

def acceptsInput (s : SourceSession) (version : SourceVersion) : Bool := s.current = version && s.phase = .ready

def acceptsCapture (s : SourceSession) (version : SourceVersion) : Bool :=
  s.current = version &&
    match s.phase with
    | .waitingForFrame | .waitingForPresentation _ | .ready => true
    | .quiescing | .failed => false

/-! ## Calls -/

/-- A call of a session with its arguments; the callback of `finish_switch` may do anything. -/
inductive Call (E : Type)
  | beginSwitch (expected : Nat) (target : SourceId)
  | finishSwitch (version : SourceVersion) (quiesceAndInstall : Option CaptureArea → Except E Unit)
  | publishKeyframe (version : SourceVersion) (frameId : Nat)
  | acknowledgePresentation (version : SourceVersion) (frameId : Nat)

inductive Reply (E : Type)
  | switched (result : Except SourceError SourceVersion)
  | installed (result : Except SourceError (Except E Unit))
  | published (result : Except SourceError Unit)
  | acknowledged (result : Except SourceError Unit)

variable {E : Type}

/-- The call returned `Err`. -/
def Reply.isErr : Reply E → Bool
  | switched (.error _) | installed (.error _) | published (.error _) | acknowledged (.error _) => true
  | _ => false

def step (s : SourceSession) : Call E → SourceSession × Reply E
  | .beginSwitch expected target =>
    let (s, result) := s.beginSwitch expected target
    (s, .switched result)
  | .finishSwitch version quiesceAndInstall =>
    let (s, result) := s.finishSwitch version quiesceAndInstall
    (s, .installed result)
  | .publishKeyframe version frameId =>
    let (s, result) := s.publishKeyframe version frameId
    (s, .published result)
  | .acknowledgePresentation version frameId =>
    let (s, result) := s.acknowledgePresentation version frameId
    (s, .acknowledged result)

/-- Everything a call can do: fail and change nothing, or one of five moves. -/
inductive Move (s : SourceSession) : Call E → SourceSession → Reply E → Prop
  | failed {call reply} (isErr : reply.isErr = true) : Move s call s reply
  | switch {target} (ready : s.phase = .ready) (granted : s.grants.contains target = true) :
    Move s (.beginSwitch s.current.epoch target)
      { s with current := ⟨target, s.current.epoch + 1⟩, phase := .quiescing } (.switched (.ok ⟨target, s.current.epoch + 1⟩))
  | install {f} (quiescing : s.phase = .quiescing) :
    Move s (.finishSwitch s.current f) { s with phase := .waitingForFrame } (.installed (.ok (.ok ())))
  | block {f error} (quiescing : s.phase = .quiescing) :
    Move s (.finishSwitch s.current f) { s with phase := .failed } (.installed (.ok (.error error)))
  | publish {frameId} (waiting : s.phase = .waitingForFrame) (newer : ∀ last, s.lastFrame = some last → last < frameId) :
    Move s (.publishKeyframe s.current frameId)
      { s with lastFrame := some frameId, phase := .waitingForPresentation frameId } (.published (.ok ()))
  | acknowledge {frameId} (waiting : s.phase = .waitingForPresentation frameId) :
    Move s (.acknowledgePresentation s.current frameId) { s with phase := .ready } (.acknowledged (.ok ()))

variable {version : SourceVersion}

theorem checkVersion_eq_ok {s : SourceSession} (h : s.checkVersion version = .ok ()) : s.current = version := by
  unfold checkVersion at h
  split at h
  · cases h
  · rename_i hc; exact not_not.1 hc

theorem step_move (s : SourceSession) (call : Call E) : Move s call (s.step call).1 (s.step call).2 := by
  cases call with
  | beginSwitch expected target =>
    simp only [step, beginSwitch]
    split
    · exact .failed rfl
    · rename_i hexpected
      split
      · exact .failed rfl
      · rename_i hgranted
        split
        · exact .failed rfl
        · rename_i hready
          split
          · exact .failed rfl
          · rw [not_not.1 hexpected]
            exact .switch (not_not.1 hready) (by simpa using hgranted)
  | finishSwitch version f =>
    simp only [step, finishSwitch]
    split
    · exact .failed rfl
    · rename_i hv
      obtain rfl := checkVersion_eq_ok hv
      split
      · exact .failed rfl
      · rename_i hq
        split
        · exact .install (not_not.1 hq)
        · exact .block (not_not.1 hq)
  | publishKeyframe version frameId =>
    simp only [step, publishKeyframe]
    split
    · exact .failed rfl
    · rename_i hv
      obtain rfl := checkVersion_eq_ok hv
      split
      · exact .failed rfl
      · rename_i hw
        split
        · exact .failed rfl
        · rename_i hnew
          refine .publish (not_not.1 hw) fun last hl => ?_
          rw [hl] at hnew
          simpa using hnew
  | acknowledgePresentation version frameId =>
    simp only [step, acknowledgePresentation]
    split
    · exact .failed rfl
    · rename_i hv
      obtain rfl := checkVersion_eq_ok hv
      split
      · exact .failed rfl
      · rename_i hw; exact .acknowledge (not_not.1 hw)

/-! ## What a trace says -/

abbrev Event (E : Type) := Call E × Reply E

def epochOf (e : Event E) : Option Nat :=
  match e.2 with
  | .switched (.ok version) => some version.epoch
  | _ => none

def frameOf (e : Event E) : Option Nat :=
  match e with
  | (.publishKeyframe _ frameId, .published (.ok ())) => some frameId
  | _ => none

def switchEpochs (h : List (Event E)) : List Nat := h.filterMap epochOf

/-- The frame ids of successful `publish_keyframe` calls. -/
def publishedFrames (h : List (Event E)) : List Nat := h.filterMap frameOf

/-- A callback of `finish_switch` failed. -/
def InstallFailed (h : List (Event E)) : Prop := ∃ call error, (call, Reply.installed (.ok (.error error))) ∈ h

/-- `before` ends where the epoch of `version` begins. -/
def Opens (version : SourceVersion) (before : List (Event E)) : Prop :=
  before = [] ∧ version.epoch = 1 ∨
    ∃ earlier call, before = earlier ++ [(call, Reply.switched (.ok version))]

/-- A keyframe was published for `version`. -/
def PublishedIn (version : SourceVersion) (frameId : Nat) (since : List (Event E)) : Prop :=
  ∃ a b, since = a ++ (.publishKeyframe version frameId, .published (.ok ())) :: b

/-- A keyframe was published for `version` and later acknowledged under the same id. -/
def PresentedIn (version : SourceVersion) (frameId : Nat) (since : List (Event E)) : Prop :=
  ∃ a b, PublishedIn version frameId a ∧ since = a ++ (.acknowledgePresentation version frameId, .acknowledged (.ok ())) :: b

/-- What the current phase says about the events since the epoch began. -/
def Evidence (s : SourceSession) (since : List (Event E)) : Prop :=
  match s.phase with
  | .waitingForPresentation frameId => PublishedIn s.current frameId since
  | .ready => ∃ frameId, PresentedIn s.current frameId since
  | .quiescing | .failed | .waitingForFrame => True

/-- The session `s` reached from grants `granted` by the calls of `h`. -/
structure Tracks (granted : KeyMap SourceId CaptureArea) (h : List (Event E)) (s : SourceSession) : Prop where
  grants : s.grants = granted
  source : s.grants.contains s.current.source = true
  epochs : (1 :: switchEpochs h).Pairwise (· < ·)
  newest : ∀ epoch ∈ 1 :: switchEpochs h, epoch ≤ s.current.epoch
  frames : (publishedFrames h).Pairwise (· < ·)
  last : ∀ frameId ∈ publishedFrames h, ∃ last, s.lastFrame = some last ∧ frameId ≤ last
  blocked : InstallFailed h → s.phase = .failed
  epoch : ∃ before since, h = before ++ since ∧ Opens s.current before ∧ switchEpochs since = [] ∧ Evidence s since

theorem switchEpochs_snoc (h : List (Event E)) (e : Event E) : switchEpochs (h ++ [e]) = switchEpochs h ++ (epochOf e).toList := by
  rw [switchEpochs, filterMap_append]
  cases he : epochOf e <;> simp [switchEpochs, he]

theorem publishedFrames_snoc (h : List (Event E)) (e : Event E) :
    publishedFrames (h ++ [e]) = publishedFrames h ++ (frameOf e).toList := by
  rw [publishedFrames, filterMap_append]
  cases hf : frameOf e <;> simp [publishedFrames, hf]

variable {e : Event E} {frameId : Nat} {s' : SourceSession} {call : Call E}

theorem installFailed_snoc {h : List (Event E)} (hf : InstallFailed (h ++ [e])) :
    InstallFailed h ∨ ∃ error, e.2 = .installed (.ok (.error error)) := by
  obtain ⟨call, error, hmem⟩ := hf
  rcases mem_append.1 hmem with hmem | hmem
  · exact .inl ⟨call, error, hmem⟩
  · rw [← mem_singleton.1 hmem]
    exact .inr ⟨error, rfl⟩

variable {since : List (Event E)}

theorem PublishedIn.mono (h : PublishedIn version frameId since)
    (more : List (Event E)) : PublishedIn version frameId (since ++ more) := by
  obtain ⟨a, b, rfl⟩ := h
  exact ⟨a, b ++ more, by simp⟩

theorem PresentedIn.mono (h : PresentedIn version frameId since)
    (more : List (Event E)) : PresentedIn version frameId (since ++ more) := by
  obtain ⟨a, b, hp, rfl⟩ := h
  exact ⟨a, b ++ more, hp, by simp⟩

theorem Evidence.mono {s : SourceSession} (h : Evidence s since) (more : List (Event E)) :
    Evidence s (since ++ more) := by
  unfold Evidence at h ⊢
  split at h
  · exact h.mono more
  · obtain ⟨frameId, h⟩ := h
    exact ⟨frameId, h.mono more⟩
  all_goals trivial

/-! ## The invariant -/

section Keeps

variable {granted : KeyMap SourceId CaptureArea} {h : List (Event E)} {s : SourceSession}

section

variable (ok : Tracks granted h s)
include ok

/-- An event without an epoch of its own extends the events of the current epoch. -/
theorem Tracks.extend_epoch (he : epochOf e = none) (hcurrent : s'.current = s.current)
    (hevidence : ∀ since, Evidence s since → Evidence s' (since ++ [e])) :
    ∃ before since, h ++ [e] = before ++ since ∧ Opens s'.current before ∧ switchEpochs since = [] ∧ Evidence s' since := by
  obtain ⟨before, since, rfl, hopens, hnone, hsince⟩ := ok.epoch
  refine ⟨before, since ++ [e], by rw [append_assoc], by rw [hcurrent]; exact hopens, ?_, hevidence since hsince⟩
  rw [switchEpochs_snoc, hnone, he]
  rfl

/-- The fields of the invariant that a call other than a successful switch or publication keeps. -/
theorem Tracks.quiet (he : epochOf e = none) (hf : frameOf e = none) (hgrants : s'.grants = s.grants)
    (hcurrent : s'.current = s.current) (hlast : s'.lastFrame = s.lastFrame) (hblocked : InstallFailed (h ++ [e]) → s'.phase = .failed)
    (hevidence : ∀ since, Evidence s since → Evidence s' (since ++ [e])) : Tracks granted (h ++ [e]) s' where
  grants := hgrants.trans ok.grants
  source := by rw [hgrants, hcurrent]; exact ok.source
  epochs := by
    rw [switchEpochs_snoc, he, toList_none, append_nil]
    exact ok.epochs
  newest := by
    rw [switchEpochs_snoc, he, toList_none, append_nil, hcurrent]
    exact ok.newest
  frames := by
    rw [publishedFrames_snoc, hf, toList_none, append_nil]
    exact ok.frames
  last := by
    rw [publishedFrames_snoc, hf, toList_none, append_nil, hlast]
    exact ok.last
  blocked := hblocked
  epoch := ok.extend_epoch he hcurrent hevidence

theorem Tracks.failed {call : Call E} {reply : Reply E} (herr : reply.isErr = true) :
    Tracks granted (h ++ [(call, reply)]) s := by
  have he : epochOf (call, reply) = none := by
    unfold epochOf
    split
    · simp_all [Reply.isErr]
    · rfl
  have hf : frameOf (call, reply) = none := by
    unfold frameOf
    split
    · simp_all [Reply.isErr]
    · rfl
  refine ok.quiet he hf rfl rfl rfl (fun hfail => ?_) fun since hs => hs.mono _
  rcases installFailed_snoc hfail with hfail | ⟨error, hreply⟩
  · exact ok.blocked hfail
  · simp only at hreply
    subst hreply
    cases herr

theorem Tracks.switch {target : SourceId} (ready : s.phase = .ready) (hgranted : s.grants.contains target = true) :
    Tracks granted (h ++ [(call, .switched (.ok ⟨target, s.current.epoch + 1⟩))])
      { s with current := ⟨target, s.current.epoch + 1⟩, phase := .quiescing } where
  grants := ok.grants
  source := hgranted
  epochs := by
    rw [switchEpochs_snoc, ← cons_append, pairwise_append]
    refine ⟨ok.epochs, pairwise_singleton .., fun epoch hepoch later hlater => ?_⟩
    rw [mem_singleton.1 hlater]
    exact Nat.lt_succ_of_le (ok.newest epoch hepoch)
  newest := by
    intro epoch hepoch
    rw [switchEpochs_snoc, ← cons_append, mem_append] at hepoch
    rcases hepoch with hepoch | hepoch
    · exact Nat.le_succ_of_le (ok.newest epoch hepoch)
    · exact le_of_eq (mem_singleton.1 hepoch)
  frames := by
    rw [publishedFrames_snoc, show frameOf _ = none from by cases call <;> rfl, toList_none, append_nil]
    exact ok.frames
  last := by
    rw [publishedFrames_snoc, show frameOf _ = none from by cases call <;> rfl, toList_none, append_nil]
    exact ok.last
  blocked := by
    intro hfail
    rcases installFailed_snoc hfail with hfail | ⟨error, hreply⟩
    · have hphase := ok.blocked hfail
      rw [ready] at hphase
      cases hphase
    · cases hreply
  epoch := ⟨_, [], (append_nil _).symm, .inr ⟨h, call, rfl⟩, rfl, trivial⟩

theorem Tracks.publish (waiting : s.phase = .waitingForFrame) (newer : ∀ last, s.lastFrame = some last → last < frameId) :
    Tracks granted (h ++ [(.publishKeyframe s.current frameId, .published (.ok ()))])
      { s with lastFrame := some frameId, phase := .waitingForPresentation frameId } where
  grants := ok.grants
  source := ok.source
  epochs := by
    rw [switchEpochs_snoc]
    simpa [epochOf] using ok.epochs
  newest := by
    rw [switchEpochs_snoc]
    simpa [epochOf] using ok.newest
  frames := by
    rw [publishedFrames_snoc, pairwise_append]
    refine ⟨ok.frames, pairwise_singleton .., fun earlier hearlier later hlater => ?_⟩
    obtain ⟨last, hl, hle⟩ := ok.last earlier hearlier
    rw [mem_singleton.1 hlater]
    exact lt_of_le_of_lt hle (newer last hl)
  last := by
    intro earlier hearlier
    rw [publishedFrames_snoc, mem_append] at hearlier
    refine ⟨frameId, rfl, ?_⟩
    rcases hearlier with hearlier | hearlier
    · obtain ⟨last, hl, hle⟩ := ok.last earlier hearlier
      exact le_of_lt (lt_of_le_of_lt hle (newer last hl))
    · exact le_of_eq (mem_singleton.1 hearlier)
  blocked := by
    intro hfail
    rcases installFailed_snoc hfail with hfail | ⟨error, hreply⟩
    · have hphase := ok.blocked hfail
      rw [waiting] at hphase
      cases hphase
    · cases hreply
  epoch := ok.extend_epoch rfl rfl fun since _ => ⟨since, [], rfl⟩

theorem Tracks.step (call : Call E) : Tracks granted (h ++ [(call, (s.step call).2)]) (s.step call).1 := by
  -- A phase other than `failed` means that no installation has failed yet.
  have unblocked : s.phase ≠ .failed → ∀ {e : Event E}, (∀ error, e.2 ≠ .installed (.ok (.error error))) →
      ∀ {P : Prop}, InstallFailed (h ++ [e]) → P := by
    intro hphase e he P hfail
    rcases installFailed_snoc hfail with hfail | ⟨error, hreply⟩
    · exact absurd (ok.blocked hfail) hphase
    · exact absurd hreply (he error)
  cases hm : s.step call with
  | mk s' reply =>
    have move := step_move s call
    rw [hm] at move
    cases move with
    | failed herr => exact ok.failed herr
    | switch ready granted => exact ok.switch ready granted
    | install quiescing =>
      exact ok.quiet rfl rfl rfl rfl rfl (unblocked (by rw [quiescing]; simp) (by simp)) fun _ _ => trivial
    | block quiescing => exact ok.quiet rfl rfl rfl rfl rfl (fun _ => rfl) fun _ _ => trivial
    | publish waiting newer => exact ok.publish waiting newer
    | acknowledge waiting =>
      refine ok.quiet rfl rfl rfl rfl rfl (unblocked (by rw [waiting]; simp) (by simp)) fun since hs => ?_
      rw [Evidence, waiting] at hs
      exact ⟨_, since, [], hs, rfl⟩

end

end Keeps

/-! ## Runs -/

theorem collectGrants_keys : ∀ {entries : List (SourceId × CaptureArea)} {granted granted' : KeyMap SourceId CaptureArea},
    collectGrants granted entries = .ok granted' → ∀ id ∈ granted'.keys, id ∈ granted.keys ∨ id ∈ entries.map Prod.fst
  | [], granted, granted', h, id, hid => by
    obtain rfl := Except.ok.inj h
    exact .inl hid
  | (id', area) :: rest, granted, granted', h, id, hid => by
    rw [collectGrants] at h
    split at h
    · cases h
    · rcases collectGrants_keys h id hid with hid | hid
      · rcases KeyMap.mem_keys_insert.1 hid with rfl | hid
        · exact .inr mem_cons_self
        · exact .inl hid
      · exact .inr (mem_cons_of_mem _ hid)

/-- A new session: its grants are among the offered ones, and nothing has happened yet. -/
theorem new_tracks {offered : List (SourceId × CaptureArea)} {initial : SourceId} {s : SourceSession}
    (h : SourceSession.new offered initial = .ok s) :
    (∀ id ∈ s.grants.keys, id ∈ offered.map Prod.fst) ∧ Tracks (E := E) s.grants [] s := by
  unfold SourceSession.new at h
  split at h
  · cases h
  · rename_i granted hgrants
    split at h
    · cases h
    · rename_i hinitial
      obtain rfl := Except.ok.inj h
      refine ⟨fun id hid => ?_, ?_⟩
      · rcases collectGrants_keys hgrants id hid with hid | hid
        · cases hid
        · exact hid
      · exact ⟨rfl, by simpa using hinitial, pairwise_singleton .., by simp [switchEpochs], List.Pairwise.nil,
          by simp [publishedFrames], fun ⟨_, _, hmem⟩ => absurd hmem not_mem_nil,
          ⟨[], [], rfl, .inl ⟨rfl, rfl⟩, rfl, trivial⟩⟩

theorem step_of_isErr {s : SourceSession} (h : (s.step call).2.isErr = true) : (s.step call).1 = s := by
  cases hm : s.step call with
  | mk s' reply =>
    have move := step_move s call
    rw [hm] at h move
    cases move with
    | failed => rfl
    | switch | install | block | publish | acknowledge => cases h

/-- Input only for a source the viewer has seen. Over every sequence of calls, input is accepted only for the current
version, after a keyframe published for it in its epoch was acknowledged; epochs and published frames only grow; a failed
installation blocks input and capture for good; and a call that fails changes nothing. -/
theorem input_follows_presentation {offered : List (SourceId × CaptureArea)} {initial : SourceId} {s : SourceSession}
    (h : SourceSession.new offered initial = .ok s) (calls : List (Call E)) :
    (∀ version, (after step s calls).acceptsInput version = true →
      (after step s calls).current = version ∧
        ∃ before since, trace step s calls = before ++ since ∧ Opens version before ∧ switchEpochs since = [] ∧
          ∃ frameId, PresentedIn version frameId since) ∧
    (1 :: switchEpochs (trace step s calls)).Pairwise (· < ·) ∧
    (after step s calls).current.source ∈ offered.map Prod.fst ∧
    (publishedFrames (trace step s calls)).Pairwise (· < ·) ∧
    (InstallFailed (trace step s calls) → ∀ version, (after step s calls).acceptsInput version = false ∧
      (after step s calls).acceptsCapture version = false) ∧
    ∀ call : Call E, ((after step s calls).step call).2.isErr = true →
      ((after step s calls).step call).1 = after step s calls := by
  obtain ⟨hoffered, hnew⟩ := new_tracks (E := E) h
  have ok : Tracks s.grants (trace step s calls) (after step s calls) :=
    trace_invariant (fun _ _ call ok => ok.step call) hnew calls
  refine ⟨fun version haccepts => ?_, ok.epochs, ?_, ok.frames, fun hfail version => ?_, fun call => step_of_isErr⟩
  · simp only [acceptsInput, Bool.and_eq_true, decide_eq_true_eq] at haccepts
    obtain ⟨rfl, hready⟩ := haccepts
    obtain ⟨before, since, hsplit, hopens, hnone, hevidence⟩ := ok.epoch
    rw [Evidence, hready] at hevidence
    exact ⟨rfl, before, since, hsplit, hopens, hnone, hevidence⟩
  · apply hoffered
    rw [← ok.grants, KeyMap.mem_keys]
    exact isSome_iff_exists.1 ok.source
  · simp [acceptsInput, acceptsCapture, ok.blocked hfail]

def switchCalls : List (Call Unit) :=
  [.publishKeyframe ⟨1, 1⟩ 7, .acknowledgePresentation ⟨1, 1⟩ 7, .beginSwitch 1 2, .finishSwitch ⟨2, 2⟩ fun _ => .ok (),
    .publishKeyframe ⟨2, 2⟩ 8, .acknowledgePresentation ⟨2, 2⟩ 8]

/-- Two granted sources: after a switch, input opens once frame 8 of the second is drawn, for that version only. -/
theorem input_follows_presentation_second_source :
    ∃ s, SourceSession.new [(1, .root), (2, .region ⟨0, 0, 640, 480⟩)] 1 = .ok s ∧
      (after step s switchCalls).acceptsInput ⟨1, 1⟩ = false ∧ (after step s switchCalls).acceptsInput ⟨2, 2⟩ = true ∧
      ∃ before since, trace step s switchCalls = before ++ since ∧
        Opens ⟨2, 2⟩ before ∧ switchEpochs since = [] ∧ ∃ frameId, PresentedIn ⟨2, 2⟩ frameId since := by
  refine ⟨_, rfl, rfl, rfl, ?_⟩
  have h : SourceSession.new [(1, .root), (2, .region ⟨0, 0, 640, 480⟩)] 1 = .ok _ := rfl
  exact ((input_follows_presentation h _).1 ⟨2, 2⟩ rfl).2

end SourceSession

end Jwm.Remote
