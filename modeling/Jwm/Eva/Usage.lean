/-
The usage meter (`jwm_eva_core/src/usage.rs`): reservations admitted against a day's budget, their settlement by
receipt, and the summaries that settled records are compacted into. Amounts are micro-dollars; next to the meter
runs the account of what was admitted and settled, by all the names a reservation has had.
-/
import Jwm.Data.KeySum
import Jwm.Data.Run
import Mathlib.Data.String.Basic

namespace Jwm.Eva

/-! ## Records -/

/-- Micro-dollars per million tokens. -/
structure Rates where
  inputText : Nat := 0
  inputAudio : Nat := 0
  cachedText : Nat := 0
  cachedAudio : Nat := 0
  outputText : Nat := 0
  outputAudio : Nat := 0
deriving DecidableEq

structure TokenUsage where
  inputText : Nat := 0
  inputAudio : Nat := 0
  cachedText : Nat := 0
  cachedAudio : Nat := 0
  outputText : Nat := 0
  outputAudio : Nat := 0
deriving DecidableEq

namespace TokenUsage

/-- `cost_microusd`: rounded up, so that short responses do not evade the budget. -/
def costMicrousd (usage : TokenUsage) (rates : Rates) : Nat :=
  let weighted := (usage.inputText * rates.inputText + usage.inputAudio * rates.inputAudio +
    usage.cachedText * rates.cachedText + usage.cachedAudio * rates.cachedAudio +
    usage.outputText * rates.outputText + usage.outputAudio * rates.outputAudio) % 2 ^ 128
  min ((weighted + 999999) / 1000000) u64Max

def checkedAdd (a b : TokenUsage) : Option TokenUsage := do
  let inputText ← Jwm.checkedAdd a.inputText b.inputText
  let inputAudio ← Jwm.checkedAdd a.inputAudio b.inputAudio
  let cachedText ← Jwm.checkedAdd a.cachedText b.cachedText
  let cachedAudio ← Jwm.checkedAdd a.cachedAudio b.cachedAudio
  let outputText ← Jwm.checkedAdd a.outputText b.outputText
  let outputAudio ← Jwm.checkedAdd a.outputAudio b.outputAudio
  pure { inputText, inputAudio, cachedText, cachedAudio, outputText, outputAudio }

end TokenUsage

structure UsageRecord where
  model : String := ""
  createdMs : Nat
  settledMs : Option Nat := none
  durationSeconds : Option Float := none
  durationMicrousdPerSecond : Nat := 0
  priceVersion : String := ""
  rates : Rates := {}
  day : String
  phase : String
  estimateMicrousd : Nat
  settledMicrousd : Option Nat := none
  unknown : Bool := false
  usage : Option TokenUsage := none

def UsageRecord.amount (r : UsageRecord) : Nat := r.settledMicrousd.getD r.estimateMicrousd

structure UsageSummary where
  settledRecords : Nat := 0
  settledMicrousd : Nat := 0
  usage : TokenUsage := {}
  durationSeconds : Float := 0

abbrev PriceSummaries := KeyMap String UsageSummary
abbrev ModelSummaries := KeyMap String PriceSummaries
abbrev DaySummaries := KeyMap String ModelSummaries

structure UsageMeter where
  records : KeyMap String UsageRecord
  summaries : DaySummaries
  archivedIds : List String

def UsageMeter.default : UsageMeter := { records := KeyMap.empty, summaries := KeyMap.empty, archivedIds := [] }

def usageCapacity : Nat := 4096

/-- The summary with one more settled record; `none` where a count overflows. -/
def UsageSummary.withRecord (summary : UsageSummary) (record : UsageRecord) : Option UsageSummary := do
  let settledRecords ← checkedAdd summary.settledRecords 1
  let settledMicrousd ← checkedAdd summary.settledMicrousd (record.settledMicrousd.getD 0)
  let usage ← match record.usage with
    | some usage => summary.usage.checkedAdd usage
    | none => some summary.usage
  let durationSeconds := summary.durationSeconds + record.durationSeconds.getD 0
  if durationSeconds.isFinite then some { settledRecords, settledMicrousd, usage, durationSeconds } else none

namespace UsageMeter

/-! ## Compaction -/

variable (m : UsageMeter)

def isArchived (id : String) : Bool := m.archivedIds.contains id

def consumedAndReserved (day : String) : Nat :=
  let summaries := ((m.summaries.get? day).map fun models =>
    models.entries.flatMap fun versions => versions.2.entries.map Prod.snd).getD []
  let settled := summaries.foldl (fun total s => saturatingAdd total s.settledMicrousd) 0
  ((m.records.entries.map Prod.snd).filter fun r => r.day = day).foldl (fun total r => saturatingAdd total r.amount) settled

/-- The records to summarize: settled, not unknown and, unless forced, not recent; in the order of their ids. -/
def compactCandidates (nowMs : Nat) (force : Bool) : List String :=
  ((m.records.entries.filter fun (_, r) => !r.unknown && r.settledMicrousd.isSome &&
    (force || nowMs - r.settledMs.getD r.createdMs > 600000)).map Prod.fst).insertionSort (· ≤ ·)

def modelName (r : UsageRecord) : String := if r.model.isEmpty then "unknown_model" else r.model

def summaryOf (r : UsageRecord) : UsageSummary :=
  (((m.summaries.get? r.day).bind fun models => models.get? (modelName r)).bind fun versions =>
    versions.get? r.priceVersion).getD {}

def setSummary (r : UsageRecord) (summary : UsageSummary) : DaySummaries :=
  let models := (m.summaries.get? r.day).getD KeyMap.empty
  let versions := (models.get? (modelName r)).getD KeyMap.empty
  m.summaries.insert r.day (models.insert (modelName r) (versions.insert r.priceVersion summary))

/-- The loop of `compact`; it stops at the first overflow. -/
def compactLoop : UsageMeter → Nat → List String → UsageMeter × Except String Nat
  | m, removed, [] => (m, .ok removed)
  | m, removed, id :: rest =>
    match m.records.get? id with
    -- the candidates are keys of the map
    | none => compactLoop m removed rest
    | some record =>
      match (m.summaryOf record).withRecord record with
      | none => (m, .error "usage_summary_overflow")
      | some summary =>
        let archivedIds := m.archivedIds ++ [id]
        compactLoop
          { records := m.records.remove id
            summaries := m.setSummary record summary
            archivedIds := archivedIds.drop (archivedIds.length - usageCapacity) }
          (removed + 1) rest

def compact (nowMs : Nat) (force : Bool) : UsageMeter × Except String Nat :=
  m.compactLoop 0 (m.compactCandidates nowMs force)

/-! ## Reservations and receipts -/

/-- The second part of `reserve_at`, once there may be room. -/
def admitReservation (id day phase : String) (estimateMicrousd limitMicrousd nowMs : Nat) :
    UsageMeter × Except String Unit :=
  if m.records.entries.length ≥ usageCapacity then (m, .error "usage_capacity_exceeded")
  else if saturatingAdd (m.consumedAndReserved day) estimateMicrousd > limitMicrousd then (m, .error "budget_exceeded")
  else
    ({ m with records := m.records.insert id { createdMs := nowMs, day := day, phase := phase, estimateMicrousd := estimateMicrousd } },
      .ok ())

def reserveAt (id day phase : String) (estimateMicrousd limitMicrousd nowMs : Nat) :
    UsageMeter × Except String Unit :=
  if m.records.contains id || m.isArchived id then (m, .error "duplicate_usage_reservation")
  else
    match m.compact nowMs false with
    | (m, .error e) => (m, .error e)
    | (m, .ok _) =>
      if m.records.entries.length ≥ usageCapacity then
        match m.compact nowMs true with
        | (m, .error e) => (m, .error e)
        | (m, .ok _) => m.admitReservation id day phase estimateMicrousd limitMicrousd nowMs
      else m.admitReservation id day phase estimateMicrousd limitMicrousd nowMs

/-- `settle`, false for a receipt that is not the first one. -/
def settle (id : String) (usage : TokenUsage) (rates : Rates) (wallMs : Nat) : UsageMeter × Bool :=
  match m.records.get? id with
  | none => (m, false)
  | some record =>
    if record.settledMicrousd.isSome then (m, false)
    else
      ({ m with records := m.records.insert id { record with
          settledMicrousd := some (usage.costMicrousd rates), usage := some usage, unknown := false
          settledMs := some wallMs } }, true)

/-- The cost of a duration; `none` where it overflows. -/
def durationCost (seconds : Float) (microusdPerSecond : Nat) : Option Nat :=
  let cost := (seconds * Float.ofNat microusdPerSecond).ceil
  if !cost.isFinite || cost > Float.ofNat u64Max then none else some cost.toUInt64.toNat

def settleDuration (id : String) (seconds : Float) (wallMs : Nat) : UsageMeter × Except String Bool :=
  if !seconds.isFinite || seconds < 0 then (m, .error "invalid_duration_usage")
  else
    match m.records.get? id with
    | none => (m, .ok false)
    | some record =>
      if record.settledMicrousd.isSome then (m, .ok false)
      else
        match durationCost seconds record.durationMicrousdPerSecond with
        | none => (m, .error "duration_usage_overflow")
        | some cost =>
          ({ m with records := m.records.insert id { record with
              durationSeconds := some seconds, settledMicrousd := some cost, unknown := false
              settledMs := some wallMs } }, .ok true)

def markUnknown (id : String) : UsageMeter × Except String Unit :=
  match m.records.get? id with
  | none => (m, .error "unregistered_response_usage")
  | some record =>
    if record.settledMicrousd.isNone then
      ({ m with records := m.records.insert id { record with unknown := true } }, .ok ())
    else (m, .ok ())

def associateResponse (requestId responseId : String) : UsageMeter × Except String Unit :=
  if requestId = responseId then (m, .ok ())
  else if m.records.contains responseId || m.isArchived responseId then (m, .error "duplicate_response_id")
  else
    match m.records.get? requestId with
    | none => (m, .error "unknown_request_id")
    | some record => ({ m with records := (m.records.remove requestId).insert responseId record }, .ok ())

/-- What the store writes into a reservation it has just made (`reserve_amount`). -/
def price (id model priceVersion : String) (rates : Rates) (durationMicrousdPerSecond : Nat) : UsageMeter :=
  { m with records := m.records.modify id fun r => { r with model, priceVersion, rates, durationMicrousdPerSecond } }

end UsageMeter

/-! ## Next to the account -/

/-- A reservation as it was admitted, by every name it has had, with the costs charged for it. -/
structure Booking where
  name : String
  former : List String := []
  day : String
  estimate : Nat
  charges : List Nat := []
  unknown : Bool := false
deriving DecidableEq

namespace Booking

def names (b : Booking) : List String := b.name :: b.former

/-- What it counts for: the charge, before that the estimate. -/
def amount (b : Booking) : Nat := b.charges.headD b.estimate

end Booking

inductive UsageCall where
  | reserveAt (id day phase : String) (estimateMicrousd limitMicrousd nowMs : Nat)
  | settle (id : String) (usage : TokenUsage) (rates : Rates) (wallMs : Nat)
  | settleDuration (id : String) (seconds : Float) (wallMs : Nat)
  | markUnknown (id : String)
  | associateResponse (requestId responseId : String)
  | compact (nowMs : Nat) (force : Bool)
  | price (id model priceVersion : String) (rates : Rates) (durationMicrousdPerSecond : Nat)

inductive UsageAnswer where
  | admitted (result : Except String Unit)
  | settled (result : Except String Bool)
  | marked (result : Except String Unit)
  | associated (result : Except String Unit)
  | compacted (result : Except String Nat)
  | priced

def UsageAnswer.failed : UsageAnswer → Bool
  | .admitted (.error _) | .settled (.error _) | .marked (.error _) | .associated (.error _) | .compacted (.error _) => true
  | _ => false

structure UsageWorld where
  meter : UsageMeter
  bookings : List Booking

def UsageWorld.initial : UsageWorld := { meter := UsageMeter.default, bookings := [] }

/-- A receipt accepted under an id is charged to the reservation that has, or once had, that name. -/
def charge (id : String) (cost : Nat) (bookings : List Booking) : List Booking :=
  bookings.map fun b => if id ∈ b.names then { b with charges := cost :: b.charges, unknown := false } else b

def UsageWorld.step (w : UsageWorld) : UsageCall → UsageWorld × UsageAnswer
  | .reserveAt id day phase estimate limit nowMs =>
    let (meter, result) := w.meter.reserveAt id day phase estimate limit nowMs
    let bookings := match result with
      | .ok () => w.bookings ++ [{ name := id, day := day, estimate := estimate }]
      | .error _ => w.bookings
    ({ meter, bookings }, .admitted result)
  | .settle id usage rates wallMs =>
    let (meter, ok) := w.meter.settle id usage rates wallMs
    ({ meter, bookings := if ok then charge id (usage.costMicrousd rates) w.bookings else w.bookings }, .settled (.ok ok))
  | .settleDuration id seconds wallMs =>
    let (meter, result) := w.meter.settleDuration id seconds wallMs
    let cost := ((w.meter.records.get? id).bind fun r => UsageMeter.durationCost seconds r.durationMicrousdPerSecond).getD 0
    let bookings := match result with
      | .ok true => charge id cost w.bookings
      | _ => w.bookings
    ({ meter, bookings }, .settled result)
  | .markUnknown id =>
    let (meter, result) := w.meter.markUnknown id
    let bookings := match result with
      | .ok () => w.bookings.map fun b => if id ∈ b.names ∧ b.charges = [] then { b with unknown := true } else b
      | .error _ => w.bookings
    ({ meter, bookings }, .marked result)
  | .associateResponse requestId responseId =>
    let (meter, result) := w.meter.associateResponse requestId responseId
    let bookings := match result with
      | .ok () => w.bookings.map fun b =>
        if b.name = requestId ∧ requestId ≠ responseId then { b with name := responseId, former := b.names } else b
      | .error _ => w.bookings
    ({ meter, bookings }, .associated result)
  | .compact nowMs force =>
    let (meter, result) := w.meter.compact nowMs force
    ({ w with meter }, .compacted result)
  | .price id model priceVersion rates durationMicrousdPerSecond =>
    ({ w with meter := w.meter.price id model priceVersion rates durationMicrousdPerSecond }, .priced)

/-- A name once accepted is not accepted for another reservation. -/
def FreshName (w : UsageWorld) : UsageCall → Prop
  | .reserveAt id .. => ∀ b ∈ w.bookings, id ∉ b.names
  | .associateResponse requestId responseId => requestId = responseId ∨ ∀ b ∈ w.bookings, responseId ∉ b.names
  | _ => True

end Jwm.Eva
