/-
The history file as compact JSON, and why it stays within the size the loader accepts: texts are short and hold no
control characters, keys are short, and there are few of each.
-/
import Jwm.Data.JsonCode
import Jwm.Features.NotificationFlow

namespace Jwm.Features

open JsonCode
open List

/-! ## The format -/

def actionCode : PrefixCode NotificationAction :=
  (((string.preceded "\x7b\"key\":".toList).followedBy ",\"label\":".toList).pair (string.followedBy "\x7d".toList)).via
    (fun a => (a.key, a.label)) (fun (key, label) => some { key, label }) fun _ => rfl

theorem actionCode_head (a : NotificationAction) : ∃ x rest, actionCode.encode a = x :: rest ∧ x ≠ ']' :=
  ⟨'\x7b', _, rfl, by decide⟩

def actionsCode : PrefixCode (List NotificationAction) :=
  actionCode.list '[' ',' ']' (by decide) actionCode_head

def numberField (name : List Char) : PrefixCode Nat := (number ',' (by decide)).preceded name

def stringField (name : List Char) : PrefixCode String := (string.preceded name).followedBy [',']

def boolField (name : List Char) : PrefixCode Bool := (bool.preceded name).followedBy [',']

/-- The fields of a record, the identifier and the texts first. -/
def textsCode : PrefixCode (Nat × String × String × String) :=
  (numberField "\x7b\"id\":".toList).pair ((stringField "\"app\":".toList).pair
    ((stringField "\"summary\":".toList).pair (stringField "\"body\":".toList)))

def detailsCode : PrefixCode (Nat × Nat × Bool × List NotificationAction) :=
  (numberField "\"urgency\":".toList).pair ((numberField "\"posted_unix_ms\":".toList).pair
    ((boolField "\"suppressed\":".toList).pair ((actionsCode.preceded "\"actions\":".toList).followedBy "\x7d".toList)))

def recordCode : PrefixCode NotificationRecord :=
  (textsCode.pair detailsCode).via
    (fun r => ((r.id.toNat, r.app, r.summary, r.body), r.urgency.toNat, r.postedUnixMs.toNat, r.suppressed, r.actions))
    (fun ((id, app, summary, body), urgency, postedUnixMs, suppressed, actions) =>
      some { id := UInt32.ofNat id, app, summary, body, urgency := UInt8.ofNat urgency
             postedUnixMs := UInt64.ofNat postedUnixMs, suppressed, actions })
    fun r => by
      dsimp only
      rw [UInt32.ofNat_toNat, UInt8.ofNat_toNat, UInt64.ofNat_toNat]

theorem recordCode_head (r : NotificationRecord) : ∃ x rest, recordCode.encode r = x :: rest ∧ x ≠ ']' :=
  ⟨'\x7b', _, rfl, by decide⟩

def historyCode : PrefixCode HistoryFile :=
  ((numberField "\x7b\"version\":".toList).pair ((numberField "\"next_id\":".toList).pair
    (((recordCode.list '[' ',' ']' (by decide) recordCode_head).preceded "\"notifications\":".toList).followedBy
      "\x7d".toList))).via
    (fun file => (file.version.toNat, file.nextId.toNat, file.notifications))
    (fun (version, nextId, notifications) =>
      some { version := UInt32.ofNat version, nextId := UInt32.ofNat nextId, notifications })
    fun file => by
      dsimp only
      rw [UInt32.ofNat_toNat, UInt32.ofNat_toNat]

/-- A codec that writes compact JSON, and reads what it wrote. -/
structure HistoryCodec.Lawful (codec : HistoryCodec) : Prop where
  writes : ∀ file, codec.toString file = some (String.ofList (historyCode.encode file))
  reads : ∀ file text, codec.toString file = some text → codec.fromStr text = some file

def compactCodec : HistoryCodec where
  toString file := some (String.ofList (historyCode.encode file))
  fromStr text := (historyCode.decode text.toList).map Prod.fst

theorem compactCodec_lawful : compactCodec.Lawful where
  writes _ := rfl
  reads file text h := by
    cases h
    have hdecode := historyCode.decode_encode file []
    rw [append_nil] at hdecode
    show (historyCode.decode _).map _ = _
    rw [String.toList_ofList, hdecode, Option.map_some]

/-! ## Its size -/

theorem bytes_stringField (name : List Char) {s : String} {k : Nat} (h : bytes (string.encode s) ≤ k) :
    bytes ((stringField name).encode s) ≤ bytes name + k + 1 := by
  show bytes ((name ++ string.encode s) ++ [',']) ≤ _
  rw [bytes_append, bytes_append]
  have hcomma : bytes [','] = 1 := rfl
  omega

theorem bytes_numberField (name : List Char) {n k : Nat} (hk : 0 < k) (h : n < 10 ^ k) :
    bytes ((numberField name).encode n) ≤ bytes name + k + 1 := by
  show bytes (name ++ (number ',' _).encode n) ≤ _
  rw [bytes_append]
  have hnumber := @bytes_number ',' (by decide) rfl n k hk h
  omega

theorem Clean.bytes {limit : Nat} {s : String} (h : Clean limit s.toList) : JsonCode.bytes (string.encode s) ≤ limit * 4 + 2 := by
  refine bytes_string h.length fun c hc => (bytes_escape c).2 ?_
  have hprint := h.printable c hc
  unfold isControl at hprint
  rw [Bool.or_eq_false_iff, decide_eq_false_iff_not] at hprint
  exact Nat.not_lt.1 hprint.1

theorem KeptAction.bytes {a : NotificationAction} (h : KeptAction a) : JsonCode.bytes (actionCode.encode a) ≤ 490 := by
  have husable := h.usable
  unfold actionKeyIsUsable at husable
  rw [Bool.and_eq_true, decide_eq_true_eq] at husable
  have hkey := bytes_string husable.2 fun c _ => (bytes_escape c).1
  have hlabel := h.clean.bytes
  show JsonCode.bytes ((("\x7b\"key\":".toList ++ string.encode a.key) ++ ",\"label\":".toList) ++
    (string.encode a.label ++ "\x7d".toList)) ≤ _
  simp only [bytes_append]
  have h₁ : JsonCode.bytes "\x7b\"key\":".toList = 7 := by decide
  have h₂ : JsonCode.bytes ",\"label\":".toList = 9 := by decide
  have h₃ : JsonCode.bytes "\x7d".toList = 1 := by decide
  unfold maxActionKeyChars at hkey
  unfold maxLabelChars at hlabel
  omega

theorem bytes_actions {actions : List NotificationAction} (hcount : actions.length ≤ maxActions)
    (h : ∀ a ∈ actions, KeptAction a) : bytes (actionsCode.encode actions) ≤ 2948 := by
  have hcounts : actions.length * (490 + 1) + 2 ≤ 2948 := by
    unfold maxActions at hcount
    omega
  exact Nat.le_trans (@bytes_list _ _ (by decide) actionCode_head actions _ fun a ha => (h a ha).bytes) hcounts

theorem KeptRecord.bytes {r : NotificationRecord} (h : KeptRecord r) :
    JsonCode.bytes (recordCode.encode r) ≤ maxHistoryRecordBytes - 1 := by
  have hid : r.id.toNat < 10 ^ 10 := Nat.lt_trans r.id.toNat_lt (by decide)
  have hurgency : r.urgency.toNat < 10 ^ 1 := Nat.lt_of_le_of_lt (UInt8.le_iff_toNat_le.1 h.urgency) (by decide)
  have hposted : r.postedUnixMs.toNat < 10 ^ 20 := Nat.lt_trans r.postedUnixMs.toNat_lt (by decide)
  have h₁ := bytes_numberField "\x7b\"id\":".toList (by decide) hid
  have h₂ := bytes_stringField "\"app\":".toList h.app.bytes
  have h₃ := bytes_stringField "\"summary\":".toList h.summary.bytes
  have h₄ := bytes_stringField "\"body\":".toList h.body.bytes
  have h₅ := bytes_numberField "\"urgency\":".toList (by decide) hurgency
  have h₆ := bytes_numberField "\"posted_unix_ms\":".toList (by decide) hposted
  have h₇ := bytes_bool r.suppressed
  have h₈ := bytes_actions h.count h.actions
  have n₁ : JsonCode.bytes "\x7b\"id\":".toList = 6 := by decide
  have n₂ : JsonCode.bytes "\"app\":".toList = 6 := by decide
  have n₃ : JsonCode.bytes "\"summary\":".toList = 10 := by decide
  have n₄ : JsonCode.bytes "\"body\":".toList = 7 := by decide
  have n₅ : JsonCode.bytes "\"urgency\":".toList = 10 := by decide
  have n₆ : JsonCode.bytes "\"posted_unix_ms\":".toList = 17 := by decide
  have n₇ : JsonCode.bytes "\"suppressed\":".toList = 13 := by decide
  have n₈ : JsonCode.bytes "\"actions\":".toList = 10 := by decide
  have comma : JsonCode.bytes [','] = 1 := rfl
  have close : JsonCode.bytes "\x7d".toList = 1 := by decide
  have hsplit : recordCode.encode r =
      ((numberField "\x7b\"id\":".toList).encode r.id.toNat ++ ((stringField "\"app\":".toList).encode r.app ++
        ((stringField "\"summary\":".toList).encode r.summary ++ (stringField "\"body\":".toList).encode r.body))) ++
      ((numberField "\"urgency\":".toList).encode r.urgency.toNat ++
        ((numberField "\"posted_unix_ms\":".toList).encode r.postedUnixMs.toNat ++
          ((("\"suppressed\":".toList ++ bool.encode r.suppressed) ++ [',']) ++
            (("\"actions\":".toList ++ actionsCode.encode r.actions) ++ "\x7d".toList)))) := rfl
  rw [hsplit]
  simp only [bytes_append]
  unfold maxTextChars at *
  unfold maxHistoryRecordBytes
  omega

theorem bytes_history {file : HistoryFile} (hcount : file.notifications.length ≤ maxHistory)
    (h : ∀ r ∈ file.notifications, KeptRecord r) : bytes (historyCode.encode file) ≤ maxHistoryBytes := by
  have hversion : file.version.toNat < 10 ^ 10 := Nat.lt_trans file.version.toNat_lt (by decide)
  have hnext : file.nextId.toNat < 10 ^ 10 := Nat.lt_trans file.nextId.toNat_lt (by decide)
  have h₁ := bytes_numberField "\x7b\"version\":".toList (by decide) hversion
  have h₂ := bytes_numberField "\"next_id\":".toList (by decide) hnext
  have h₃ := @bytes_list _ _ (by decide) recordCode_head file.notifications _ fun r hr => (h r hr).bytes
  have hmul : file.notifications.length * (maxHistoryRecordBytes - 1 + 1) ≤ maxHistory * (maxHistoryRecordBytes - 1 + 1) :=
    Nat.mul_le_mul_right _ hcount
  have n₁ : bytes "\x7b\"version\":".toList = 11 := by decide
  have n₂ : bytes "\"next_id\":".toList = 10 := by decide
  have n₃ : bytes "\"notifications\":".toList = 16 := by decide
  have close : bytes "\x7d".toList = 1 := by decide
  have hsplit : historyCode.encode file = (numberField "\x7b\"version\":".toList).encode file.version.toNat ++
      ((numberField "\"next_id\":".toList).encode file.nextId.toNat ++ (("\"notifications\":".toList ++
        (recordCode.list '[' ',' ']' (by decide) recordCode_head).encode file.notifications) ++ "\x7d".toList)) := rfl
  rw [hsplit]
  simp only [bytes_append]
  unfold maxHistoryBytes maxHistory maxHistoryRecordBytes at *
  omega

/-! ## A restart -/

theorem restoreRecord_kept : ∀ {records : List NotificationRecord} {nextId : UInt32} {done : List NotificationRecord},
    ((done ++ records).map NotificationRecord.id).Nodup → (∀ r ∈ records, KeptRecord r ∧ r.id ≠ 0 ∧ r.id ≤ nextId) →
    records.foldl restoreRecord (nextId, done) = (nextId, done ++ records)
  | [], nextId, done, _, _ => by rw [foldl_nil, append_nil]
  | r :: records, nextId, done, hnodup, h => by
    obtain ⟨hkept, hzero, hle⟩ := h r mem_cons_self
    have hother : done.filter (fun existing => existing.id ≠ r.id) = done := by
      refine filter_eq_self.2 fun existing hexisting => decide_eq_true fun hsame => ?_
      rw [map_append, nodup_append] at hnodup
      exact hnodup.2.2 existing.id (mem_map_of_mem hexisting) r.id (mem_map_of_mem mem_cons_self) hsame
    have hmax : max nextId r.id = nextId := by
      show (if nextId ≤ r.id then r.id else nextId) = nextId
      split
      · rename_i hge
        exact UInt32.le_antisymm hle hge
      · rfl
    have hstep : restoreRecord (nextId, done) r = (nextId, done ++ [r]) := by
      unfold restoreRecord
      rw [if_neg hzero]
      rw [hmax, hother, hkept.restored]
    rw [foldl_cons, hstep, restoreRecord_kept (by rwa [append_assoc]) fun r' hr' => h r' (mem_cons_of_mem _ hr'),
      append_assoc, singleton_append]

variable {codec : HistoryCodec} {c : NotificationCenter}

theorem serializeHistory_eq (hcodec : codec.Lawful) (h : Tidy c) : serializeHistory codec c.records c.nextId =
      String.ofList (historyCode.encode
        { version := historyFileVersion, nextId := c.nextId, notifications := c.records }) := by
  unfold serializeHistory
  dsimp only
  rw [Nat.sub_eq_zero_of_le h.length, drop_zero, hcodec.writes, Option.getD_some]

theorem parseHistory_serializeHistory (hcodec : codec.Lawful) (h : Tidy c) :
    parseHistory codec (serializeHistory codec c.records c.nextId) = some c := by
  have hread := hcodec.reads _ _ (hcodec.writes { version := historyFileVersion, nextId := c.nextId
                                                  notifications := c.records })
  have hnodup : (([] ++ c.records).map NotificationRecord.id).Nodup := h.nodup
  rw [serializeHistory_eq hcodec h]
  unfold parseHistory
  rw [hread]
  dsimp only
  rw [if_neg fun hversion => hversion rfl, Nat.sub_eq_zero_of_le h.length, drop_zero,
    restoreRecord_kept hnodup fun r hr => ⟨h.kept r hr, h.ne_zero _ (mem_map_of_mem hr), h.le _ (mem_map_of_mem hr)⟩]
  have hevicted := h.evicted
  obtain ⟨records, nextId, evicted⟩ := c
  cases hevicted
  rfl

theorem serializeHistory_size (hcodec : codec.Lawful) (h : Tidy c) :
    (serializeHistory codec c.records c.nextId).utf8ByteSize ≤ maxHistoryBytes := by
  rw [serializeHistory_eq hcodec h, JsonCode.utf8ByteSize_ofList]
  exact bytes_history h.length h.kept

end Jwm.Features
