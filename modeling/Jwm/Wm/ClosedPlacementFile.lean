/-
The file of the closed placements (`jwm/closed_placement.rs`): what the loader takes, its text, and the runs of a memory that is saved
and loaded again.
-/
import Jwm.Data.JsonCode
import Jwm.Wm.ClosedPlacement

namespace Jwm

open List ClosedPlacementMemory PlacementOp

section

variable {history : List (PlacementIdentity × RememberedPlacement)} {m : ClosedPlacementMemory} {identity : PlacementIdentity}

/-! ## Saving and loading -/

/-- What the loader takes an entry for. -/
structure EntryFits (entry : ClosedPlacementEntry) : Prop where
  named : (entry.class == "" && entry.instance == "") = false
  texts : entry.class.utf8ByteSize ≤ maxIdentityFieldBytes ∧ entry.instance.utf8ByteSize ≤ maxIdentityFieldBytes
  connector : ∀ connector, entry.connector = some connector → connector.utf8ByteSize ≤ maxIdentityFieldBytes
  tagged : entry.tags ≠ 0

namespace ClosedPlacementSnapshot

theorem validateEntries_eq_ok : ∀ (entries : List ClosedPlacementEntry) (index : Nat) (seen : List PlacementIdentity),
    validateEntries index seen entries = .ok () ↔
      (∀ entry ∈ entries, EntryFits entry ∧ entry.identity ∉ seen) ∧ (entries.map (·.identity)).Nodup
  | [], _, _ => by simp [validateEntries]
  | entry :: rest, index, seen => by
    rw [validateEntries, map_cons, nodup_cons]
    have hrest := validateEntries_eq_ok rest (index + 1) (entry.identity :: seen)
    split
    · rename_i h
      constructor
      · rintro ⟨⟩
      · rintro ⟨hall, -⟩
        have hnamed := (hall entry (mem_cons_self ..)).1.named
        rw [h] at hnamed
        cases hnamed
    split
    · rename_i h
      constructor
      · rintro ⟨⟩
      · rintro ⟨hall, -⟩
        have htexts := (hall entry (mem_cons_self ..)).1.texts
        rw [Bool.or_eq_true, decide_eq_true_eq, decide_eq_true_eq] at h
        omega
    split
    · rename_i h
      obtain ⟨connector, hconnector, hsize⟩ := (Option.any_eq_true _ _).1 h
      constructor
      · rintro ⟨⟩
      · rintro ⟨hall, -⟩
        have hfits := (hall entry (mem_cons_self ..)).1.connector connector hconnector
        rw [decide_eq_true_eq] at hsize
        omega
    split
    · rename_i h
      constructor
      · rintro ⟨⟩
      · rintro ⟨hall, -⟩
        exact absurd (beq_iff_eq.1 h) (hall entry (mem_cons_self ..)).1.tagged
    split
    · rename_i h
      constructor
      · rintro ⟨⟩
      · rintro ⟨hall, -⟩
        exact absurd (contains_iff_mem.1 h) (hall entry (mem_cons_self ..)).2
    · rename_i hnamed htexts hconnector htags hseen
      rw [hrest]
      have hentry : EntryFits entry := by
        constructor
        · exact Bool.eq_false_iff.2 hnamed
        · rw [Bool.or_eq_true, decide_eq_true_eq, decide_eq_true_eq] at htexts
          omega
        · intro connector hsome
          rw [Option.any_eq_true] at hconnector
          by_contra hsize
          exact hconnector ⟨connector, hsome, decide_eq_true (by omega)⟩
        · exact fun h => htags (beq_iff_eq.2 h)
      rw [contains_iff_mem] at hseen
      constructor
      · rintro ⟨hall, hnodup⟩
        refine ⟨?_, fun hmem => ?_, hnodup⟩
        · rintro other (_ | ⟨_, hother⟩)
          · exact ⟨hentry, hseen⟩
          · exact ⟨(hall other hother).1, fun h => (hall other hother).2 (mem_cons_of_mem _ h)⟩
        · obtain ⟨other, hother, heq⟩ := List.mem_map.1 hmem
          exact (hall other hother).2 (heq ▸ mem_cons_self ..)
      · rintro ⟨hall, hnew, hnodup⟩
        refine ⟨fun other hother => ⟨(hall other (mem_cons_of_mem _ hother)).1, ?_⟩, hnodup⟩
        intro hmem
        rcases mem_cons.1 hmem with heq | hmem
        · exact hnew (heq ▸ List.mem_map_of_mem hother)
        · exact (hall other (mem_cons_of_mem _ hother)).2 hmem

theorem validate_eq_ok (snapshot : ClosedPlacementSnapshot) (hversion : snapshot.version = closedPlacementVersion) :
    snapshot.validate = .ok () ↔ snapshot.placements.length ≤ maxRememberedPlacements ∧
      (∀ entry ∈ snapshot.placements, EntryFits entry) ∧ (snapshot.placements.map (·.identity)).Nodup := by
  unfold validate
  rw [hversion, if_neg (by decide)]
  split
  · rename_i h
    constructor
    · rintro ⟨⟩
    · rintro ⟨hlength, -⟩
      omega
  · rename_i h
    rw [validateEntries_eq_ok]
    constructor
    · rintro ⟨hall, hnodup⟩
      exact ⟨Nat.le_of_not_lt h, fun entry hentry => (hall entry hentry).1, hnodup⟩
    · rintro ⟨-, hall, hnodup⟩
      exact ⟨fun entry hentry => ⟨hall entry hentry, not_mem_nil⟩, hnodup⟩

end ClosedPlacementSnapshot

/-- An entry of the snapshot fits when its texts do; the rest is as `remember` made it. -/
theorem entryFits_iff {e : PlacementIdentity × RememberedPlacement} (hmade : WellMade e) :
    EntryFits (entryOfPlacement e) ↔ FieldsFit e.1 e.2 := by
  constructor
  · intro h
    exact ⟨h.texts.1, h.texts.2, h.connector⟩
  · intro h
    exact ⟨hmade.named, ⟨h.class, h.instance⟩, h.connector, hmade.tagged⟩

open ClosedPlacementSnapshot

theorem fromMemory_perm (m : ClosedPlacementMemory) :
    (fromMemory m).placements.Perm (m.byIdentity.entries.map entryOfPlacement) :=
  sortByKey_perm _ _

theorem validate_fromMemory (hordered : InCloseOrder history) (h : Remembers history m) :
    (fromMemory m).validate = .ok () ↔
      ∀ identity placement, m.lookup identity = some placement → FieldsFit identity placement := by
  have hperm : (fromMemory m).placements.Perm ((recent maxRememberedPlacements history).map entryOfPlacement) :=
    (fromMemory_perm m).trans (h.perm.map _)
  have hmade : ∀ e ∈ recent maxRememberedPlacements history, WellMade e :=
    fun e he => hordered.wellMade e ((recent_sublist _ _).subset he)
  have hidentities : ((recent maxRememberedPlacements history).map entryOfPlacement).map (·.identity) =
      (recent maxRememberedPlacements history).map Prod.fst := by
    rw [List.map_map]
    rfl
  rw [validate_eq_ok _ rfl]
  constructor
  · rintro ⟨-, hall, -⟩ identity placement hlookup
    have hmem := h.mem_iff.1 hlookup
    exact (entryFits_iff (hmade _ hmem)).1 (hall _ (hperm.mem_iff.2 (List.mem_map_of_mem hmem)))
  · intro hall
    refine ⟨?_, fun entry hentry => ?_, ?_⟩
    · rw [hperm.length_eq, length_map]
      exact length_recent_le _ _
    · obtain ⟨e, he, rfl⟩ := List.mem_map.1 (hperm.mem_iff.1 hentry)
      exact (entryFits_iff (hmade e he)).2 (hall e.1 e.2 (h.mem_iff.2 he))
    · rw [(hperm.map _).nodup_iff, hidentities]
      exact recent_nodup _ _

theorem foldl_max_eq {l : List ClosedPlacementEntry} {n : Nat} : ∀ {start : Nat}, start ≤ n →
    (∀ entry ∈ l, nextSeqAfter entry.seq ≤ n) → (start = n ∨ ∃ entry ∈ l, nextSeqAfter entry.seq = n) →
    l.foldl (fun next entry => max next (nextSeqAfter entry.seq)) start = n := by
  induction l with
  | nil =>
    rintro start - - (h | ⟨entry, hentry, -⟩)
    · exact h
    · cases hentry
  | cons entry rest ih =>
    intro start hstart hall hreach
    have hentry := hall entry (mem_cons_self ..)
    refine ih (max_le hstart hentry) (fun other hother => hall other (mem_cons_of_mem _ hother)) ?_
    rcases hreach with rfl | ⟨other, hother, hn⟩
    · exact .inl (max_eq_left hentry)
    · rcases mem_cons.1 hother with rfl | hother
      · left
        dsimp only
        rw [hn, max_eq_right hstart]
      · exact .inr ⟨other, hother, hn⟩

/-- What is loaded remembers what was saved, whatever order the file lists it in. -/
theorem remembers_intoMemory (hordered : InCloseOrder history) (hfew : history.length < 2 ^ 64 - 1)
    {snapshot : ClosedPlacementSnapshot} (hvalid : snapshot.validate = .ok ())
    (hperm : snapshot.placements.Perm ((recent maxRememberedPlacements history).map entryOfPlacement)) :
    ∃ memory, snapshot.intoMemory = .ok memory ∧ Remembers history memory := by
  unfold intoMemory
  rw [hvalid]
  refine ⟨_, rfl, ?_, ?_⟩
  · intro identity
    have hentries : (snapshot.placements.map fun entry => (entry.identity, placementOfEntry entry)).Perm
        (recent maxRememberedPlacements history) := by
      refine (hperm.map _).trans (.of_eq ?_)
      rw [List.map_map]
      refine (map_congr_left fun e he => ?_).trans (map_id _)
      have hconnector := (hordered.wellMade e ((recent_sublist _ _).subset he)).connector
      unfold Function.comp ClosedPlacementEntry.identity placementOfEntry entryOfPlacement
      dsimp only
      rw [hconnector]
      rfl
    have hnodup : ((snapshot.placements.map fun entry => (entry.identity, placementOfEntry entry)).map
        Prod.fst).Nodup := (hentries.map Prod.fst).nodup_iff.2 (recent_nodup _ _)
    have hfold : snapshot.placements.foldl
        (fun m entry => m.insert entry.identity (placementOfEntry entry)) (.empty : KeyMap _ _) =
        KeyMap.empty.extend (snapshot.placements.map fun entry => (entry.identity, placementOfEntry entry)) := by
      unfold KeyMap.extend
      rw [foldl_map]
    refine Option.ext fun placement => ?_
    rw [hfold, KeyMap.get?_extend _ _ hnodup, hentries.mem_iff, KeyMap.get?_empty, KeyMap.get?_eq_some]
    unfold recentMap
    simp
  · have hseq : ∀ e ∈ history, nextSeqAfter (entryOfPlacement e).seq = e.2.closedSeq + 1 := by
      intro e he
      have hbelow := hordered.below e he
      unfold nextSeqAfter entryOfPlacement
      dsimp only
      exact Nat.min_eq_left (by omega)
    refine foldl_max_eq (Nat.zero_le _) (fun entry hentry => ?_) ?_
    · obtain ⟨e, he, rfl⟩ := List.mem_map.1 (hperm.mem_iff.1 hentry)
      have hmem := (recent_sublist _ _).subset he
      rw [hseq e hmem]
      exact hordered.below e hmem
    · rcases hhistory : history with _ | ⟨newest, older⟩
      · exact .inl rfl
      · right
        have hnewest := hordered.newest newest (by rw [hhistory]; rfl)
        refine ⟨entryOfPlacement newest, hperm.mem_iff.2 (List.mem_map_of_mem ?_), ?_⟩
        · rw [hhistory]
          exact mem_cons_self ..
        · rw [hseq newest (by rw [hhistory]; exact mem_cons_self ..), hnewest, hhistory]

variable {json : PlacementJson}

/-- What a next process reads is the snapshot, which is checked before it becomes a memory. -/
theorem loadFromPath_saveToPath (hjson : json.RoundTrips) (before : Option String)
    (hsize : ∀ text, json.toJson (.fromMemory m) = .ok text → text.utf8ByteSize ≤ maxClosedPlacementBytes) :
    (∀ memory, (fromMemory m).intoMemory = .ok memory →
      loadFromPath json (m.saveToPath json before) = memory) ∧
    ∀ error, (fromMemory m).validate = .error error →
      loadFromPath json (m.saveToPath json before) = .initial := by
  obtain ⟨text, htext, hback⟩ := hjson (.fromMemory m)
  have hfits := hsize text htext
  have hsave : m.saveToPath json before = some text := by
    have hwrite : atomicWrite text = .ok text := if_neg (by omega)
    unfold saveToPath
    rw [htext]
    dsimp only
    rw [hwrite]
  rw [hsave]
  unfold loadFromPath loadSnapshot
  dsimp only
  rw [if_neg (by omega), hback]
  constructor
  · intro memory hmemory
    rcases hvalid : (fromMemory m).validate with error | ⟨⟩
    · unfold intoMemory at hmemory
      rw [hvalid] at hmemory
      cases hmemory
    · simp [hvalid, hmemory, bind, Except.bind, pure, Except.pure]
  · intro error herror
    simp [herror, bind, Except.bind]

theorem saveThenLoad_spec (hjson : json.RoundTrips) (hordered : InCloseOrder history)
    (h : Remembers history m) (hfew : history.length < 2 ^ 64 - 1) (before : Option String)
    (hsize : ∀ text, json.toJson (.fromMemory m) = .ok text → text.utf8ByteSize ≤ maxClosedPlacementBytes)
    (hfields : ∀ identity placement, m.lookup identity = some placement → FieldsFit identity placement) :
    Remembers history (.loadFromPath json (m.saveToPath json before)) := by
  obtain ⟨memory, hload, hremembers⟩ := remembers_intoMemory hordered hfew ((validate_fromMemory hordered h).2 hfields)
    ((fromMemory_perm m).trans (h.perm.map _))
  rw [(loadFromPath_saveToPath hjson before hsize).1 memory hload]
  exact hremembers

theorem saveThenLoad_lost (hjson : json.RoundTrips) (hordered : InCloseOrder history)
    (h : Remembers history m) (before : Option String)
    (hsize : ∀ text, json.toJson (.fromMemory m) = .ok text → text.utf8ByteSize ≤ maxClosedPlacementBytes)
    {placement : RememberedPlacement} (hlookup : m.lookup identity = some placement) (hlong : ¬ FieldsFit identity placement) :
    loadFromPath json (m.saveToPath json before) = .initial := by
  rcases hvalid : (fromMemory m).validate with error | ⟨⟩
  · exact (loadFromPath_saveToPath hjson before hsize).2 error hvalid
  · exact absurd ((validate_fromMemory hordered h).1 hvalid identity placement hlookup) hlong

end

/-! ## The text -/

open JsonCode in
/-- An entry as `serde_json` writes it; the connector is left out when there is none. -/
def placementEntryCode : PrefixCode ClosedPlacementEntry :=
  (((string.preceded "\x7b\"class\":".toList).followedBy ",\"instance\":".toList).pair
    ((string.followedBy ",\"monitor_num\":".toList).pair ((integer ',' JsonCode.comma_not_digit).pair
      ((PrefixCode.optional "\"connector\":".toList (string.followedBy [',']) "\"tags\":".toList fun _ => rfl).pair
        ((number ',' JsonCode.comma_not_digit).pair ((number '\x7d' JsonCode.brace_not_digit).preceded "\"seq\":".toList)))))).via
    (fun entry => (entry.class, entry.instance, entry.monitorNum, entry.connector, entry.tags.toNat, entry.seq))
    (fun (cls, inst, monitorNum, connector, tags, seq) =>
      some { «class» := cls, «instance» := inst, monitorNum, connector, tags := BitVec.ofNat 32 tags, seq })
    fun entry => by
      dsimp only
      rw [BitVec.ofNat_toNat, BitVec.setWidth_eq]

theorem placementEntryCode_head (entry : ClosedPlacementEntry) : ∃ x rest, placementEntryCode.encode entry = x :: rest ∧ x ≠ ']' :=
  ⟨'\x7b', _, rfl, by decide⟩

open JsonCode in
def placementSnapshotCode : PrefixCode ClosedPlacementSnapshot :=
  (((number ',' JsonCode.comma_not_digit).preceded "\x7b\"version\":".toList).pair
    (((placementEntryCode.list '[' ',' ']' JsonCode.comma_ne_bracket placementEntryCode_head).preceded "\"placements\":".toList).followedBy
      "\x7d".toList)).via
    (fun snapshot => (snapshot.version, snapshot.placements)) (fun (version, placements) => some { version, placements }) fun _ => rfl

def placementJson : PlacementJson where
  toJson snapshot := .ok (String.ofList (placementSnapshotCode.encode snapshot))
  fromJson text :=
    match placementSnapshotCode.decode text.toList with
    | some (snapshot, []) => .ok snapshot
    | _ => .error "trailing characters"

theorem placementJson_roundTrips : placementJson.RoundTrips := by
  intro snapshot
  have hdecode := placementSnapshotCode.decode_encode snapshot []
  rw [append_nil] at hdecode
  refine ⟨_, rfl, ?_⟩
  unfold placementJson
  dsimp only
  rw [String.toList_ofList, hdecode]

/-! ## Every run -/

/-- After every run whose saves are of entries that the loader takes, the memory holds the identities closed last. -/
theorem remembers_of_run {json : PlacementJson} (hjson : json.RoundTrips) {ops : List PlacementOp} {m : ClosedPlacementMemory}
    (hrun : PlacementRun json (fun op m => op.Storable json m ∧ op.Loadable m) ops m) (hfew : (closes ops).length < 2 ^ 64 - 1) :
    Remembers (closes ops) m := by
  induction hrun with
  | start => exact remembers_initial
  | @step ops m m' op hrun hsame hallowed ih =>
    cases op with
    | remember cls inst monitorNum connector tags =>
      rw [closes] at hfew ⊢
      dsimp only [apply]
      rcases hidentity : PlacementIdentity.new cls inst with _ | identity
      · rw [hidentity] at hfew
        exact (ih hfew).same hsame
      · rw [hidentity] at hfew
        dsimp only at hfew ⊢
        by_cases htags : (tags == 0) = true
        · rw [if_pos htags] at hfew ⊢
          rw [remember_untagged m' identity monitorNum connector htags]
          exact (ih hfew).same hsame
        · rw [if_neg htags] at hfew ⊢
          rw [length_cons] at hfew
          exact remember_spec (inCloseOrder_closes ops) ((ih (by omega)).same hsame) hfew monitorNum connector
            (Bool.eq_false_iff.2 htags)
    | clear => exact remembers_initial
    | saveThenLoad before =>
      exact saveThenLoad_spec hjson (inCloseOrder_closes ops) ((ih hfew).same hsame) hfew before (hallowed.1 rfl) (hallowed.2 rfl)

/-- The memory answers as the list of the identities closed last, over saves and loads, in every run that saves only entries
whose texts are no longer than the loader takes. -/
theorem closed_placements_recent {json : PlacementJson} (hjson : json.RoundTrips) {ops : List PlacementOp} {m : ClosedPlacementMemory}
    (hrun : PlacementRun json (fun op m => op.Storable json m ∧ op.Loadable m) ops m) (hfew : (closes ops).length < 2 ^ 64 - 1) :
    (∀ identity, m.lookup identity = (recentMap maxRememberedPlacements (closes ops)).get? identity) ∧
      ∀ ops' m', PlacementRun json (fun op m => op.Storable json m ∧ op.Loadable m) ops' m' →
        ops'.filter (·.keepsHistory) = ops.filter (·.keepsHistory) → ∀ identity, m'.lookup identity = m.lookup identity := by
  have hremembers := remembers_of_run hjson hrun hfew
  constructor
  · exact hremembers.get?
  · intro ops' m' hrun' hops identity
    have hcloses : closes ops' = closes ops := by
      rw [← closes_filter ops', hops, closes_filter]
    have hremembers' := remembers_of_run hjson hrun' (by rw [hcloses]; exact hfew)
    rw [hcloses] at hremembers'
    exact (hremembers'.get? identity).trans (hremembers.get? identity).symm

namespace Sample

/-- A window of this class, closed on the first tag of an output. -/
def closed (cls : String) : PlacementOp := .remember cls "" 0 (some "DP-1") 1

def closedEntry (cls : String) : ClosedPlacementEntry := ⟨cls, "", 0, some "DP-1", 1, 0⟩

variable {cls : String}

theorem new_closed (h : cls ≠ "") : PlacementIdentity.new cls "" = some ⟨cls, ""⟩ := by
  unfold PlacementIdentity.new
  rw [beq_eq_false_iff_ne.2 h]
  rfl

theorem fromMemory_closed (h : cls ≠ "") :
    ClosedPlacementSnapshot.fromMemory ((closed cls).apply placementJson .initial) = { version := 2, placements := [closedEntry cls] } := by
  unfold closed
  dsimp only [apply]
  rw [new_closed h]
  have hentries : (initial.remember ⟨cls, ""⟩ 0 (some "DP-1") 1).1.byIdentity.entries.map entryOfPlacement =
      [closedEntry cls] := rfl
  unfold ClosedPlacementSnapshot.fromMemory
  rw [hentries]
  unfold sortByKey
  rw [mergeSort_singleton]
  rfl

def closedEntryTail : List Char :=
  (JsonCode.string.encode "" ++ ",\"monitor_num\":".toList) ++ ((JsonCode.integer ',' JsonCode.comma_not_digit).encode 0 ++
    ("\"connector\":\"DP-1\",\"tags\":".toList ++ ((JsonCode.number ',' JsonCode.comma_not_digit).encode 1 ++
      ("\"seq\":".toList ++ (JsonCode.number '\x7d' JsonCode.brace_not_digit).encode 0))))

theorem bytes_closed {n : Nat} (hlength : cls.toList.length ≤ n) :
    JsonCode.bytes (placementSnapshotCode.encode { version := 2, placements := [closedEntry cls] }) ≤ n * 6 + 200 := by
  have hentry : placementEntryCode.encode (closedEntry cls) =
      (("\x7b\"class\":".toList ++ JsonCode.string.encode cls) ++ ",\"instance\":".toList) ++ closedEntryTail := rfl
  have hsplit : placementSnapshotCode.encode { version := 2, placements := [closedEntry cls] } =
      ("\x7b\"version\":".toList ++ (JsonCode.number ',' JsonCode.comma_not_digit).encode 2) ++
        (("\"placements\":".toList ++ ('[' :: placementEntryCode.encode (closedEntry cls) ++ [']'])) ++ "\x7d".toList) := rfl
  have hcls := JsonCode.bytes_string hlength fun c _ => (JsonCode.bytes_escape c).1
  have hfront : JsonCode.bytes ("\x7b\"version\":".toList ++ (JsonCode.number ',' JsonCode.comma_not_digit).encode 2) ≤ 20 := by decide
  have hname : JsonCode.bytes "\"placements\":".toList ≤ 20 := by decide
  have hclass : JsonCode.bytes "\x7b\"class\":".toList ≤ 20 := by decide
  have hinstance : JsonCode.bytes ",\"instance\":".toList ≤ 20 := by decide
  have htail : JsonCode.bytes closedEntryTail ≤ 80 := by decide
  have hopening : ('[').utf8Size ≤ 1 := by decide
  have hclosing : JsonCode.bytes [']'] ≤ 1 := by decide
  have hbrace : JsonCode.bytes "\x7d".toList ≤ 1 := by decide
  rw [hsplit, hentry]
  simp only [JsonCode.bytes_append, JsonCode.bytes_cons] at hfront hclosing ⊢
  omega

theorem storable_closed (h : cls ≠ "") (hlength : cls.toList.length ≤ 65537) (op : PlacementOp) :
    op.Storable placementJson ((closed cls).apply placementJson .initial) := by
  intro _ text htext
  rw [fromMemory_closed h] at htext
  obtain rfl := Except.ok.inj htext
  rw [JsonCode.utf8ByteSize_ofList]
  exact (bytes_closed hlength).trans (by decide)

theorem exists_long (n : Nat) : ∃ cls : String, cls.utf8ByteSize = n ∧ cls.toList.length ≤ n := by
  refine ⟨String.ofList (replicate n 'a'), ?_, ?_⟩
  · have hsize : ('a').utf8Size = 1 := rfl
    rw [JsonCode.utf8ByteSize_ofList]
    unfold JsonCode.bytes
    rw [map_replicate, sum_replicate_nat, hsize, Nat.mul_one]
  · rw [String.toList_ofList, length_replicate]

theorem run_closed (allowed : PlacementOp → ClosedPlacementMemory → Prop) (cls : String)
    (hclosed : allowed (closed cls) .initial)
    (hsave : allowed (.saveThenLoad none) ((closed cls).apply placementJson .initial)) :
    PlacementRun placementJson allowed [.saveThenLoad none, closed cls]
      ((saveThenLoad none).apply placementJson ((closed cls).apply placementJson .initial)) := by
  refine .step _ (.step _ .start ⟨fun _ => rfl, rfl⟩ hclosed) ?_ hsave
  exact ⟨fun _ => rfl, rfl⟩

end Sample

open Sample

/-- A window that is closed before a restart comes back to its output. -/
theorem closed_placements_recent_restarted :
    ((PlacementOp.saveThenLoad none).apply placementJson ((Sample.closed "firefox").apply placementJson .initial)).lookup
      ⟨"firefox", ""⟩ = some ⟨0, some "DP-1", 1, 0⟩ := by
  refine ((closed_placements_recent placementJson_roundTrips (run_closed _ "firefox" ?_ ?_) (by decide)).1 _).trans (by decide)
  · exact ⟨fun h => absurd h (by decide), fun h => absurd h (by decide)⟩
  · refine ⟨storable_closed (by decide) (by decide) _, fun _ identity placement hlookup => ?_⟩
    have hmem := KeyMap.get?_eq_some.1 hlookup
    obtain ⟨rfl, rfl⟩ := Prod.mk.inj (mem_singleton.1 hmem)
    constructor
    · decide
    · decide
    · rintro connector ⟨⟩
      decide

/-- A class that is longer than the loader takes costs a restart the whole memory. -/
theorem long_class_loses_placements :
    ¬ ∀ (json : PlacementJson) (ops : List PlacementOp) (m : ClosedPlacementMemory), json.RoundTrips →
      PlacementRun json (fun op m => op.Storable json m) ops m → (closes ops).length < 2 ^ 64 - 1 →
      ∀ identity, m.lookup identity = (recentMap maxRememberedPlacements (closes ops)).get? identity := by
  intro h
  obtain ⟨cls, hlong, hlength⟩ := exists_long 65537
  have hne : cls ≠ "" := by
    rintro rfl
    cases hlong
  have hnew := new_closed hne
  have hstorable := storable_closed hne hlength (.saveThenLoad none)
  have hrun := run_closed (fun op m => op.Storable placementJson m) cls (fun h => Bool.noConfusion h) hstorable
  have hcloses : closes [.saveThenLoad none, closed cls] = [(⟨cls, ""⟩, ⟨0, some "DP-1", 1, 0⟩)] := by
    unfold closed
    rw [closes, closes, hnew]
    rfl
  have hremembers : Remembers [(⟨cls, ""⟩, ⟨0, some "DP-1", 1, 0⟩)] ((closed cls).apply placementJson .initial) := by
    have hspec := @remember_spec [] .initial ⟨cls, ""⟩ inCloseOrder_nil remembers_initial (by decide) 0 (some "DP-1") 1 rfl
    unfold closed
    dsimp only [apply]
    rw [hnew]
    exact hspec
  have hordered := inCloseOrder_closes [.saveThenLoad none, closed cls]
  rw [hcloses] at hordered
  have hlost : (saveThenLoad none).apply placementJson ((closed cls).apply placementJson .initial) = .initial := by
    refine saveThenLoad_lost placementJson_roundTrips hordered hremembers none (hstorable rfl)
      (hremembers.mem_iff.2 (mem_singleton.2 rfl)) fun hfits => ?_
    have htext := hfits.class
    rw [hlong] at htext
    exact absurd htext (by decide)
  have hlookup := h placementJson _ _ placementJson_roundTrips hrun (by rw [hcloses, length_singleton]; decide) ⟨cls, ""⟩
  rw [hlost, hcloses, KeyMap.get?_eq_some.2 (mem_singleton.2 rfl)] at hlookup
  cases hlookup

end Jwm
