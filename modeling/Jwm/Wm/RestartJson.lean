/-
The JSON text of a restart snapshot: the fields in the order of the records, empty lists left out where the records say so. It meets
what `encode_with_shapes` relies on, for any way to write fractions.
-/
import Jwm.Data.ExactCodec
import Jwm.Data.JsonText
import Jwm.Wm.RestartShapes

namespace Jwm.Restart

open JsonText (Plain PlainNumber plainAll_iff plainFields_iff)
open List Option JsonText Json JsonCode Snapshot

/-! ## Parts of a record -/

/-- How fractions are written and read. -/
structure FractionText where
  print32 : Float32 → String
  read32 : String → Option Float32
  print64 : Float → String
  read64 : String → Option Float

def natJson (n : Nat) : Json := .number (.pos n)

def intJson (z : Int) : Json := .number (if z < 0 then .neg z.natAbs else .pos z.natAbs)

def readInt : Json → Option Int
  | .number (.pos n) => some n
  | .number (.neg n) => some (-n)
  | _ => none

def fractionJson (digits : String) : Json := .number (.float digits)

def readFraction {α : Type} (read : String → Option α) : Json → Option α
  | .number (.float digits) => read digits
  | _ => none

def listJson {α : Type} (write : α → Json) (l : List α) : Json := .array (l.map write)

def readList {α : Type} (read : Json → Option α) (v : Json) : Option (List α) := v.asArray.bind fun values => values.mapM read

def optionJson {α : Type} (write : α → Json) : Option α → Json
  | none => .null
  | some a => write a

def readOption {α : Type} (read : Json → Option α) : Json → Option (Option α)
  | .null => some none
  | v => (read v).map some

/-- `skip_serializing_if = "Vec::is_empty"` -/
def listField {α : Type} (name : String) (write : α → Json) (l : List α) : List (String × Json) :=
  if l.isEmpty then [] else [(name, listJson write l)]

/-- `skip_serializing_if = "Option::is_none"` -/
def optionField {α : Type} (name : String) (write : α → Json) : Option α → List (String × Json)
  | none => []
  | some a => [(name, write a)]

/-- `default` -/
def readDefault {α : Type} (read : Json → Option (List α)) : Option Json → Option (List α)
  | none => some []
  | some v => read v

/-! ## Records -/

def RestartIntent.toJson (i : RestartIntent) : Json :=
  .object [("version", natJson i.version), ("pid", natJson i.pid), ("captured_ms", natJson i.capturedMs), ("generation", .string i.generation)]

def RestartIntent.ofJson (v : Json) : Option RestartIntent := do
  let fields ← v.structFields ["version", "pid", "captured_ms", "generation"]
  let version ← (field fields "version").bind asU64
  let pid ← (field fields "pid").bind asU64
  let capturedMs ← (field fields "captured_ms").bind asU64
  let generation ← (field fields "generation").bind asStr
  pure { version, pid, capturedMs, generation }

def rectJson (r : Rect) : Json := .array [intJson r.x, intJson r.y, intJson r.w, intJson r.h]

def readRect (v : Json) : Option Rect :=
  (readList readInt v).bind fun
    | [x, y, w, h] => some ⟨x, y, w, h⟩
    | _ => none

def Output.toJson (o : Output) : Json :=
  .object [("stable_key", .string o.stableKey), ("connector", .string o.connector), ("rect", rectJson o.rect)]

def Output.ofJson (v : Json) : Option Output := do
  let fields ← v.structFields ["stable_key", "connector", "rect"]
  let stableKey ← (field fields "stable_key").bind asStr
  let connector ← (field fields "connector").bind asStr
  let rect ← (field fields "rect").bind readRect
  pure { stableKey, connector, rect }

section

variable (text : FractionText)

def Tag.toJson (t : Tag) : Json :=
  .object
    [("layout", .string t.layout), ("alt", .string t.alt), ("n_master", natJson t.nMaster), ("m_fact", fractionJson (text.print32 t.mFact)),
      ("gap", intJson t.gap), ("show_bar", .bool t.showBar)]

def Tag.ofJson (v : Json) : Option Tag := do
  let fields ← v.structFields ["layout", "alt", "n_master", "m_fact", "gap", "show_bar"]
  let layout ← (field fields "layout").bind asStr
  let alt ← (field fields "alt").bind asStr
  let nMaster ← (field fields "n_master").bind asU64
  let mFact ← (field fields "m_fact").bind (readFraction text.read32)
  let gap ← (field fields "gap").bind readInt
  let showBar ← (field fields "show_bar").bind asBool
  pure { layout, alt, nMaster, mFact, gap, showBar }

def ResizeAnchor.toJson (a : ResizeAnchor) : Json :=
  .object [("xid", natJson a.xid), ("width", fractionJson (text.print64 a.width)), ("height", fractionJson (text.print64 a.height))]

def ResizeAnchor.ofJson (v : Json) : Option ResizeAnchor := do
  let fields ← v.structFields ["xid", "width", "height"]
  let xid ← (field fields "xid").bind asU64
  let width ← (field fields "width").bind (readFraction text.read64)
  let height ← (field fields "height").bind (readFraction text.read64)
  pure { xid, width, height }

def ScrollingColumn.toJson (c : ScrollingColumn) : Json :=
  .object
    [("clients", listJson natJson c.clients), ("width_factor", fractionJson (text.print32 c.widthFactor)),
      ("focused", optionJson natJson c.focused)]

def ScrollingColumn.ofJson (v : Json) : Option ScrollingColumn := do
  let fields ← v.structFields ["clients", "width_factor", "focused"]
  let clients ← (field fields "clients").bind (readList asU64)
  let widthFactor ← (field fields "width_factor").bind (readFraction text.read32)
  let focused ← Json.optional asU64 (field fields "focused")
  pure { clients, widthFactor, focused }

def ScrollingShape.toJson (s : ScrollingShape) : Json :=
  .object
    [("columns", listJson (ScrollingColumn.toJson text) s.columns), ("focused_column", optionJson natJson s.focusedColumn),
      ("attach_new", .bool s.attachNew)]

def ScrollingShape.ofJson (v : Json) : Option ScrollingShape := do
  let fields ← v.structFields ["columns", "focused_column", "attach_new"]
  let columns ← (field fields "columns").bind (readList (ScrollingColumn.ofJson text))
  let focusedColumn ← Json.optional asU64 (field fields "focused_column")
  let attachNew ← (field fields "attach_new").bind asBool
  pure { columns, focusedColumn, attachNew }

def ShapeContext.toJson (s : ShapeContext) : Json :=
  .object
    [("tag_mask", natJson s.tagMask), ("layout", .string s.layout), ("resize", optionJson (ResizeAnchor.toJson text) s.resize),
      ("scrolling", optionJson (ScrollingShape.toJson text) s.scrolling)]

def ShapeContext.ofJson (v : Json) : Option ShapeContext := do
  let fields ← v.structFields ["tag_mask", "layout", "resize", "scrolling"]
  let tagMask ← (field fields "tag_mask").bind asU64
  let layout ← (field fields "layout").bind asStr
  let resize ← Json.optional (ResizeAnchor.ofJson text) (field fields "resize")
  let scrolling ← Json.optional (ScrollingShape.ofJson text) (field fields "scrolling")
  pure { tagMask, layout, resize, scrolling }

def Monitor.otherFields (m : Monitor) : List (String × Json) :=
  [("output", m.output.toJson), ("tag_set", .array [natJson m.tagSet.1, natJson m.tagSet.2]), ("sel_tags", natJson m.selTags),
    ("cur_tag", natJson m.curTag), ("prev_tag", natJson m.prevTag), ("tags", listJson (Tag.toJson text) m.tags),
    ("order", listJson natJson m.order), ("selected", optionJson natJson m.selected)] ++
    (listField "mru" natJson m.mru ++ listField "tag_selected" (optionJson natJson) m.tagSelected)

def Monitor.toJson (m : Monitor) : Json := .object (m.otherFields text ++ listField "shapes" (ShapeContext.toJson text) m.shapes)

def readTagSet (v : Json) : Option (Nat × Nat) :=
  (readList asU64 v).bind fun
    | [a, b] => some (a, b)
    | _ => none

def Monitor.ofJson (v : Json) : Option Monitor := do
  let fields ← v.structFields
    ["output", "tag_set", "sel_tags", "cur_tag", "prev_tag", "tags", "order", "selected", "mru", "tag_selected", "shapes"]
  let output ← (field fields "output").bind Output.ofJson
  let tagSet ← (field fields "tag_set").bind readTagSet
  let selTags ← (field fields "sel_tags").bind asU64
  let curTag ← (field fields "cur_tag").bind asU64
  let prevTag ← (field fields "prev_tag").bind asU64
  let tags ← (field fields "tags").bind (readList (Tag.ofJson text))
  let order ← (field fields "order").bind (readList asU64)
  let selected ← Json.optional asU64 (field fields "selected")
  let mru ← readDefault (readList asU64) (field fields "mru")
  let tagSelected ← readDefault (readList (readOption asU64)) (field fields "tag_selected")
  let shapes ← readDefault (readList (ShapeContext.ofJson text)) (field fields "shapes")
  pure { output, tagSet, selTags, curTag, prevTag, tags, order, selected, mru, tagSelected, shapes }

def Client.toJson (c : Client) : Json :=
  .object
    ([("xid", natJson c.xid), ("tags", natJson c.tags), ("monitor", natJson c.monitor),
      ("client_fact", fractionJson (text.print32 c.clientFact))] ++ optionField "maximize_anchor" natJson c.maximizeAnchor)

def Client.ofJson (v : Json) : Option Client := do
  let fields ← v.structFields ["xid", "tags", "monitor", "client_fact", "maximize_anchor"]
  let xid ← (field fields "xid").bind asU64
  let tags ← (field fields "tags").bind asU64
  let monitor ← (field fields "monitor").bind asU64
  let clientFact ← ((field fields "client_fact").map (readFraction text.read32)).getD (some 1.0)
  let maximizeAnchor ← Json.optional asU64 (field fields "maximize_anchor")
  pure { xid, tags, monitor, clientFact, maximizeAnchor }

def Snapshot.toJson (s : Snapshot) : Json :=
  .object
    [("intent", s.intent.toJson), ("monitors", listJson (Monitor.toJson text) s.monitors), ("clients", listJson (Client.toJson text) s.clients),
      ("selected_monitor", optionJson natJson s.selectedMonitor)]

def Snapshot.ofJson (v : Json) : Option Snapshot := do
  let fields ← v.structFields ["intent", "monitors", "clients", "selected_monitor"]
  let intent ← (field fields "intent").bind RestartIntent.ofJson
  let monitors ← (field fields "monitors").bind (readList (Monitor.ofJson text))
  let clients ← (field fields "clients").bind (readList (Client.ofJson text))
  let selectedMonitor ← Json.optional asU64 (field fields "selected_monitor")
  pure { intent, monitors, clients, selectedMonitor }

def textBytes (v : Json) : List Byte := utf8Bytes (String.ofList (JsonText.print v))

def readText (bytes : List Byte) : Option Json := (fromUtf8 bytes).toOption.bind fun s => JsonText.parse s.toList

def jsonText : SerdeJson where
  toVec s := textBytes (s.toJson text)
  shapeToVec shape := textBytes (shape.toJson text)
  fromSlice bytes := (readText bytes).bind (ofJson text)
  Keeps32 f := PlainNumber (.float (text.print32 f)) ∧ text.read32 (text.print32 f) = some f
  Keeps64 f := PlainNumber (.float (text.print64 f)) ∧ text.read64 (text.print64 f) = some f

end

/-! ## Reading back -/

section

variable {α : Type} {write : α → Json} {read : Json → Option α} {l : List α} {a : α}

@[simp] theorem asU64_natJson (n : Nat) : (natJson n).asU64 = some n := rfl

@[simp] theorem readInt_intJson (z : Int) : readInt (intJson z) = some z := by
  unfold intJson
  by_cases hz : z < 0
  · rw [if_pos hz]
    exact congrArg some (by omega)
  · rw [if_neg hz]
    exact congrArg some (by omega)

theorem mapM_map (h : ∀ a ∈ l, read (write a) = some a) : (l.map write).mapM read = some l := by
  induction l with
  | nil => rfl
  | cons a l ih =>
    obtain ⟨ha, hl⟩ := forall_mem_cons.1 h
    rw [map_cons, mapM_cons, ha, ih hl]
    rfl

theorem readList_listJson (h : ∀ a ∈ l, read (write a) = some a) : readList read (listJson write l) = some l := mapM_map h

theorem optional_optionJson (hnull : ∀ a, write a ≠ .null) {o : Option α} (h : ∀ a ∈ o, read (write a) = some a) :
    Json.optional read (some (optionJson write o)) = some o := by
  cases o with
  | none => rfl
  | some a =>
    have ha := h a rfl
    have hne := hnull a
    unfold optionJson
    dsimp only
    cases hwrite : write a with
    | null => exact absurd hwrite hne
    | _ =>
      rw [hwrite] at ha
      unfold Json.optional
      dsimp only
      rw [ha, map_some]

theorem field_cons (name : String) (v : Json) (fields : List (String × Json)) (key : String) :
    field ((name, v) :: fields) key = if name == key then some v else field fields key := by
  unfold field
  rw [find?_cons]
  split
  · rename_i h
    rw [if_pos h]
    rfl
  · rename_i h
    rw [h, if_neg Bool.false_ne_true]

theorem field_listField (name : String) (write : α → Json) (l : List α) (rest : List (String × Json)) (key : String) :
    field (listField name write l ++ rest) key =
      if name == key && !l.isEmpty then some (listJson write l) else field rest key := by
  unfold listField
  cases l with
  | nil =>
    rw [isEmpty_nil, if_pos rfl, nil_append, Bool.not_true, Bool.and_false, if_neg Bool.false_ne_true]
  | cons a l =>
    rw [isEmpty_cons, if_neg Bool.false_ne_true, singleton_append, field_cons, Bool.not_false, Bool.and_true]

theorem field_listField_last (name : String) (write : α → Json) (l : List α) (key : String) :
    field (listField name write l) key = if name == key && !l.isEmpty then some (listJson write l) else none := by
  have h := field_listField name write l [] key
  rw [append_nil] at h
  exact h

theorem readDefault_skipped (h : ∀ a ∈ l, read (write a) = some a) :
    readDefault (readList read) (if l = [] then none else some (listJson write l)) = some l := by
  cases l with
  | nil => rfl
  | cons a l => exact readList_listJson h

end

theorem RestartIntent.ofJson_toJson (i : RestartIntent) : ofJson i.toJson = some i := by
  simp [ofJson, toJson, structFields, field_cons, asStr]

theorem readRect_rectJson (r : Rect) : readRect (rectJson r) = some r := by
  have h := @readList_listJson Int intJson readInt [r.x, r.y, r.w, r.h] fun z _ => readInt_intJson z
  show (readList readInt (listJson intJson [r.x, r.y, r.w, r.h])).bind _ = some r
  rw [h]
  rfl

theorem readTagSet_pair (a b : Nat) : readTagSet (.array [natJson a, natJson b]) = some (a, b) := rfl

theorem Output.ofJson_toJson (o : Output) : ofJson o.toJson = some o := by
  simp [ofJson, toJson, structFields, field_cons, asStr, readRect_rectJson]

section

variable {text : FractionText}

theorem natJson_ne_null (n : Nat) : natJson n ≠ .null := by
  rintro ⟨⟩

theorem optional_natJson (o : Option Nat) : Json.optional asU64 (some (optionJson natJson o)) = some o :=
  optional_optionJson natJson_ne_null fun n _ => asU64_natJson n

theorem readList_natJson (l : List Nat) : readList asU64 (listJson natJson l) = some l :=
  readList_listJson fun n _ => asU64_natJson n

theorem Tag.ofJson_toJson {t : Tag} (h : (jsonText text).Keeps32 t.mFact) : ofJson text (t.toJson text) = some t := by
  have hread : text.read32 (text.print32 t.mFact) = some t.mFact := h.2
  simp [ofJson, toJson, structFields, field_cons, asStr, asBool, fractionJson, readFraction, hread]

theorem ResizeAnchor.ofJson_toJson {a : ResizeAnchor} (h : (jsonText text).Keeps64 a.width ∧ (jsonText text).Keeps64 a.height) :
    ofJson text (a.toJson text) = some a := by
  have hwidth : text.read64 (text.print64 a.width) = some a.width := h.1.2
  have hheight : text.read64 (text.print64 a.height) = some a.height := h.2.2
  simp [ofJson, toJson, structFields, field_cons, fractionJson, readFraction, hwidth, hheight]

theorem ScrollingColumn.ofJson_toJson {c : ScrollingColumn} (h : (jsonText text).Keeps32 c.widthFactor) :
    ofJson text (c.toJson text) = some c := by
  have hread : text.read32 (text.print32 c.widthFactor) = some c.widthFactor := h.2
  simp [ofJson, toJson, structFields, field_cons, fractionJson, readFraction, hread, optional_natJson, readList_natJson]

theorem ScrollingShape.ofJson_toJson {s : ScrollingShape} (h : ∀ column ∈ s.columns, (jsonText text).Keeps32 column.widthFactor) :
    ofJson text (s.toJson text) = some s := by
  have hcolumns : readList (ScrollingColumn.ofJson text) (listJson (ScrollingColumn.toJson text) s.columns) = some s.columns :=
    readList_listJson fun column hcolumn => ScrollingColumn.ofJson_toJson (h column hcolumn)
  simp [ofJson, toJson, structFields, field_cons, asBool, hcolumns, optional_natJson]

/-- The fractions of a shape are read back. -/
structure ShapeContext.Kept (json : SerdeJson) (shape : ShapeContext) : Prop where
  anchor : ∀ anchor ∈ shape.resize, json.Keeps64 anchor.width ∧ json.Keeps64 anchor.height
  columns : ∀ scrolling ∈ shape.scrolling, ∀ column ∈ scrolling.columns, json.Keeps32 column.widthFactor

theorem ShapeContext.ofJson_toJson {shape : ShapeContext} (h : shape.Kept (jsonText text)) :
    ofJson text (shape.toJson text) = some shape := by
  have hresize : Json.optional (ResizeAnchor.ofJson text) (some (optionJson (ResizeAnchor.toJson text) shape.resize)) = some shape.resize :=
    optional_optionJson (by rintro a ⟨⟩) fun anchor hanchor => ResizeAnchor.ofJson_toJson (h.anchor anchor hanchor)
  have hscrolling : Json.optional (ScrollingShape.ofJson text) (some (optionJson (ScrollingShape.toJson text) shape.scrolling)) =
      some shape.scrolling :=
    optional_optionJson (by rintro a ⟨⟩) fun scrolling hmem => ScrollingShape.ofJson_toJson (h.columns scrolling hmem)
  simp [ofJson, toJson, structFields, field_cons, asStr, hresize, hscrolling]

theorem readOption_optionJson (o : Option Nat) : readOption asU64 (optionJson natJson o) = some o := by
  cases o with
  | none | some n => rfl

/-- The fractions of a monitor are read back. -/
structure Monitor.Kept (json : SerdeJson) (m : Monitor) : Prop where
  tags : ∀ tag ∈ m.tags, json.Keeps32 tag.mFact
  shapes : ∀ shape ∈ m.shapes, shape.Kept json

theorem all_listField {α : Type} (name : String) (write : α → Json) (l : List α) (p : String × Json → Bool)
    (hp : ∀ v, p (name, v) = true) : (listField name write l).all p = true := by
  unfold listField
  split
  · rfl
  · rw [all_cons, hp, all_nil, Bool.and_self]

variable {m : Monitor}

theorem Monitor.ofJson_toJson (h : m.Kept (jsonText text)) : ofJson text (m.toJson text) = some m := by
  have htags : readList (Tag.ofJson text) (listJson (Tag.toJson text) m.tags) = some m.tags :=
    readList_listJson fun tag htag => Tag.ofJson_toJson (h.tags tag htag)
  have hmru := @readDefault_skipped Nat natJson asU64 m.mru fun n _ => asU64_natJson n
  have hselected := @readDefault_skipped (Option Nat) (optionJson natJson) (readOption asU64) m.tagSelected
    fun o _ => readOption_optionJson o
  have hshapes := @readDefault_skipped ShapeContext (ShapeContext.toJson text) (ShapeContext.ofJson text) m.shapes
    fun shape hshape => ShapeContext.ofJson_toJson (h.shapes shape hshape)
  have hknown : (m.toJson text).structFields
      ["output", "tag_set", "sel_tags", "cur_tag", "prev_tag", "tags", "order", "selected", "mru", "tag_selected", "shapes"] =
        some (m.otherFields text ++ listField "shapes" (ShapeContext.toJson text) m.shapes) := by
    refine if_pos ?_
    unfold otherFields
    rw [all_append, all_append, all_append, all_listField, all_listField, all_listField]
    · rfl
    · intro v
      rfl
    · intro v
      rfl
    · intro v
      rfl
  generalize hfields : m.otherFields text ++ listField "shapes" (ShapeContext.toJson text) m.shapes = fields at hknown
  have houtput : field fields "output" = some m.output.toJson := hfields ▸ rfl
  have htagSet : field fields "tag_set" = some (.array [natJson m.tagSet.1, natJson m.tagSet.2]) := hfields ▸ rfl
  have hselTags : field fields "sel_tags" = some (natJson m.selTags) := hfields ▸ rfl
  have hcurTag : field fields "cur_tag" = some (natJson m.curTag) := hfields ▸ rfl
  have hprevTag : field fields "prev_tag" = some (natJson m.prevTag) := hfields ▸ rfl
  have htagsField : field fields "tags" = some (listJson (Tag.toJson text) m.tags) := hfields ▸ rfl
  have horder : field fields "order" = some (listJson natJson m.order) := hfields ▸ rfl
  have hselectedField : field fields "selected" = some (optionJson natJson m.selected) := hfields ▸ rfl
  have hmruField : field fields "mru" = if m.mru = [] then none else some (listJson natJson m.mru) := by
    rw [← hfields]
    simp [otherFields, field_cons, field_listField, field_listField_last]
  have htagSelectedField : field fields "tag_selected" =
      if m.tagSelected = [] then none else some (listJson (optionJson natJson) m.tagSelected) := by
    rw [← hfields]
    simp [otherFields, field_cons, field_listField, field_listField_last]
  have hshapesField : field fields "shapes" =
      if m.shapes = [] then none else some (listJson (ShapeContext.toJson text) m.shapes) := by
    rw [← hfields]
    simp [otherFields, field_cons, field_listField, field_listField_last]
  unfold ofJson
  rw [hknown, bind_eq_bind, bind_some, houtput, bind_some, Output.ofJson_toJson, bind_eq_bind, bind_some, htagSet, bind_some,
    readTagSet_pair, bind_eq_bind, bind_some, hselTags, bind_some, asU64_natJson, bind_eq_bind, bind_some, hcurTag, bind_some,
    asU64_natJson, bind_eq_bind, bind_some, hprevTag, bind_some, asU64_natJson, bind_eq_bind, bind_some, htagsField, bind_some,
    htags, bind_eq_bind, bind_some, horder, bind_some, readList_natJson, bind_eq_bind, bind_some, hselectedField,
    optional_natJson, bind_eq_bind, bind_some, hmruField, hmru, bind_some, htagSelectedField, hselected, bind_some,
    hshapesField, hshapes]
  rfl

theorem Client.ofJson_toJson {c : Client} (h : (jsonText text).Keeps32 c.clientFact) : ofJson text (c.toJson text) = some c := by
  have hread : text.read32 (text.print32 c.clientFact) = some c.clientFact := h.2
  have hskipped : Json.optional asU64 (field (optionField "maximize_anchor" natJson c.maximizeAnchor) "maximize_anchor") =
      some c.maximizeAnchor := by
    cases c.maximizeAnchor with
    | none | some n => rfl
  have hname : ∀ f ∈ optionField "maximize_anchor" natJson c.maximizeAnchor, f.1 = "maximize_anchor" := by
    cases c.maximizeAnchor with
    | none =>
      rintro f ⟨⟩
    | some n =>
      rintro f (_ | ⟨_, ⟨⟩⟩)
      rfl
  have hknown : ((optionField "maximize_anchor" natJson c.maximizeAnchor).all fun f =>
      ["xid", "tags", "monitor", "client_fact", "maximize_anchor"].contains f.1) = true := by
    rw [List.all_eq_true]
    intro f hf
    rw [hname f hf]
    decide
  unfold ofJson toJson structFields
  dsimp only
  rw [all_append, hknown]
  simp [field_cons, fractionJson, readFraction, hread, hskipped]

variable {s : Snapshot}

theorem Snapshot.Kept.monitor {json : SerdeJson} (h : s.Kept json) (hm : m ∈ s.monitors) : m.Kept json := by
  constructor
  · exact h.tags m hm
  · intro shape hshape
    constructor
    · exact h.anchors m hm shape hshape
    · exact h.columns m hm shape hshape

theorem Snapshot.ofJson_toJson (h : s.Kept (jsonText text)) : ofJson text (s.toJson text) = some s := by
  have hmonitors : readList (Monitor.ofJson text) (listJson (Monitor.toJson text) s.monitors) = some s.monitors :=
    readList_listJson fun m hm => Monitor.ofJson_toJson (h.monitor hm)
  have hclients : readList (Client.ofJson text) (listJson (Client.toJson text) s.clients) = some s.clients :=
    readList_listJson fun c hc => Client.ofJson_toJson (h.clients c hc)
  simp [ofJson, toJson, structFields, field_cons, RestartIntent.ofJson_toJson, hmonitors, hclients, optional_natJson]

/-! ## The text -/

theorem readText_textBytes {v : Json} (h : Plain v) : readText (textBytes v) = some v := by
  unfold readText textBytes
  rw [fromUtf8_eq_ok.2 rfl]
  dsimp only [Except.toOption, bind_some]
  rw [String.toList_ofList]
  exact parse_print h

theorem length_textBytes (v : Json) : (textBytes v).length = bytes (JsonText.print v) := by
  unfold textBytes
  rw [length_utf8Bytes, utf8ByteSize_ofList]

theorem plain_listJson {α : Type} {write : α → Json} {l : List α} (h : ∀ a ∈ l, Plain (write a)) : Plain (listJson write l) := by
  refine plainAll_iff.2 fun v hv => ?_
  obtain ⟨a, ha, rfl⟩ := List.mem_map.1 hv
  exact h a ha

theorem plain_optionJson {α : Type} {write : α → Json} {o : Option α} (h : ∀ a ∈ o, Plain (write a)) : Plain (optionJson write o) := by
  cases o with
  | none => exact trivial
  | some a => exact h a rfl

theorem plain_natJson (n : Nat) : Plain (natJson n) := trivial

theorem plain_intJson (z : Int) : Plain (intJson z) := by
  unfold intJson
  split
  · exact trivial
  · exact trivial

theorem plain_listField {α : Type} {name : String} {write : α → Json} {l : List α} (h : ∀ a ∈ l, Plain (write a)) :
    ∀ f ∈ listField name write l, Plain f.2 := by
  unfold listField
  split
  · rintro f ⟨⟩
  · rintro f (_ | ⟨_, ⟨⟩⟩)
    exact plain_listJson h

theorem plain_object {fields : List (String × Json)} (h : ∀ f ∈ fields, Plain f.2) : Plain (.object fields) := plainFields_iff.2 h

theorem ShapeContext.plain {shape : ShapeContext} (h : shape.Kept (jsonText text)) : Plain (shape.toJson text) := by
  have hanchor : ∀ anchor ∈ shape.resize, Plain (anchor.toJson text) := by
    intro anchor hanchor
    obtain ⟨hwidth, hheight⟩ := h.anchor anchor hanchor
    exact ⟨trivial, hwidth.1, hheight.1, trivial⟩
  have hscrolling : ∀ scrolling ∈ shape.scrolling, Plain (scrolling.toJson text) := by
    intro scrolling hmem
    refine ⟨plain_listJson fun column hcolumn => ?_, plain_optionJson fun n _ => plain_natJson n, trivial, trivial⟩
    exact ⟨plain_listJson fun n _ => plain_natJson n, (h.columns scrolling hmem column hcolumn).1,
      plain_optionJson fun n _ => plain_natJson n, trivial⟩
  exact ⟨trivial, trivial, plain_optionJson hanchor, plain_optionJson hscrolling, trivial⟩

theorem Monitor.plain (h : m.Kept (jsonText text)) : Plain (m.toJson text) := by
  have htags : ∀ tag ∈ m.tags, Plain (tag.toJson text) := fun tag htag =>
    ⟨trivial, trivial, trivial, (h.tags tag htag).1, plain_intJson _, trivial, trivial⟩
  have hrect : Plain (rectJson m.output.rect) := ⟨plain_intJson _, plain_intJson _, plain_intJson _, plain_intJson _, trivial⟩
  refine plain_object fun f hf => ?_
  rcases mem_append.1 hf with hf | hf
  · rcases mem_append.1 hf with hf | hf
    · refine plainFields_iff.1 ?_ f hf
      exact ⟨⟨trivial, trivial, hrect, trivial⟩, ⟨trivial, trivial, trivial⟩, trivial, trivial, trivial, plain_listJson htags,
        plain_listJson fun n _ => plain_natJson n, plain_optionJson fun n _ => plain_natJson n, trivial⟩
    · rcases mem_append.1 hf with hf | hf
      · exact plain_listField (fun n _ => plain_natJson n) f hf
      · exact plain_listField (fun o _ => plain_optionJson fun n _ => plain_natJson n) f hf
  · exact plain_listField (fun shape hshape => ShapeContext.plain (h.shapes shape hshape)) f hf

theorem Client.plain {c : Client} (h : (jsonText text).Keeps32 c.clientFact) : Plain (c.toJson text) := by
  refine plain_object fun f hf => ?_
  rcases mem_append.1 hf with hf | hf
  · refine plainFields_iff.1 ?_ f hf
    exact ⟨trivial, trivial, trivial, h.1, trivial⟩
  · cases hanchor : c.maximizeAnchor with
    | none =>
      rw [hanchor] at hf
      cases hf
    | some n =>
      rw [hanchor] at hf
      obtain rfl := mem_singleton.1 hf
      exact trivial

theorem Snapshot.plain (h : s.Kept (jsonText text)) : JsonText.Plain (s.toJson text) :=
  ⟨⟨trivial, trivial, trivial, trivial, trivial⟩, plain_listJson fun _ hm => Monitor.plain (h.monitor hm),
    plain_listJson fun c hc => Client.plain (h.clients c hc), plain_optionJson fun n _ => plain_natJson n, trivial⟩

/-! ## Its length -/

theorem bytes_listJson {α : Type} (write : α → Json) (l : List α) : bytes (JsonText.print (listJson write l)) =
      (l.map fun a => bytes (JsonText.print (write a)) + 1).sum + 1 + if l.isEmpty then 1 else 0 := by
  unfold listJson
  rw [bytes_array, List.map_map, isEmpty_map]
  rfl

theorem sum_modify {α : Type} {f : α → Nat} {g : α → α} {d : Nat} : ∀ {l : List α} {index : Nat} {a : α}, l[index]? = some a →
    f (g a) = f a + d → ((l.modify index g).map f).sum = (l.map f).sum + d
  | b :: l, 0, a, hindex, hd => by
    obtain rfl : b = a := some.inj hindex
    rw [modify_zero_cons, map_cons, map_cons, sum_cons, sum_cons, hd]
    omega
  | b :: l, index + 1, a, hindex, hd => by
    have ih := @sum_modify _ f g d l index a hindex hd
    rw [modify_succ_cons, map_cons, map_cons, sum_cons, sum_cons, ih]
    omega

theorem fieldsBytes_listField {α : Type} (name : String) (write : α → Json) (l : List α) :
    JsonText.fieldsBytes (listField name write l) =
      if l.isEmpty then 0 else bytes (string.encode name) + bytes (JsonText.print (listJson write l)) + 2 := by
  unfold listField
  cases l with
  | nil => rfl
  | cons a l =>
    unfold JsonText.fieldsBytes JsonText.fieldBytes
    rw [isEmpty_cons, if_neg Bool.false_ne_true, if_neg Bool.false_ne_true, map_singleton, sum_singleton]
    dsimp only
    omega

theorem Monitor.bytes_toJson (m : Monitor) : bytes (JsonText.print (m.toJson text)) =
      JsonText.fieldsBytes (m.otherFields text) + JsonText.fieldsBytes (listField "shapes" (ShapeContext.toJson text) m.shapes) + 1 := by
  have hsome : (m.otherFields text ++ listField "shapes" (ShapeContext.toJson text) m.shapes).isEmpty = false := rfl
  unfold Monitor.toJson
  rw [bytes_object, fieldsBytes_append, hsome, if_neg Bool.false_ne_true, Nat.add_zero]

theorem Monitor.bytes_push (m : Monitor) (shape : ShapeContext) :
    bytes (JsonText.print (({ m with shapes := m.shapes ++ [shape] } : Monitor).toJson text)) =
      bytes (JsonText.print (m.toJson text)) +
        (bytes (JsonText.print (shape.toJson text)) + separatorCost (some m)) := by
  have hname : bytes (string.encode "shapes") = 8 := rfl
  have hcost : ",\"shapes\":[]".utf8ByteSize = 12 := rfl
  have hother : ({ m with shapes := m.shapes ++ [shape] } : Monitor).otherFields text = m.otherFields text := rfl
  rw [Monitor.bytes_toJson, Monitor.bytes_toJson, hother, fieldsBytes_listField, fieldsBytes_listField, bytes_listJson, bytes_listJson,
    map_append, sum_append, map_singleton, sum_singleton]
  unfold separatorCost
  rw [all_some]
  cases hshapes : m.shapes with
  | nil =>
    simp only [nil_append, isEmpty_nil, isEmpty_cons, Bool.false_eq_true, if_false, if_true, map_nil, sum_nil]
    omega
  | cons first shapes =>
    simp only [cons_append, isEmpty_cons, Bool.false_eq_true, if_false]
    omega

theorem Snapshot.bytes_push {index : Nat} {monitor : Monitor} (shape : ShapeContext)
    (hindex : s.monitors[index]? = some monitor) :
    bytes (JsonText.print ((s.pushShape index shape).toJson text)) =
      bytes (JsonText.print (s.toJson text)) +
        (bytes (JsonText.print (shape.toJson text)) + separatorCost (some monitor)) := by
  have hpush : bytes (JsonText.print (({ monitor with shapes := monitor.shapes ++ [shape] } : Monitor).toJson text)) + 1 =
      bytes (JsonText.print (monitor.toJson text)) + 1 +
        (bytes (JsonText.print (shape.toJson text)) + separatorCost (some monitor)) := by
    rw [Monitor.bytes_push]
    omega
  have hsum := @sum_modify Monitor (fun m => bytes (JsonText.print (m.toJson text)) + 1)
    (fun m => { m with shapes := m.shapes ++ [shape] }) _ _ _ _ hindex hpush
  have hempty : (s.pushShape index shape).monitors.isEmpty = s.monitors.isEmpty := by
    rw [Bool.eq_iff_iff, List.isEmpty_iff, List.isEmpty_iff]
    exact modify_eq_nil_iff
  have hmonitors : bytes (JsonText.print (listJson (Monitor.toJson text) (s.pushShape index shape).monitors)) =
      bytes (JsonText.print (listJson (Monitor.toJson text) s.monitors)) +
        (bytes (JsonText.print (shape.toJson text)) + separatorCost (some monitor)) := by
    have hmodify : (s.pushShape index shape).monitors =
        s.monitors.modify index fun m => { m with shapes := m.shapes ++ [shape] } := rfl
    rw [bytes_listJson, bytes_listJson, hempty, hmodify, hsum]
    omega
  have hintent : (s.pushShape index shape).intent = s.intent := rfl
  have hclients : (s.pushShape index shape).clients = s.clients := rfl
  have hselected : (s.pushShape index shape).selectedMonitor = s.selectedMonitor := rfl
  unfold toJson
  rw [bytes_object, bytes_object, hintent, hclients, hselected]
  unfold JsonText.fieldsBytes
  simp only [map_cons, sum_cons, isEmpty_cons, Bool.false_eq_true, if_false, JsonText.fieldBytes, hmonitors]
  omega

theorem jsonText_toVec (text : FractionText) (s : Snapshot) : (jsonText text).toVec s = textBytes (s.toJson text) := rfl

theorem jsonText_shapeToVec (text : FractionText) (shape : ShapeContext) :
    (jsonText text).shapeToVec shape = textBytes (shape.toJson text) := rfl

theorem jsonText_fromSlice (text : FractionText) (bytes : List Byte) :
    (jsonText text).fromSlice bytes = (readText bytes).bind (ofJson text) := rfl

theorem jsonText_laws (text : FractionText) : (jsonText text).Laws := by
  constructor
  · intro s index monitor shape hindex
    rw [jsonText_toVec, jsonText_toVec, jsonText_shapeToVec, length_textBytes, length_textBytes, length_textBytes]
    exact bytes_push shape hindex
  · intro s hkept
    rw [jsonText_toVec, jsonText_fromSlice, readText_textBytes (plain hkept)]
    exact ofJson_toJson hkept

end

namespace Sample

def text : FractionText where
  print32 f := if f = 1.0 then "1.0" else "0.55"
  read32 digits := if digits = "1.0" then some 1.0 else if digits = "0.55" then some 0.55 else none
  print64 _ := "0.5"
  read64 digits := if digits = "0.5" then some 0.5 else none

def tag : Tag := { layout := "tile", alt := "monocle", nMaster := 1, mFact := 0.55, gap := 5, showBar := true }

def monitor : Monitor where
  output := { stableKey := "edid:panel", connector := "eDP-1", rect := ⟨0, 0, 1920, 1080⟩ }
  tagSet := (1, 1)
  selTags := 0
  curTag := 1
  prevTag := 1
  tags := [tag, tag]
  order := [7]
  selected := some 7

def snapshot : Snapshot where
  intent := { version := 1, pid := 4242, capturedMs := 1700000000000, generation := "00112233445566778899aabbccddeeff" }
  monitors := [monitor]
  clients := [{ xid := 7, tags := 1, monitor := 0 }]
  selectedMonitor := some 0

def shape : ShapeContext := { tagMask := 1, layout := "tile", resize := some ⟨7, 0.5, 0.5⟩, scrolling := none }

theorem snapshot_evaluates : ((jsonText text).toVec snapshot).length ≤ 800 ∧ snapshot.validate = true ∧
    snapshot.admissible [(0, shape), (0, shape), (3, shape)] = [(0, shape)] := by
  rw [jsonText_toVec, length_textBytes]
  decide +kernel

theorem shape_length : ((jsonText text).shapeToVec shape).length ≤ 180 := by
  rw [jsonText_shapeToVec, length_textBytes]
  decide

theorem carrying_length : ((jsonText text).toVec (snapshot.withContexts [(0, shape)])).length ≤ 1000 := by
  have hpush := (jsonText_laws text).length_push snapshot 0 monitor shape rfl
  have hseparator : separatorCost (some monitor) = 12 := rfl
  have hcarries : snapshot.withContexts [(0, shape)] = snapshot.pushShape 0 shape := rfl
  have hbase := snapshot_evaluates.1
  have hshape := shape_length
  rw [hcarries]
  omega

theorem snapshot_encode : snapshot.encode (jsonText text) = .ok ((jsonText text).toVec snapshot) :=
  encode_eq_ok.2 ⟨snapshot_evaluates.2.1, Nat.le_trans snapshot_evaluates.1 (by decide), rfl⟩

theorem snapshot_plain : snapshot.Plain := by
  rintro m (_ | ⟨_, ⟨⟩⟩)
  rfl

theorem shapes_admissible : snapshot.admissible [(0, shape), (0, shape), (3, shape)] = [(0, shape)] :=
  snapshot_evaluates.2.2

theorem keeps32 {f : Float32} (hdigits : (((text.print32 f).toList.all JsonText.isNumberChar) &&
      (text.print32 f).toList.any JsonText.isFractionMark) = true)
    (hread : text.read32 (text.print32 f) = some f) : (jsonText text).Keeps32 f := by
  obtain ⟨hchars, hmark⟩ := Bool.and_eq_true_iff.1 hdigits
  exact ⟨⟨List.all_eq_true.1 hchars, hmark⟩, hread⟩

theorem keeps64_half : (jsonText text).Keeps64 0.5 :=
  ⟨⟨List.all_eq_true.1 (by decide : "0.5".toList.all JsonText.isNumberChar = true), by decide⟩, rfl⟩

theorem shaped_kept : (snapshot.withContexts [(0, shape)]).Kept (jsonText text) := by
  have hfact : (jsonText text).Keeps32 1.0 := keeps32 (by decide) (by decide)
  have hmaster : (jsonText text).Keeps32 0.55 := keeps32 (by decide) (by decide)
  constructor
  · rintro client (_ | ⟨_, ⟨⟩⟩)
    exact hfact
  · rintro m (_ | ⟨_, ⟨⟩⟩) t (_ | ⟨_, _ | ⟨_, ⟨⟩⟩⟩)
    · exact hmaster
    · exact hmaster
  · rintro m (_ | ⟨_, ⟨⟩⟩) s (_ | ⟨_, ⟨⟩⟩) anchor ⟨⟩
    exact ⟨keeps64_half, keeps64_half⟩
  · rintro m (_ | ⟨_, ⟨⟩⟩) s (_ | ⟨_, ⟨⟩⟩) scrolling ⟨⟩

end Sample

/-- Of three candidates, a repeated scope and one without a monitor are skipped. -/
theorem restart_shapes_fill_room_panel : ∃ bytes,
    Sample.snapshot.encodeWithShapes (jsonText Sample.text) [(0, Sample.shape), (0, Sample.shape), (3, Sample.shape)] =
      (.ok bytes, Sample.snapshot.withContexts [(0, Sample.shape)]) ∧
    Snapshot.decode (jsonText Sample.text) bytes Sample.snapshot.intent = some (Sample.snapshot.withContexts [(0, Sample.shape)]) := by
  obtain ⟨bytes, k, hk, -, hencode, -, hdecode, -, -, hlongest⟩ := restart_shapes_fill_room (jsonText Sample.text)
    (jsonText_laws Sample.text) Sample.snapshot _ Sample.snapshot_encode Sample.snapshot_plain
    [(0, Sample.shape), (0, Sample.shape), (3, Sample.shape)]
  rw [Sample.shapes_admissible] at hk hencode hdecode hlongest
  have hone : k = 1 := by
    by_contra hne
    have hk : k ≤ 1 := hk
    rcases hlongest 1 (by omega) (Nat.le_refl 1) with h | h
    · exact absurd h (by decide)
    · exact absurd (Nat.lt_of_lt_of_le h Sample.carrying_length) (by decide)
  subst hone
  exact ⟨bytes, hencode, hdecode Sample.shaped_kept⟩

/-- A shape that fits and that the snapshot is not valid with is refused with the whole snapshot. -/
theorem encodeWithShapes_refused {json : SerdeJson} {s : Snapshot} {base : List Byte} {index : Nat} {shape : ShapeContext}
    (hencode : s.encode json = .ok base) (haccepts : s.accepts (index, shape) = true)
    (hinvalid : (s.pushShape index shape).validate = false)
    (hfits : base.length + ((json.shapeToVec shape).length + separatorCost s.monitors[index]?) ≤ maxRestartPropertyBytes) :
    (s.encodeWithShapes json [(index, shape)]).1 = .error "invalid X11 restart snapshot" := by
  unfold encodeWithShapes packShapes
  rw [hencode]
  dsimp only
  rw [foldl_cons, foldl_nil]
  have hnew : (!true || ([] : List (Nat × Nat × String)).contains (index, shape.tagMask, shape.layout)) = false := rfl
  unfold Packing.addCandidate
  dsimp only
  rw [accepts_eq s (index, shape), haccepts, hnew, if_neg Bool.false_ne_true, if_neg (by decide), evict, if_neg (Nat.not_lt.2 hfits)]
  show (s.pushShape index shape).encode json = _
  unfold Snapshot.encode
  rw [hinvalid]
  rfl

/-- A snapshot that carries the shape of a candidate's scope already is not encoded with it. -/
theorem carried_scope_refuses :
    let carrying := Sample.snapshot.withContexts [(0, Sample.shape)]
    carrying.encode (jsonText Sample.text) = .ok ((jsonText Sample.text).toVec carrying) ∧
      (carrying.encodeWithShapes (jsonText Sample.text) [(0, Sample.shape)]).1 = .error "invalid X11 restart snapshot" := by
  intro carrying
  have hbase : ((jsonText Sample.text).toVec carrying).length ≤ 1000 := Sample.carrying_length
  have hcost := Sample.shape_length
  have hseparator : separatorCost carrying.monitors[0]? = 1 := rfl
  have hencode : carrying.encode (jsonText Sample.text) = .ok ((jsonText Sample.text).toVec carrying) :=
    encode_eq_ok.2 ⟨by decide +kernel, Nat.le_trans hbase (by decide), rfl⟩
  refine ⟨hencode, encodeWithShapes_refused hencode (by decide +kernel) (by decide +kernel) ?_⟩
  rw [hseparator]
  unfold maxRestartPropertyBytes
  omega

end Jwm.Restart
