/-
Tag views of a monitor (`core/models.rs`). A monitor keeps layout parameters per tag in its
`Pertag`, mirrors those of the current slot in live fields, and names the viewed tags by the active
one of two tag masks.
-/
import Jwm.Core.Models
import Jwm.Data.Mask
import Jwm.Data.Vec

namespace Jwm

/-! ## Slots -/

namespace Pertag

def new (showBar : Bool) (tagsLength : Nat) : Pertag where
  curTag := 0
  prevTag := 0
  nMasters := List.replicate (tagsLength + 1) 0
  mFacts := List.replicate (tagsLength + 1) 0.0
  gaps := List.replicate (tagsLength + 1) 0
  lts := List.replicate (tagsLength + 1) .fibonacci
  prevLts := List.replicate (tagsLength + 1) .tile
  showBars := List.replicate (tagsLength + 1) showBar
  sel := List.replicate (tagsLength + 1) none

/-- Whether `mask` selects every tag; a single tag is not "all". -/
def isAllTags (p : Pertag) (mask : BitVec 32) : Bool :=
  let tags := p.sel.length - 1
  if mask == BitVec.allOnes 32 then true
  else if tags < 2 then false
  else
    let all := if tags ≥ 32 then BitVec.allOnes 32 else lowMask tags
    mask &&& all == all

def clampTag (p : Pertag) (idx : Nat) : Nat :=
  if p.sel.length = 0 then 0 else min idx (p.sel.length - 1)

/-- The slot a mask addresses: 0 for all tags, else its lowest tag. -/
def slotForMask (p : Pertag) (mask : BitVec 32) : Nat :=
  if p.isAllTags mask then 0 else p.clampTag (trailingZeros mask + 1)

def resizeForTags (p : Pertag) (tagsLength : Nat) (nMaster : Nat) (mFact : Float32) (gap : Int) (lt prevLt : LayoutEnum)
    (showBar : Bool) : Pertag :=
  let tagsLength := max 1 (min tagsLength 31)
  let len := tagsLength + 1
  if p.sel.length = len then p
  else
    let curTag := if p.curTag ≥ len then tagsLength else p.curTag
    { curTag := curTag
      prevTag := if p.prevTag ≥ len then curTag else p.prevTag
      nMasters := resize p.nMasters len nMaster
      mFacts := resize p.mFacts len mFact
      gaps := resize p.gaps len gap
      lts := resize p.lts len lt
      prevLts := resize p.prevLts len prevLt
      showBars := resize p.showBars len showBar
      sel := resize p.sel len none }

end Pertag

/-! ## Views -/

namespace WMMonitor

def new : WMMonitor where
  num := 0
  ltSymbol := ""
  layout := { mFact := 0.55, nMaster := 1, gap := 0 }
  layoutDefaults := { mFact := 0.55, nMaster := 1, gap := 0 }
  geometry := { mX := 0, mY := 0, mW := 0, mH := 0, wX := 0, wY := 0, wW := 0, wH := 0 }
  selTags := 0
  tagSet := fun _ => 0
  sel := none
  lt := .fibonacci
  prevLt := .tile
  pertag := none
  layoutResizes := .empty

variable (m : WMMonitor)

def activeTags : BitVec 32 := m.tagSet m.selTags

def setTags (i : Fin 2) (mask : BitVec 32) : WMMonitor :=
  { m with tagSet := Function.update m.tagSet i mask }

/-- Switch the `Pertag` to a slot and load its parameters into the live fields. -/
def applyPertagContext (newTagIdx : Nat) : WMMonitor :=
  let m := match m.pertag with
    | none => m
    | some p =>
      let idx := p.clampTag newTagIdx
      { m with
        pertag := some { p with prevTag := p.curTag, curTag := idx }
        layout :=
          { nMaster := p.nMasters[idx]?.getD m.layout.nMaster
            mFact := p.mFacts[idx]?.getD m.layout.mFact
            gap := p.gaps[idx]?.getD m.layout.gap }
        lt := p.lts[idx]?.getD m.lt
        prevLt := p.prevLts[idx]?.getD m.prevLt }
  { m with ltSymbol := m.lt.symbol }

def reloadCurrentTagContext : WMMonitor :=
  m.applyPertagContext ((m.pertag.map (·.curTag)).getD 0)

/-- The mask `view_tag` is asked for. -/
def viewMask (targetTagMask : BitVec 32) (toggle : Bool) : BitVec 32 :=
  if toggle then m.activeTags ^^^ targetTagMask else targetTagMask

/-- The slot `view_tag` moves to for a mask. -/
def viewSlot (tagMask : BitVec 32) : Nat :=
  if m.pertag.any (·.isAllTags tagMask) then 0
  else
    let currentCurTag := (m.pertag.map (·.curTag)).getD 1
    -- several tags keep the current slot while it is among them
    if currentCurTag > 0 && (tagMask &&& 1#32 <<< ((currentCurTag - 1) % 32)) != 0 then currentCurTag
    else trailingZeros tagMask + 1

/-- The other tag set becomes the active one and holds `mask`. -/
def switchTags (mask : BitVec 32) : WMMonitor :=
  WMMonitor.setTags { m with selTags := m.selTags + 1 } (m.selTags + 1) mask

/-- `view_tag`, with the slot it returns. -/
def viewTag (targetTagMask : BitVec 32) (toggle : Bool) : WMMonitor × Nat :=
  let tagMask := m.viewMask targetTagMask toggle
  -- never view no tag at all
  if tagMask = 0 then (m, (m.pertag.map (·.curTag)).getD 1)
  else
    let m := m.switchTags tagMask
    let newCurTag := m.viewSlot tagMask
    (m.applyPertagContext newCurTag, newCurTag)

def updateCurrentTagLayoutParams : WMMonitor :=
  match m.pertag with
  | none => m
  | some p =>
    let cur := p.clampTag p.curTag
    let p := { p with
      nMasters := p.nMasters.set cur m.layout.nMaster
      mFacts := p.mFacts.set cur m.layout.mFact
      gaps := p.gaps.set cur m.layout.gap }
    { m with pertag := some p }

/-! ## Configuration reloads -/

/-- The inner `retune`: values still on the old default follow it. -/
def retune {T : Type} [BEq T] (value «from» dest : T) : T := if value == «from» then dest else value

def retuneLayoutDefaults (defaults : LayoutDefaults) : WMMonitor :=
  let previous := m.layoutDefaults
  let m := { m with layoutDefaults := defaults }
  if previous.mFact == defaults.mFact && previous.nMaster == defaults.nMaster && previous.gap == defaults.gap then m
  else
    let pertag := m.pertag.map fun p =>
      { p with
        mFacts := p.mFacts.map (retune · previous.mFact defaults.mFact)
        nMasters := p.nMasters.map (retune · previous.nMaster defaults.nMaster)
        gaps := p.gaps.map (retune · previous.gap defaults.gap) }
    { m with
      pertag := pertag
      layout :=
        { mFact := retune m.layout.mFact previous.mFact defaults.mFact
          nMaster := retune m.layout.nMaster previous.nMaster defaults.nMaster
          gap := retune m.layout.gap previous.gap defaults.gap } }

/-- The slot `sync_tag_slots` falls back to when the active mask lost its tags. -/
def repairSlot (p : Pertag) (tagsLength : Nat) : Nat :=
  if p.curTag = 0 || p.curTag > tagsLength then min 1 tagsLength else p.curTag

/-- `sync_tag_slots`, the part that repairs an active mask left without a tag. -/
def repairActiveTags (tagsLength : Nat) (tagmask : BitVec 32) : WMMonitor :=
  if m.activeTags ≠ 0 then m
  else
    match m.pertag with
    | none => m.setTags m.selTags 1
    | some p =>
      let curTag := repairSlot p tagsLength
      let bit := checkedBit (curTag - 1) &&& tagmask
      if bit = 0 then WMMonitor.setTags { m with pertag := some { p with curTag := 1 } } m.selTags 1
      else WMMonitor.setTags { m with pertag := some { p with curTag := curTag } } m.selTags bit

/-- The part that moves the slot to one the active mask names. -/
def describeActiveTags : WMMonitor :=
  match m.pertag with
  | none => m
  | some p =>
    let active := m.activeTags
    if p.isAllTags active then { m with pertag := some { p with curTag := 0 } }
    else
      let currentBit := if p.curTag = 0 then 0 else checkedBit (p.curTag - 1)
      if active &&& currentBit = 0 then { m with pertag := some { p with curTag := p.slotForMask active } }
      else m

/-- `sync_tag_slots`: follow a changed number of tags. -/
def syncTagSlots (tagsLength : Nat) (tagmask : BitVec 32) : WMMonitor :=
  let pertag := m.pertag.map fun p =>
    p.resizeForTags tagsLength m.layoutDefaults.nMaster m.layoutDefaults.mFact m.layoutDefaults.gap m.lt m.prevLt
      (p.showBars.head?.getD true)
  let m := { m with pertag := pertag, tagSet := fun i => m.tagSet i &&& tagmask }
  ((m.repairActiveTags tagsLength tagmask).describeActiveTags).reloadCurrentTagContext

/-- `set_new_layout` on a monitor that exists: the old layout becomes the previous one, live and in
the slot. -/
def setNewLayout (layout : LayoutEnum) (curTag : Nat) : WMMonitor :=
  if m.lt = layout then m
  else
    { m with
      prevLt := m.lt
      lt := layout
      pertag := m.pertag.map fun p =>
        if curTag < p.lts.length then
          { p with
            prevLts := match p.lts[curTag]? with
              | some prev => p.prevLts.set curTag prev
              | none => p.prevLts
            lts := p.lts.set curTag layout }
        else p }

end WMMonitor

end Jwm
