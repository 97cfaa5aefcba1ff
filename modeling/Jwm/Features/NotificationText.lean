/-
The texts of a notification (`sanitize_chars`, `sanitize_action_iter` in `jwm/features/notifications.rs`): one line,
trimmed, cut to a limit. What they let through passes again unchanged.
-/
import Jwm.Features.AgentSessions
import Jwm.Ipc.IpcServer

namespace Jwm.Features

open Jwm.Ipc (isWhitespace)
open List Bool

/-! ## Sanitizing text -/

/-- `push_sanitized_char`, with whether the text is full. -/
def pushSanitizedChar (out : List Char) (ch : Char) (limit : Nat) : List Char × Bool :=
  if out.length = limit then (out.dropLast ++ ['\u2026'], true) else (out ++ [ch], false)

def pushAll (limit : Nat) : List Char → List Char → List Char × Bool
  | out, [] => (out, false)
  | out, ch :: chars =>
    match pushSanitizedChar out ch limit with
    | (out, true) => (out, true)
    | (out, false) => pushAll limit out chars

/-- The loop of `sanitize_chars`; `pending` is whitespace not yet known to be internal. -/
def sanitizeFrom (limit : Nat) : List Char → List Char → List Char → List Char
  | out, _, [] => out
  | out, pending, ch :: chars =>
    let ch := if isControl ch then ' ' else ch
    if isWhitespace ch then
      if !out.isEmpty && pending.length < limit + 1 - out.length then sanitizeFrom limit out (pending ++ [ch]) chars
      else sanitizeFrom limit out pending chars
    else
      match pushAll limit out (pending ++ [ch]) with
      | (out, true) => out
      | (out, false) => sanitizeFrom limit out [] chars

def sanitizeChars (chars : List Char) (limit : Nat) : List Char :=
  if limit = 0 then [] else sanitizeFrom limit [] [] chars

def maxTextChars : Nat := 96

def maxLabelChars : Nat := 20

def sanitize (text : String) : String := String.ofList (sanitizeChars text.toList maxTextChars)

def sanitizeLabel (text : String) : String := String.ofList (sanitizeChars text.toList maxLabelChars)

/-! ## Clean text -/

/-- No control characters, and no more than the limit; text that starts visibly. -/
structure Opened (limit : Nat) (text : List Char) : Prop where
  length : text.length ≤ limit
  printable : ∀ c ∈ text, isControl c = false
  head : ∀ c ∈ text.head?, isWhitespace c = false

/-- Opened text that also ends visibly. -/
structure Clean (limit : Nat) (text : List Char) : Prop extends Opened limit text where
  last : ∀ c ∈ text.getLast?, isWhitespace c = false

theorem clean_nil (limit : Nat) : Clean limit [] := ⟨⟨Nat.zero_le _, nofun, nofun⟩, nofun⟩

variable {limit : Nat}

variable {out : List Char} {c : Char} {text : String}

theorem Opened.ellipsis (h : Opened limit out) (hlimit : 0 < limit)
    (hfull : out.length = limit) : Clean limit (out.dropLast ++ ['\u2026']) := by
  refine ⟨⟨?_, ?_, ?_⟩, ?_⟩
  · rw [length_append, length_dropLast, length_singleton]
    omega
  · intro c hc
    rcases mem_append.1 hc with hc | hc
    · exact h.printable c (mem_of_mem_dropLast hc)
    · rw [mem_singleton.1 hc]
      decide
  · intro c hc
    rw [head?_append] at hc
    cases hd : out.dropLast with
    | nil =>
      rw [hd] at hc
      cases hc
      decide
    | cons a rest =>
      rw [hd] at hc
      obtain ⟨rest', hout⟩ := dropLast_prefix out
      rw [hd] at hout
      refine h.head c ?_
      rw [← hout]
      exact hc
  · intro c hc
    rw [getLast?_append] at hc
    cases hc
    decide

theorem Opened.push (h : Opened limit out) (hroom : out.length < limit)
    (hc : isControl c = false) (hfirst : out = [] → isWhitespace c = false) : Opened limit (out ++ [c]) := by
  refine ⟨?_, ?_, ?_⟩
  · rw [length_append, length_singleton]
    omega
  · intro d hd
    rcases mem_append.1 hd with hd | hd
    · exact h.printable d hd
    · rw [mem_singleton.1 hd, hc]
  · intro d hd
    cases out with
    | nil =>
      cases hd
      exact hfirst rfl
    | cons a out => exact h.head d hd

theorem Opened.pushAll (hlimit : 0 < limit) : ∀ {chars out : List Char}, Opened limit out →
    (∀ c ∈ chars, isControl c = false) → (out = [] → ∀ c ∈ chars.head?, isWhitespace c = false) →
    if (pushAll limit out chars).2 = true then Clean limit (pushAll limit out chars).1
      else Opened limit (pushAll limit out chars).1 ∧ (pushAll limit out chars).1 = out ++ chars
  | [], out, h, _, _ => by
    rw [Features.pushAll, if_neg Bool.false_ne_true, append_nil]
    exact ⟨h, rfl⟩
  | c :: chars, out, h, hchars, hfirst => by
    rw [Features.pushAll]
    unfold pushSanitizedChar
    by_cases hfull : out.length = limit
    · rw [if_pos hfull]
      exact h.ellipsis hlimit hfull
    · rw [if_neg hfull]
      have hlen := h.length
      have hopened := h.push (by omega) (hchars c mem_cons_self) fun hnil => hfirst hnil c rfl
      have ih := Opened.pushAll hlimit hopened (fun d hd => hchars d (mem_cons_of_mem _ hd)) fun hnil => by
        cases out <;> cases hnil
      have happend : out ++ c :: chars = out ++ [c] ++ chars := append_cons out c chars
      rw [happend]
      exact ih

theorem isControl_space : isControl (if isControl c then ' ' else c) = false := by
  by_cases hc : isControl c = true
  · rw [if_pos hc]
    decide
  · rw [if_neg hc]
    exact eq_false_iff.2 hc

theorem clean_sanitizeFrom (hlimit : 0 < limit) : ∀ {chars out pending : List Char}, Clean limit out →
    (∀ c ∈ pending, isControl c = false) → (out = [] → pending = []) → Clean limit (sanitizeFrom limit out pending chars)
  | [], out, pending, h, _, _ => by
    rw [sanitizeFrom]
    exact h
  | ch :: chars, out, pending, h, hpending, hempty => by
    rw [sanitizeFrom]
    have hcontrol := isControl_space (c := ch)
    generalize (if isControl ch then ' ' else ch) = c at hcontrol ⊢
    split
    · split
      · rename_i hroom
        refine clean_sanitizeFrom hlimit h (fun d hd => ?_) fun hnil => ?_
        · rcases mem_append.1 hd with hd | hd
          · exact hpending d hd
          · rw [mem_singleton.1 hd, hcontrol]
        · rw [hnil] at hroom
          cases hroom
      · exact clean_sanitizeFrom hlimit h hpending hempty
    · rename_i hvisible
      have hpushed := @Opened.pushAll limit hlimit (pending ++ [c]) out h.toOpened (fun d hd => by
        rcases mem_append.1 hd with hd | hd
        · exact hpending d hd
        · rw [mem_singleton.1 hd, hcontrol]) fun hnil d hd => by
          rw [hempty hnil] at hd
          cases hd
          exact eq_false_iff.2 hvisible
      cases hresult : pushAll limit out (pending ++ [c]) with
      | mk out' full =>
        rw [hresult] at hpushed
        cases full with
        | true =>
          rw [if_pos rfl] at hpushed
          exact hpushed
        | false =>
          rw [if_neg Bool.false_ne_true] at hpushed
          obtain ⟨hopened, hout⟩ := hpushed
          refine clean_sanitizeFrom hlimit ⟨hopened, fun d hd => ?_⟩ nofun fun _ => rfl
          change out' = out ++ (pending ++ [c]) at hout
          rw [hout, ← append_assoc, getLast?_append] at hd
          cases hd
          exact eq_false_iff.2 hvisible

theorem clean_sanitizeChars (chars : List Char) (limit : Nat) : Clean limit (sanitizeChars chars limit) := by
  unfold sanitizeChars
  split
  · exact clean_nil limit
  · exact clean_sanitizeFrom (by omega) (clean_nil limit) nofun fun _ => rfl

/-! ## Clean text passes unchanged -/

theorem pushAll_of_room : ∀ {chars out : List Char}, out.length + chars.length ≤ limit →
    pushAll limit out chars = (out ++ chars, false)
  | [], out, _ => by rw [pushAll, append_nil]
  | c :: chars, out, h => by
    rw [length_cons] at h
    have hnot : ¬ out.length = limit := by omega
    have hroom : (out ++ [c]).length + chars.length ≤ limit := by
      rw [length_append, length_singleton]
      omega
    have happend : out ++ c :: chars = out ++ [c] ++ chars := append_cons out c chars
    rw [pushAll, pushSanitizedChar, if_neg hnot, happend]
    exact pushAll_of_room hroom

theorem sanitizeFrom_of_clean : ∀ {chars out pending : List Char},
    out.length + pending.length + chars.length ≤ limit → (∀ c ∈ chars, isControl c = false) →
    (∀ c ∈ chars.getLast?, isWhitespace c = false) → (chars = [] → pending = []) →
    (out = [] → pending = [] ∧ ∀ c ∈ chars.head?, isWhitespace c = false) →
    sanitizeFrom limit out pending chars = out ++ pending ++ chars
  | [], out, pending, _, _, _, hdone, _ => by
    rw [sanitizeFrom, hdone rfl, append_nil, append_nil]
  | ch :: chars, out, pending, hlength, hprint, hlast, _, hfirst => by
    rw [length_cons] at hlength
    have hch : (if isControl ch then ' ' else ch) = ch :=
      if_neg (eq_false_iff.1 (hprint ch mem_cons_self))
    have hrest : ∀ c ∈ chars, isControl c = false := fun c hc => hprint c (mem_cons_of_mem _ hc)
    have hend : chars ≠ [] → ∀ c ∈ chars.getLast?, isWhitespace c = false := by
      intro hne c hc
      refine hlast c ?_
      rw [getLast?_cons, Option.mem_def.1 hc]
      rfl
    rw [sanitizeFrom, hch]
    by_cases hspace : isWhitespace ch = true
    · have hne : chars ≠ [] := by
        rintro rfl
        rw [hlast ch rfl] at hspace
        cases hspace
      have hout : out ≠ [] := by
        intro hnil
        rw [(hfirst hnil).2 ch rfl] at hspace
        cases hspace
      have hroom : (!out.isEmpty && decide (pending.length < limit + 1 - out.length)) = true := by
        rw [and_eq_true, not_eq_true', isEmpty_eq_false_iff, decide_eq_true_eq]
        exact ⟨hout, by omega⟩
      have hlen : out.length + (pending ++ [ch]).length + chars.length ≤ limit := by
        rw [length_append, length_singleton]
        omega
      rw [if_pos hspace, if_pos hroom, sanitizeFrom_of_clean hlen hrest (hend hne) (fun h => absurd h hne)
        fun h => absurd h hout]
      simp
    · have hroom : out.length + (pending ++ [ch]).length ≤ limit := by
        rw [length_append, length_singleton]
        omega
      have hlen : (out ++ (pending ++ [ch])).length + ([] : List Char).length + chars.length ≤ limit := by
        rw [length_append, length_append, length_singleton, length_nil]
        omega
      rw [if_neg hspace, pushAll_of_room hroom]
      dsimp only
      rw [sanitizeFrom_of_clean hlen hrest (fun c hc => hend (fun hnil => by rw [hnil] at hc; cases hc) c hc) (fun _ => rfl)
        fun hnil => by cases pending <;> cases out <;> cases hnil]
      simp

theorem sanitizeChars_of_clean {text : List Char} (h : Clean limit text) : sanitizeChars text limit = text := by
  unfold sanitizeChars
  split
  · rename_i hzero
    have hlength := h.length
    rw [hzero, Nat.le_zero, length_eq_zero_iff] at hlength
    exact hlength.symm
  · have hlen : ([] : List Char).length + ([] : List Char).length + text.length ≤ limit := by
      rw [length_nil, Nat.zero_add]
      exact h.length
    rw [sanitizeFrom_of_clean hlen h.printable h.last (fun _ => rfl) fun _ => ⟨rfl, h.head⟩]
    rfl

theorem sanitize_clean (text : String) : Clean maxTextChars (sanitize text).toList := by
  unfold sanitize
  rw [String.toList_ofList]
  exact clean_sanitizeChars _ _

theorem sanitize_of_clean (h : Clean maxTextChars text.toList) : sanitize text = text := by
  unfold sanitize
  rw [sanitizeChars_of_clean h, String.ofList_toList]

theorem sanitizeLabel_clean (text : String) : Clean maxLabelChars (sanitizeLabel text).toList := by
  unfold sanitizeLabel
  rw [String.toList_ofList]
  exact clean_sanitizeChars _ _

theorem sanitizeLabel_of_clean (h : Clean maxLabelChars text.toList) : sanitizeLabel text = text := by
  unfold sanitizeLabel
  rw [sanitizeChars_of_clean h, String.ofList_toList]

/-! ## Actions -/

structure NotificationAction where
  key : String
  label : String
deriving DecidableEq

def maxActions : Nat := 6

def maxActionKeyChars : Nat := 64

def defaultKey : String := "default"

def actionKeyIsUsable (key : String) : Bool :=
  !(key.toList.all isWhitespace) && decide (key.toList.length ≤ maxActionKeyChars)

def sanitizedLabel (action : NotificationAction) : String :=
  let label := sanitizeLabel action.label
  if label.isEmpty then sanitizeLabel action.key else label

/-- The loop of `sanitize_action_iter`: a full list still takes the first later `default` in its last place. -/
def sanitizeActionsFrom (kept : List NotificationAction) : List NotificationAction → List NotificationAction
  | [] => kept
  | action :: actions =>
    if !actionKeyIsUsable action.key then sanitizeActionsFrom kept actions
    else if kept.length = maxActions ∧ action.key ≠ defaultKey then sanitizeActionsFrom kept actions
    else
      let action := { action with label := sanitizedLabel action }
      if kept.length < maxActions then
        let kept := kept ++ [action]
        if kept.length = maxActions ∧ (action.key = defaultKey ∨ kept.any fun action => action.key = defaultKey) then kept
        else sanitizeActionsFrom kept actions
      else kept.set (maxActions - 1) action

def sanitizeActions (actions : List NotificationAction) : List NotificationAction := sanitizeActionsFrom [] actions

/-- An action as the history keeps it. -/
structure KeptAction (action : NotificationAction) : Prop where
  usable : actionKeyIsUsable action.key = true
  clean : Clean maxLabelChars action.label.toList
  label : sanitizedLabel action = action.label

theorem kept_sanitized {action : NotificationAction} (h : actionKeyIsUsable action.key = true) :
    KeptAction { action with label := sanitizedLabel action } := by
  have hclean : Clean maxLabelChars (sanitizedLabel action).toList := by
    unfold sanitizedLabel
    dsimp only
    split
    · exact sanitizeLabel_clean action.key
    · exact sanitizeLabel_clean action.label
  refine ⟨h, hclean, ?_⟩
  have hsame := sanitizeLabel_of_clean hclean
  unfold sanitizedLabel at hsame ⊢
  rw [hsame]
  by_cases hlabel : (sanitizeLabel action.label).isEmpty = true
  · rw [if_pos hlabel]
    by_cases hkey : (sanitizeLabel action.key).isEmpty = true
    · rw [if_pos hkey]
    · rw [if_neg hkey]
  · rw [if_neg hlabel, if_neg hlabel]

theorem kept_sanitizeActionsFrom : ∀ {actions kept : List NotificationAction}, kept.length ≤ maxActions →
    (∀ a ∈ kept, KeptAction a) → (sanitizeActionsFrom kept actions).length ≤ maxActions ∧
      ∀ a ∈ sanitizeActionsFrom kept actions, KeptAction a
  | [], kept, hlength, hkept => ⟨hlength, hkept⟩
  | action :: actions, kept, hlength, hkept => by
    rw [sanitizeActionsFrom]
    split
    · exact kept_sanitizeActionsFrom hlength hkept
    · rename_i husable
      rw [not_eq_true', not_eq_false] at husable
      split
      · exact kept_sanitizeActionsFrom hlength hkept
      · have haction := kept_sanitized husable
        generalize { action with label := sanitizedLabel action } = action' at haction ⊢
        have hpush : ∀ a ∈ kept ++ [action'], KeptAction a := by
          intro a ha
          rcases mem_append.1 ha with ha | ha
          · exact hkept a ha
          · rw [mem_singleton.1 ha]
            exact haction
        dsimp only
        split
        · rename_i hroom
          have hlen : (kept ++ [action']).length ≤ maxActions := by
            rw [length_append, length_singleton]
            omega
          split
          · exact ⟨hlen, hpush⟩
          · exact kept_sanitizeActionsFrom hlen hpush
        · refine ⟨by rw [length_set]; exact hlength, fun a ha => ?_⟩
          rcases mem_or_eq_of_mem_set ha with ha | rfl
          · exact hkept a ha
          · exact haction

theorem kept_sanitizeActions (actions : List NotificationAction) : (sanitizeActions actions).length ≤ maxActions ∧
    ∀ a ∈ sanitizeActions actions, KeptAction a :=
  kept_sanitizeActionsFrom (Nat.zero_le _) nofun

theorem sanitizeActionsFrom_of_kept : ∀ {actions kept : List NotificationAction},
    kept.length + actions.length ≤ maxActions → (∀ a ∈ actions, KeptAction a) →
    sanitizeActionsFrom kept actions = kept ++ actions
  | [], kept, _, _ => by rw [sanitizeActionsFrom, append_nil]
  | action :: actions, kept, hlength, hkept => by
    rw [length_cons] at hlength
    have haction := hkept action mem_cons_self
    have hsame : { action with label := sanitizedLabel action } = action := by rw [haction.label]
    have hlen : (kept ++ [action]).length + actions.length ≤ maxActions := by
      rw [length_append, length_singleton]
      omega
    have ih := sanitizeActionsFrom_of_kept hlen fun a ha => hkept a (mem_cons_of_mem _ ha)
    have husable : ¬ (!actionKeyIsUsable action.key) = true := by
      rw [haction.usable]
      decide
    have hroom : kept.length < maxActions := by omega
    rw [sanitizeActionsFrom, if_neg husable, if_neg fun h => by omega]
    simp only [hsame]
    rw [if_pos hroom]
    split
    · rename_i hfull
      have hnil : actions = [] := by
        rw [← length_eq_zero_iff]
        rw [length_append, length_singleton] at hfull
        omega
      rw [hnil]
    · rw [ih, append_assoc, singleton_append]

theorem sanitizeActions_of_kept {actions : List NotificationAction} (hlength : actions.length ≤ maxActions)
    (h : ∀ a ∈ actions, KeptAction a) : sanitizeActions actions = actions := by
  have hlen : ([] : List NotificationAction).length + actions.length ≤ maxActions := by
    rw [length_nil, Nat.zero_add]
    exact hlength
  unfold sanitizeActions
  rw [sanitizeActionsFrom_of_kept hlen h, nil_append]

end Jwm.Features
