/-
What the sanitizers of notifications come to (`sanitize_chars`, `sanitize_action_iter`, `parse_flat_actions` in
`jwm/features/notifications.rs`): the streaming loops against the rules that name their results at once.
-/
import Jwm.Features.NotificationText
import Mathlib.Data.List.DropRight

namespace Jwm.Features

open Jwm.Ipc (isWhitespace)
open List Value

/-! ## Text -/

variable {limit : Nat} {out : List Char}

/-- No more than `limit` characters, the last of them an ellipsis where text is missing. -/
def cut (limit : Nat) (text : List Char) : List Char :=
  if text.length ≤ limit then text else text.take (limit - 1) ++ ['\u2026']

def printable (c : Char) : Char := if isControl c then ' ' else c

def plainText (chars : List Char) (limit : Nat) : List Char :=
  if limit = 0 then [] else cut limit (((chars.map printable).dropWhile isWhitespace).rdropWhile isWhitespace)

theorem rdropWhile_append_cons {α : Type} {p : α → Bool} {x : α} (h : p x = false) (xs ys : List α) :
    (xs ++ x :: ys).rdropWhile p = xs ++ x :: ys.rdropWhile p := by
  by_cases hys : ys.reverse.dropWhile p = [] <;> simp [rdropWhile, dropWhile_append, h, hys]

theorem pushAll_eq (hlimit : 0 < limit) {chars : List Char} (h : out.length ≤ limit) :
    pushAll limit out chars = (cut limit (out ++ chars), !decide ((out ++ chars).length ≤ limit)) := by
  induction chars generalizing out with
  | nil => simp [pushAll, cut, h]
  | cons c chars ih =>
    by_cases hfull : out.length = limit
    · have hlong : ¬ (out ++ c :: chars).length ≤ limit := by simp; omega
      simp only [pushAll, pushSanitizedChar, hfull, if_true, cut, hlong, if_false]
      rw [take_append_of_le_length (by omega), ← hfull, dropLast_eq_take]
      simp
    · have hroom : (out ++ [c]).length ≤ limit := by simp; omega
      simp only [pushAll, pushSanitizedChar, hfull, if_false, ih hroom, append_assoc, singleton_append]

/-- What the loop keeps of white space is enough to see that the text is cut. -/
theorem sanitizeFrom_eq (hlimit : 0 < limit) {chars space : List Char} (hlength : out.length ≤ limit)
    (hlast : ∀ c ∈ out.getLast?, isWhitespace c = false) (hspace : ∀ c ∈ space, isWhitespace c = true)
    (hout : out = [] → space = []) :
    sanitizeFrom limit out (space.take (limit + 1 - out.length)) chars = cut limit ((out ++ space ++
      (if out = [] then (chars.map printable).dropWhile isWhitespace else chars.map printable)).rdropWhile isWhitespace) := by
  induction chars generalizing out space with
  | nil =>
    rcases eq_nil_or_concat' out with rfl | ⟨init, c, rfl⟩
    · simp [sanitizeFrom, hout rfl, cut]
    · have hc : isWhitespace c = false := hlast c (by simp)
      have hdrop : space.rdropWhile isWhitespace = [] := rdropWhile_eq_nil_iff.2 hspace
      simpa [sanitizeFrom, rdropWhile_append_cons hc, hdrop, cut] using fun h => absurd hlength (by simp; omega)
  | cons ch chars ih =>
    rw [sanitizeFrom, ← printable]
    by_cases hwhite : isWhitespace (printable ch) = true
    · rcases eq_or_ne out [] with rfl | hne
      · simpa [hout rfl, hwhite] using ih hlength hlast hspace hout
      · have hmore := @ih out (space ++ [printable ch]) hlength hlast (by simp_all [or_imp]) fun h => absurd h hne
        rw [if_pos hwhite]
        by_cases hroom : space.length < limit + 1 - out.length
        · rw [take_of_length_le (by simp; omega)] at hmore
          rw [take_of_length_le (by omega), if_pos (by simpa [hne] using hroom)]
          simpa [hne] using hmore
        · rw [take_append_of_le_length (by omega)] at hmore
          rw [if_neg (by simp [hne]; omega)]
          simpa [hne] using hmore
    · have hvisible : isWhitespace (printable ch) = false := by simpa using hwhite
      -- From here on nothing is trimmed at the front.
      have hrest : (if out = [] then ((ch :: chars).map printable).dropWhile isWhitespace else (ch :: chars).map printable) =
          printable ch :: chars.map printable := by simp [hvisible]
      rw [if_neg hwhite, pushAll_eq hlimit hlength, hrest]
      by_cases hfits : (out ++ (space ++ [printable ch])).length ≤ limit
      · have hall : space.take (limit + 1 - out.length) = space := take_of_length_le (by simp at hfits; omega)
        have hnext := @ih _ [] hfits (by simp [hvisible]) (by simp) (by simp)
        have hcut : cut limit (out ++ (space ++ [printable ch])) = _ := if_pos hfits
        rw [hall, hcut]
        simpa only [hfits, decide_true, Bool.not_true, take_nil, append_nil, append_eq_nil_iff, cons_ne_nil,
          and_false, if_false, append_assoc, singleton_append] using hnext
      · have hlong : ¬ (out ++ (space.take (limit + 1 - out.length) ++ [printable ch])).length ≤ limit := by
          simp at hfits ⊢; omega
        have hlong' : ¬ (out ++ space ++ printable ch :: (chars.map printable).rdropWhile isWhitespace).length ≤ limit := by
          simp at hfits ⊢; omega
        have hsame : (out ++ (space.take (limit + 1 - out.length) ++ [printable ch])).take (limit - 1) =
            (out ++ space ++ printable ch :: (chars.map printable).rdropWhile isWhitespace).take (limit - 1) := by
          simp only [length_append, length_singleton] at hfits
          have htaken : min (limit - 1 - out.length) (limit + 1 - out.length) = limit - 1 - out.length := by omega
          have hleft : limit - 1 - out.length - min (limit + 1 - out.length) space.length = 0 := by omega
          have hright : limit - 1 - out.length - space.length = 0 := by omega
          simp only [append_assoc, take_append, length_take, take_take, htaken, hleft, hright, take_zero]
        simp only [rdropWhile_append_cons hvisible, cut, hlong, hlong', if_false, hsame, decide_false, Bool.not_false]

theorem sanitizeChars_eq (chars : List Char) (limit : Nat) : sanitizeChars chars limit = plainText chars limit := by
  unfold sanitizeChars plainText
  split
  · rfl
  · simpa using @sanitizeFrom_eq limit [] (Nat.pos_of_ne_zero ‹_›) chars [] (Nat.zero_le _) (by simp) (by simp) (by simp)

/-! ## Actions -/

/-- `chunks(2)`: a trailing key is a chunk of its own. -/
def chunks {α : Type} : List α → List (List α)
  | [] => []
  | [key] => [[key]]
  | key :: label :: rest => [key, label] :: chunks rest

def chunkAction (pair : List Value) : NotificationAction :=
  ⟨(pair[0]?.bind asStr).getD "", (pair[1]?.bind asStr).getD ""⟩

/-- The loop of `parse_flat_actions`. -/
def parseFlatActionsFrom (kept : List NotificationAction) : List (List Value) → List NotificationAction
  | [] => kept
  | pair :: pairs =>
    let key := (pair[0]?.bind asStr).getD ""
    if !actionKeyIsUsable key then parseFlatActionsFrom kept pairs
    else if kept.length = maxActions ∧ key ≠ defaultKey then parseFlatActionsFrom kept pairs
    else
      let action := chunkAction pair
      if kept.length < maxActions then
        let kept := kept ++ [action]
        if kept.length = maxActions ∧ (key = defaultKey ∨ kept.any fun action => action.key = defaultKey) then kept
        else parseFlatActionsFrom kept pairs
      else kept.set (maxActions - 1) action

def parseFlatActions (items : List Value) : List NotificationAction := parseFlatActionsFrom [] (chunks items)

/-- The pairs of a flat list by their places: a key at each even place, its label at the next one. -/
def flatActions (items : List Value) : List NotificationAction :=
  (range ((items.length + 1) / 2)).map fun i =>
    ⟨(items[2 * i]?.bind asStr).getD "", (items[2 * i + 1]?.bind asStr).getD ""⟩

theorem chunks_actions (items : List Value) : (chunks items).map chunkAction = flatActions items := by
  unfold flatActions
  fun_induction chunks items with
  | case1 => rfl
  | case2 key => simp [chunkAction]
  | case3 key label rest ih =>
    have hlength : ((key :: label :: rest).length + 1) / 2 = (rest.length + 1) / 2 + 1 := by
      simp only [length_cons]
      omega
    rw [map_cons, ih, hlength, range_succ_eq_map, map_cons, map_map]
    rfl

/-- The rule of both loops: full, they still take the first later default in the last place. -/
def keepFrom (kept : List NotificationAction) : List NotificationAction → List NotificationAction
  | [] => kept
  | action :: actions =>
    if !actionKeyIsUsable action.key then keepFrom kept actions
    else if kept.length = maxActions ∧ action.key ≠ defaultKey then keepFrom kept actions
    else if kept.length < maxActions then
      let kept := kept ++ [action]
      if kept.length = maxActions ∧ (action.key = defaultKey ∨ kept.any fun action => action.key = defaultKey) then kept
      else keepFrom kept actions
    else kept.set (maxActions - 1) action

theorem parseFlatActionsFrom_eq (kept : List NotificationAction) (pairs : List (List Value)) :
    parseFlatActionsFrom kept pairs = keepFrom kept (pairs.map chunkAction) := by
  induction pairs generalizing kept with
  | nil => rfl
  | cons pair pairs ih =>
    simp only [parseFlatActionsFrom, ih]
    rfl

/-- The first usable actions, the last of them displaced by the first later default where they have none. -/
def plainActions (actions : List NotificationAction) : List NotificationAction :=
  let usable := actions.filter fun action => actionKeyIsUsable action.key
  let first := usable.take maxActions
  if first.any fun action => action.key = defaultKey then first
  else
    match (usable.drop maxActions).find? fun action => action.key = defaultKey with
    | some action => first.take (maxActions - 1) ++ [action]
    | none => first

def labelled (action : NotificationAction) : NotificationAction := { action with label := sanitizedLabel action }

theorem sanitizeActionsFrom_eq (kept actions : List NotificationAction) :
    sanitizeActionsFrom (kept.map labelled) actions = (keepFrom kept actions).map labelled := by
  induction actions generalizing kept with
  | nil => rfl
  | cons action actions ih =>
    have hpush := ih (kept ++ [action])
    have hlabel : ({ action with label := sanitizedLabel action } : NotificationAction) = labelled action := rfl
    have hkey : ∀ a, (labelled a).key = a.key := fun _ => rfl
    simp only [map_append, map_cons, map_nil] at hpush
    simp only [sanitizeActionsFrom, keepFrom, length_map, ih, hlabel, hpush, hkey, length_append, any_append,
      any_map, Function.comp_def, length_singleton, any_cons, any_nil]
    split_ifs <;> simp only [map_append, map_cons, map_nil, map_set]

theorem plainActions_of_full {kept : List NotificationAction} (actions : List NotificationAction)
    (hkept : ∀ a ∈ kept, actionKeyIsUsable a.key = true) (hlength : kept.length = maxActions) :
    plainActions (kept ++ actions) =
      if kept.any fun a => a.key = defaultKey then kept
      else
        match (actions.filter fun a => actionKeyIsUsable a.key).find? fun a => a.key = defaultKey with
        | some action => kept.take (maxActions - 1) ++ [action]
        | none => kept := by
  have hall : kept.filter (fun a => actionKeyIsUsable a.key) = kept := filter_eq_self.2 hkept
  simp only [plainActions, filter_append, hall, ← hlength, take_left, drop_left]

theorem keepFrom_eq {kept actions : List NotificationAction} (hkept : ∀ a ∈ kept, actionKeyIsUsable a.key = true)
    (hlength : kept.length ≤ maxActions) (hopen : kept.length = maxActions → (kept.any fun a => a.key = defaultKey) = false) :
    keepFrom kept actions = plainActions (kept ++ actions) := by
  induction actions generalizing kept with
  | nil =>
    have hall : kept.filter (fun a => actionKeyIsUsable a.key) = kept := filter_eq_self.2 hkept
    simp [keepFrom, plainActions, hall, take_of_length_le hlength, drop_of_length_le hlength]
  | cons action actions ih =>
    have hall : kept.filter (fun a => actionKeyIsUsable a.key) = kept := filter_eq_self.2 hkept
    rw [keepFrom]
    by_cases husable : actionKeyIsUsable action.key = true
    · by_cases hfull : kept.length = maxActions
      · have hnone := hopen hfull
        rw [plainActions_of_full _ hkept hfull, hnone, if_neg (by simpa using husable), filter_cons_of_pos (by simpa using husable)]
        by_cases hdefault : action.key = defaultKey
        · have hlast : (maxActions - 1) < kept.length := by rw [hfull]; decide
          have hdrop : kept.drop (maxActions - 1 + 1) = [] := drop_eq_nil_of_le (by rw [hfull]; decide)
          rw [if_neg fun h => h.2 hdefault, if_neg (by omega), set_eq_take_append_cons_drop, if_pos hlast, hdrop]
          simp [hdefault]
        · have hskip := ih hkept hlength hopen
          rw [plainActions_of_full _ hkept hfull, hnone] at hskip
          simpa [hfull, hdefault] using hskip
      · have hroom : kept.length < maxActions := by omega
        have hpush : ∀ a ∈ kept ++ [action], actionKeyIsUsable a.key = true := by simp_all [or_imp]
        have happend : kept ++ action :: actions = kept ++ [action] ++ actions := by simp
        rw [if_neg (by simpa using husable), if_neg fun h => hfull h.1, if_pos hroom, happend]
        dsimp only
        split
        · rename_i hdone
          rw [plainActions_of_full _ hpush hdone.1, if_pos (by simpa using hdone.2.elim (fun h => .inr h) fun h => by simpa using h)]
        · rename_i hmore
          refine ih hpush (by simp; omega) fun hlen => Bool.eq_false_iff.2 fun hany => hmore ⟨hlen, .inr hany⟩
    · rw [if_pos (by simpa using husable), ih hkept hlength hopen]
      simp [plainActions, hall, husable]

theorem parseFlatActions_eq (items : List Value) : parseFlatActions items = plainActions (flatActions items) := by
  rw [parseFlatActions, parseFlatActionsFrom_eq, chunks_actions]
  exact keepFrom_eq (by simp) (by simp) (by simp [maxActions])

theorem sanitizeActions_eq (actions : List NotificationAction) : sanitizeActions actions = (plainActions actions).map labelled := by
  have hparse := @keepFrom_eq [] actions (by simp) (by simp) (by simp [maxActions])
  rw [nil_append] at hparse
  rw [← hparse, ← sanitizeActionsFrom_eq]
  rfl

theorem plainActions_spec (actions : List NotificationAction) : (plainActions actions).Sublist actions ∧
    (plainActions actions).length ≤ maxActions ∧ ∀ a ∈ plainActions actions, actionKeyIsUsable a.key = true := by
  have hsub : (plainActions actions).Sublist (actions.filter fun a => actionKeyIsUsable a.key) ∧
      (plainActions actions).length ≤ maxActions := by
    unfold plainActions
    generalize actions.filter (fun a => actionKeyIsUsable a.key) = usable
    dsimp only
    split
    · exact ⟨take_sublist .., by simp⟩
    · split
      · rename_i action hfind
        have hlast : [action].Sublist (usable.drop maxActions) := singleton_sublist.2 (mem_of_find?_eq_some hfind)
        have hboth : List.Sublist ((usable.take maxActions).take (maxActions - 1) ++ [action])
            (usable.take maxActions ++ usable.drop maxActions) := (take_sublist ..).append hlast
        rw [take_append_drop] at hboth
        exact ⟨hboth, by simp [maxActions]⟩
      · exact ⟨take_sublist .., by simp⟩
  exact ⟨hsub.1.trans filter_sublist, hsub.2, fun a ha => by simpa using (mem_filter.1 (hsub.1.subset ha)).2⟩

/-- What is left of a text and of a sender's actions, whatever they hold. -/
theorem notification_texts_plain (chars : List Char) (limit : Nat) (items : List Value) :
    sanitizeChars chars limit = plainText chars limit ∧
      sanitizeChars (sanitizeChars chars limit) limit = sanitizeChars chars limit ∧
      sanitizeActions (parseFlatActions items) = sanitizeActions (flatActions items) ∧
      sanitizeActions (sanitizeActions (parseFlatActions items)) = sanitizeActions (parseFlatActions items) ∧
      (sanitizeActions (parseFlatActions items)).length ≤ maxActions ∧
      (∀ a ∈ sanitizeActions (parseFlatActions items), actionKeyIsUsable a.key = true) ∧
      ((sanitizeActions (parseFlatActions items)).map (·.key)).Sublist ((flatActions items).map (·.key)) ∧
      sanitizeActions (parseFlatActions items) = (plainActions (flatActions items)).map labelled := by
  obtain ⟨hsub, hlength, husable⟩ := plainActions_spec (flatActions items)
  have hkept := kept_sanitizeActions (parseFlatActions items)
  -- The decoder's list is the plain one already, so that the sanitizer's own choice changes nothing in it.
  have hplain : plainActions (plainActions (flatActions items)) = plainActions (flatActions items) := by
    have hall : (plainActions (flatActions items)).filter (fun a => actionKeyIsUsable a.key) = plainActions (flatActions items) :=
      filter_eq_self.2 husable
    generalize plainActions (flatActions items) = plain at hlength hall
    simp [plainActions, hall, take_of_length_le hlength, drop_of_length_le hlength]
  have hsame : sanitizeActions (parseFlatActions items) = (plainActions (flatActions items)).map labelled := by
    rw [sanitizeActions_eq, parseFlatActions_eq, hplain]
  have hkeys : ∀ actions : List NotificationAction, (actions.map labelled).map (·.key) = actions.map (·.key) := by simp [labelled]
  refine ⟨sanitizeChars_eq chars limit, sanitizeChars_of_clean (clean_sanitizeChars chars limit), ?_,
    sanitizeActions_of_kept hkept.1 hkept.2, hkept.1, fun a ha => (hkept.2 a ha).usable, ?_, hsame⟩
  · rw [hsame, sanitizeActions_eq]
  · rw [hsame, hkeys]
    exact hsub.map _

/-- Past six usable pairs and a blank one, the lone trailing `default` takes the sixth place. -/
theorem notification_texts_plain_rescue :
    sanitizeActions (parseFlatActions ((["a", "A", " ", "B", "c", "C", "d", "D", "e", "E", "f", "F", "g", "G",
        "default"].map Value.string))) =
      [⟨"a", "A"⟩, ⟨"c", "C"⟩, ⟨"d", "D"⟩, ⟨"e", "E"⟩, ⟨"f", "F"⟩, ⟨"default", "default"⟩] := by
  rw [(notification_texts_plain [] 0 _).2.2.2.2.2.2.2]
  decide +kernel

end Jwm.Features
