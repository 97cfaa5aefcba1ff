/-
Codes over characters that can be told from whatever follows them, put together piece by piece: each piece reads
back what it wrote and leaves the rest.
-/
import Mathlib.Data.List.Basic

namespace Jwm

/-- A writer with a reader that stops where the writer did. -/
structure PrefixCode (α : Type) where
  encode : α → List Char
  decode : List Char → Option (α × List Char)
  decode_encode : ∀ a rest, decode (encode a ++ rest) = some (a, rest)

namespace PrefixCode

variable {α β : Type}

def followedBy (c : PrefixCode α) (text : List Char) : PrefixCode α where
  encode a := c.encode a ++ text
  decode input := (c.decode input).bind fun r => if text.isPrefixOf r.2 then some (r.1, r.2.drop text.length) else none
  decode_encode a rest := by
    have hprefix : text.isPrefixOf (text ++ rest) = true := List.isPrefixOf_iff_prefix.2 (List.prefix_append text rest)
    rw [List.append_assoc, c.decode_encode, Option.bind_some, if_pos hprefix, List.drop_left]

def preceded (text : List Char) (c : PrefixCode α) : PrefixCode α where
  encode a := text ++ c.encode a
  decode input := if text.isPrefixOf input then c.decode (input.drop text.length) else none
  decode_encode a rest := by
    have hprefix : text.isPrefixOf (text ++ (c.encode a ++ rest)) = true :=
      List.isPrefixOf_iff_prefix.2 (List.prefix_append _ _)
    rw [List.append_assoc, if_pos hprefix, List.drop_left, c.decode_encode]

def pair (c : PrefixCode α) (d : PrefixCode β) : PrefixCode (α × β) where
  encode a := c.encode a.1 ++ d.encode a.2
  decode input := (c.decode input).bind fun r => (d.decode r.2).map fun r' => ((r.1, r'.1), r'.2)
  decode_encode a rest := by
    rw [List.append_assoc, c.decode_encode, Option.bind_some, d.decode_encode, Option.map_some]

/-- A code for values that can be told from their images. -/
def via (c : PrefixCode α) (image : β → α) (read : α → Option β) (h : ∀ b, read (image b) = some b) : PrefixCode β where
  encode b := c.encode (image b)
  decode input := (c.decode input).bind fun r => (read r.1).map fun b => (b, r.2)
  decode_encode b rest := by
    rw [c.decode_encode, Option.bind_some, h, Option.map_some]

/-- A part that may be left out: its name is not how what follows begins. -/
def optional (name : List Char) (c : PrefixCode α) (next : List Char) (hnext : ∀ rest, name.isPrefixOf (next ++ rest) = false) :
    PrefixCode (Option α) where
  encode
    | none => next
    | some a => ((c.preceded name).followedBy next).encode a
  decode input :=
    if name.isPrefixOf input then (((c.preceded name).followedBy next).decode input).map fun r => (some r.1, r.2)
    else if next.isPrefixOf input then some (none, input.drop next.length)
    else none
  decode_encode a rest := by
    cases a with
    | none =>
      have hprefix : next.isPrefixOf (next ++ rest) = true := List.isPrefixOf_iff_prefix.2 (List.prefix_append _ _)
      dsimp only
      rw [hnext, if_neg Bool.false_ne_true, if_pos hprefix, List.drop_left]
    | some a =>
      have hprefix : name.isPrefixOf (((c.preceded name).followedBy next).encode a ++ rest) = true := by
        show name.isPrefixOf (name ++ c.encode a ++ next ++ rest) = true
        rw [List.append_assoc, List.append_assoc]
        exact List.isPrefixOf_iff_prefix.2 (List.prefix_append _ _)
      dsimp only
      rw [if_pos hprefix, decode_encode, Option.map_some]

/-! ## Lists -/

/-- The items after the first, up to the closing character. -/
def encodeTail (c : PrefixCode α) (comma close : Char) : List α → List Char
  | [] => [close]
  | a :: items => comma :: c.encode a ++ encodeTail c comma close items

def decodeTail (c : PrefixCode α) (comma close : Char) : Nat → List Char → Option (List α × List Char)
  | 0, _ => none
  | _ + 1, [] => none
  | n + 1, x :: rest =>
    if x = close then some ([], rest)
    else if x = comma then
      (c.decode rest).bind fun r => (decodeTail c comma close n r.2).map fun r' => (r.1 :: r'.1, r'.2)
    else none

theorem decodeTail_encodeTail (c : PrefixCode α) {comma close : Char} (hne : comma ≠ close) :
    ∀ (items : List α) (rest : List Char) {n : Nat}, items.length < n →
      decodeTail c comma close n (encodeTail c comma close items ++ rest) = some (items, rest)
  | [], rest, n + 1, _ => by
    rw [encodeTail, List.singleton_append, decodeTail, if_pos rfl]
  | a :: items, rest, n + 1, h => by
    rw [encodeTail, List.append_assoc, List.cons_append, decodeTail, if_neg hne, if_pos rfl, c.decode_encode,
      Option.bind_some, decodeTail_encodeTail c hne items rest (Nat.lt_of_succ_lt_succ h), Option.map_some]

theorem length_le_encodeTail (c : PrefixCode α) (comma close : Char) :
    ∀ items : List α, items.length < (encodeTail c comma close items).length
  | [] => Nat.zero_lt_one
  | a :: items => by
    have ih := length_le_encodeTail c comma close items
    rw [encodeTail, List.length_append, List.length_cons, List.length_cons]
    omega

/-- A list between brackets, its items separated; an item starts otherwise than the list ends. -/
def list (c : PrefixCode α) (opening comma close : Char) (hne : comma ≠ close)
    (hitem : ∀ a, ∃ x rest, c.encode a = x :: rest ∧ x ≠ close) : PrefixCode (List α) where
  encode
    | [] => [opening, close]
    | a :: items => opening :: c.encode a ++ encodeTail c comma close items
  decode
    | x :: y :: rest =>
      if x ≠ opening then none
      else if y = close then some ([], rest)
      else (c.decode (y :: rest)).bind fun r =>
        (decodeTail c comma close r.2.length r.2).map fun r' => (r.1 :: r'.1, r'.2)
    | _ => none
  decode_encode items rest := by
    cases items with
    | nil =>
      dsimp only [List.cons_append, List.nil_append]
      rw [if_neg (fun h => h rfl), if_pos rfl]
    | cons a items =>
      obtain ⟨y, word, hword, hy⟩ := hitem a
      have hlength : items.length < (encodeTail c comma close items ++ rest).length := by
        have htail := length_le_encodeTail c comma close items
        rw [List.length_append]
        omega
      have hdecode := c.decode_encode a (encodeTail c comma close items ++ rest)
      dsimp only
      rw [hword] at hdecode ⊢
      dsimp only [List.cons_append]
      rw [if_neg (fun h => h rfl), if_neg hy]
      rw [List.cons_append] at hdecode
      rw [List.append_assoc, hdecode, Option.bind_some, decodeTail_encodeTail c hne items rest hlength, Option.map_some]

end PrefixCode

end Jwm
