/-
Compact JSON, piece by piece: numbers, truth values, strings with their escapes, and how many bytes each may take.
-/
import Jwm.Data.PrefixCode
import Mathlib.Algebra.Ring.Nat
import Mathlib.Data.String.Basic

namespace Jwm

open List

namespace JsonCode

/-! ## Numbers -/

def spanDigits : List Char → List Char × List Char
  | [] => ([], [])
  | c :: rest => if c.isDigit then ((c :: (spanDigits rest).1), (spanDigits rest).2) else ([], c :: rest)

theorem spanDigits_append : ∀ {digits : List Char} {stop : Char} {rest : List Char}, (∀ c ∈ digits, c.isDigit = true) →
    stop.isDigit = false → spanDigits (digits ++ stop :: rest) = (digits, stop :: rest)
  | [], stop, rest, _, hstop => by
    rw [nil_append, spanDigits, hstop, if_neg Bool.false_ne_true]
  | c :: digits, stop, rest, h, hstop => by
    have ih := @spanDigits_append digits stop rest (fun d hd => h d (mem_cons_of_mem _ hd)) hstop
    rw [cons_append, spanDigits, if_pos (h c mem_cons_self), ih]

theorem comma_not_digit : (',').isDigit = false := rfl

theorem comma_ne_bracket : ',' ≠ ']' := by decide

theorem brace_not_digit : ('\x7d').isDigit = false := rfl

def number (stop : Char) (hstop : stop.isDigit = false) : PrefixCode Nat where
  encode n := Nat.toDigits 10 n ++ [stop]
  decode input :=
    match spanDigits input with
    | (digits, c :: rest) => if c = stop then some (Nat.ofDigitChars 10 digits 0, rest) else none
    | (_, []) => none
  decode_encode n rest := by
    have hdigits : ∀ c ∈ Nat.toDigits 10 n, c.isDigit = true := fun c hc =>
      Nat.isDigit_of_mem_toDigits (b := 10) (by decide) (by decide) hc
    rw [append_assoc, singleton_append, spanDigits_append hdigits hstop]
    dsimp only
    rw [if_pos rfl, Nat.ofDigitChars_ten_toDigits]

theorem toDigits_head (n : Nat) : ∃ d rest, Nat.toDigits 10 n = d :: rest ∧ d ≠ '-' := by
  have hdigits : ∀ c ∈ Nat.toDigits 10 n, c.isDigit = true := fun c hc =>
    Nat.isDigit_of_mem_toDigits (b := 10) (by decide) (by decide) hc
  rcases htext : Nat.toDigits 10 n with _ | ⟨d, rest⟩
  · have hvalue : Nat.ofDigitChars 10 (Nat.toDigits 10 n) 0 = n := Nat.ofDigitChars_ten_toDigits
    rw [htext] at hvalue
    obtain rfl : 0 = n := hvalue
    exact absurd htext (by decide)
  · refine ⟨d, rest, rfl, ?_⟩
    rintro rfl
    have hminus := hdigits '-' (htext ▸ mem_cons_self ..)
    exact absurd hminus (by decide)

/-- A number with its sign, and the character that ends it. -/
def integer (stop : Char) (hstop : stop.isDigit = false) : PrefixCode Int where
  encode n := if n < 0 then '-' :: (number stop hstop).encode n.natAbs else (number stop hstop).encode n.natAbs
  decode input :=
    if ['-'].isPrefixOf input then ((number stop hstop).decode (input.drop 1)).map fun r => (-(r.1 : Int), r.2)
    else ((number stop hstop).decode input).map fun r => ((r.1 : Int), r.2)
  decode_encode n rest := by
    by_cases hn : n < 0
    · have hprefix : ['-'].isPrefixOf ('-' :: (number stop hstop).encode n.natAbs ++ rest) = true := rfl
      rw [if_pos hn, if_pos hprefix, cons_append, drop_one, tail_cons, (number stop hstop).decode_encode,
        Option.map_some, Int.ofNat_natAbs_of_nonpos hn.le, Int.neg_neg]
    · obtain ⟨d, digits, htext, hd⟩ := toDigits_head n.natAbs
      have hprefix : ['-'].isPrefixOf ((number stop hstop).encode n.natAbs ++ rest) = false := by
        show ['-'].isPrefixOf ((Nat.toDigits 10 n.natAbs ++ [stop]) ++ rest) = false
        rw [htext]
        exact Bool.and_eq_false_iff.2 (.inl (beq_eq_false_iff_ne.2 hd.symm))
      rw [if_neg hn, hprefix, if_neg Bool.false_ne_true, (number stop hstop).decode_encode, Option.map_some,
        Int.natAbs_of_nonneg (Int.not_lt.1 hn)]

/-! ## Truth values -/

def bool : PrefixCode Bool where
  encode b := if b then "true".toList else "false".toList
  decode
    | 't' :: 'r' :: 'u' :: 'e' :: rest => some (true, rest)
    | 'f' :: 'a' :: 'l' :: 's' :: 'e' :: rest => some (false, rest)
    | _ => none
  decode_encode b rest := by
    cases b with
    | true => rfl
    | false => rfl

/-! ## Strings -/

def escape (c : Char) : List Char :=
  if c = '"' then ['\\', '"']
  else if c = '\\' then ['\\', '\\']
  else if c = '\x08' then ['\\', 'b']
  else if c = '\t' then ['\\', 't']
  else if c = '\n' then ['\\', 'n']
  else if c = '\x0c' then ['\\', 'f']
  else if c = '\r' then ['\\', 'r']
  else if c.toNat < 0x20 then ['\\', 'u', '0', '0', Nat.digitChar (c.toNat / 16), Nat.digitChar (c.toNat % 16)]
  else [c]

def hexValue (c : Char) : Nat := if c.isDigit then c.toNat - '0'.toNat else c.toNat - 'a'.toNat + 10

def unescape (c : Char) : Char :=
  if c = 'b' then '\x08'
  else if c = 't' then '\t'
  else if c = 'n' then '\n'
  else if c = 'f' then '\x0c'
  else if c = 'r' then '\r'
  else c

def decodeText : List Char → Option (List Char × List Char)
  | [] => none
  | c :: rest =>
    if c = '"' then some ([], rest)
    else if c = '\\' then
      match rest with
      | [] => none
      | e :: rest =>
        if e = 'u' then
          match rest with
          | h₁ :: h₂ :: h₃ :: h₄ :: rest =>
            (decodeText rest).map fun r =>
              (Char.ofNat (((hexValue h₁ * 16 + hexValue h₂) * 16 + hexValue h₃) * 16 + hexValue h₄) :: r.1, r.2)
          | _ => none
        else (decodeText rest).map fun r => (unescape e :: r.1, r.2)
    else (decodeText rest).map fun r => (c :: r.1, r.2)

theorem hexValue_digitChar : ∀ k < 16, hexValue (Nat.digitChar k) = k := by decide

theorem decodeText_quote (rest : List Char) : decodeText ('"' :: rest) = some ([], rest) := by
  rw [decodeText.eq_def]
  rfl

theorem decodeText_plain {c : Char} (hquote : c ≠ '"') (hslash : c ≠ '\\') (rest : List Char) :
    decodeText (c :: rest) = (decodeText rest).map fun r => (c :: r.1, r.2) := by
  rw [decodeText.eq_def]
  dsimp only
  rw [if_neg hquote, if_neg hslash]

theorem decodeText_short {e : Char} (h : e ≠ 'u') (rest : List Char) :
    decodeText ('\\' :: e :: rest) = (decodeText rest).map fun r => (unescape e :: r.1, r.2) := by
  rw [decodeText.eq_def]
  dsimp only
  rw [if_neg (by decide), if_pos rfl, if_neg h]

theorem decodeText_unicode (h₁ h₂ h₃ h₄ : Char) (rest : List Char) :
    decodeText ('\\' :: 'u' :: h₁ :: h₂ :: h₃ :: h₄ :: rest) = (decodeText rest).map fun r =>
      (Char.ofNat (((hexValue h₁ * 16 + hexValue h₂) * 16 + hexValue h₃) * 16 + hexValue h₄) :: r.1, r.2) := by
  rw [decodeText.eq_def]
  dsimp only
  rw [if_neg (by decide), if_pos rfl, if_pos rfl]

theorem escape_cases (c : Char) : (∃ e, e ≠ 'u' ∧ unescape e = c ∧ e.utf8Size = 1 ∧ escape c = ['\\', e]) ∨
    (c.toNat < 0x20 ∧ escape c = ['\\', 'u', '0', '0', Nat.digitChar (c.toNat / 16), Nat.digitChar (c.toNat % 16)]) ∨
    (c ≠ '"' ∧ c ≠ '\\' ∧ 0x20 ≤ c.toNat ∧ escape c = [c]) := by
  by_cases h : c ∈ ['"', '\\', '\x08', '\t', '\n', '\x0c', '\r']
  · left
    simp only [mem_cons, not_mem_nil, or_false] at h
    rcases h with rfl | rfl | rfl | rfl | rfl | rfl | rfl <;> exact ⟨_, by decide, rfl, rfl, rfl⟩
  · right
    simp only [mem_cons, not_mem_nil, or_false, not_or] at h
    obtain ⟨hquote, hslash, h₁, h₂, h₃, h₄, h₅⟩ := h
    unfold escape
    rw [if_neg hquote, if_neg hslash, if_neg h₁, if_neg h₂, if_neg h₃, if_neg h₄, if_neg h₅]
    by_cases hcontrol : c.toNat < 0x20
    · exact .inl ⟨hcontrol, if_pos hcontrol⟩
    · exact .inr ⟨hquote, hslash, Nat.not_lt.1 hcontrol, if_neg hcontrol⟩

theorem decodeText_escape (c : Char) (rest : List Char) :
    decodeText (escape c ++ rest) = (decodeText rest).map fun r => (c :: r.1, r.2) := by
  obtain ⟨e, hu, hc, -, h⟩ | ⟨hcontrol, h⟩ | ⟨hquote, hslash, -, h⟩ := escape_cases c <;> rw [h]
  · rw [← hc]
    exact decodeText_short hu rest
  · have hvalue : ((hexValue '0' * 16 + hexValue '0') * 16 + hexValue (Nat.digitChar (c.toNat / 16))) * 16 +
        hexValue (Nat.digitChar (c.toNat % 16)) = c.toNat := by
      have hzero : hexValue '0' = 0 := rfl
      rw [hzero, hexValue_digitChar _ (by omega), hexValue_digitChar _ (by omega)]
      omega
    have hread := decodeText_unicode '0' '0' (Nat.digitChar (c.toNat / 16)) (Nat.digitChar (c.toNat % 16)) rest
    rw [hvalue, Char.ofNat_toNat] at hread
    exact hread
  · exact decodeText_plain hquote hslash rest

theorem decodeText_append (text rest : List Char) :
    decodeText (text.flatMap escape ++ '"' :: rest) = some (text, rest) := by
  induction text with
  | nil => exact decodeText_quote rest
  | cons c text ih => rw [flatMap_cons, append_assoc, decodeText_escape, ih, Option.map_some]

def text : PrefixCode (List Char) where
  encode t := '"' :: t.flatMap escape ++ ['"']
  decode
    | '"' :: rest => decodeText rest
    | _ => none
  decode_encode t rest := by
    rw [cons_append, cons_append, append_assoc, singleton_append]
    exact decodeText_append t rest

def string : PrefixCode String := text.via String.toList (fun t => some (String.ofList t)) fun s => by rw [String.ofList_toList]

/-! ## Bytes -/

def bytes (text : List Char) : Nat := (text.map Char.utf8Size).sum

theorem utf8ByteSize_ofList (text : List Char) : (String.ofList text).utf8ByteSize = bytes text := by
  rw [String.utf8ByteSize_ofList]
  unfold bytes
  induction text with
  | nil => rfl
  | cons c text ih => rw [String.utf8Len_cons, ih, map_cons, sum_cons, Nat.add_comm]

theorem bytes_append (a b : List Char) : bytes (a ++ b) = bytes a + bytes b := by
  unfold bytes
  rw [map_append, sum_append]

theorem bytes_cons (c : Char) (a : List Char) : bytes (c :: a) = c.utf8Size + bytes a := rfl

theorem bytes_le {text : List Char} {k : Nat} (h : ∀ c ∈ text, c.utf8Size ≤ k) : bytes text ≤ text.length * k := by
  unfold bytes
  induction text with
  | nil => exact Nat.zero_le _
  | cons c text ih =>
    have htext := ih fun d hd => h d (mem_cons_of_mem _ hd)
    have hc := h c mem_cons_self
    rw [map_cons, sum_cons, length_cons, Nat.succ_mul]
    omega

/-- A number below `10 ^ k`, with what ends it. -/
theorem bytes_number {stop : Char} {hstop : stop.isDigit = false} (h1 : stop.utf8Size = 1) {n k : Nat} (hk : 0 < k)
    (h : n < 10 ^ k) : bytes ((number stop hstop).encode n) ≤ k + 1 := by
  have hdigits : ∀ c ∈ Nat.toDigits 10 n, c.utf8Size ≤ 1 := by
    intro c hc
    have hdigit := Nat.isDigit_of_mem_toDigits (b := 10) (by decide) (by decide) hc
    rw [Char.utf8Size_eq_one_iff.2]
    unfold Char.isDigit at hdigit
    rw [Bool.and_eq_true, decide_eq_true_eq, decide_eq_true_eq] at hdigit
    exact UInt32.le_iff_toNat_le.2 (Nat.le_trans (UInt32.le_iff_toNat_le.1 hdigit.2) (by decide))
  have hlength : (Nat.toDigits 10 n).length ≤ k := (Nat.length_toDigits_le_iff (by decide) hk).2 h
  have hbytes := bytes_le hdigits
  show bytes (Nat.toDigits 10 n ++ [stop]) ≤ _
  rw [bytes_append, bytes_cons, h1]
  have hnil : bytes [] = 0 := rfl
  omega

theorem bytes_bool (b : Bool) : bytes (bool.encode b) ≤ 5 := by
  cases b with
  | true | false => decide

/-- An escaped character takes six bytes at most, and four if it is no control character. -/
theorem bytes_escape (c : Char) : bytes (escape c) ≤ 6 ∧ (0x20 ≤ c.toNat → bytes (escape c) ≤ 4) := by
  have hsize := c.utf8Size_le_four
  have hdigit : ∀ k < 16, (Nat.digitChar k).utf8Size = 1 := by decide
  have hslash : ('\\').utf8Size = 1 := rfl
  obtain ⟨e, -, -, he, h⟩ | ⟨hcontrol, h⟩ | ⟨-, -, -, h⟩ := escape_cases c <;> rw [h] <;> unfold bytes <;>
    simp only [map_cons, map_nil, sum_cons, sum_nil]
  · omega
  · rw [hdigit _ (by omega), hdigit _ (by omega)]
    exact ⟨by decide, fun h => absurd hcontrol (Nat.not_lt.2 h)⟩
  · omega

theorem bytes_flatMap_escape {k : Nat} : ∀ {t : List Char}, (∀ c ∈ t, bytes (escape c) ≤ k) →
    bytes (t.flatMap escape) ≤ t.length * k
  | [], _ => Nat.zero_le _
  | c :: t, h => by
    have ih := bytes_flatMap_escape fun d hd => h d (mem_cons_of_mem _ hd)
    have hc := h c mem_cons_self
    rw [flatMap_cons, bytes_append, length_cons, Nat.succ_mul]
    omega

/-- A string whose characters take `k` bytes each. -/
theorem bytes_string {s : String} {k n : Nat} (hlength : s.toList.length ≤ n) (h : ∀ c ∈ s.toList, bytes (escape c) ≤ k) :
    bytes (string.encode s) ≤ n * k + 2 := by
  have hbytes := Nat.le_trans (bytes_flatMap_escape h) (Nat.mul_le_mul_right k hlength)
  show bytes ('"' :: s.toList.flatMap escape ++ ['"']) ≤ _
  rw [bytes_append, bytes_cons]
  have hquote : ('"').utf8Size + bytes ['"'] = 2 := rfl
  omega

/-- A list of at most `n` items of `k` bytes each. -/
theorem bytes_list {α : Type} {c : PrefixCode α} {hne : ',' ≠ ']'}
    {hitem : ∀ a, ∃ x rest, c.encode a = x :: rest ∧ x ≠ ']'} {items : List α} {k : Nat}
    (h : ∀ a ∈ items, bytes (c.encode a) ≤ k) :
    bytes ((c.list '[' ',' ']' hne hitem).encode items) ≤ items.length * (k + 1) + 2 := by
  have htail : ∀ items : List α, (∀ a ∈ items, bytes (c.encode a) ≤ k) →
      bytes (c.encodeTail ',' ']' items) ≤ items.length * (k + 1) + 1 := by
    intro items
    induction items with
    | nil => exact fun _ => Nat.le_add_left 1 _
    | cons a items ih =>
      intro h
      have hrest := ih fun b hb => h b (mem_cons_of_mem _ hb)
      have ha := h a mem_cons_self
      have hcomma : (',').utf8Size = 1 := rfl
      rw [PrefixCode.encodeTail, bytes_append, bytes_cons, hcomma, length_cons, Nat.succ_mul]
      omega
  cases items with
  | nil => exact Nat.le_add_left 2 _
  | cons a items =>
    have hrest := htail items fun b hb => h b (mem_cons_of_mem _ hb)
    have ha := h a mem_cons_self
    have hopen : ('[').utf8Size = 1 := rfl
    show bytes ('[' :: c.encode a ++ c.encodeTail ',' ']' items) ≤ _
    rw [bytes_append, bytes_cons, hopen, length_cons, Nat.succ_mul]
    omega

end JsonCode

end Jwm
