/-
The compact text of a JSON value: a writer, a reader that gets back what was written, and how long the text is. A fraction is kept as
its digits.
-/
import Jwm.Data.Json
import Jwm.Data.JsonCode

namespace Jwm

open List Option JsonCode

namespace JsonText

open JsonCode (decodeText escape bytes)

/-! ## Numbers -/

def isFractionMark (c : Char) : Bool := c == '.' || c == 'e' || c == 'E'

def isNumberChar (c : Char) : Bool := c.isDigit || c == '-' || c == '+' || isFractionMark c

def printNumber : JsonNumber → List Char
  | .pos n => Nat.toDigits 10 n
  | .neg n => '-' :: Nat.toDigits 10 n
  | .float digits => digits.toList

def readNumber (token : List Char) : Option JsonNumber :=
  if token.any isFractionMark then some (.float (String.ofList token))
  else
    match token with
    | [] => none
    | c :: digits => some (if c = '-' then .neg (Nat.ofDigitChars 10 digits 0) else .pos (Nat.ofDigitChars 10 (c :: digits) 0))

/-- The digits of a fraction are number characters with a mark among them. -/
def PlainNumber : JsonNumber → Prop
  | .float digits => (∀ c ∈ digits.toList, isNumberChar c = true) ∧ digits.toList.any isFractionMark = true
  | _ => True

/-! ## The writer -/

mutual

def print : Json → List Char
  | .null => "null".toList
  | .bool b => JsonCode.bool.encode b
  | .number n => printNumber n
  | .string s => JsonCode.string.encode s
  | .array [] => ['[', ']']
  | .array (v :: values) => '[' :: print v ++ printTail values
  | .object [] => ['{', '}']
  | .object ((key, v) :: fields) => '{' :: JsonCode.string.encode key ++ ':' :: print v ++ printFields fields

def printTail : List Json → List Char
  | [] => [']']
  | v :: values => ',' :: print v ++ printTail values

def printFields : List (String × Json) → List Char
  | [] => ['}']
  | (key, v) :: fields => ',' :: JsonCode.string.encode key ++ ':' :: print v ++ printFields fields

end

/-! ## The reader -/

def parseKey (input : List Char) : Option (String × List Char) :=
  (JsonCode.string.decode input).bind fun r => if [':'].isPrefixOf r.2 then some (r.1, r.2.drop 1) else none

mutual

def parseValue : Nat → List Char → Option (Json × List Char)
  | _, [] => none
  | 0, _ => none
  | n + 1, c :: rest =>
    if c = '"' then (JsonCode.string.decode (c :: rest)).map fun r => (.string r.1, r.2)
    else if c = '[' then
      if [']'].isPrefixOf rest then some (.array [], rest.drop 1)
      else (parseValue n rest).bind fun r => (parseTail n r.2).map fun r' => (.array (r.1 :: r'.1), r'.2)
    else if c = '{' then
      if ['}'].isPrefixOf rest then some (.object [], rest.drop 1)
      else (parseKey rest).bind fun r => (parseValue n r.2).bind fun r' =>
        (parseFields n r'.2).map fun r'' => (.object ((r.1, r'.1) :: r''.1), r''.2)
    else if c = 'n' then
      if "ull".toList.isPrefixOf rest then some (.null, rest.drop 3) else none
    else if c = 't' ∨ c = 'f' then (JsonCode.bool.decode (c :: rest)).map fun r => (.bool r.1, r.2)
    else (readNumber ((c :: rest).takeWhile isNumberChar)).map fun number => (.number number, (c :: rest).dropWhile isNumberChar)

def parseTail : Nat → List Char → Option (List Json × List Char)
  | _, [] => none
  | 0, _ => none
  | n + 1, c :: rest =>
    if c = ']' then some ([], rest)
    else if c = ',' then (parseValue n rest).bind fun r => (parseTail n r.2).map fun r' => (r.1 :: r'.1, r'.2)
    else none

def parseFields : Nat → List Char → Option (List (String × Json) × List Char)
  | _, [] => none
  | 0, _ => none
  | n + 1, c :: rest =>
    if c = '}' then some ([], rest)
    else if c = ',' then
      (parseKey rest).bind fun r => (parseValue n r.2).bind fun r' =>
        (parseFields n r'.2).map fun r'' => ((r.1, r'.1) :: r''.1, r''.2)
    else none

end

def parse (text : List Char) : Option Json :=
  (parseValue text.length text).bind fun r => if r.2.isEmpty then some r.1 else none

/-! ## Reading back -/

mutual

def Plain : Json → Prop
  | .number n => PlainNumber n
  | .array values => PlainAll values
  | .object fields => PlainFields fields
  | _ => True

def PlainAll : List Json → Prop
  | [] => True
  | v :: values => Plain v ∧ PlainAll values

def PlainFields : List (String × Json) → Prop
  | [] => True
  | (_, v) :: fields => Plain v ∧ PlainFields fields

end

def Ends (rest : List Char) : Prop := ∀ c ∈ rest.head?, isNumberChar c = false

variable {c : Char} {rest : List Char} {n : JsonNumber} {v : Json}

theorem isNumberChar_of_isDigit (h : c.isDigit = true) : isNumberChar c = true := by
  unfold isNumberChar
  rw [h, Bool.true_or, Bool.true_or, Bool.true_or]

theorem not_fractionMark_of_isDigit (h : c.isDigit = true) : isFractionMark c = false := by
  unfold isFractionMark
  rw [Bool.or_eq_false_iff, Bool.or_eq_false_iff, beq_eq_false_iff_ne, beq_eq_false_iff_ne, beq_eq_false_iff_ne]
  refine ⟨⟨?_, ?_⟩, ?_⟩
  · rintro rfl
    exact absurd h (by decide)
  · rintro rfl
    exact absurd h (by decide)
  · rintro rfl
    exact absurd h (by decide)

theorem takeWhile_append_ends {token : List Char} (h : ∀ c ∈ token, isNumberChar c = true) (hrest : Ends rest) :
    (token ++ rest).takeWhile isNumberChar = token ∧ (token ++ rest).dropWhile isNumberChar = rest := by
  have hstop : rest.takeWhile isNumberChar = [] ∧ rest.dropWhile isNumberChar = rest := by
    cases rest with
    | nil => exact ⟨rfl, rfl⟩
    | cons c rest =>
      have hc := hrest c rfl
      rw [takeWhile_cons, dropWhile_cons, hc]
      exact ⟨rfl, rfl⟩
  rw [takeWhile_append_of_pos h, dropWhile_append_of_pos h, hstop.1, hstop.2, append_nil]
  exact ⟨rfl, rfl⟩

theorem toDigits_digits (n : Nat) : ∀ c ∈ Nat.toDigits 10 n, c.isDigit = true := fun _ hc =>
  Nat.isDigit_of_mem_toDigits (by decide) (by decide) hc

theorem toDigits_unmarked (n : Nat) : (Nat.toDigits 10 n).any isFractionMark = false := by
  rw [List.any_eq_false]
  intro c hc
  rw [not_fractionMark_of_isDigit (toDigits_digits n c hc)]
  exact Bool.false_ne_true

theorem readNumber_printNumber : ∀ {n : JsonNumber}, PlainNumber n →
    (∀ c ∈ printNumber n, isNumberChar c = true) ∧ readNumber (printNumber n) = some n
  | .pos n, _ => by
    obtain ⟨d, digits, htext, hd⟩ := toDigits_head n
    constructor
    · exact fun c hc => isNumberChar_of_isDigit (toDigits_digits n c hc)
    · show readNumber (Nat.toDigits 10 n) = _
      unfold readNumber
      rw [toDigits_unmarked, if_neg Bool.false_ne_true, htext]
      dsimp only
      rw [if_neg hd, ← htext, Nat.ofDigitChars_ten_toDigits]
  | .neg n, _ => by
    constructor
    · rintro c (_ | ⟨_, hc⟩)
      · rfl
      · exact isNumberChar_of_isDigit (toDigits_digits n c hc)
    · show readNumber ('-' :: Nat.toDigits 10 n) = _
      unfold readNumber
      rw [any_cons, toDigits_unmarked]
      dsimp only
      rw [if_neg (by decide), if_pos rfl, Nat.ofDigitChars_ten_toDigits]
  | .float digits, h => by
    refine ⟨h.1, ?_⟩
    show readNumber digits.toList = _
    unfold readNumber
    rw [if_pos h.2, String.ofList_toList]

theorem printNumber_head (h : PlainNumber n) : ∃ c rest, printNumber n = c :: rest ∧ isNumberChar c = true := by
  obtain ⟨hchars, hread⟩ := readNumber_printNumber h
  cases htext : printNumber n with
  | nil =>
    rw [htext] at hread
    cases hread
  | cons c rest => exact ⟨c, rest, rfl, hchars c (htext ▸ mem_cons_self ..)⟩

theorem parseKey_encode (key : String) (rest : List Char) : parseKey (string.encode key ++ ':' :: rest) = some (key, rest) := by
  unfold parseKey
  rw [string.decode_encode]
  rfl

theorem print_head (h : Plain v) : ∃ c rest, print v = c :: rest ∧ c ≠ ']' := by
  cases v with
  | null => exact ⟨'n', _, rfl, by decide⟩
  | bool b =>
    cases b with
    | true => exact ⟨'t', _, rfl, by decide⟩
    | false => exact ⟨'f', _, rfl, by decide⟩
  | number n =>
    obtain ⟨c, rest, htext, hc⟩ := printNumber_head h
    refine ⟨c, rest, htext, ?_⟩
    rintro rfl
    exact absurd hc (by decide)
  | string s => exact ⟨'"', _, rfl, by decide⟩
  | array values =>
    cases values with
    | nil | cons v values => exact ⟨'[', _, rfl, by decide⟩
  | object fields =>
    cases fields with
    | nil | cons f fields => exact ⟨'{', _, rfl, by decide⟩

theorem ends_printTail (values : List Json) (rest : List Char) : Ends (printTail values ++ rest) := by
  cases values with
  | nil | cons v values =>
    rintro c ⟨⟩
    decide

theorem ends_printFields (fields : List (String × Json)) (rest : List Char) : Ends (printFields fields ++ rest) := by
  cases fields with
  | nil | cons f fields =>
    rintro c ⟨⟩
    decide

theorem parseValue_number (h : PlainNumber n) (hrest : Ends rest) (fuel : Nat) :
    parseValue (fuel + 1) (printNumber n ++ rest) = some (.number n, rest) := by
  obtain ⟨c, digits, htext, hc⟩ := printNumber_head h
  obtain ⟨hchars, hread⟩ := readNumber_printNumber h
  obtain ⟨htake, hdrop⟩ := takeWhile_append_ends hchars hrest
  have hne : ∀ d : Char, isNumberChar d = false → c ≠ d := by
    rintro d hd rfl
    rw [hc] at hd
    cases hd
  rw [htext, cons_append] at htake hdrop
  rw [htext] at hread
  rw [htext, cons_append, parseValue, if_neg (hne '"' (by decide)), if_neg (hne '[' (by decide)), if_neg (hne '{' (by decide)),
    if_neg (hne 'n' (by decide)), if_neg (by rintro (rfl | rfl) <;> exact absurd hc (by decide)), htake, hdrop, hread, map_some]

mutual

theorem parseValue_print : ∀ (v : Json) {fuel : Nat} {rest : List Char}, Plain v → Ends rest → (print v).length ≤ fuel →
    parseValue fuel (print v ++ rest) = some (v, rest)
  | .null, fuel + 1, rest, _, _, _ => by
    show parseValue (fuel + 1) ('n' :: 'u' :: 'l' :: 'l' :: rest) = _
    rw [parseValue, if_neg (by decide), if_neg (by decide), if_neg (by decide), if_pos rfl]
    rfl
  | .bool b, fuel + 1, rest, _, _, _ => by
    have hread := JsonCode.bool.decode_encode b rest
    cases b with
    | true =>
      show parseValue (fuel + 1) ('t' :: 'r' :: 'u' :: 'e' :: rest) = _
      rw [parseValue, if_neg (by decide), if_neg (by decide), if_neg (by decide), if_neg (by decide), if_pos (by decide)]
      rfl
    | false =>
      show parseValue (fuel + 1) ('f' :: 'a' :: 'l' :: 's' :: 'e' :: rest) = _
      rw [parseValue, if_neg (by decide), if_neg (by decide), if_neg (by decide), if_neg (by decide), if_pos (by decide)]
      rfl
  | .number n, fuel + 1, rest, h, hrest, _ => parseValue_number h hrest fuel
  | .string s, fuel + 1, rest, _, _, _ => by
    have hread := string.decode_encode s rest
    show parseValue (fuel + 1) ('"' :: (s.toList.flatMap escape ++ ['"'] ++ rest)) = _
    rw [parseValue, if_pos rfl]
    exact congrArg _ hread
  | .array [], fuel + 1, rest, _, _, _ => by
    have hprefix : [']'].isPrefixOf (']' :: rest) = true := rfl
    show parseValue (fuel + 1) ('[' :: ']' :: rest) = _
    rw [parseValue, if_neg (by decide), if_pos rfl, hprefix, if_pos rfl]
    rfl
  | .array (v :: values), fuel + 1, rest, h, hrest, hfuel => by
    obtain ⟨hv, hvalues⟩ := h
    rw [print, cons_append, length_cons, length_append] at hfuel
    obtain ⟨c, text, htext, hc⟩ := print_head hv
    have hprefix : [']'].isPrefixOf (print v ++ (printTail values ++ rest)) = false := by
      rw [htext]
      exact Bool.and_eq_false_iff.2 (.inl (beq_eq_false_iff_ne.2 hc.symm))
    rw [print, cons_append, cons_append, append_assoc, parseValue, if_neg (by decide), if_pos rfl, hprefix,
      if_neg Bool.false_ne_true, parseValue_print v hv (ends_printTail values rest) (by omega), bind_some,
      parseTail_print values hvalues (by omega), map_some]
  | .object [], fuel + 1, rest, _, _, _ => by
    have hprefix : ['}'].isPrefixOf ('}' :: rest) = true := rfl
    show parseValue (fuel + 1) ('{' :: '}' :: rest) = _
    rw [parseValue, if_neg (by decide), if_neg (by decide), if_pos rfl, hprefix, if_pos rfl]
    rfl
  | .object ((key, v) :: fields), fuel + 1, rest, h, hrest, hfuel => by
    obtain ⟨hv, hfields⟩ := h
    rw [print] at hfuel
    simp only [length_append, length_cons] at hfuel
    have hprefix : ['}'].isPrefixOf (string.encode key ++ (':' :: (print v ++ (printFields fields ++ rest)))) = false := rfl
    have hinput : print (.object ((key, v) :: fields)) ++ rest =
        '{' :: (string.encode key ++ (':' :: (print v ++ (printFields fields ++ rest)))) := by
      rw [print]
      simp only [cons_append, append_assoc]
    rw [hinput, parseValue, if_neg (by decide), if_neg (by decide), if_pos rfl, hprefix, if_neg Bool.false_ne_true,
      parseKey_encode, bind_some, parseValue_print v hv (ends_printFields fields rest) (by omega), bind_some,
      parseFields_print fields hfields (by omega), map_some]
  | v, 0, rest, h, _, hfuel => by
    obtain ⟨c, text, htext, -⟩ := print_head h
    rw [htext] at hfuel
    exact absurd hfuel (Nat.not_succ_le_zero _)

theorem parseTail_print : ∀ (values : List Json) {fuel : Nat} {rest : List Char}, PlainAll values →
    (printTail values).length ≤ fuel → parseTail fuel (printTail values ++ rest) = some (values, rest)
  | [], 0, _, _, hfuel => absurd hfuel (Nat.not_succ_le_zero _)
  | [], fuel + 1, rest, _, _ => by
    show parseTail (fuel + 1) (']' :: rest) = _
    rw [parseTail, if_pos rfl]
  | v :: values, 0, _, _, hfuel => by
    rw [printTail, cons_append, length_cons] at hfuel
    exact absurd hfuel (Nat.not_succ_le_zero _)
  | v :: values, fuel + 1, rest, h, hfuel => by
    obtain ⟨hv, hvalues⟩ := h
    rw [printTail, cons_append, length_cons, length_append] at hfuel
    rw [printTail, cons_append, cons_append, append_assoc, parseTail, if_neg (by decide), if_pos rfl,
      parseValue_print v hv (ends_printTail values rest) (by omega), bind_some, parseTail_print values hvalues (by omega),
      map_some]

theorem parseFields_print : ∀ (fields : List (String × Json)) {fuel : Nat} {rest : List Char}, PlainFields fields →
    (printFields fields).length ≤ fuel → parseFields fuel (printFields fields ++ rest) = some (fields, rest)
  | [], 0, _, _, hfuel => absurd hfuel (Nat.not_succ_le_zero _)
  | [], fuel + 1, rest, _, _ => by
    show parseFields (fuel + 1) ('}' :: rest) = _
    rw [parseFields, if_pos rfl]
  | (key, v) :: fields, 0, _, _, hfuel => by
    rw [printFields, cons_append, cons_append, length_cons] at hfuel
    exact absurd hfuel (Nat.not_succ_le_zero _)
  | (key, v) :: fields, fuel + 1, rest, h, hfuel => by
    obtain ⟨hv, hfields⟩ := h
    rw [printFields] at hfuel
    simp only [length_append, length_cons] at hfuel
    have hinput : printFields ((key, v) :: fields) ++ rest =
        ',' :: (string.encode key ++ (':' :: (print v ++ (printFields fields ++ rest)))) := by
      rw [printFields]
      simp only [cons_append, append_assoc]
    rw [hinput, parseFields, if_neg (by decide), if_pos rfl, parseKey_encode, bind_some,
      parseValue_print v hv (ends_printFields fields rest) (by omega), bind_some, parseFields_print fields hfields (by omega),
      map_some]

end

theorem parse_print (h : Plain v) : parse (print v) = some v := by
  have hread := @parseValue_print v _ [] h (fun c hc => by cases hc) (Nat.le_refl _)
  rw [append_nil] at hread
  unfold parse
  rw [hread]
  rfl

theorem plainAll_iff {values : List Json} : PlainAll values ↔ ∀ v ∈ values, Plain v := by
  induction values with
  | nil => exact ⟨fun _ _ hv => absurd hv not_mem_nil, fun _ => trivial⟩
  | cons v values ih => rw [PlainAll, ih, forall_mem_cons]

theorem plainFields_iff {fields : List (String × Json)} : PlainFields fields ↔ ∀ f ∈ fields, Plain f.2 := by
  induction fields with
  | nil => exact ⟨fun _ _ hf => absurd hf not_mem_nil, fun _ => trivial⟩
  | cons f fields ih => rw [PlainFields, ih, forall_mem_cons]

/-! ## Lengths -/

def fieldBytes (f : String × Json) : Nat := bytes (JsonCode.string.encode f.1) + 1 + bytes (print f.2)

def fieldsBytes (fields : List (String × Json)) : Nat := (fields.map fun f => fieldBytes f + 1).sum

theorem fieldsBytes_append (fields fields' : List (String × Json)) :
    fieldsBytes (fields ++ fields') = fieldsBytes fields + fieldsBytes fields' := by
  unfold fieldsBytes
  rw [map_append, sum_append]

theorem bytes_printTail (values : List Json) : bytes (printTail values) = (values.map fun v => bytes (print v) + 1).sum + 1 := by
  have hcomma : (',').utf8Size = 1 := rfl
  induction values with
  | nil => rfl
  | cons v values ih =>
    rw [printTail, bytes_append, bytes_cons, ih, map_cons, sum_cons]
    omega

theorem bytes_printFields (fields : List (String × Json)) : bytes (printFields fields) = fieldsBytes fields + 1 := by
  have hcomma : (',').utf8Size = 1 := rfl
  have hcolon : (':').utf8Size = 1 := rfl
  induction fields with
  | nil => rfl
  | cons f fields ih =>
    rw [printFields, bytes_append, cons_append, bytes_cons, bytes_append, bytes_cons, ih]
    show _ = fieldBytes f + 1 + fieldsBytes fields + 1
    unfold fieldBytes
    omega

theorem bytes_array (values : List Json) :
    bytes (print (.array values)) = (values.map fun v => bytes (print v) + 1).sum + 1 + if values.isEmpty then 1 else 0 := by
  have hopen : ('[').utf8Size = 1 := rfl
  cases values with
  | nil => rfl
  | cons v values =>
    rw [print, bytes_append, bytes_cons, bytes_printTail, map_cons, sum_cons, isEmpty_cons, if_neg Bool.false_ne_true]
    omega

theorem bytes_object (fields : List (String × Json)) :
    bytes (print (.object fields)) = fieldsBytes fields + 1 + if fields.isEmpty then 1 else 0 := by
  have hopen : ('{').utf8Size = 1 := rfl
  have hcolon : (':').utf8Size = 1 := rfl
  cases fields with
  | nil => rfl
  | cons f fields =>
    rw [print, bytes_append, cons_append, bytes_cons, bytes_append, bytes_cons,
      bytes_printFields, isEmpty_cons, if_neg Bool.false_ne_true]
    show _ = fieldBytes f + 1 + fieldsBytes fields + 1 + 0
    unfold fieldBytes
    omega

end JsonText

end Jwm
