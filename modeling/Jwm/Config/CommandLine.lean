/-
Command lines as argument vectors: the scanner of quotes and escapes, the grammar of words, and that the scanner reads
exactly the grammar.
-/
import Jwm.Ipc.IpcServer

namespace Jwm.CommandLine

open Ipc (isWhitespace trim)
open List

inductive CommandLineParseError where
  | nulCharacter
  | trailingEscape
  | unterminatedQuote (quote : Char)
  deriving DecidableEq

/-- What `split_command_line` keeps between two characters. -/
structure Scanner where
  args : List String
  current : List Char
  quote : Option Char
  escaped : Bool
  tokenStarted : Bool
  deriving DecidableEq

namespace Scanner

def new : Scanner where
  args := []
  current := []
  quote := none
  escaped := false
  tokenStarted := false

def step (s : Scanner) (ch : Char) : Scanner :=
  if s.escaped then { s with current := s.current ++ [ch], escaped := false, tokenStarted := true }
  else
    match s.quote with
    | some activeQuote =>
      if ch = activeQuote then { s with quote := none, tokenStarted := true }
      else if ch = '\\' ∧ activeQuote = '"' then { s with escaped := true }
      else { s with current := s.current ++ [ch], tokenStarted := true }
    | none =>
      if ch = '\'' ∨ ch = '"' then { s with quote := some ch, tokenStarted := true }
      else if ch = '\\' then { s with escaped := true, tokenStarted := true }
      else if isWhitespace ch then
        if s.tokenStarted then
          { s with args := s.args ++ [String.ofList s.current], current := [], tokenStarted := false }
        else s
      else { s with current := s.current ++ [ch], tokenStarted := true }

def scan : Scanner → List Char → Except CommandLineParseError Scanner
  | s, [] => .ok s
  | s, ch :: rest => if ch = '\x00' then .error .nulCharacter else (s.step ch).scan rest

def finish (s : Scanner) : Except CommandLineParseError (List String) :=
  if s.escaped then .error .trailingEscape
  else
    match s.quote with
    | some quote => .error (.unterminatedQuote quote)
    | none => .ok (if s.tokenStarted then s.args ++ [String.ofList s.current] else s.args)

end Scanner

open Scanner

def splitCommandLine (input : String) : Except CommandLineParseError (List String) :=
  (Scanner.new.scan input.toList).bind finish

/-! ## The grammar -/

/-- The inside of a double-quoted run and what it stands for. -/
inductive DoubleQuoted : List Char → List Char → Prop
  | nil : DoubleQuoted [] []
  | plain {c : Char} {body value : List Char} (hquote : c ≠ '"') (hslash : c ≠ '\\') (h : DoubleQuoted body value) :
      DoubleQuoted (c :: body) (c :: value)
  | escape {c : Char} {body value : List Char} (h : DoubleQuoted body value) : DoubleQuoted ('\\' :: c :: body) (c :: value)

def Plain (c : Char) : Prop := c ≠ '\'' ∧ c ≠ '"' ∧ c ≠ '\\' ∧ isWhitespace c = false

/-- A piece of a word and what it stands for. -/
inductive Piece : List Char → List Char → Prop
  | plain {c : Char} (h : Plain c) : Piece [c] [c]
  | escape (c : Char) : Piece ['\\', c] [c]
  | single {body : List Char} (h : '\'' ∉ body) : Piece ('\'' :: (body ++ ['\''])) body
  | double {body value : List Char} (h : DoubleQuoted body value) : Piece ('"' :: (body ++ ['"'])) value

/-- A non-empty sequence of pieces. -/
inductive Word : List Char → List Char → Prop
  | last {p v : List Char} (h : Piece p v) : Word p v
  | more {p v text value : List Char} (h : Piece p v) (hrest : Word text value) : Word (p ++ text) (v ++ value)

/-- Words kept apart by whitespace, and their values. -/
inductive Words : List Char → List String → Prop
  | nil : Words [] []
  | space {c : Char} {text : List Char} {args : List String} (h : isWhitespace c = true) (hrest : Words text args) :
      Words (c :: text) args
  | last {text value : List Char} (h : Word text value) : Words text [String.ofList value]
  | word {text value : List Char} {c : Char} {rest : List Char} {args : List String} (h : Word text value)
      (hspace : isWhitespace c = true) (hrest : Words rest args) : Words (text ++ c :: rest) (String.ofList value :: args)

/-- The start of a piece that the text ends before: the quote it is in, and whether an escape was begun. -/
inductive Cut : List Char → Option Char → Bool → Prop
  | escape : Cut ['\\'] none true
  | single {body : List Char} (h : '\'' ∉ body) : Cut ('\'' :: body) (some '\'') false
  | double {body value : List Char} (h : DoubleQuoted body value) : Cut ('"' :: body) (some '"') false
  | doubleEscape {body value : List Char} (h : DoubleQuoted body value) : Cut ('"' :: (body ++ ['\\'])) (some '"') true

def EndsInside (text : List Char) (quote : Option Char) (escaped : Bool) : Prop :=
  ∃ before args tail, Words before args ∧ Cut tail quote escaped ∧ text = before ++ tail

def EndsInEscape (text : List Char) : Prop := ∃ quote, EndsInside text quote true

def EndsInQuote (quote : Char) (text : List Char) : Prop := ∃ escaped, EndsInside text (some quote) escaped

/-! ## Every text is words or is cut off -/

theorem doubleQuoted_cases : ∀ text : List Char, (∃ body value rest, DoubleQuoted body value ∧ text = body ++ '"' :: rest) ∨
    (∃ value, DoubleQuoted text value) ∨ ∃ body value, DoubleQuoted body value ∧ text = body ++ ['\\']
  | [] => .inr (.inl ⟨[], .nil⟩)
  | [c] => by
    by_cases hquote : c = '"'
    · exact .inl ⟨[], [], [], .nil, by rw [hquote, nil_append]⟩
    · by_cases hslash : c = '\\'
      · exact .inr (.inr ⟨[], [], .nil, by rw [hslash, nil_append]⟩)
      · exact .inr (.inl ⟨[c], .plain hquote hslash .nil⟩)
  | c :: d :: text => by
    by_cases hquote : c = '"'
    · exact .inl ⟨[], [], d :: text, .nil, by rw [hquote, nil_append]⟩
    · by_cases hslash : c = '\\'
      · subst hslash
        rcases doubleQuoted_cases text with ⟨body, value, rest, h, rfl⟩ | ⟨value, h⟩ | ⟨body, value, h, rfl⟩
        · exact .inl ⟨'\\' :: d :: body, d :: value, rest, .escape h, rfl⟩
        · exact .inr (.inl ⟨d :: value, .escape h⟩)
        · exact .inr (.inr ⟨'\\' :: d :: body, d :: value, .escape h, rfl⟩)
      · rcases doubleQuoted_cases (d :: text) with ⟨body, value, rest, h, heq⟩ | ⟨value, h⟩ | ⟨body, value, h, heq⟩
        · exact .inl ⟨c :: body, c :: value, rest, .plain hquote hslash h, by rw [heq, cons_append]⟩
        · exact .inr (.inl ⟨c :: value, .plain hquote hslash h⟩)
        · exact .inr (.inr ⟨c :: body, c :: value, .plain hquote hslash h, by rw [heq, cons_append]⟩)

theorem Words.prepend {p v text : List Char} {args : List String} (hp : Piece p v) (h : Words text args) :
    ∃ args', Words (p ++ text) args' := by
  cases h with
  | nil => exact ⟨_, by rw [append_nil]; exact .last (.last hp)⟩
  | space hspace hrest => exact ⟨_, .word (.last hp) hspace hrest⟩
  | last hword => exact ⟨_, .last (.more hp hword)⟩
  | word hword hspace hrest =>
    rw [← append_assoc]
    exact ⟨_, .word (.more hp hword) hspace hrest⟩

variable {quote : Option Char} {escaped : Bool}

theorem EndsInside.prepend {p v text : List Char} (hp : Piece p v)
    (h : EndsInside text quote escaped) : EndsInside (p ++ text) quote escaped := by
  obtain ⟨before, args, tail, hbefore, hcut, rfl⟩ := h
  obtain ⟨args', hargs'⟩ := hbefore.prepend hp
  exact ⟨p ++ before, args', tail, hargs', hcut, (append_assoc ..).symm⟩

theorem Cut.endsInside {text : List Char} (h : Cut text quote escaped) :
    EndsInside text quote escaped := ⟨[], [], text, .nil, h, rfl⟩

def Covered (text : List Char) : Prop := (∃ args, Words text args) ∨ ∃ quote escaped, EndsInside text quote escaped

theorem Covered.prepend {p v text : List Char} (hp : Piece p v) (h : Covered text) : Covered (p ++ text) := by
  rcases h with ⟨args, h⟩ | ⟨quote, escaped, h⟩
  · exact .inl (h.prepend hp)
  · exact .inr ⟨quote, escaped, h.prepend hp⟩

theorem Covered.space {c : Char} {text : List Char} (hspace : isWhitespace c = true) (h : Covered text) : Covered (c :: text) := by
  rcases h with ⟨args, h⟩ | ⟨quote, escaped, before, args, tail, hbefore, hcut, rfl⟩
  · exact .inl ⟨args, .space hspace h⟩
  · exact .inr ⟨quote, escaped, c :: before, args, tail, .space hspace hbefore, hcut, rfl⟩

theorem covered (text : List Char) : Covered text := by
  induction hn : text.length using Nat.strong_induction_on generalizing text with
  | _ n ih =>
    subst hn
    rcases text with _ | ⟨c, rest⟩
    · exact .inl ⟨[], .nil⟩
    have hlen : rest.length < (c :: rest).length := Nat.lt_succ_self _
    by_cases hsingle : c = '\''
    · subst hsingle
      by_cases hmem : '\'' ∈ rest
      · obtain ⟨body, rest', rfl, hbody⟩ := eq_append_cons_of_mem hmem
        have h := ih rest'.length (by simp at hlen ⊢; omega) rest' rfl
        simpa using h.prepend (.single hbody)
      · exact .inr ⟨_, _, (Cut.single hmem).endsInside⟩
    by_cases hdouble : c = '"'
    · subst hdouble
      rcases doubleQuoted_cases rest with ⟨body, value, rest', hbody, rfl⟩ | ⟨value, hbody⟩ | ⟨body, value, hbody, rfl⟩
      · have h := ih rest'.length (by simp at hlen ⊢; omega) rest' rfl
        simpa using h.prepend (.double hbody)
      · exact .inr ⟨_, _, (Cut.double hbody).endsInside⟩
      · exact .inr ⟨_, _, (Cut.doubleEscape hbody).endsInside⟩
    by_cases hslash : c = '\\'
    · subst hslash
      rcases rest with _ | ⟨d, rest'⟩
      · exact .inr ⟨_, _, Cut.escape.endsInside⟩
      · have h := ih rest'.length (by rw [length_cons, length_cons]; omega) rest' rfl
        exact h.prepend (.escape d)
    have h := ih rest.length hlen rest rfl
    cases hspace : isWhitespace c with
    | true => exact h.space hspace
    | false => exact h.prepend (.plain ⟨hsingle, hdouble, hslash, hspace⟩)

/-! ## The scanner along the grammar -/

namespace Scanner

variable {args : List String} {current body value text : List Char} {started : Bool}

theorem foldl_single (hbody : '\'' ∉ body) :
    body.foldl step ⟨args, current, some '\'', false, true⟩ = ⟨args, current ++ body, some '\'', false, true⟩ := by
  induction body generalizing current with
  | nil => rw [append_nil, foldl_nil]
  | cons c body ih =>
    have hc : c ≠ '\'' := fun heq => hbody (heq ▸ mem_cons_self)
    have hstep : step ⟨args, current, some '\'', false, true⟩ c = ⟨args, current ++ [c], some '\'', false, true⟩ := by
      simp [step, hc]
    rw [foldl_cons, hstep, ih fun hmem => hbody (mem_cons_of_mem _ hmem), append_assoc, singleton_append]

theorem foldl_doubleQuoted (h : DoubleQuoted body value) :
    body.foldl step ⟨args, current, some '"', false, true⟩ = ⟨args, current ++ value, some '"', false, true⟩ := by
  induction h generalizing current with
  | nil => rw [append_nil, foldl_nil]
  | @plain c body value hquote hslash _ ih =>
    have hstep : step ⟨args, current, some '"', false, true⟩ c = ⟨args, current ++ [c], some '"', false, true⟩ := by
      simp [step, hquote, hslash]
    rw [foldl_cons, hstep, ih, append_assoc, singleton_append]
  | @escape c body value _ ih =>
    have hstep : step (step ⟨args, current, some '"', false, true⟩ '\\') c =
        ⟨args, current ++ [c], some '"', false, true⟩ := by
      simp [step]
    rw [foldl_cons, foldl_cons, hstep, ih, append_assoc, singleton_append]

/-- A piece is added to the word, which counts as started even when the piece stands for nothing. -/
theorem foldl_piece (h : Piece text value) :
    text.foldl step ⟨args, current, none, false, started⟩ = ⟨args, current ++ value, none, false, true⟩ := by
  cases h with
  | plain h =>
    obtain ⟨hsingle, hdouble, hslash, hspace⟩ := h
    simp [step, hsingle, hdouble, hslash, hspace]
  | escape c => simp [step]
  | single hbody =>
    have hopen : step ⟨args, current, none, false, started⟩ '\'' = ⟨args, current, some '\'', false, true⟩ := by simp [step]
    rw [foldl_cons, hopen, foldl_append, foldl_single hbody]
    simp [step]
  | double hbody =>
    have hopen : step ⟨args, current, none, false, started⟩ '"' = ⟨args, current, some '"', false, true⟩ := by simp [step]
    rw [foldl_cons, hopen, foldl_append, foldl_doubleQuoted hbody]
    simp [step]

theorem foldl_word (h : Word text value) :
    text.foldl step ⟨args, current, none, false, started⟩ = ⟨args, current ++ value, none, false, true⟩ := by
  induction h generalizing current started with
  | last hp => exact foldl_piece hp
  | more hp _ ih => rw [foldl_append, foldl_piece hp, ih, append_assoc]

theorem step_space {c : Char} (hspace : isWhitespace c = true) : step ⟨args, current, none, false, started⟩ c =
      if started then ⟨args ++ [String.ofList current], [], none, false, false⟩ else ⟨args, current, none, false, false⟩ := by
  have hsingle : c ≠ '\'' := by rintro rfl; exact absurd hspace (by decide)
  have hdouble : c ≠ '"' := by rintro rfl; exact absurd hspace (by decide)
  have hslash : c ≠ '\\' := by rintro rfl; exact absurd hspace (by decide)
  cases started <;> simp [step, hsingle, hdouble, hslash, hspace]

/-- Between words the scanner waits outside any quote, and stopping there would give the words read so far. -/
theorem foldl_words (args : List String) {words : List String} (h : Words text words) : ∃ args' current' started',
    text.foldl step ⟨args, [], none, false, false⟩ = ⟨args', current', none, false, started'⟩ ∧
      finish ⟨args', current', none, false, started'⟩ = .ok (args ++ words) := by
  induction h generalizing args with
  | nil => exact ⟨args, [], false, rfl, by simp [finish]⟩
  | space hspace _ ih =>
    obtain ⟨args', current', started', hrun, hfinish⟩ := ih args
    refine ⟨args', current', started', ?_, hfinish⟩
    rw [foldl_cons, step_space hspace, if_neg Bool.false_ne_true, hrun]
  | @last text value hword => exact ⟨args, value, true, foldl_word hword, by simp [finish]⟩
  | @word text value c rest words hword hspace _ ih =>
    obtain ⟨args', current', started', hrun, hfinish⟩ := ih (args ++ [String.ofList value])
    refine ⟨args', current', started', ?_, ?_⟩
    · rw [foldl_append, foldl_word hword, foldl_cons, step_space hspace, if_pos rfl, nil_append, hrun]
    · rw [hfinish, append_assoc, singleton_append]

/-- What the scanner answers to a piece that was cut off. -/
def cutError : Option Char → Bool → CommandLineParseError
  | some quote, false => .unterminatedQuote quote
  | _, _ => .trailingEscape

theorem finish_cut {quote : Option Char} {escaped : Bool} (h : Cut text quote escaped) :
    (text.foldl step ⟨args, current, none, false, started⟩).finish = .error (cutError quote escaped) := by
  cases h with
  | escape => simp [step, finish, cutError]
  | single hbody =>
    have hopen : step ⟨args, current, none, false, started⟩ '\'' = ⟨args, current, some '\'', false, true⟩ := by simp [step]
    rw [foldl_cons, hopen, foldl_single hbody]
    simp [finish, cutError]
  | double hbody =>
    have hopen : step ⟨args, current, none, false, started⟩ '"' = ⟨args, current, some '"', false, true⟩ := by simp [step]
    rw [foldl_cons, hopen, foldl_doubleQuoted hbody]
    simp [finish, cutError]
  | doubleEscape hbody =>
    have hopen : step ⟨args, current, none, false, started⟩ '"' = ⟨args, current, some '"', false, true⟩ := by simp [step]
    rw [foldl_cons, hopen, foldl_append, foldl_doubleQuoted hbody]
    simp [step, finish, cutError]

theorem scan_eq : ∀ (s : Scanner) (text : List Char),
    s.scan text = if '\x00' ∈ text then .error .nulCharacter else .ok (text.foldl step s)
  | s, [] => rfl
  | s, c :: text => by
    rw [scan, scan_eq (s.step c) text, foldl_cons]
    by_cases hc : c = '\x00'
    · rw [if_pos hc, if_pos (hc ▸ mem_cons_self)]
    · rw [if_neg hc]
      have hmem : '\x00' ∈ c :: text ↔ '\x00' ∈ text := by simp [Ne.symm hc]
      simp only [hmem]

end Scanner

theorem splitCommandLine_eq (input : String) : splitCommandLine input =
    if '\x00' ∈ input.toList then .error .nulCharacter else (input.toList.foldl Scanner.step Scanner.new).finish := by
  rw [splitCommandLine, scan_eq]
  split <;> rfl

theorem splitCommandLine_words {input : String} {args : List String} (hnul : '\x00' ∉ input.toList) (h : Words input.toList args) :
    splitCommandLine input = .ok args := by
  obtain ⟨args', current', started', hrun, hfinish⟩ := foldl_words [] h
  rw [splitCommandLine_eq, if_neg hnul, Scanner.new, hrun, hfinish, nil_append]

theorem splitCommandLine_cut {input : String} (hnul : '\x00' ∉ input.toList)
    (h : EndsInside input.toList quote escaped) : splitCommandLine input = .error (cutError quote escaped) := by
  obtain ⟨before, args, tail, hbefore, hcut, heq⟩ := h
  obtain ⟨args', current', started', hrun, -⟩ := foldl_words [] hbefore
  rw [splitCommandLine_eq, if_neg hnul, heq, foldl_append, Scanner.new, hrun, finish_cut hcut]

/-! ## What the scanner answers -/

section

variable {input : String}

theorem splitCommandLine_eq_nulCharacter : splitCommandLine input = .error .nulCharacter ↔ '\x00' ∈ input.toList := by
  constructor
  · intro h
    by_contra hnul
    rcases covered input.toList with ⟨args, hwords⟩ | ⟨quote, escaped, hcut⟩
    · rw [splitCommandLine_words hnul hwords] at h
      cases h
    · rw [splitCommandLine_cut hnul hcut] at h
      cases quote <;> cases escaped <;> cases h
  · intro h
    rw [splitCommandLine_eq, if_pos h]

theorem splitCommandLine_eq_ok (hnul : '\x00' ∉ input.toList) {args : List String} :
    splitCommandLine input = .ok args ↔ Words input.toList args := by
  constructor
  · intro h
    rcases covered input.toList with ⟨args', hwords⟩ | ⟨quote, escaped, hcut⟩
    · rw [splitCommandLine_words hnul hwords] at h
      cases h
      exact hwords
    · rw [splitCommandLine_cut hnul hcut] at h
      cases h
  · exact splitCommandLine_words hnul

theorem splitCommandLine_eq_trailingEscape (hnul : '\x00' ∉ input.toList) :
    splitCommandLine input = .error .trailingEscape ↔ EndsInEscape input.toList := by
  constructor
  · intro h
    rcases covered input.toList with ⟨args, hwords⟩ | ⟨quote, escaped, hcut⟩
    · rw [splitCommandLine_words hnul hwords] at h
      cases h
    · cases escaped with
      | true => exact ⟨quote, hcut⟩
      | false =>
        -- a piece cut off outside any escape is in a quote
        obtain ⟨before, args, tail, hbefore, htail, heq⟩ := hcut
        have hcut : EndsInside input.toList quote false := ⟨before, args, tail, hbefore, htail, heq⟩
        rw [splitCommandLine_cut hnul hcut] at h
        cases htail <;> cases h
  · rintro ⟨quote, hcut⟩
    rw [splitCommandLine_cut hnul hcut]
    cases quote <;> rfl

theorem splitCommandLine_eq_unterminatedQuote (hnul : '\x00' ∉ input.toList) {quote : Char} :
    splitCommandLine input = .error (.unterminatedQuote quote) ↔
      EndsInQuote quote input.toList ∧ ¬ EndsInEscape input.toList := by
  constructor
  · intro h
    have hescape : ¬ EndsInEscape input.toList := by
      rw [← splitCommandLine_eq_trailingEscape hnul, h]
      simp
    refine ⟨?_, hescape⟩
    rcases covered input.toList with ⟨args, hwords⟩ | ⟨quote', escaped, hcut⟩
    · rw [splitCommandLine_words hnul hwords] at h
      cases h
    · have h' := h
      rw [splitCommandLine_cut hnul hcut] at h'
      rcases quote' with _ | quote' <;> cases escaped <;> cases h'
      exact ⟨false, hcut⟩
  · rintro ⟨⟨escaped, hcut⟩, hescape⟩
    cases escaped with
    | true => exact absurd ⟨some quote, hcut⟩ hescape
    | false => exact splitCommandLine_cut hnul hcut

theorem not_mem_nul_of_splitCommandLine {args : List String} (h : splitCommandLine input = .ok args) : '\x00' ∉ input.toList := by
  intro hnul
  rw [splitCommandLine_eq_nulCharacter.2 hnul] at h
  cases h

end

/-! ## Lines put together -/

def Blank (text : List Char) : Prop := text ≠ [] ∧ ∀ c ∈ text, isWhitespace c = true

theorem Words.spaces {space text : List Char} {args : List String} (hspace : ∀ c ∈ space, isWhitespace c = true) (h : Words text args) :
    Words (space ++ text) args := by
  induction space with
  | nil => exact h
  | cons c space ih => exact .space (hspace c mem_cons_self) (ih fun c' hc' => hspace c' (mem_cons_of_mem _ hc'))

theorem Words.append {text space text' : List Char} {args args' : List String} (h : Words text args) (hspace : Blank space)
    (h' : Words text' args') : Words (text ++ (space ++ text')) (args ++ args') := by
  induction h with
  | nil =>
    rw [nil_append, nil_append]
    exact h'.spaces hspace.2
  | space hc _ ih => exact .space hc ih
  | last hword =>
    obtain ⟨hne, hall⟩ := hspace
    obtain ⟨c, space, rfl⟩ := exists_cons_of_ne_nil hne
    exact .word hword (hall c mem_cons_self) (h'.spaces fun c' hc' => hall c' (mem_cons_of_mem _ hc'))
  | word hword hc _ ih =>
    rw [append_assoc, cons_append, cons_append]
    exact .word hword hc ih

theorem Blank.not_mem_nul {space : List Char} (h : Blank space) : '\x00' ∉ space := by
  intro hmem
  exact absurd (h.2 _ hmem) (by decide)

/-- An argument in double quotes, with every backslash and double quote preceded by a backslash. -/
def quoted (arg : String) : String :=
  String.ofList ('"' :: (arg.toList.flatMap (fun c => if c = '\\' ∨ c = '"' then ['\\', c] else [c]) ++ ['"']))

def joinWith : (Nat → String) → List String → String
  | _, [] => ""
  | _, [text] => text
  | sep, text :: next :: texts => text ++ (sep 0 ++ joinWith (fun n => sep (n + 1)) (next :: texts))

theorem doubleQuoted_escaped : ∀ arg : List Char,
    DoubleQuoted (arg.flatMap fun c => if c = '\\' ∨ c = '"' then ['\\', c] else [c]) arg
  | [] => .nil
  | c :: arg => by
    have ih := doubleQuoted_escaped arg
    rw [flatMap_cons]
    by_cases hc : c = '\\' ∨ c = '"'
    · rw [if_pos hc]
      exact .escape ih
    · rw [if_neg hc]
      exact .plain (fun heq => hc (.inr heq)) (fun heq => hc (.inl heq)) ih

theorem word_quoted (arg : String) : Word (quoted arg).toList arg.toList := by
  rw [quoted, String.toList_ofList]
  exact .last (.double (doubleQuoted_escaped arg.toList))

theorem words_quoted (arg : String) : Words (quoted arg).toList [arg] := by
  have h := Words.last (word_quoted arg)
  rwa [String.ofList_toList] at h

theorem words_joinWith : ∀ (sep : Nat → String) (args : List String), (∀ n, Blank (sep n).toList) →
    Words (joinWith sep (args.map quoted)).toList args
  | _, [], _ => .nil
  | _, [arg], _ => words_quoted arg
  | sep, arg :: next :: args, hsep => by
    have ih := words_joinWith (fun n => sep (n + 1)) (next :: args) fun n => hsep (n + 1)
    simp only [map_cons, joinWith, String.toList_append] at ih ⊢
    exact (words_quoted arg).append (hsep 0) ih

theorem not_mem_nul_quoted {arg : String} (h : '\x00' ∉ arg.toList) : '\x00' ∉ (quoted arg).toList := by
  intro hmem
  simp only [quoted, String.toList_ofList, mem_cons, mem_append, mem_flatMap, not_mem_nil, or_false] at hmem
  rcases hmem with heq | ⟨c, hc, hmem⟩ | heq
  · exact absurd heq (by decide)
  · split at hmem
    · rcases mem_pair.1 hmem with heq | rfl
      · exact absurd heq (by decide)
      · exact h hc
    · exact h (mem_singleton.1 hmem ▸ hc)
  · exact absurd heq (by decide)

theorem not_mem_nul_joinWith : ∀ (sep : Nat → String) (texts : List String), (∀ n, Blank (sep n).toList) →
    (∀ text ∈ texts, '\x00' ∉ text.toList) → '\x00' ∉ (joinWith sep texts).toList
  | _, [], _, _ => not_mem_nil
  | _, [text], _, h => h text mem_cons_self
  | sep, text :: next :: texts, hsep, h => by
    have ih := not_mem_nul_joinWith (fun n => sep (n + 1)) (next :: texts) (fun n => hsep (n + 1))
      fun t ht => h t (mem_cons_of_mem _ ht)
    rw [joinWith, String.toList_append, String.toList_append, mem_append, mem_append]
    rintro (hmem | hmem | hmem)
    · exact h text mem_cons_self hmem
    · exact (hsep 0).not_mem_nul hmem
    · exact ih hmem

theorem splitCommandLine_append {a b space : String} {x y : List String} (ha : splitCommandLine a = .ok x)
    (hspace : Blank space.toList) (hb : splitCommandLine b = .ok y) : splitCommandLine (a ++ space ++ b) = .ok (x ++ y) := by
  have hnulA := not_mem_nul_of_splitCommandLine ha
  have hnulB := not_mem_nul_of_splitCommandLine hb
  have heq : (a ++ space ++ b).toList = a.toList ++ (space.toList ++ b.toList) := by
    rw [String.toList_append, String.toList_append, append_assoc]
  apply splitCommandLine_words
  · rw [heq, mem_append, mem_append]
    rintro (hmem | hmem | hmem)
    · exact hnulA hmem
    · exact hspace.not_mem_nul hmem
    · exact hnulB hmem
  · rw [heq]
    exact ((splitCommandLine_eq_ok hnulA).1 ha).append hspace ((splitCommandLine_eq_ok hnulB).1 hb)

theorem splitCommandLine_quoted {sep : Nat → String} {args : List String} (hsep : ∀ n, Blank (sep n).toList)
    (hnul : ∀ arg ∈ args, '\x00' ∉ arg.toList) : splitCommandLine (joinWith sep (args.map quoted)) = .ok args := by
  apply splitCommandLine_words
  · apply not_mem_nul_joinWith sep _ hsep
    intro text htext
    obtain ⟨arg, harg, rfl⟩ := mem_map.1 htext
    exact not_mem_nul_quoted (hnul arg harg)
  · exact words_joinWith sep args hsep

/-- The scanner reads the grammar: the words of a text, or where it stops; and quoting is undone. -/
theorem splitCommandLine_grammar :
    (∀ input : String, '\x00' ∉ input.toList →
      (∀ args, splitCommandLine input = .ok args ↔ Words input.toList args) ∧
      (splitCommandLine input = .error .trailingEscape ↔ EndsInEscape input.toList) ∧
      ∀ quote, splitCommandLine input = .error (.unterminatedQuote quote) ↔
        EndsInQuote quote input.toList ∧ ¬ EndsInEscape input.toList) ∧
    (∀ (a b space : String) (x y : List String), splitCommandLine a = .ok x → splitCommandLine b = .ok y → Blank space.toList →
      splitCommandLine (a ++ space ++ b) = .ok (x ++ y)) ∧
    ∀ (args : List String) (sep : Nat → String), (∀ arg ∈ args, '\x00' ∉ arg.toList) → (∀ n, Blank (sep n).toList) →
      splitCommandLine (joinWith sep (args.map quoted)) = .ok args := by
  refine ⟨?_, ?_, ?_⟩
  · intro input hnul
    exact ⟨fun _ => splitCommandLine_eq_ok hnul, splitCommandLine_eq_trailingEscape hnul,
      fun _ => splitCommandLine_eq_unterminatedQuote hnul⟩
  · intro a b space x y ha hb hspace
    exact splitCommandLine_append ha hspace hb
  · intro args sep hnul hsep
    exact splitCommandLine_quoted hsep hnul

theorem splitCommandLine_grammar_tool : Words "tool 'two words' four\\ five".toList ["tool", "two words", "four five"] ∧
    EndsInEscape "tool value\\".toList ∧
    splitCommandLine ("tool" ++ " " ++ "'a b'") = .ok ["tool", "a b"] ∧
    splitCommandLine (joinWith (fun _ => " ") (["tool", "", "a\\\"b"].map quoted)) = .ok ["tool", "", "a\\\"b"] := by
  obtain ⟨hread, happend, hquoted⟩ := splitCommandLine_grammar
  have hblank : Blank " ".toList := ⟨by decide, List.all_eq_true.1 (by decide)⟩
  refine ⟨?_, ?_, ?_, ?_⟩
  · exact ((hread _ (by decide)).1 _).1 (by decide)
  · exact (hread _ (by decide)).2.1.1 (by decide)
  · exact happend "tool" "'a b'" " " ["tool"] ["a b"] (by decide) (by decide) hblank
  · exact hquoted _ _ (by simp) fun _ => hblank

end Jwm.CommandLine
