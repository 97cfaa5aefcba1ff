/-
JSON values as a program holds them, with equality that can be decided and the reading of structs from them.
-/
import Mathlib.Data.List.Basic

namespace Jwm

/-- A number as it is kept: not negative, negative, or with the digits of a fraction. -/
inductive JsonNumber where
  | pos (n : Nat)
  | neg (n : Nat)
  | float (digits : String)
deriving DecidableEq

/-- Objects hold their fields in key order. -/
inductive Json where
  | null
  | bool (b : Bool)
  | number (n : JsonNumber)
  | string (s : String)
  | array (values : List Json)
  | object (fields : List (String × Json))

namespace Json

mutual

def decEq : (a b : Json) → Decidable (a = b)
  | .null, .null => isTrue rfl
  | .bool a, .bool b => decidable_of_iff (a = b) ⟨congrArg _, Json.bool.inj⟩
  | .number a, .number b => decidable_of_iff (a = b) ⟨congrArg _, Json.number.inj⟩
  | .string a, .string b => decidable_of_iff (a = b) ⟨congrArg _, Json.string.inj⟩
  | .array a, .array b => @decidable_of_iff _ (a = b) ⟨congrArg _, Json.array.inj⟩ (decEqList a b)
  | .object a, .object b => @decidable_of_iff _ (a = b) ⟨congrArg _, Json.object.inj⟩ (decEqFields a b)
  | .null, .bool _ | .null, .number _ | .null, .string _ | .null, .array _ | .null, .object _ => isFalse nofun
  | .bool _, .null | .bool _, .number _ | .bool _, .string _ | .bool _, .array _ | .bool _, .object _ => isFalse nofun
  | .number _, .null | .number _, .bool _ | .number _, .string _ | .number _, .array _ | .number _, .object _ =>
    isFalse nofun
  | .string _, .null | .string _, .bool _ | .string _, .number _ | .string _, .array _ | .string _, .object _ =>
    isFalse nofun
  | .array _, .null | .array _, .bool _ | .array _, .number _ | .array _, .string _ | .array _, .object _ => isFalse nofun
  | .object _, .null | .object _, .bool _ | .object _, .number _ | .object _, .string _ | .object _, .array _ =>
    isFalse nofun

def decEqList : (a b : List Json) → Decidable (a = b)
  | [], [] => isTrue rfl
  | [], _ :: _ | _ :: _, [] => isFalse nofun
  | a :: as, b :: bs =>
    match decEq a b with
    | isFalse h => isFalse fun heq => h (List.cons.inj heq).1
    | isTrue h => @decidable_of_iff _ (as = bs) ⟨fun hs => by rw [h, hs], fun heq => (List.cons.inj heq).2⟩ (decEqList as bs)

def decEqFields : (a b : List (String × Json)) → Decidable (a = b)
  | [], [] => isTrue rfl
  | [], _ :: _ | _ :: _, [] => isFalse nofun
  | (k, a) :: as, (l, b) :: bs =>
    if hkey : k = l then
      match decEq a b with
      | isFalse h => isFalse fun heq => h (Prod.mk.inj (List.cons.inj heq).1).2
      | isTrue h =>
        @decidable_of_iff _ (as = bs) ⟨fun hs => by rw [hkey, h, hs], fun heq => (List.cons.inj heq).2⟩ (decEqFields as bs)
    else isFalse fun heq => hkey (Prod.mk.inj (List.cons.inj heq).1).1

end

instance : DecidableEq Json := decEq

/-- `Value::get` with a key. -/
def get (v : Json) (key : String) : Option Json :=
  match v with
  | .object fields => (fields.find? fun f => f.1 == key).map Prod.snd
  | _ => none

/-- `value[key]`; null where there is no such field. -/
def index (v : Json) (key : String) : Json := (v.get key).getD .null

def asStr : Json → Option String
  | .string s => some s
  | _ => none

def asU64 : Json → Option Nat
  | .number (.pos n) => some n
  | _ => none

def asBool : Json → Option Bool
  | .bool b => some b
  | _ => none

def asArray : Json → Option (List Json)
  | .array values => some values
  | _ => none

def isObject : Json → Bool
  | .object _ => true
  | _ => false

/-- The fields a struct is read from, unknown ones denied: by name from an object, in order from an array. -/
def structFields (names : List String) : Json → Option (List (String × Json))
  | .object fields => if fields.all fun f => names.contains f.1 then some fields else none
  | .array values => if values.length ≤ names.length then some (names.zip values) else none
  | _ => none

def field (fields : List (String × Json)) (name : String) : Option Json := (fields.find? fun f => f.1 == name).map Prod.snd

def optional {α : Type} (read : Json → Option α) : Option Json → Option (Option α)
  | none => some none
  | some .null => some none
  | some v => (read v).map some

/-- An unsigned integer of at most `max`. -/
def asUpTo (max : Nat) (v : Json) : Option Nat := v.asU64.filter (· ≤ max)

end Json

end Jwm
