import Mathlib

inductive Json where
  | null
  | bool (b : Bool)
  | number (n : Nat)
  | string (text : List Char)
  | array (items : List Json)
  | object (rows : List (List Char × Json))

namespace Json

def get (document : Json) (key : List Char) : Option Json :=
  match document with
  | .object rows => (rows.find? fun row => row.1 = key).map (·.2)
  | _ => none

def asStr : Json → Option (List Char)
  | .string text => some text
  | _ => none

def asArray : Json → Option (List Json)
  | .array items => some items
  | _ => none

def asU64 : Json → Option Nat
  | .number n => if n < 2^64 then some n else none
  | _ => none

mutual
def same : Json → Json → Bool
  | .null,.null => true
  | .bool a,.bool b => a == b
  | .number a,.number b => a == b
  | .string a,.string b => a == b
  | .array a,.array b => sameItems a b
  | .object a,.object b => sameRows a b
  | _,_ => false
termination_by structural a => a
def sameItems : List Json → List Json → Bool
  | [],[] => true
  | a :: rest,b :: others => same a b && sameItems rest others
  | _,_ => false
termination_by structural a => a
def sameRows : List (List Char × Json) → List (List Char × Json) → Bool
  | [],[] => true
  | (key,a) :: rest,(other,b) :: others => key == other && same a b && sameRows rest others
  | _,_ => false
termination_by structural a => a
end

mutual
theorem same_iff (a b : Json) : same a b = true ↔ a = b := by
  cases a with
  | array items => cases b with
    | array others => simp only [same,sameItems_iff items others,array.injEq]
    | _ => simp [same]
  | object rows => cases b with
    | object others => simp only [same,sameRows_iff rows others,object.injEq]
    | _ => simp [same]
  | _ => cases b <;> simp [same]
termination_by structural a
theorem sameItems_iff (items others : List Json) : sameItems items others = true ↔ items = others := by
  match items,others with
  | [],[] => simp [sameItems]
  | [],_ :: _ => simp [sameItems]
  | _ :: _,[] => simp [sameItems]
  | a :: rest,b :: later => simp only [sameItems,Bool.and_eq_true,same_iff a b,sameItems_iff rest later,List.cons.injEq]
termination_by structural items
theorem sameRows_iff (rows others : List (List Char × Json)) : sameRows rows others = true ↔ rows = others := by
  match rows,others with
  | [],[] => simp [sameRows]
  | [],_ :: _ => simp [sameRows]
  | _ :: _,[] => simp [sameRows]
  | (key,a) :: rest,(other,b) :: later =>
    simp only [sameRows,Bool.and_eq_true,beq_iff_eq,same_iff a b,sameRows_iff rest later,List.cons.injEq,Prod.mk.injEq]
termination_by structural rows
end

instance : DecidableEq Json := fun a b => decidable_of_iff (same a b = true) (same_iff a b)

end Json
