import Mathlib
namespace Doubles

-- The values a double takes when sums and products of whole numbers that are
-- not negative are computed in it.
inductive Whole where
  | fin (n : Nat)
  | infinity
  | nan
deriving DecidableEq, Repr

def nearest (n : Nat) : Nat :=
  if n < 2^53 then n
  else
    let unit := 2^(Nat.log2 n-52)
    let below := n/unit
    if 2*(n%unit) < unit ∨ 2*(n%unit) = unit ∧ below%2 = 0 then below*unit else (below+1)*unit

def Whole.ofNat (n : Nat) : Whole := if nearest n < 2^1024 then .fin (nearest n) else .infinity

def Whole.add : Whole → Whole → Whole
  | .nan,_ | _,.nan => .nan
  | .infinity,_ | _,.infinity => .infinity
  | .fin a,.fin b => .ofNat (a+b)

-- `n * Math.pow(2, shift)`: from 1024 on the power is infinite.
def Whole.scaled (n shift : Nat) : Whole :=
  if shift < 1024 then .ofNat (n*2^shift) else if n = 0 then .nan else .infinity

-- The bits that the shift operators of the language work on.
def Whole.toInt32 : Whole → Int
  | .fin n => if n%2^32 < 2^31 then (n%2^32 : Nat) else (n%2^32 : Nat)-(2^32 : Nat)
  | .infinity | .nan => 0

-- `subarray(i, i + length)` and what is left of the array from `i + length` on.
def Whole.taken {α : Type} : Whole → List α → List α
  | .fin n,items => items.take n
  | .infinity,items => items
  | .nan,_ => []
def Whole.dropped {α : Type} : Whole → List α → List α
  | .fin n,items => items.drop n
  | .infinity,_ | .nan,_ => []

variable {n : Nat}

theorem nearest_small (small : n < 2^53) : nearest n = n := if_pos small

theorem nearest_large (large : 2^53 ≤ n) : 2^53 ≤ nearest n := by
  have nonzero : n ≠ 0 := by omega
  have exponent : 53 ≤ Nat.log2 n := (Nat.le_log2 nonzero).mpr large
  let unit := 2^(Nat.log2 n-52)
  have whole : 2^53 ≤ n/unit*unit := by
    have parts : 2^52*unit = 2^Nat.log2 n := by
      rw [← Nat.pow_add]
      congr 1
      omega
    have below : 2^52 ≤ n/unit := by
      rw [Nat.le_div_iff_mul_le (Nat.two_pow_pos _),parts]
      exact Nat.log2_self_le nonzero
    have double : 2 ≤ unit := by
      have grown : 2^1 ≤ 2^(Nat.log2 n-52) := Nat.pow_le_pow_right (by omega) (by omega)
      exact grown
    exact Nat.mul_le_mul below double
  rw [nearest,if_neg (by omega)]
  dsimp only
  split
  · exact whole
  · exact Nat.le_trans whole (Nat.mul_le_mul_right _ (Nat.le_succ _))

open Whole

theorem Whole.ofNat_small (small : n < 2^53) : ofNat n = .fin n := by
  have kept := nearest_small small
  have fits : n < 2^1024 := Nat.lt_trans small (Nat.pow_lt_pow_right (by omega : 1 < 2) (by omega : 53 < 1024))
  simp only [ofNat,kept,if_pos fits]

theorem Whole.dropped_length {α : Type} (length : Whole) (items : List α) : (length.dropped items).length ≤ items.length := by
  cases length with
  | fin n => simp [dropped]
  | infinity => simp [dropped]
  | nan => simp [dropped]

end Doubles
