import Mathlib

/-!
# One's complement sums of 16 bit words

The sum with the carry brought around at each step is the remainder of the
plain sum modulo 65535, with 65535 in the place of 0 for sums that are not 0.
-/

namespace OnesComplement

/-- Addition of words with the carry brought around. -/
def add (a b : Nat) : Nat := if a + b < 65536 then a + b else a + b - 65535

def sum (ws : List Nat) : Nat := ws.foldl add 0

/-- The word that a plain sum comes to. -/
def fold (n : Nat) : Nat := if n = 0 then 0 else (n - 1) % 65535 + 1

theorem add_fold (n : Nat) {w : Nat} (hw : w < 65536) : add (fold n) w = fold (n + w) := by
  unfold add fold
  split_ifs <;> omega

theorem sum_eq {ws : List Nat} (h : ∀ w ∈ ws, w < 65536) : sum ws = fold ws.sum := by
  have hrun : ∀ n, ws.foldl add (fold n) = fold (n + ws.sum) := by
    induction ws with
    | nil => exact fun n => rfl
    | cons w ws ih =>
      intro n
      rw [List.foldl_cons, add_fold n (h w List.mem_cons_self),
        ih (fun v hv => h v (List.mem_cons_of_mem _ hv)), List.sum_cons, Nat.add_assoc]
  have hzero := hrun 0
  rw [Nat.zero_add] at hzero
  exact hzero

/-- Two carries are enough for a sum of 32 bits. -/
theorem fold_carries {n : Nat} (hn : 0 < n) (h : n < 2 ^ 32) :
    (n / 65536 + n % 65536 + (n / 65536 + n % 65536) / 65536) % 65536 = fold n := by
  have hsplit := Nat.div_add_mod n 65536
  have hlow := Nat.mod_lt n (y := 65536) (by decide)
  have hhigh : n / 65536 < 65536 := by omega
  generalize n / 65536 = q at *
  generalize n % 65536 = r at *
  unfold fold
  rw [if_neg (by omega)]
  by_cases hcarry : q + r < 65536
  · have hrest : (n - 1) % 65535 = q + r - 1 := by
      rw [show n - 1 = q + r - 1 + 65535 * q by omega, Nat.add_mul_mod_self_left]
      exact Nat.mod_eq_of_lt (by omega)
    omega
  · have hrest : (n - 1) % 65535 = q + r - 65536 := by
      rw [show n - 1 = q + r - 65536 + 65535 * (q + 1) by omega, Nat.add_mul_mod_self_left]
      exact Nat.mod_eq_of_lt (by omega)
    omega

/-- A word and its complement come to 65535. -/
theorem fold_complement {n : Nat} (hn : 0 < n) : fold (n + (65535 - fold n)) = 65535 := by
  unfold fold
  split_ifs <;> omega

theorem fold_eq_top_iff {n : Nat} (hn : 0 < n) : fold n = 65535 ↔ 65535 ∣ n := by
  unfold fold
  rw [if_neg (by omega)]
  omega

theorem fold_lt (n : Nat) : fold n < 65536 := by
  unfold fold
  split_ifs <;> omega

end OnesComplement
