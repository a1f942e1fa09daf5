import OpenIscsi.Lib.CString

/-!
# A memory of bytes

Reading and writing ranges of bytes, numbers of a fixed width in them, least byte
first, and strings that end with a NUL. A write leaves disjoint ranges alone.
-/

namespace ByteMemory

open CString List

abbrev Mem := Nat → UInt8

def load (m : Mem) (p n : Nat) : List UInt8 := (List.range n).map (fun i => m (p + i))

def store (m : Mem) (p : Nat) (bytes : List UInt8) : Mem :=
  fun a => if p ≤ a ∧ a < p + bytes.length then bytes.getD (a - p) 0 else m a

@[simp] theorem load_length (m : Mem) (p n : Nat) : (load m p n).length = n := by
  simp [load]

theorem load_eq_iff {m : Mem} {p : Nat} {bytes : List UInt8} :
    load m p bytes.length = bytes ↔ ∀ i < bytes.length, m (p + i) = bytes.getD i 0 := by
  constructor
  · intro h i hi
    have hget := congrArg (fun l => l.getD i 0) h
    dsimp only [load] at hget
    rw [← hget, getD_eq_getElem?_getD, getElem?_map, getElem?_range hi]
    rfl
  · intro h
    apply ext_getElem
    · rw [load_length]
    · intro i h1 h2
      simp only [load, getElem_map, getElem_range]
      rw [h i h2, getD_eq_getElem _ _ h2]

/-- Reading what was just written. -/
theorem load_store_same (m : Mem) (p : Nat) (bytes : List UInt8) :
    load (store m p bytes) p bytes.length = bytes := by
  rw [load_eq_iff]
  intro i hi
  unfold store
  rw [if_pos ⟨Nat.le_add_right p i, by omega⟩, Nat.add_sub_cancel_left]

/-- Reading elsewhere. -/
theorem load_store_disjoint (m : Mem) {p q n : Nat} {bytes : List UInt8}
    (h : q + n ≤ p ∨ p + bytes.length ≤ q) : load (store m p bytes) q n = load m q n := by
  unfold load
  apply map_congr_left
  intro i hi
  have hin : i < n := mem_range.mp hi
  unfold store
  rw [if_neg (by omega)]

/-! ## Numbers -/

/-- The `k` low bytes of a number, least first. -/
def toBytes : Nat → Nat → List UInt8
  | 0, _ => []
  | k + 1, n => UInt8.ofNat n :: toBytes k (n / 256)

def ofBytes : List UInt8 → Nat
  | [] => 0
  | b :: bytes => b.toNat + 256 * ofBytes bytes

@[simp] theorem toBytes_length (k n : Nat) : (toBytes k n).length = k := by
  induction k generalizing n with
  | zero => rfl
  | succ k ih => rw [toBytes, length_cons, ih]

theorem ofBytes_toBytes (k n : Nat) (h : n < 256 ^ k) : ofBytes (toBytes k n) = n := by
  induction k generalizing n with
  | zero =>
    rw [Nat.pow_zero] at h
    rw [toBytes, ofBytes]
    omega
  | succ k ih =>
    have hdiv : n / 256 < 256 ^ k := by
      rw [Nat.pow_succ] at h
      exact Nat.div_lt_of_lt_mul (by omega)
    rw [toBytes, ofBytes, ih _ hdiv, UInt8.toNat_ofNat']
    have hpow : 2 ^ 8 = 256 := by decide
    rw [hpow]
    omega

def loadNat (m : Mem) (p k : Nat) : Nat := ofBytes (load m p k)

def storeNat (m : Mem) (p k n : Nat) : Mem := store m p (toBytes k n)

theorem loadNat_storeNat_same (m : Mem) (p : Nat) {k n : Nat} (h : n < 256 ^ k) :
    loadNat (storeNat m p k n) p k = n := by
  unfold loadNat storeNat
  have hload := load_store_same m p (toBytes k n)
  rw [toBytes_length] at hload
  rw [hload, ofBytes_toBytes k n h]

/-! ## Strings -/

def loadStr (m : Mem) (p fuel : Nat) : List UInt8 := cstr (load m p fuel)

theorem load_add (m : Mem) (p a b : Nat) : load m p (a + b) = load m p a ++ load m (p + a) b := by
  unfold load
  rw [range_add, map_append, map_map]
  congr 1
  apply map_congr_left
  intro i _
  rw [Function.comp_apply, Nat.add_assoc]

/-- A string is read back from its bytes and the NUL behind them. -/
theorem loadStr_of_load {m : Mem} {p fuel : Nat} {s : List UInt8} (hs : NulFree s)
    (h : load m p (s.length + 1) = s ++ [0]) (hf : s.length < fuel) : loadStr m p fuel = s := by
  unfold loadStr
  rw [show fuel = s.length + 1 + (fuel - (s.length + 1)) by omega, load_add, h, append_assoc]
  exact cstr_append_nul s _ hs

end ByteMemory
