import OpenIscsi.Lib.RecordFile
import OpenIscsi.Lib.Runs

/-! # Texts with a length beside them

A record format may keep the length of a text in a field of its own, which is set together with
the text but has a key too. When the two agree along a run of assignments. -/

namespace LengthFields

open CString RecordFile

variable {φ : Type} [DecidableEq φ] {F : Format φ} {table : List φ} {f g : φ} {size : Nat}

structure Measured (F : Format φ) (table : List φ) (f g : φ) (size : Nat) : Prop where
  text_mem : f ∈ table
  length_mem : g ∈ table
  lengthOf : F.lengthOf f = some g
  only : ∀ x, F.lengthOf x = some g → x = f
  length_plain : F.lengthOf g = none
  text_plain : F.Plain f
  text_kind : F.kind f = .str size
  length_kind : F.kind g = .int

def Agree (f g : φ) (size : Nat) (r : φ → Val) : Prop :=
  ∃ s : List UInt8, r f = .text s ∧ s.length < size ∧ r g = .num s.length

/-- One assignment, which is without effect if it fails. -/
def step (F : Format φ) (table : List φ) (r : φ → Val) (kv : List UInt8 × List UInt8) : φ → Val :=
  (F.assign table r kv.1 kv.2).getD r

/-- The assignment is one that keeps them in step: a new text loses nothing in the buffer, as far
as its length modulo 2^16 tells, and a new length is the length of the text there is. -/
def InStep (F : Format φ) (f g : φ) (size : Nat) (r : φ → Val) (kv : List UInt8 × List UInt8) :
    Prop :=
  (kv.1 = F.key f → kv.2.length % 65536 = min (size - 1) kv.2.length) ∧
    (kv.1 = F.key g → ∃ s : List UInt8, r f = .text s ∧ toInt32 (strtoul 10 kv.2).1 = s.length)

omit [DecidableEq φ] in
theorem Measured.ne (h : Measured F table f g size) : g ≠ f := by
  rintro rfl
  have hplain := h.length_plain
  rw [h.lengthOf] at hplain
  cases hplain

omit [DecidableEq φ] in
theorem Measured.key_ne (h : Measured F table f g size) (hd : F.Distinct table) :
    F.key f ≠ F.key g := by
  intro hkey
  have hf := F.find_mem hd h.text_mem
  rw [hkey, F.find_mem hd h.length_mem] at hf
  exact h.ne (Option.some.inj hf)

theorem toInt32_small {n : Nat} (h : n < 65536) : toInt32 n = n := by
  have := toInt32_nat (n := (n : Int)) (by omega) (by omega)
  rwa [Int.toNat_natCast] at this

/-- A new text: the buffer and the length. -/
theorem Measured.step_text (h : Measured F table f g size) (hd : F.Distinct table) (r : φ → Val)
    (t : List UInt8) :
    step F table r (F.key f, t) f = .text (t.take (size - 1)) ∧
      step F table r (F.key f, t) g = .num (t.length % 65536 : Nat) := by
  have hparse : (F.kind f).parse t ≠ none := by
    rw [h.text_kind]
    exact Option.some_ne_none _
  constructor
  · rw [step, F.assign_apply hd r _ t h.text_mem h.text_plain, if_pos rfl, h.text_kind]
    rfl
  · rw [step, F.assign_length hd r h.text_mem h.lengthOf h.ne h.only (h.key_ne hd) hparse,
      if_pos rfl, h.length_kind]
    change Val.num (toInt32 (strtoul 10 (lengthText t)).1) = _
    rw [strtoul_lengthText, toInt32_small (Nat.mod_lt _ (by decide))]

/-- A length of its own. -/
theorem Measured.step_length (h : Measured F table f g size) (hd : F.Distinct table)
    (r : φ → Val) (t : List UInt8) :
    step F table r (F.key g, t) f = r f ∧
      step F table r (F.key g, t) g = .num (toInt32 (strtoul 10 t).1) := by
  constructor
  · rw [step, F.assign_apply hd r _ t h.text_mem h.text_plain, if_neg (h.key_ne hd).symm]
  · rw [step, Format.assign, F.find_mem hd h.length_mem]
    dsimp only
    simp only [h.length_kind, Kind.parse, h.length_plain, Option.getD_some, Function.update_self]

/-- Another key. -/
theorem Measured.step_other (h : Measured F table f g size) (hd : F.Distinct table) (r : φ → Val)
    (kv : List UInt8 × List UInt8) (hf : kv.1 ≠ F.key f) (hg : kv.1 ≠ F.key g) :
    step F table r kv f = r f ∧ step F table r kv g = r g := by
  have hparse : (F.kind f).parse kv.2 ≠ none := by
    rw [h.text_kind]
    exact Option.some_ne_none _
  constructor
  · rw [step, F.assign_apply hd r _ _ h.text_mem h.text_plain, if_neg hf]
  · rw [step, F.assign_length hd r h.text_mem h.lengthOf h.ne h.only hg hparse, if_neg hf]

/-- One assignment keeps the agreement exactly if it is in step. -/
theorem Measured.agree_step_iff (h : Measured F table f g size) (hd : F.Distinct table)
    (hsize : 0 < size) {r : φ → Val} (hr : Agree f g size r) (kv : List UInt8 × List UInt8) :
    Agree f g size (step F table r kv) ↔ InStep F f g size r kv := by
  obtain ⟨k, t⟩ := kv
  obtain ⟨s, hs, hlen, hg⟩ := hr
  by_cases hkf : k = F.key f
  · subst hkf
    obtain ⟨hf', hg'⟩ := h.step_text hd r t
    have hg_ne : F.key f ≠ F.key g := h.key_ne hd
    constructor
    · rintro ⟨s', hs', -, hlen'⟩
      refine ⟨fun _ => ?_, fun hk => absurd hk hg_ne⟩
      rw [hf', Val.text.injEq] at hs'
      rw [hg', Val.num.injEq, ← hs', List.length_take] at hlen'
      exact_mod_cast hlen'
    · rintro ⟨hkeep, -⟩
      refine ⟨_, hf', ?_, ?_⟩
      · rw [List.length_take]
        omega
      · rw [hg', hkeep rfl, List.length_take]
  · by_cases hkg : k = F.key g
    · subst hkg
      obtain ⟨hf', hg'⟩ := h.step_length hd r t
      constructor
      · rintro ⟨s', hs', -, hlen'⟩
        refine ⟨fun hk => absurd hk hkf, fun _ => ⟨s', hf' ▸ hs', ?_⟩⟩
        rw [hg', Val.num.injEq] at hlen'
        exact hlen'
      · rintro ⟨-, hkeep⟩
        obtain ⟨s', hs', hlen'⟩ := hkeep rfl
        rw [hs, Val.text.injEq] at hs'
        subst hs'
        exact ⟨s, hf' ▸ hs, hlen, by rw [hg', hlen']⟩
    · obtain ⟨hf', hg'⟩ := h.step_other hd r (k, t) hkf hkg
      refine iff_of_true ⟨s, by rw [hf', hs], hlen, by rw [hg', hg]⟩ ?_
      exact ⟨fun hk => absurd hk hkf, fun hk => absurd hk hkg⟩

/-- A format does not touch a text field outside its table, nor its length. -/
theorem step_of_not_mem (hf : f ∉ table) (hg : g ∉ table)
    (honly : ∀ x, F.lengthOf x = some g → x = f) (hplain : F.Plain f) (r : φ → Val)
    (kv : List UInt8 × List UInt8) : step F table r kv f = r f ∧ step F table r kv g = r g := by
  rw [step, Format.assign]
  cases hfind : F.find table kv.1 with
  | none => exact ⟨rfl, rfl⟩
  | some x =>
    have hx := (F.find_eq_some hfind).1
    have hxf : f ≠ x := fun h => hf (h ▸ hx)
    have hxg : g ≠ x := fun h => hg (h ▸ hx)
    dsimp only
    cases (F.kind x).parse kv.2 with
    | none => exact ⟨rfl, rfl⟩
    | some v =>
      dsimp only
      cases hlen : F.lengthOf x with
      | none => exact ⟨Function.update_of_ne hxf _ _, Function.update_of_ne hxg _ _⟩
      | some c =>
        have hcf : f ≠ c := fun h => hplain x (by rw [hlen, h])
        have hcg : g ≠ c := by
          rintro rfl
          exact hxf (honly x hlen).symm
        exact ⟨(Function.update_of_ne hcf _ _).trans (Function.update_of_ne hxf _ _),
          (Function.update_of_ne hcg _ _).trans (Function.update_of_ne hxg _ _)⟩

end LengthFields
