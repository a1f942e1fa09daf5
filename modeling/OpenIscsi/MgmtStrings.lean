import OpenIscsi.Lib.ByteMemory

/-! # String lists in management requests

`mgmt_ipc_parse_strings` of `usr/mgmt_ipc.c`: the payload of a request is a list of strings, each
a 32 bit length and the bytes. -/

namespace MgmtStrings

open CString ByteMemory List

/-- What the parser comes to; `overread` is a length read behind the end of the payload. -/
inductive Outcome where
  | strings (mem : List UInt8) (argv : List Nat)
  | rejected
  | overread
  deriving DecidableEq, Repr

def terminate (mem : List UInt8) : Option Nat → List UInt8
  | some endp => mem.set endp 0
  | none => mem

/-- The loop over the payload, which does not change `left`. Only the second time it notes where
the strings start and ends each of them with a NUL. -/
def walk (collect : Bool) (left : Nat) :
    Nat → List UInt8 → Nat → Option Nat → List Nat → Outcome
  | 0, _, _, _, _ => .overread
  | fuel + 1, mem, data, endp, argv =>
    if left = 0 then .strings (terminate mem endp) argv
    else if left < 4 then .rejected
    else if left < data + 4 then .overread
    else
      let len := ofBytes ((mem.drop data).take 4)
      let data := data + 4
      let mem := terminate mem endp
      if left < len then .rejected
      else if collect then walk collect left fuel mem (data + len) (some (data + len)) (argv ++ [data])
      else walk collect left fuel mem (data + len) endp (argv ++ [data])

def mgmtIpcParseStrings (payload : List UInt8) (excess : UInt8) : Outcome :=
  let fuel := payload.length + 1
  match walk false payload.length fuel (payload ++ [excess]) 0 none [] with
  | .strings mem _ => walk true payload.length fuel mem 0 none []
  | out => out

def Outcome.list : Outcome → Option (List (List UInt8))
  | .strings mem argv => some (argv.map fun p => cstr (mem.drop p))
  | _ => none

def packString (s : List UInt8) : List UInt8 := toBytes 4 s.length ++ s

def pack (strings : List (List UInt8)) : List UInt8 := strings.flatMap packString

def Packs (payload : List UInt8) (strings : List (List UInt8)) : Prop :=
  (∀ s ∈ strings, s.length < 2 ^ 32) ∧ payload = pack strings

/-- What is asked of the parser: it stays inside the payload, takes a packed list as it is and
rejects a payload whose lengths do not add up. -/
structure Parses (payload : List UInt8) (excess : UInt8) : Prop where
  inside : mgmtIpcParseStrings payload excess ≠ .overread
  packed : ∀ strings, (∀ s ∈ strings, NulFree s) → Packs payload strings →
    (mgmtIpcParseStrings payload excess).list = some strings
  other : (∀ strings, ¬ Packs payload strings) → mgmtIpcParseStrings payload excess = .rejected

inductive LeadsBeyond (limit : Nat) : List UInt8 → Prop
  | here {field rest : List UInt8} (hfield : field.length = 4) (h : limit < ofBytes field) :
      LeadsBeyond limit (field ++ rest)
  | next {field s rest : List UInt8} (hfield : field.length = 4) (hs : s.length = ofBytes field)
      (h : LeadsBeyond limit rest) : LeadsBeyond limit (field ++ (s ++ rest))

theorem LeadsBeyond.four_le {limit : Nat} {bytes : List UInt8} (h : LeadsBeyond limit bytes) :
    4 ≤ bytes.length := by
  cases h with
  | here hfield h => simp only [length_append]; omega
  | next hfield hs h => simp only [length_append]; omega

/-- One length further. -/
theorem leadsBeyond_iff {limit : Nat} {bytes : List UInt8} (hlen : 4 ≤ bytes.length) :
    LeadsBeyond limit bytes ↔ limit < ofBytes (bytes.take 4) ∨
      LeadsBeyond limit ((bytes.drop 4).drop (ofBytes (bytes.take 4))) := by
  constructor
  · intro h
    cases h with
    | here hfield h =>
      left
      rwa [take_left' hfield]
    | next hfield hs h =>
      right
      rwa [take_left' hfield, drop_left' hfield, drop_left' hs]
  · have hfield : (bytes.take 4).length = 4 := length_take_of_le hlen
    rintro (h | h)
    · rw [← take_append_drop 4 bytes]
      exact .here hfield h
    · have hrest := h.four_le
      have hs : ((bytes.drop 4).take (ofBytes (bytes.take 4))).length = ofBytes (bytes.take 4) := by
        simp only [length_drop, length_take] at hrest ⊢
        omega
      rw [← take_append_drop 4 bytes,
        ← take_append_drop (ofBytes (bytes.take 4)) (bytes.drop 4)]
      exact .next hfield hs h

/-- A length that a packed list leads to is never larger than the whole. -/
theorem not_leadsBeyond_pack {limit : Nat} (strings : List (List UInt8))
    (hfit : ∀ s ∈ strings, s.length < 2 ^ 32) (hlimit : (pack strings).length ≤ limit) :
    ¬ LeadsBeyond limit (pack strings) := by
  induction strings with
  | nil =>
    intro h
    exact absurd h.four_le (by decide)
  | cons s strings ih =>
    have hcons : pack (s :: strings) = toBytes 4 s.length ++ (s ++ pack strings) := by
      rw [pack, flatMap_cons, packString, append_assoc]
      rfl
    have hsize : (pack (s :: strings)).length = 4 + (s.length + (pack strings).length) := by
      rw [hcons, length_append, length_append, toBytes_length]
    have hfield : ofBytes (toBytes 4 s.length) = s.length :=
      ofBytes_toBytes 4 s.length (hfit s mem_cons_self)
    rw [leadsBeyond_iff (by omega), hcons, take_left' (toBytes_length 4 _),
      drop_left' (toBytes_length 4 _), hfield, drop_left' rfl]
    rintro (h | h)
    · omega
    · exact ih (fun t ht => hfit t (mem_cons_of_mem s ht)) (by omega) h

/-- The first pass ends inside the payload only if the lengths lead beyond it. -/
theorem walk_eq {payload : List UInt8} (excess : UInt8) (hlen : 4 ≤ payload.length) (fuel : Nat)
    (data : Nat) (argv : List Nat) (hfuel : payload.length < fuel + data) :
    walk false payload.length fuel (payload ++ [excess]) data none argv = .rejected ∧
        LeadsBeyond payload.length (payload.drop data) ∨
      walk false payload.length fuel (payload ++ [excess]) data none argv = .overread ∧
        ¬ LeadsBeyond payload.length (payload.drop data) := by
  induction fuel generalizing data argv with
  | zero =>
    right
    refine ⟨rfl, fun h => ?_⟩
    have := h.four_le
    rw [length_drop] at this
    omega
  | succ fuel ih =>
    rw [walk, if_neg (by omega), if_neg (by omega)]
    by_cases hend : payload.length < data + 4
    · right
      rw [if_pos hend]
      refine ⟨rfl, fun h => ?_⟩
      have := h.four_le
      rw [length_drop] at this
      omega
    · rw [if_neg hend]
      have hfour : 4 ≤ (payload.drop data).length := by
        rw [length_drop]
        omega
      have hfield : ((payload ++ [excess]).drop data).take 4 = (payload.drop data).take 4 := by
        rw [drop_append_of_le_length (by omega), take_append_of_le_length hfour]
      rw [leadsBeyond_iff hfour, drop_drop, drop_drop, ← Nat.add_assoc]
      dsimp only
      rw [hfield]
      by_cases hlarge : payload.length < ofBytes ((payload.drop data).take 4)
      · left
        rw [if_pos hlarge]
        exact ⟨rfl, .inl hlarge⟩
      · rw [if_neg hlarge, if_neg Bool.false_ne_true]
        simp only [hlarge, false_or]
        exact ih (data + 4 + ofBytes ((payload.drop data).take 4)) _ (by omega)

theorem pack_eq_nil {strings : List (List UInt8)} (h : pack strings = []) : strings = [] := by
  cases strings with
  | nil => rfl
  | cons s strings =>
    have hlen := congrArg List.length h
    rw [pack, flatMap_cons, packString, length_append, length_append,
      toBytes_length, length_nil] at hlen
    omega

theorem four_le_pack {strings : List (List UInt8)} (h : strings ≠ []) :
    4 ≤ (pack strings).length := by
  cases strings with
  | nil => exact absurd rfl h
  | cons s strings =>
    simp only [pack, flatMap_cons, packString, length_append, toBytes_length]
    omega

/-- As `left` is never reduced, the parser is right only on a payload without room for a length,
or one whose lengths lead to one that is larger than the payload. -/
theorem parse_strings_iff (payload : List UInt8) (excess : UInt8) :
    Parses payload excess ↔
      payload.length < 4 ∨ LeadsBeyond payload.length payload := by
  by_cases hlen : 4 ≤ payload.length
  · have hwalk := walk_eq excess hlen (payload.length + 1) 0 [] (by omega)
    rw [drop_zero] at hwalk
    constructor
    · intro h
      rcases hwalk with ⟨-, hbeyond⟩ | ⟨hover, -⟩
      · exact .inr hbeyond
      · refine absurd ?_ h.inside
        rw [mgmtIpcParseStrings]
        rw [hover]
    · intro h
      have hbeyond : LeadsBeyond payload.length payload := h.resolve_left (by omega)
      have hparse : mgmtIpcParseStrings payload excess = .rejected := by
        rcases hwalk with ⟨hrejected, -⟩ | ⟨-, hnot⟩
        · rw [mgmtIpcParseStrings]
          rw [hrejected]
        · exact absurd hbeyond hnot
      refine ⟨by rw [hparse]; decide, ?_, fun _ => hparse⟩
      rintro strings - ⟨hfit, rfl⟩
      exact absurd hbeyond (not_leadsBeyond_pack strings hfit (Nat.le_refl _))
  · refine iff_of_true ?_ (.inl (by omega))
    cases payload with
    | nil =>
      have hparse : mgmtIpcParseStrings [] excess = .strings [excess] [] := rfl
      refine ⟨?_, ?_, fun h => absurd ⟨by simp, rfl⟩ (h [])⟩
      · rw [hparse]
        intro h
        cases h
      · rintro strings - ⟨-, hpack⟩
        rw [hparse, pack_eq_nil hpack.symm]
        rfl
    | cons b rest =>
      have hparse : mgmtIpcParseStrings (b :: rest) excess = .rejected := by
        rw [mgmtIpcParseStrings]
        rw [walk, if_neg (by simp), if_pos (by omega)]
      refine ⟨by rw [hparse]; decide, ?_, fun _ => hparse⟩
      rintro strings - ⟨-, hpack⟩
      have hne : strings ≠ [] := by
        rintro rfl
        cases hpack
      have := four_le_pack hne
      rw [← hpack] at this
      omega

/-- A packed list of one string is read on behind its end. -/
theorem packed_string_overread :
    mgmtIpcParseStrings (pack [ascii "iqn"]) 0 = .overread ∧ ¬ Parses (pack [ascii "iqn"]) 0 := by
  have hover : mgmtIpcParseStrings (pack [ascii "iqn"]) 0 = .overread := by decide
  exact ⟨hover, fun h => h.inside hover⟩

end MgmtStrings
