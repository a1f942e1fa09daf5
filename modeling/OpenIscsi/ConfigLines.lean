import OpenIscsi.IdbmRecord

/-! # The line buffers of the configuration readers

`idbm_recinfo_config` of `usr/idbm.c` and `_idbm_recs_read` of `libopeniscsiusr/idbm.c` copy the
name and the value of a line into buffers of a fixed size. What they put there, byte by byte. -/

namespace ConfigLines

open CString RecordFile List
open IdbmRecord (nameMaxval valueMaxval bufferLimit)

/-- What one line leaves behind: the bytes put into `name` and `value`, and what is handed to the
update function. -/
structure Scan where
  name : List UInt8 := []
  value : List UInt8 := []
  update : Option (List UInt8 × List UInt8) := none
  deriving DecidableEq, Repr

/-- Copy bytes behind what is in the buffer, as long as the loop's test holds. -/
def copyWhile (p : UInt8 → Bool) : List UInt8 → List UInt8 → List UInt8 × List UInt8
  | buf, [] => (buf, [])
  | buf, b :: nl => if p b then copyWhile p (buf ++ [b]) nl else (buf, b :: nl)

/-- The loops over a trimmed line. Where the sign is missing at the end of the line, the step over
it leads into the white space that was cut off, and so to an empty value. -/
def scanLine (line : List UInt8) : Scan :=
  let (name, nl) := copyWhile isName [] line
  match nl with
  | [] => { name := name }
  | _ :: nl =>
    match nl.dropWhile isSpace with
    | [] => { name := name }
    | b :: nl =>
      if b = equals then
        match nl.dropWhile isSpace with
        | [] => { name := name }
        | v :: nl =>
          let (value, _) := copyWhile (fun _ => true) [] (v :: nl)
          { name := name, value := value, update := some (name, value) }
      else { name := name }

/-- One buffer that `fgets` filled: a string ends at its first NUL, and without a newline at its
end the line is skipped, as are empty lines and comments. -/
def readLine (buffer : List UInt8) : Scan :=
  let text := cstr buffer
  if text.getLast? = some newline then
    match strstrip text with
    | [] => {}
    | b :: line => if b = hash then {} else scanLine (b :: line)
  else {}

def buffers (file : List UInt8) : List (List UInt8) := fgetsLines bufferLimit [] file

def idbmRecinfoConfig (file : List UInt8) : List Scan := (buffers file).map readLine

/-- The lines up to the first one that the update function does not take. -/
def untilRejected (accepts : List UInt8 → List UInt8 → Bool) : List Scan → List Scan
  | [] => []
  | s :: rest =>
    match s.update with
    | some (name, value) => if accepts name value then s :: untilRejected accepts rest else [s]
    | none => s :: untilRejected accepts rest

/-- The library stops at a line that it cannot take. -/
def idbmRecsRead (accepts : List UInt8 → List UInt8 → Bool) (file : List UInt8) : List Scan :=
  untilRejected accepts (idbmRecinfoConfig file)

/-! ### What is asked of them -/

/-- The terminator has room too. -/
def Scan.Fits (s : Scan) : Prop := s.name.length < nameMaxval ∧ s.value.length < valueMaxval

instance (s : Scan) : Decidable s.Fits := inferInstanceAs (Decidable (_ ∧ _))

def Assigns (line name value : List UInt8) : Prop :=
  ∃ (c : UInt8) (sp sp' : List UInt8), line = name ++ c :: (sp ++ equals :: (sp' ++ value)) ∧
    (∀ b ∈ name, isName b = true) ∧ isName c = false ∧ (∀ b ∈ sp, isSpace b = true) ∧
    (∀ b ∈ sp', isSpace b = true) ∧ ∃ v rest, value = v :: rest ∧ isSpace v = false

def Trimmed (text name value : List UInt8) : Prop :=
  ∃ lead line trail : List UInt8, text = lead ++ (line ++ trail) ∧
    (∀ b ∈ lead, isSpace b = true) ∧ (∀ b ∈ trail, isSpace b = true) ∧
    Assigns line name value ∧ ∀ b, value.getLast? = some b → isSpace b = false

/-- A buffer is read as it should be. -/
def Kept (buffer : List UInt8) (s : Scan) : Prop :=
  s.Fits ∧ ∀ name value, s.update = some (name, value) → Trimmed (cstr buffer) name value

def Roomy (buffer : List UInt8) : Prop :=
  (cstr buffer).getLast? = some newline → (strstrip (cstr buffer)).head? ≠ some hash →
    (∀ word rest, strstrip (cstr buffer) = word ++ rest → (∀ b ∈ word, isName b = true) →
      word.length < nameMaxval) ∧
    ∀ name value, Assigns (strstrip (cstr buffer)) name value → value.length < valueMaxval

/-! ### Lines -/

theorem copyWhile_eq (p : UInt8 → Bool) (buf l : List UInt8) :
    copyWhile p buf l = (buf ++ l.takeWhile p, l.dropWhile p) := by
  induction l generalizing buf with
  | nil => simp [copyWhile]
  | cons b l ih =>
    by_cases hb : p b = true
    · rw [copyWhile, if_pos hb, ih, takeWhile_cons_of_pos hb, dropWhile_cons_of_pos hb,
        append_assoc]
      rfl
    · rw [copyWhile, if_neg hb, takeWhile_cons_of_neg hb, dropWhile_cons_of_neg hb,
        append_nil]

theorem takeWhile_behind {p : UInt8 → Bool} {xs rest : List UInt8} {c : UInt8}
    (hxs : ∀ b ∈ xs, p b = true) (hc : p c = false) : (xs ++ c :: rest).takeWhile p = xs := by
  rw [takeWhile_append_of_pos hxs, takeWhile_cons_of_neg (by simp [hc]), append_nil]

theorem dropWhile_behind {p : UInt8 → Bool} {xs rest : List UInt8} {c : UInt8}
    (hxs : ∀ b ∈ xs, p b = true) (hc : p c = false) :
    (xs ++ c :: rest).dropWhile p = c :: rest := by
  rw [dropWhile_append_of_pos hxs, dropWhile_cons_of_neg (by simp [hc])]

theorem head_dropWhile {p : UInt8 → Bool} {l rest : List UInt8} {b : UInt8}
    (h : l.dropWhile p = b :: rest) : p b = false := by
  have hne : l.dropWhile p ≠ [] := by rw [h]; exact cons_ne_nil _ _
  have hhead := head_dropWhile_not p hne
  simp only [h, head_cons] at hhead
  exact hhead

theorem isSpace_equals : isSpace equals = false := by decide

/-- A line that assigns is scanned into its name and value. -/
theorem scanLine_of_assigns {line name value : List UInt8} (h : Assigns line name value) :
    scanLine line = ⟨name, value, some (name, value)⟩ := by
  obtain ⟨c, sp, sp', rfl, hname, hc, hsp, hsp', v, rest, rfl, hv⟩ := h
  unfold scanLine
  rw [copyWhile_eq, takeWhile_behind hname hc, dropWhile_behind hname hc]
  simp only [nil_append]
  rw [dropWhile_behind hsp isSpace_equals]
  simp only [if_true]
  rw [dropWhile_behind hsp' hv]
  simp only [copyWhile_eq, nil_append]
  rw [takeWhile_eq_self_iff.2 (fun _ _ => rfl)]

/-- Every other line only leaves its first word. -/
theorem scanLine_cases (line : List UInt8) :
    (∃ name value, Assigns line name value) ∨
      scanLine line = ⟨line.takeWhile isName, [], none⟩ := by
  unfold scanLine
  rw [copyWhile_eq]
  simp only [nil_append]
  cases hnl : line.dropWhile isName with
  | nil => exact .inr rfl
  | cons c nl =>
    cases hsp : nl.dropWhile isSpace with
    | nil =>
      right
      simp only [hsp]
    | cons b nl' =>
      simp only [hsp]
      by_cases hb : b = equals
      · subst hb
        simp only [if_true]
        cases hsp' : nl'.dropWhile isSpace with
        | nil => exact .inr rfl
        | cons v rest =>
          left
          refine ⟨line.takeWhile isName, v :: rest, c, nl.takeWhile isSpace, nl'.takeWhile isSpace,
            ?_, fun b => mem_takeWhile_imp, head_dropWhile hnl, fun b => mem_takeWhile_imp,
            fun b => mem_takeWhile_imp, v, rest, rfl, head_dropWhile hsp'⟩
          rw [← hsp', takeWhile_append_dropWhile, ← hsp, takeWhile_append_dropWhile,
            ← hnl, takeWhile_append_dropWhile]
      · right
        rw [if_neg hb]

/-- The longest word at the front of a line is the one that is copied. -/
theorem word_length_le {word rest : List UInt8} (h : ∀ b ∈ word, isName b = true) :
    word.length ≤ ((word ++ rest).takeWhile isName).length := by
  rw [takeWhile_append_of_pos h, length_append]
  omega

/-- A scanned line fits its buffers if its first word and the value it assigns are short. -/
theorem scanLine_fits_iff (line : List UInt8) :
    (scanLine line).Fits ↔
      (∀ word rest, line = word ++ rest → (∀ b ∈ word, isName b = true) →
        word.length < nameMaxval) ∧
      ∀ name value, Assigns line name value → value.length < valueMaxval := by
  have hname : (scanLine line).name = line.takeWhile isName := by
    rcases scanLine_cases line with ⟨name, value, h⟩ | h
    · rw [scanLine_of_assigns h]
      obtain ⟨c, sp, sp', rfl, hname, hc, -⟩ := h
      exact (takeWhile_behind hname hc).symm
    · rw [h]
  refine and_congr ?_ ?_
  · rw [hname]
    constructor
    · rintro h word rest rfl hword
      exact Nat.lt_of_le_of_lt (word_length_le hword) h
    · intro h
      exact h _ (line.dropWhile isName) takeWhile_append_dropWhile.symm
        fun b => mem_takeWhile_imp
  · constructor
    · intro h name value hassigns
      rw [scanLine_of_assigns hassigns] at h
      exact h
    · intro h
      rcases scanLine_cases line with ⟨name, value, hassigns⟩ | hscan
      · rw [scanLine_of_assigns hassigns]
        exact h name value hassigns
      · rw [hscan]
        exact (by decide : (0 : Nat) < valueMaxval)

/-! ### Trimming -/

theorem strstrip_between (text : List UInt8) : ∃ lead trail : List UInt8,
    text = lead ++ (strstrip text ++ trail) ∧
      (∀ b ∈ lead, isSpace b = true) ∧ ∀ b ∈ trail, isSpace b = true := by
  refine ⟨(text.rdropWhile isSpace).takeWhile isSpace, text.rtakeWhile isSpace, ?_,
    fun b => mem_takeWhile_imp, fun b => mem_rtakeWhile_imp⟩
  rw [strstrip, ← append_assoc, takeWhile_append_dropWhile,
    rdropWhile_append_rtakeWhile]

theorem strstrip_last {text : List UInt8} {b : UInt8} (h : (strstrip text).getLast? = some b) :
    isSpace b = false := by
  have hsplit : text.rdropWhile isSpace =
      (text.rdropWhile isSpace).takeWhile isSpace ++ strstrip text :=
    takeWhile_append_dropWhile.symm
  have hlast : (text.rdropWhile isSpace).getLast? = some b := by
    rw [hsplit, getLast?_append, h]
    rfl
  have hne : text.rdropWhile isSpace ≠ [] := by
    intro hnil
    rw [hnil] at hlast
    cases hlast
  have hnot := rdropWhile_last_not isSpace text hne
  rw [getLast?_eq_some_getLast hne, Option.some.injEq] at hlast
  rw [hlast] at hnot
  exact Bool.not_eq_true _ ▸ hnot

/-- What is handed on is trimmed, on every line. -/
theorem readLine_trimmed {buffer name value : List UInt8}
    (h : (readLine buffer).update = some (name, value)) : Trimmed (cstr buffer) name value := by
  unfold readLine at h
  by_cases hend : (cstr buffer).getLast? = some newline
  · simp only [hend, if_true] at h
    obtain ⟨lead, trail, htext, hlead, htrail⟩ := strstrip_between (cstr buffer)
    cases hstrip : strstrip (cstr buffer) with
    | nil =>
      rw [hstrip] at h
      cases h
    | cons b line =>
      rw [hstrip] at h
      dsimp only at h
      by_cases hb : b = hash
      · rw [if_pos hb] at h
        cases h
      · rw [if_neg hb] at h
        rcases scanLine_cases (b :: line) with ⟨name', value', hassigns⟩ | hscan
        · rw [scanLine_of_assigns hassigns, Option.some.injEq, Prod.mk.injEq] at h
          obtain ⟨rfl, rfl⟩ := h
          refine ⟨lead, b :: line, trail, hstrip ▸ htext, hlead, htrail, hassigns, ?_⟩
          intro last hlast
          obtain ⟨c, sp, sp', hline, -⟩ := hassigns
          have hend : (strstrip (cstr buffer)).getLast? = some last := by
            rw [hstrip, hline]
            simp only [getLast?_append, getLast?_cons, hlast, Option.some_or,
              Option.getD_some]
          exact strstrip_last hend
        · rw [hscan] at h
          cases h
  · simp only [hend, if_false] at h
    cases h

theorem fits_nothing : ({} : Scan).Fits := by decide

theorem kept_iff (buffer : List UInt8) : Kept buffer (readLine buffer) ↔ Roomy buffer := by
  have hkept : Kept buffer (readLine buffer) ↔ (readLine buffer).Fits :=
    and_iff_left fun _ _ => readLine_trimmed
  rw [hkept]
  unfold readLine Roomy
  by_cases hend : (cstr buffer).getLast? = some newline
  · simp only [hend, if_true, true_imp_iff]
    cases hstrip : strstrip (cstr buffer) with
    | nil =>
      refine iff_of_true fits_nothing fun _ => ⟨?_, ?_⟩
      · intro word rest hword _
        rw [(append_eq_nil_iff.1 hword.symm).1]
        decide
      · rintro name value ⟨c, sp, sp', hline, -⟩
        cases name <;> cases hline
    | cons b line =>
      dsimp only
      by_cases hb : b = hash
      · rw [if_pos hb]
        refine iff_of_true fits_nothing fun h => absurd ?_ h
        rw [head?_cons, hb]
      · rw [if_neg hb, scanLine_fits_iff]
        have hhead : (b :: line).head? ≠ some hash := by
          rw [head?_cons]
          exact fun h => hb (Option.some.inj h)
        exact ⟨fun h _ => h, fun h => h hhead⟩
  · simp only [hend, if_false, false_imp_iff, iff_true]
    exact fits_nothing

theorem parseValue_of_assigns {line name value : List UInt8} (h : Assigns line name value) :
    ∃ c rest, line.dropWhile isName = c :: rest ∧ line.takeWhile isName = name ∧
      parseValue rest = some value := by
  obtain ⟨c, sp, sp', rfl, hname, hc, hsp, hsp', v, rest, rfl, hv⟩ := h
  refine ⟨c, _, dropWhile_behind hname hc, takeWhile_behind hname hc, ?_⟩
  rw [parseValue, dropWhile_behind hsp isSpace_equals]
  simp only [if_true]
  rw [dropWhile_behind hsp' hv]

theorem assigns_of_parseValue {line rest value : List UInt8} {c : UInt8}
    (hrest : line.dropWhile isName = c :: rest) (h : parseValue rest = some value) :
    Assigns line (line.takeWhile isName) value := by
  rw [parseValue] at h
  cases hsp : rest.dropWhile isSpace with
  | nil =>
    rw [hsp] at h
    cases h
  | cons b nl =>
    rw [hsp] at h
    dsimp only at h
    by_cases hb : b = equals
    · subst hb
      rw [if_pos rfl] at h
      cases hsp' : nl.dropWhile isSpace with
      | nil =>
        rw [hsp'] at h
        cases h
      | cons v t =>
        rw [hsp', Option.some.injEq] at h
        subst h
        refine ⟨c, rest.takeWhile isSpace, nl.takeWhile isSpace, ?_,
          fun b => mem_takeWhile_imp, head_dropWhile hrest, fun b => mem_takeWhile_imp,
          fun b => mem_takeWhile_imp, v, t, rfl, head_dropWhile hsp'⟩
        rw [← hsp', takeWhile_append_dropWhile, ← hsp, takeWhile_append_dropWhile,
          ← hrest, takeWhile_append_dropWhile]
    · rw [if_neg hb] at h
      cases h

/-- The scan of a trimmed line assigns what the record reader takes from it. -/
theorem scanLine_update {b : UInt8} {line : List UInt8} (hb : b ≠ hash) :
    (scanLine (b :: line)).update = parseTrimmed (b :: line) := by
  rw [parseTrimmed, if_neg hb]
  rcases scanLine_cases (b :: line) with ⟨name, value, h⟩ | hscan
  · obtain ⟨c, rest, hrest, hname, hvalue⟩ := parseValue_of_assigns h
    rw [scanLine_of_assigns h, hrest]
    dsimp only
    rw [hvalue, hname]
    rfl
  · rw [hscan]
    cases hrest : (b :: line).dropWhile isName with
    | nil => rfl
    | cons c rest =>
      dsimp only
      cases hvalue : parseValue rest with
      | none => rfl
      | some value =>
        have hassigns := scanLine_of_assigns (assigns_of_parseValue hrest hvalue)
        rw [hscan] at hassigns
        cases hassigns

/-- Where a buffer has no NUL, this is the reading of lines that the records are read with. -/
theorem readLine_update {buffer : List UInt8} (h : NulFree buffer) :
    (readLine buffer).update = parseLine buffer := by
  rw [readLine, parseLine, cstr_of_nulFree buffer h]
  by_cases hend : buffer.getLast? = some newline
  · rw [if_pos hend, if_pos hend]
    cases hstrip : strstrip buffer with
    | nil => rfl
    | cons b line =>
      dsimp only
      by_cases hb : b = hash
      · rw [if_pos hb, parseTrimmed, if_pos hb]
      · rw [if_neg hb, scanLine_update hb]
  · rw [if_neg hend, if_neg hend]

/-! ### Files -/

theorem untilRejected_eq_take (accepts : List UInt8 → List UInt8 → Bool) (scans : List Scan) :
    ∃ n, untilRejected accepts scans = scans.take n := by
  induction scans with
  | nil => exact ⟨0, rfl⟩
  | cons s rest ih =>
    obtain ⟨n, hn⟩ := ih
    rw [untilRejected]
    split
    · split
      · exact ⟨n + 1, by rw [hn, take_succ_cons]⟩
      · exact ⟨1, rfl⟩
    · exact ⟨n + 1, by rw [hn, take_succ_cons]⟩

/-- Both readers keep to their buffers, and hand on trimmed texts, on exactly the files whose
lines have room there. -/
theorem config_lines_kept_iff (accepts : List UInt8 → List UInt8 → Bool) (file : List UInt8) :
    (List.Forall₂ Kept (buffers file) (idbmRecinfoConfig file) ∧
      ∃ n, List.Forall₂ Kept ((buffers file).take n) (idbmRecsRead accepts file)) ↔
      ∀ buffer ∈ buffers file, Roomy buffer := by
  have hall : ∀ l : List (List UInt8), List.Forall₂ Kept l (l.map readLine) ↔
      ∀ buffer ∈ l, Roomy buffer := by
    intro l
    rw [forall₂_map_right_iff, forall₂_same]
    exact forall₂_congr fun buffer _ => kept_iff buffer
  constructor
  · rintro ⟨h, -⟩
    exact (hall _).1 h
  · intro h
    refine ⟨(hall _).2 h, ?_⟩
    obtain ⟨n, hn⟩ := untilRejected_eq_take accepts (idbmRecinfoConfig file)
    refine ⟨n, ?_⟩
    rw [idbmRecsRead, hn, idbmRecinfoConfig, ← map_take]
    exact (hall _).2 fun buffer hb => h buffer (mem_of_mem_take hb)

/-- A name of 128 bytes does not leave room for its terminator. -/
theorem long_name_overflows :
    ¬ List.Forall₂ Kept (buffers (List.replicate 128 97 ++ ascii " = 1\n"))
      (idbmRecinfoConfig (List.replicate 128 97 ++ ascii " = 1\n")) := by
  intro h
  have hfits : ∀ s ∈ idbmRecinfoConfig (List.replicate 128 97 ++ ascii " = 1\n"), s.Fits := by
    rw [idbmRecinfoConfig, forall₂_map_right_iff, forall₂_same] at h
    intro s hs
    obtain ⟨buffer, hbuffer, rfl⟩ := mem_map.1 hs
    exact (h buffer hbuffer).1
  revert hfits
  decide +kernel

end ConfigLines
