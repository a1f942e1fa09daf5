import OpenIscsi.Lib.CString

/-!
# Files of `key = value` lines

A file is read line by line into a buffer, each line is trimmed, and a line of the
form `key = value` assigns a value to a key. A record is a function on its fields; a
table lists the fields that a reader or a writer knows, with a key and a kind of value
for each.
-/

namespace RecordFile

open CString List

/-! ### Lines -/

def newline : UInt8 := 10

/-- Successive `fgets` calls that read at most `limit` bytes each, behind the part `cur`
of a line. -/
def fgetsLines (limit : Nat) (cur : List UInt8) : List UInt8 → List (List UInt8)
  | [] => if cur = [] then [] else [cur]
  | b :: rest =>
    if b = newline ∨ limit ≤ cur.length + 1 then (cur ++ [b]) :: fgetsLines limit [] rest
    else fgetsLines limit (cur ++ [b]) rest

/-- White space at both ends is cut off. -/
def strstrip (s : List UInt8) : List UInt8 := (s.rdropWhile isSpace).dropWhile isSpace

def equals : UInt8 := 61

def hash : UInt8 := 35

/-- The value behind the name: a sign between white space, then the rest of the line. -/
def parseValue (rest : List UInt8) : Option (List UInt8) :=
  match rest.dropWhile isSpace with
  | [] => none
  | b :: rest =>
    if b = equals then
      match rest.dropWhile isSpace with
      | [] => none
      | v :: value => some (v :: value)
    else none

def isName (b : UInt8) : Bool := !isSpace b && b != equals

/-- The assignment on a trimmed line; the byte behind the name is skipped. -/
def parseTrimmed (l : List UInt8) : Option (List UInt8 × List UInt8) :=
  match l with
  | [] => none
  | b :: _ =>
    if b = hash then none
    else
      match l.dropWhile isName with
      | [] => none
      | _ :: rest => (parseValue rest).map fun v => (l.takeWhile isName, v)

def parseLine (line : List UInt8) : Option (List UInt8 × List UInt8) :=
  if line.getLast? = some newline then parseTrimmed (strstrip line) else none

def assignments (limit : Nat) (file : List UInt8) : List (List UInt8 × List UInt8) :=
  (fgetsLines limit [] file).filterMap parseLine

def line (key value : List UInt8) : List UInt8 := key ++ ascii " = " ++ value ++ [newline]

/-- A key that can be read back. -/
def KeyOk (key : List UInt8) : Prop := key ≠ [] ∧ (∀ b ∈ key, isName b = true) ∧ hash ∉ key

/-- A value that can be read back: no newline, and no white space at its ends. -/
structure ValueOk (value : List UInt8) : Prop where
  ne_nil : value ≠ []
  newline : newline ∉ value
  head : ∀ b, value.head? = some b → isSpace b = false
  last : ∀ b, value.getLast? = some b → isSpace b = false

instance (value : List UInt8) : Decidable (ValueOk value) :=
  decidable_of_iff (value ≠ [] ∧ newline ∉ value ∧ (∀ b ∈ value.head?, isSpace b = false) ∧
      ∀ b ∈ value.getLast?, isSpace b = false)
    ⟨fun ⟨h1, h2, h3, h4⟩ => ⟨h1, h2, h3, h4⟩, fun ⟨h1, h2, h3, h4⟩ => ⟨h1, h2, h3, h4⟩⟩

theorem fgetsLines_content (limit : Nat) (cur content rest : List UInt8)
    (hline : newline ∉ content) (hlen : cur.length + content.length < limit) :
    fgetsLines limit cur (content ++ newline :: rest) =
      (cur ++ content ++ [newline]) :: fgetsLines limit [] rest := by
  induction content generalizing cur with
  | nil => simp [fgetsLines]
  | cons b content ih =>
    rw [mem_cons, not_or] at hline
    rw [length_cons] at hlen
    have hb : ¬ (b = newline ∨ limit ≤ cur.length + 1) := by
      rintro (h | h)
      · exact hline.1 h.symm
      · omega
    rw [cons_append, fgetsLines, if_neg hb, ih (cur ++ [b]) hline.2 (by
      rw [length_append, length_singleton]; omega)]
    simp

theorem isSpace_newline : isSpace newline = true := by decide

theorem isSpace_of_isName {b : UInt8} (h : isName b = true) : isSpace b = false := by
  simp only [isName, Bool.and_eq_true, Bool.not_eq_true'] at h
  exact h.1

/-- Nothing but the newline is trimmed off a printed line. -/
theorem strstrip_line {key value : List UInt8} (hk : KeyOk key) (hv : ValueOk value) :
    strstrip (line key value) = key ++ ascii " = " ++ value := by
  obtain ⟨k, key, rfl⟩ := exists_cons_of_ne_nil hk.1
  have hspace : isSpace k = false := isSpace_of_isName (hk.2.1 k mem_cons_self)
  have htrail : (k :: key ++ ascii " = " ++ value).rdropWhile isSpace =
      k :: key ++ ascii " = " ++ value := by
    apply rdropWhile_eq_self_iff.2
    intro hne
    have hlast : (k :: key ++ ascii " = " ++ value).getLast hne = value.getLast hv.ne_nil :=
      getLast_append_of_ne_nil _ hv.ne_nil
    rw [hlast, hv.last _ (getLast?_eq_some_getLast hv.ne_nil)]
    decide
  rw [strstrip, line, rdropWhile_concat_pos _ _ _ isSpace_newline, htrail,
    cons_append, cons_append, dropWhile_cons_of_neg (by rw [hspace]; decide)]

/-- A printed line is read back. -/
theorem parseLine_line {key value : List UInt8} (hk : KeyOk key) (hv : ValueOk value) :
    parseLine (line key value) = some (key, value) := by
  have hend : (line key value).getLast? = some newline := by
    rw [line, getLast?_concat]
  have hname : (key ++ ascii " = " ++ value).takeWhile isName = key := by
    have hsep : ascii " = " ++ value = 32 :: 61 :: 32 :: value := by rfl
    rw [append_assoc, hsep, takeWhile_append_of_pos hk.2.1,
      takeWhile_cons_of_neg (by decide), append_nil]
  have hrest : (key ++ ascii " = " ++ value).dropWhile isName = 32 :: 61 :: 32 :: value := by
    have hsep : ascii " = " ++ value = 32 :: 61 :: 32 :: value := by rfl
    rw [append_assoc, hsep, dropWhile_append_of_pos hk.2.1,
      dropWhile_cons_of_neg (by decide)]
  obtain ⟨v, value', hval⟩ := exists_cons_of_ne_nil hv.ne_nil
  have hvalue : parseValue (61 :: 32 :: value) = some value := by
    have hv0 : isSpace v = false := hv.head v (by rw [hval]; rfl)
    have hdrop : (32 :: value).dropWhile isSpace = v :: value' := by
      rw [dropWhile_cons_of_pos (by decide), hval,
        dropWhile_cons_of_neg (by rw [hv0]; decide)]
    rw [parseValue, dropWhile_cons_of_neg (by decide)]
    dsimp only
    rw [if_pos (by decide), hdrop, hval]
  rw [parseLine, if_pos hend, strstrip_line hk hv]
  obtain ⟨k, key', rfl⟩ := exists_cons_of_ne_nil hk.1
  have hhash : k ≠ hash := fun h => hk.2.2 (by rw [h]; exact mem_cons_self)
  simp only [cons_append] at hname hrest ⊢
  rw [parseTrimmed, if_neg hhash, hrest]
  dsimp only
  rw [hvalue, hname]
  rfl

/-- A comment assigns nothing. -/
theorem parseLine_comment (text : List UInt8) : parseLine (hash :: text) = none := by
  unfold parseLine
  split
  · have hne : (hash :: text).rdropWhile isSpace ≠ [] := by
      intro h
      have := (rdropWhile_eq_nil_iff.1 h) hash mem_cons_self
      exact absurd this (by decide)
    obtain ⟨b, rest, hb⟩ := exists_cons_of_ne_nil hne
    have hpre : (hash :: text).rdropWhile isSpace <+: hash :: text := List.rdropWhile_prefix _ _
    have hbh : b = hash := by
      rw [hb] at hpre
      exact (cons_prefix_cons.1 hpre).1
    rw [strstrip, hb, hbh, dropWhile_cons_of_neg (by decide), parseTrimmed, if_pos rfl]
  · rfl

/-- A file: comments before and after the lines. -/
def fileText (head foot : List UInt8) (kvs : List (List UInt8 × List UInt8)) : List UInt8 :=
  head ++ newline :: ((kvs.map fun kv => line kv.1 kv.2).flatten ++ (foot ++ [newline]))

/-- A comment line that fits the buffer. -/
structure CommentOk (limit : Nat) (c : List UInt8) : Prop where
  head : c.head? = some hash
  newline : newline ∉ c
  short : c.length < limit

variable {limit : Nat}

theorem assignments_comment {c : List UInt8} (hc : CommentOk limit c) (rest : List UInt8) :
    assignments limit (c ++ newline :: rest) = assignments limit rest := by
  have hlines := fgetsLines_content limit [] c rest hc.newline (by simpa using hc.short)
  obtain ⟨b, text, rfl⟩ : ∃ b text, c = b :: text := by
    cases c with
    | nil => cases hc.head
    | cons b text => exact ⟨b, text, rfl⟩
  obtain rfl : b = hash := Option.some.inj hc.head
  rw [assignments, hlines, filterMap_cons_none]
  · rfl
  · exact parseLine_comment _

variable {kvs : List (List UInt8 × List UInt8)}

/-- The assignments of a printed file are its lines. -/
theorem assignments_fileText {head foot : List UInt8} (hhead : CommentOk limit head)
    (hfoot : CommentOk limit foot)
    (hkvs : ∀ kv ∈ kvs, KeyOk kv.1 ∧ ValueOk kv.2 ∧ kv.1.length + kv.2.length + 3 < limit) :
    assignments limit (fileText head foot kvs) = kvs := by
  rw [fileText, assignments_comment hhead]
  induction kvs with
  | nil => exact assignments_comment hfoot []
  | cons kv kvs ih =>
    obtain ⟨hk, hv, hlen⟩ := hkvs kv mem_cons_self
    have ih := ih (fun x hx => hkvs x (mem_cons_of_mem kv hx))
    have hline : newline ∉ kv.1 ++ ascii " = " ++ kv.2 := by
      rw [mem_append, mem_append]
      rintro ((h | h) | h)
      · exact absurd (hk.2.1 _ h) (by decide)
      · exact absurd h (by decide)
      · exact hv.newline h
    have hcontent := fgetsLines_content limit [] (kv.1 ++ ascii " = " ++ kv.2)
      ((kvs.map fun kv => line kv.1 kv.2).flatten ++ (foot ++ [newline])) hline (by
        simp only [length_append, show (ascii " = ").length = 3 from rfl, length_nil]
        omega)
    have hsplit : ((kv :: kvs).map fun kv => line kv.1 kv.2).flatten ++ (foot ++ [newline]) =
        (kv.1 ++ ascii " = " ++ kv.2) ++
          newline :: ((kvs.map fun kv => line kv.1 kv.2).flatten ++ (foot ++ [newline])) := by
      simp [line]
    rw [hsplit, assignments, hcontent, filterMap_cons_some (b := kv)]
    · exact congrArg (kv :: ·) ih
    · exact parseLine_line hk hv

/-- The value of a field. -/
inductive Val where
  | num (n : Int)
  | text (s : List UInt8)
  | nums (l : List Nat)
  deriving DecidableEq, Repr

inductive Kind where
  /-- An `int`, printed with its sign. -/
  | int
  /-- A `uint32_t` that is printed and read as an `int`. -/
  | intOfUint32
  | uint (bits : Nat)
  | int64
  /-- A string in a buffer of this size. -/
  | str (size : Nat)
  /-- An index into a list of texts. -/
  | opts (names : List (List UInt8))
  /-- A list of values with names, in an array of this length. -/
  | list (tbl : List (List UInt8 × Nat)) (count : Nat)
  deriving DecidableEq, Repr

def printInt (n : Int) : List UInt8 :=
  if n < 0 then 45 :: decimal n.natAbs else decimal n.toNat

def toInt64 (n : Nat) : Int := (BitVec.ofNat 64 n).toInt

def comma : UInt8 := 44

/-- The bytes that separate the names of a list. -/
def isSeparator (b : UInt8) : Bool := b == comma || b == 32 || b == newline

def names (text : List UInt8) : List (List UInt8) :=
  (text.splitOnP isSeparator).filter (· ≠ [])

/-- The known values among the names, each once and at most `count` of them. -/
def known (tbl : List (List UInt8 × Nat)) (count : Nat) : List (List UInt8) → List Nat → List Nat
  | [], acc => acc
  | name :: rest, acc =>
    if count ≤ acc.length then acc
    else
      match tbl.find? (·.1 = name) with
      | some (_, v) => if v ∈ acc then known tbl count rest acc else known tbl count rest (acc ++ [v])
      | none => known tbl count rest acc

/-- The names of the values, those without a name left out. -/
def valueNames (tbl : List (List UInt8 × Nat)) (l : List Nat) : List (List UInt8) :=
  l.filterMap fun v => (tbl.find? (·.2 = v)).map (·.1)

def Kind.print (width : Nat) : Kind → Val → List UInt8
  | .int, .num n => printInt n
  | .intOfUint32, .num n => printInt (toInt32 n.toNat)
  | .uint bits, .num n => decimal (n.toNat % 2 ^ bits)
  | .int64, .num n => printInt n
  | .str _, .text s => s.take (width - 1)
  | .opts names, .num n => if n < 0 then [] else (names[n.toNat]?).getD []
  | .list tbl _, .nums l => [comma].intercalate (valueNames tbl l)
  | _, _ => []

def Kind.parse : Kind → List UInt8 → Option Val
  | .int, t => some (.num (toInt32 (strtoul 10 t).1))
  | .intOfUint32, t => some (.num ((strtoul 10 t).1 % 2 ^ 32 : Nat))
  | .uint bits, t => some (.num ((strtoul 10 t).1 % 2 ^ bits : Nat))
  | .int64, t => some (.num (toInt64 (strtoul 10 t).1))
  | .str size, t => some (.text (t.take (size - 1)))
  | .opts names, t => (names.findIdx? (· = t)).map fun (i : Nat) => Val.num i
  | .list tbl count, t => some (.nums (known tbl count (names t) []))

/-! ### A printed value is read back -/

variable {n : Int}

theorem toInt32_nat (h0 : 0 ≤ n) (h : n < 2 ^ 31) : toInt32 n.toNat = n := by
  rw [toInt32, BitVec.toInt_ofNat', Int.bmod_def]
  split <;> omega

theorem toInt32_minus (h0 : n < 0) (h : -(2 ^ 31) ≤ n) :
    toInt32 ((ulongBound - n.natAbs) % ulongBound) = n := by
  have hmod : (ulongBound - n.natAbs) % ulongBound = 2 ^ 64 - n.natAbs := by
    unfold ulongBound
    omega
  rw [hmod, toInt32, BitVec.toInt_ofNat', Int.bmod_def]
  split <;> omega

theorem toInt32_strtoul_printInt (hlo : -(2 ^ 31) ≤ n) (hhi : n < 2 ^ 31) :
    toInt32 (strtoul 10 (printInt n)).1 = n := by
  unfold printInt
  by_cases h : n < 0
  · rw [if_pos h, strtoul_minus (by unfold ulongBound; omega), toInt32_minus h hlo]
  · rw [if_neg h, strtoul_decimal (by unfold ulongBound; omega), toInt32_nat (by omega) hhi]

/-- The signed print of a `uint32_t` names it modulo `2 ^ 32`. -/
theorem strtoul_printInt_mod {n : Nat} (h : n < 2 ^ 32) :
    (strtoul 10 (printInt (toInt32 n))).1 % 2 ^ 32 = n := by
  have hval : toInt32 n = if n < 2 ^ 31 then (n : Int) else n - 2 ^ 32 := by
    rw [toInt32, BitVec.toInt_ofNat', Int.bmod_def]
    split <;> split <;> omega
  unfold printInt
  by_cases hn : n < 2 ^ 31
  · rw [hval, if_pos hn, if_neg (by omega), strtoul_decimal (by unfold ulongBound; omega)]
    omega
  · rw [hval, if_neg hn, if_pos (by omega), strtoul_minus (by unfold ulongBound; omega)]
    unfold ulongBound
    omega

theorem isSeparator_eq_false {b : UInt8} (h : isSpace b = false ∧ b ≠ comma) :
    isSeparator b = false := by
  have h32 : b ≠ 32 := fun hb => absurd h.1 (by rw [hb]; decide)
  have h10 : b ≠ newline := fun hb => absurd h.1 (by rw [hb]; decide)
  simp [isSeparator, h.2, h32, h10]

/-- The names of a list are found again between the commas. -/
theorem names_intercalate {l : List (List UInt8)}
    (h : ∀ s ∈ l, s ≠ [] ∧ ∀ b ∈ s, isSpace b = false ∧ b ≠ comma) :
    names ([comma].intercalate l) = l := by
  induction l with
  | nil => rfl
  | cons s l ih =>
    obtain ⟨hne, hword⟩ := h s mem_cons_self
    have hsep : ∀ b ∈ s, isSeparator b = false := fun b hb => isSeparator_eq_false (hword b hb)
    have ih := ih (fun t ht => h t (mem_cons_of_mem s ht))
    cases l with
    | nil =>
      rw [show [comma].intercalate [s] = s by simp [List.intercalate], names,
        splitOnP_eq_singleton hsep]
      simp [hne]
    | cons t l =>
      rw [show [comma].intercalate (s :: t :: l) = s ++ comma :: [comma].intercalate (t :: l) by
        simp [List.intercalate], names,
        splitOnP_append_cons_of_forall_mem hsep comma (by decide), filter_cons_of_pos (by
          simpa using hne)]
      exact congrArg (s :: ·) ih

/-- Each name and each value stands once in the table, and names are words. -/
structure TableOk (tbl : List (List UInt8 × Nat)) : Prop where
  names : (tbl.map (·.1)).Nodup
  values : (tbl.map (·.2)).Nodup
  words : ∀ e ∈ tbl, e.1 ≠ [] ∧ ∀ b ∈ e.1, isSpace b = false ∧ b ≠ comma

theorem find?_of_nodup {α β : Type} [DecidableEq β] (f : α → β) {l : List α} {a : α}
    (hl : (l.map f).Nodup) (ha : a ∈ l) : l.find? (fun x => f x = f a) = some a := by
  induction l with
  | nil => cases ha
  | cons b l ih =>
    rw [map_cons, nodup_cons] at hl
    by_cases hb : f b = f a
    · rcases mem_cons.1 ha with rfl | ha
      · rw [find?_cons_of_pos (by simp)]
      · exact (hl.1 (by rw [hb]; exact mem_map_of_mem ha)).elim
    · rcases mem_cons.1 ha with rfl | ha
      · exact (hb rfl).elim
      · rw [find?_cons_of_neg (by simpa using hb), ih hl.2 ha]

variable {tbl : List (List UInt8 × Nat)}

/-- Distinct values of the table are read back from their names. -/
theorem known_valueNames (ht : TableOk tbl) {count : Nat} {l acc : List Nat} (hl : (acc ++ l).Nodup)
    (hmem : ∀ v ∈ l, v ∈ tbl.map (·.2)) (hlen : (acc ++ l).length ≤ count) :
    known tbl count (valueNames tbl l) acc = acc ++ l := by
  induction l generalizing acc with
  | nil => simp [valueNames, known]
  | cons v l ih =>
    obtain ⟨e, he, rfl⟩ := mem_map.1 (hmem v mem_cons_self)
    have hvalue : tbl.find? (fun x => x.2 = e.2) = some e := find?_of_nodup _ ht.values he
    have hname : tbl.find? (fun x => x.1 = e.1) = some e := find?_of_nodup _ ht.names he
    have hnew : e.2 ∉ acc := fun h => (nodup_append.1 hl).2.2 e.2 h e.2 mem_cons_self rfl
    have hroom : ¬ count ≤ acc.length := by
      rw [length_append, length_cons] at hlen
      omega
    have hnames : valueNames tbl (e.2 :: l) = e.1 :: valueNames tbl l := by
      simp [valueNames, hvalue]
    rw [hnames, known, if_neg hroom, hname]
    dsimp only
    rw [if_neg hnew, ih (by simpa using hl) (fun v hv => hmem v (mem_cons_of_mem _ hv))
      (by simpa using hlen)]
    simp

theorem valueNames_words (ht : TableOk tbl) (l : List Nat) :
    ∀ s ∈ valueNames tbl l, s ≠ [] ∧ ∀ b ∈ s, isSpace b = false ∧ b ≠ comma := by
  intro s hs
  obtain ⟨v, -, hv⟩ := mem_filterMap.1 hs
  obtain ⟨e, he, rfl⟩ := Option.map_eq_some_iff.1 hv
  exact ht.words e (mem_of_find?_eq_some he)

/-- A value of the table has a name. -/
theorem valueNames_ne_nil {l : List Nat} (hl : l ≠ []) (hmem : ∀ v ∈ l, v ∈ tbl.map (·.2)) :
    valueNames tbl l ≠ [] := by
  cases l with
  | nil => exact (hl rfl).elim
  | cons v l =>
    obtain ⟨e, he, hev⟩ := mem_map.1 (hmem v mem_cons_self)
    have hfind : (tbl.find? fun x => decide (x.2 = v)).isSome = true := by
      rw [find?_isSome]
      exact ⟨e, he, by simpa using hev⟩
    obtain ⟨x, hx⟩ := Option.isSome_iff_exists.1 hfind
    simp [valueNames, hx]

/-- A kind whose texts fit the buffer of a writer and can be told apart. -/
def Kind.Wf (width : Nat) : Kind → Prop
  | .int | .intOfUint32 => 11 < width
  | .uint bits => bits ≤ 32 ∧ 10 < width
  | .int64 => False
  | .str _ => 0 < width
  | .opts names => names.Nodup ∧ 0 < width ∧ ∀ s ∈ names, ValueOk s ∧ s.length < width
  | .list tbl count =>
    TableOk tbl ∧ 0 < width ∧ ∀ l : List Nat, l.length ≤ count →
      ([comma].intercalate (valueNames tbl l)).length < width

/-- The values of a variable of the kind. -/
def Kind.Stores : Kind → Val → Prop
  | .int, .num n | .opts _, .num n => -(2 ^ 31) ≤ n ∧ n < 2 ^ 31
  | .intOfUint32, .num n => 0 ≤ n ∧ n < 2 ^ 32
  | .uint bits, .num n => 0 ≤ n ∧ n < 2 ^ bits
  | .int64, .num n => -(2 ^ 63) ≤ n ∧ n < 2 ^ 63
  | .str size, .text s => NulFree s ∧ s.length < size
  | .list _ count, .nums l => l.length ≤ count
  | _, _ => False

/-- The values that are printed as one line. -/
def Kind.Tame (width : Nat) : Kind → Val → Prop
  | .str _, .text s => s = [] ∨ ValueOk s ∧ s.length < width
  | .opts names, .num n => 0 ≤ n ∧ n < names.length
  | .list tbl _, .nums l => l ≠ [] ∧ l.Nodup ∧ ∀ v ∈ l, v ∈ tbl.map (·.2)
  | .int, .num _ | .intOfUint32, .num _ | .uint _, .num _ | .int64, .num _ => True
  | _, _ => False

instance (kind : Kind) (v : Val) : Decidable (kind.Stores v) := by
  unfold Kind.Stores
  split <;> infer_instance

instance (width : Nat) (kind : Kind) (v : Val) : Decidable (kind.Tame width v) := by
  unfold Kind.Tame
  split <;> infer_instance

def Kind.Holds (width : Nat) : Kind → Val → Prop
  | .int, .num n => -(2 ^ 31) ≤ n ∧ n < 2 ^ 31
  | .intOfUint32, .num n => 0 ≤ n ∧ n < 2 ^ 32
  | .uint bits, .num n => 0 ≤ n ∧ n < 2 ^ bits
  | .str size, .text s => s.length < width ∧ s.length < size
  | .opts names, .num n => 0 ≤ n ∧ n < names.length
  | .list tbl count, .nums l => l.Nodup ∧ (∀ v ∈ l, v ∈ tbl.map (·.2)) ∧ l.length ≤ count
  | _, _ => False

variable {kind : Kind} {v : Val}

/-- A value is read back from its text. -/
theorem Kind.parse_print {width : Nat} (hwf : kind.Wf width) (hv : kind.Holds width v) :
    kind.parse (kind.print width v) = some v := by
  cases kind with
  | int =>
    cases v with
    | num n => exact congrArg (some ∘ Val.num) (toInt32_strtoul_printInt hv.1 hv.2)
    | text s => exact hv.elim
    | nums l => exact hv.elim
  | intOfUint32 =>
    cases v with
    | num n =>
      obtain ⟨h0, h1⟩ := hv
      have h := strtoul_printInt_mod (n := n.toNat) (by omega)
      rw [Kind.print, Kind.parse, h, Int.toNat_of_nonneg h0]
    | text s => exact hv.elim
    | nums l => exact hv.elim
  | uint bits =>
    cases v with
    | num n =>
      obtain ⟨h0, h1⟩ := hv
      have hbits : (2 : Nat) ^ bits ≤ 2 ^ 32 := Nat.pow_le_pow_right (by decide) hwf.1
      have hlt : n.toNat < 2 ^ bits := by
        rw [Int.toNat_lt h0]
        exact_mod_cast h1
      have hul : n.toNat < ulongBound := by
        unfold ulongBound
        omega
      rw [Kind.print, Kind.parse, Nat.mod_eq_of_lt hlt, strtoul_decimal hul, Nat.mod_eq_of_lt hlt,
        Int.toNat_of_nonneg h0]
    | text s => exact hv.elim
    | nums l => exact hv.elim
  | int64 => cases v <;> exact hv.elim
  | str size =>
    cases v with
    | num n => exact hv.elim
    | text s =>
      obtain ⟨h0, h1⟩ := hv
      have hprint : s.take (width - 1) = s := take_of_length_le (by omega)
      rw [Kind.print, hprint, Kind.parse, take_of_length_le (by omega)]
    | nums l => exact hv.elim
  | opts names =>
    cases v with
    | num n =>
      obtain ⟨h0, h1⟩ := hv
      have hlt : n.toNat < names.length := by omega
      have hfind : names.findIdx? (fun s => decide (s = names[n.toNat])) = some n.toNat := by
        rw [findIdx?_eq_some_iff_getElem]
        refine ⟨hlt, by simp, ?_⟩
        intro j hj heq
        have := (List.Nodup.getElem_inj_iff hwf.1).1 (of_decide_eq_true heq)
        omega
      rw [Kind.print, if_neg (by omega), getElem?_eq_getElem hlt, Option.getD_some, Kind.parse,
        hfind, Option.map_some, Int.toNat_of_nonneg h0]
    | text s => exact hv.elim
    | nums l => exact hv.elim
  | list tbl count =>
    cases v with
    | num n => exact hv.elim
    | text s => exact hv.elim
    | nums l =>
      obtain ⟨h0, h1, h2⟩ := hv
      have hl : ([] ++ l : List Nat).Nodup := by simpa using h0
      rw [Kind.print, Kind.parse, names_intercalate (valueNames_words hwf.1 l),
        known_valueNames hwf.1 hl h1 (by simpa using h2), nil_append]

/-- A text without white space can be read back. -/
theorem ValueOk.of_forall {s : List UInt8} (hne : s ≠ []) (h : ∀ b ∈ s, isSpace b = false) :
    ValueOk s where
  ne_nil := hne
  newline := fun hb => absurd (h _ hb) (by decide)
  head := fun b hb => h b (mem_of_mem_head? hb)
  last := fun b hb => h b (mem_of_mem_getLast? hb)

theorem decimal_not_space (n : Nat) : ∀ b ∈ decimal n, isSpace b = false := by
  intro b hb
  obtain ⟨h1, h2⟩ := decimal_digits n b hb
  have h32 : b ≠ 32 := fun h => absurd h1 (by rw [h]; decide)
  have h13 : ¬ b ≤ 13 := fun h => absurd (UInt8.le_iff_toNat_le.1 h) (by
    rw [show (13 : UInt8).toNat = 13 from rfl]
    omega)
  simp [isSpace, h32, h13]

theorem printInt_valueOk (n : Int) : ValueOk (printInt n) := by
  unfold printInt
  split
  · refine ValueOk.of_forall (by simp) ?_
    intro b hb
    rcases mem_cons.1 hb with rfl | hb
    · decide
    · exact decimal_not_space _ b hb
  · exact ValueOk.of_forall (decimal_ne_nil _) (decimal_not_space _)

theorem intercalate_not_space {l : List (List UInt8)}
    (h : ∀ s ∈ l, s ≠ [] ∧ ∀ b ∈ s, isSpace b = false ∧ b ≠ comma) :
    ∀ b ∈ [comma].intercalate l, isSpace b = false := by
  induction l with
  | nil => simp [List.intercalate]
  | cons s l ih =>
    obtain ⟨-, hword⟩ := h s mem_cons_self
    have ih := ih (fun t ht => h t (mem_cons_of_mem s ht))
    intro b hb
    cases l with
    | nil => exact (hword b (by simpa [List.intercalate] using hb)).1
    | cons t l =>
      rw [show [comma].intercalate (s :: t :: l) = s ++ comma :: [comma].intercalate (t :: l) by
        simp [List.intercalate], mem_append, mem_cons] at hb
      rcases hb with hb | rfl | hb
      · exact (hword b hb).1
      · decide
      · exact ih b hb

/-- A printed value is no longer than the names of its list. -/
theorem intercalate_valueNames_length {m : Nat} (h : ∀ e ∈ tbl, e.1.length ≤ m) (l : List Nat) :
    ([comma].intercalate (valueNames tbl l)).length ≤ l.length * (m + 1) := by
  have hbound : ∀ names : List (List UInt8), (∀ s ∈ names, s.length ≤ m) →
      ([comma].intercalate names).length ≤ names.length * (m + 1) := by
    intro names hn
    induction names with
    | nil => simp [List.intercalate]
    | cons s names ih =>
      have ih := ih (fun t ht => hn t (mem_cons_of_mem s ht))
      have hs := hn s mem_cons_self
      cases names with
      | nil =>
        simp only [List.intercalate, intersperse_singleton, flatten_singleton,
          length_singleton]
        omega
      | cons t names =>
        rw [show [comma].intercalate (s :: t :: names) =
          s ++ comma :: [comma].intercalate (t :: names) by simp [List.intercalate],
          length_append, length_cons, length_cons (a := s), Nat.succ_mul]
        omega
  have hlen : (valueNames tbl l).length ≤ l.length := length_filterMap_le _ _
  refine (hbound _ ?_).trans (Nat.mul_le_mul_right _ hlen)
  intro s hs
  obtain ⟨v, -, hv⟩ := mem_filterMap.1 hs
  obtain ⟨e, he, rfl⟩ := Option.map_eq_some_iff.1 hv
  exact h e (mem_of_find?_eq_some he)

theorem decimal_length {n k : Nat} (hk : 0 < k) (h : n < 10 ^ k) : (decimal n).length ≤ k := by
  rw [decimal, length_map]
  exact (Nat.length_toDigits_le_iff (by decide) hk).2 h

theorem printInt_length (hlo : -(2 ^ 31) ≤ n) (hhi : n < 2 ^ 31) : (printInt n).length ≤ 11 := by
  unfold printInt
  split
  · have := decimal_length (n := n.natAbs) (k := 10) (by decide) (by omega)
    rw [length_cons]
    omega
  · have := decimal_length (n := n.toNat) (k := 10) (by decide) (by omega)
    omega

/-- The value fits a variable of the kind, where the length of its text depends on it. -/
def Kind.Bounded : Kind → Val → Prop
  | .int, .num n => -(2 ^ 31) ≤ n ∧ n < 2 ^ 31
  | .list _ count, .nums l => l.length ≤ count
  | _, _ => True

theorem Kind.bounded_of_stores (h : kind.Stores v) : kind.Bounded v := by
  cases kind <;> cases v <;> first | exact trivial | exact h

/-- A printed value leaves room for its NUL. -/
theorem Kind.print_length_lt {width : Nat} (hwf : kind.Wf width) (hv : kind.Bounded v) :
    (kind.print width v).length < width := by
  cases kind with
  | int =>
    cases v with
    | num n => exact lt_of_le_of_lt (printInt_length hv.1 hv.2) hwf
    | text s => exact Nat.zero_lt_of_lt hwf
    | nums l => exact Nat.zero_lt_of_lt hwf
  | intOfUint32 =>
    cases v with
    | num n =>
      have h := BitVec.toInt_lt (x := BitVec.ofNat 32 n.toNat)
      have h' := BitVec.le_toInt (x := BitVec.ofNat 32 n.toNat)
      exact lt_of_le_of_lt (printInt_length (by simpa [toInt32] using h')
        (by simpa [toInt32] using h)) hwf
    | text s => exact Nat.zero_lt_of_lt hwf
    | nums l => exact Nat.zero_lt_of_lt hwf
  | uint bits =>
    cases v with
    | num n =>
      have hbits : (2 : Nat) ^ bits ≤ 2 ^ 32 := Nat.pow_le_pow_right (by decide) hwf.1
      have hmod : n.toNat % 2 ^ bits < 2 ^ bits := Nat.mod_lt _ (by positivity)
      exact lt_of_le_of_lt (decimal_length (by decide) (by omega)) hwf.2
    | text s => exact Nat.zero_lt_of_lt hwf.2
    | nums l => exact Nat.zero_lt_of_lt hwf.2
  | int64 => exact hwf.elim
  | str size =>
    cases v with
    | num n => exact hwf
    | text s =>
      rw [Kind.print, length_take]
      have : 0 < width := hwf
      omega
    | nums l => exact hwf
  | opts names =>
    cases v with
    | num n =>
      rw [Kind.print]
      split
      · exact hwf.2.1
      · cases hname : names[n.toNat]? with
        | none => exact hwf.2.1
        | some s => exact (hwf.2.2 s (mem_of_getElem? hname)).2
    | text s => exact hwf.2.1
    | nums l => exact hwf.2.1
  | list tbl count =>
    cases v with
    | num n => exact hwf.2.1
    | text s => exact hwf.2.1
    | nums l => exact hwf.2.2 l hv

/-- A tame value has a text that can be read back, or none. -/
theorem Kind.print_valueOk {width : Nat} (hwf : kind.Wf width) (hv : kind.Tame width v) :
    ValueOk (kind.print width v) ∨ v = .text [] ∧ kind.print width v = [] := by
  cases v with
  | num n =>
    left
    cases kind with
    | int => exact printInt_valueOk n
    | intOfUint32 => exact printInt_valueOk _
    | uint bits => exact ValueOk.of_forall (decimal_ne_nil _) (decimal_not_space _)
    | int64 => exact hwf.elim
    | str size => exact hv.elim
    | opts names =>
      obtain ⟨h0, h1⟩ := hv
      have hlt : n.toNat < names.length := by omega
      rw [Kind.print, if_neg (by omega), getElem?_eq_getElem hlt]
      exact (hwf.2.2 _ (getElem_mem hlt)).1
    | list tbl count => exact hv.elim
  | text s =>
    cases kind with
    | str size =>
      rcases hv with rfl | ⟨hok, hlt⟩
      · exact .inr ⟨rfl, take_nil⟩
      · left
        rw [Kind.print, take_of_length_le (by omega)]
        exact hok
    | int => exact hv.elim
    | intOfUint32 => exact hv.elim
    | uint bits => exact hv.elim
    | int64 => exact hv.elim
    | opts names => exact hv.elim
    | list tbl count => exact hv.elim
  | nums l =>
    left
    cases kind with
    | list tbl count =>
      obtain ⟨hne, -, hmem⟩ := hv
      have hwords := valueNames_words hwf.1 l
      refine ValueOk.of_forall ?_ (intercalate_not_space hwords)
      intro hnil
      have hnames := names_intercalate hwords
      rw [show [comma].intercalate (valueNames tbl l) = [] from hnil] at hnames
      exact valueNames_ne_nil hne hmem hnames.symm
    | int => exact hv.elim
    | intOfUint32 => exact hv.elim
    | uint bits => exact hv.elim
    | int64 => exact hv.elim
    | str size => exact hv.elim
    | opts names => exact hv.elim

theorem Kind.holds_of_tame {width : Nat} (hwf : kind.Wf width) (hs : kind.Stores v)
    (ht : kind.Tame width v) : kind.Holds width v := by
  cases v with
  | num n =>
    cases kind with
    | int => exact hs
    | intOfUint32 => exact hs
    | uint bits => exact hs
    | int64 => exact hwf.elim
    | str size => exact ht.elim
    | opts names => exact ht
    | list tbl count => exact ht.elim
  | text s =>
    cases kind with
    | str size =>
      refine ⟨?_, hs.2⟩
      rcases ht with rfl | ⟨-, hlt⟩
      · exact hwf
      · exact hlt
    | int => exact hs.elim
    | intOfUint32 => exact hs.elim
    | uint bits => exact hs.elim
    | int64 => exact hs.elim
    | opts names => exact hs.elim
    | list tbl count => exact hs.elim
  | nums l =>
    cases kind with
    | list tbl count => exact ⟨ht.2.1, ht.2.2, hs⟩
    | int => exact hs.elim
    | intOfUint32 => exact hs.elim
    | uint bits => exact hs.elim
    | int64 => exact hs.elim
    | str size => exact hs.elim
    | opts names => exact hs.elim

/-! ### Records -/

section Records

variable {φ : Type} [DecidableEq φ]

/-- How one program treats the fields of a record. -/
structure Format (φ : Type) where
  key : φ → List UInt8
  kind : φ → Kind
  /-- The field for the length of a string field, updated together with it. -/
  lengthOf : φ → Option φ

variable (F : Format φ)

/-- The field with the key, among those of a table. -/
def Format.find (table : List φ) (k : List UInt8) : Option φ := table.find? (F.key · = k)

def lengthText (t : List UInt8) : List UInt8 :=
  let digits := decimal (t.length % 65536)
  List.replicate (7 - digits.length) 48 ++ digits

theorem digits_zeros (k : Nat) (s : List UInt8) :
    digits 10 (List.replicate k 48 ++ s) 0 = digits 10 s 0 := by
  induction k with
  | zero => rfl
  | succ k ih =>
    rw [replicate_succ, cons_append, ← ih]
    rfl

/-- The text of a length names it. -/
theorem strtoul_lengthText (t : List UInt8) :
    (strtoul 10 (lengthText t)).1 = t.length % 65536 := by
  obtain ⟨n, hn⟩ : ∃ n, n = t.length % 65536 := ⟨_, rfl⟩
  have hlt : n < 65536 := by
    rw [hn]
    exact Nat.mod_lt _ (by decide)
  obtain ⟨k, hk⟩ : ∃ k, 7 - (decimal n).length = k + 1 := by
    have hlen : (decimal n).length ≤ 5 := by
      rw [decimal, length_map]
      exact (Nat.length_toDigits_le_iff (by decide) (by decide)).2 (by omega)
    exact ⟨6 - (decimal n).length, by omega⟩
  have htext : lengthText t = 48 :: (List.replicate k 48 ++ decimal n) := by
    rw [lengthText, ← hn]
    rw [hk, replicate_succ, cons_append]
  have hfree : NulFree (lengthText t) := by
    intro b hb
    rw [htext, mem_cons, mem_append] at hb
    rcases hb with rfl | hb | hb
    · decide
    · rw [eq_of_mem_replicate hb]
      decide
    · exact decimal_nulFree n b hb
  have hdigits : digits 10 (lengthText t) 0 = (n, []) := by
    have h := digits_decimal [] n
    rw [append_nil] at h
    rw [htext, ← cons_append, ← replicate_succ, digits_zeros, h, digits]
  have hsplit : splitSign ((lengthText t).dropWhile isSpace) = (false, lengthText t) := by
    rw [htext, dropWhile_cons_of_neg (by decide)]
    rfl
  rw [strtoul, cstr_of_nulFree _ hfree, hsplit]
  simp only [resolveBase_ten, hdigits]
  rw [htext]
  dsimp only
  rw [if_neg (by decide), if_neg (by unfold ulongBound; omega), if_neg (by decide), hn]

/-- One assignment. A field of the table gets its value and a length field the length
of the text; the result is `none` for an unknown key or an unknown option. -/
def Format.assign (table : List φ) (r : φ → Val) (k t : List UInt8) : Option (φ → Val) :=
  match F.find table k with
  | none => none
  | some f =>
    match (F.kind f).parse t with
    | none => none
    | some v =>
      let r := Function.update r f v
      match F.lengthOf f with
      | none => some r
      | some g => some (Function.update r g (((F.kind g).parse (lengthText t)).getD (r g)))

/-- A reader that passes over what it does not know. -/
def Format.readLenient (table : List φ) (r : φ → Val) (kvs : List (List UInt8 × List UInt8)) :
    φ → Val :=
  kvs.foldl (fun r kv => (F.assign table r kv.1 kv.2).getD r) r

def Format.lines (width : Nat) (visible : φ → Bool) (table : List φ) (r : φ → Val) :
    List (List UInt8 × List UInt8) :=
  (table.filter visible).filterMap fun f =>
    let t := (F.kind f).print width (r f)
    if t = [] then none else some (F.key f, t)

/-- Keys tell the fields of a table apart. -/
def Format.Distinct (table : List φ) : Prop := (table.map F.key).Nodup

variable {table : List φ} {f : φ}

omit [DecidableEq φ] in
theorem Format.find_mem (hd : F.Distinct table) (hf : f ∈ table) :
    F.find table (F.key f) = some f :=
  find?_of_nodup F.key hd hf

variable {k : List UInt8}

omit [DecidableEq φ] in
theorem Format.find_eq_some (h : F.find table k = some f) : f ∈ table ∧ F.key f = k := by
  refine ⟨mem_of_find?_eq_some h, ?_⟩
  have h1 := find?_some (show table.find? (F.key · = k) = some f from h)
  exact of_decide_eq_true h1

/-- The value a field has after the assignments to its key. -/
def settle (kind : Kind) (k : List UInt8) (v : Val) (kvs : List (List UInt8 × List UInt8)) : Val :=
  kvs.foldl (fun v kv => if kv.1 = k then (kind.parse kv.2).getD v else v) v

/-- The field is nobody's length field. -/
def Format.Plain (f : φ) : Prop := ∀ g, F.lengthOf g ≠ some f

/-- One assignment changes a plain field only through its own key. -/
theorem Format.assign_apply (hd : F.Distinct table) (r : φ → Val) (k t : List UInt8)
    (hf : f ∈ table) (hp : F.Plain f) :
    (F.assign table r k t).getD r f =
      if k = F.key f then ((F.kind f).parse t).getD (r f) else r f := by
  unfold Format.assign
  cases hfind : F.find table k with
  | none =>
    have hne : k ≠ F.key f := by
      intro h
      rw [h, F.find_mem hd hf] at hfind
      cases hfind
    rw [if_neg hne]
    rfl
  | some g =>
    obtain ⟨hg, hkey⟩ := F.find_eq_some hfind
    have hkg : k = F.key f ↔ g = f := by
      constructor
      · intro h
        rw [h, F.find_mem hd hf] at hfind
        exact (Option.some.inj hfind).symm
      · rintro rfl
        exact hkey.symm
    dsimp only
    cases hparse : (F.kind g).parse t with
    | none =>
      by_cases h : g = f
      · subst h
        rw [if_pos hkey.symm, hparse]
        rfl
      · rw [if_neg (fun hk => h (hkg.1 hk))]
        rfl
    | some v =>
      have hupd (x : φ → Val) (h : ∀ y, x y = Function.update r g v y ∨ F.lengthOf g = some y) :
          x f = if k = F.key f then ((F.kind f).parse t).getD (r f) else r f := by
        rcases h f with hx | hx
        · rw [hx]
          by_cases hgf : g = f
          · subst hgf
            rw [if_pos hkey.symm, hparse, Function.update_self]
            rfl
          · rw [if_neg (fun hk => hgf (hkg.1 hk)), Function.update_of_ne (Ne.symm hgf)]
        · exact (hp g hx).elim
      dsimp only
      cases hlen : F.lengthOf g with
      | none => exact hupd _ (fun y => .inl rfl)
      | some c =>
        refine hupd _ (fun y => ?_)
        by_cases hyc : y = c
        · exact .inr (by rw [hlen, hyc])
        · exact .inl (Function.update_of_ne hyc _ _)

/-- What a lenient reader leaves in a plain field of its table. -/
theorem Format.readLenient_apply (hd : F.Distinct table) (r : φ → Val)
    (kvs : List (List UInt8 × List UInt8)) (hf : f ∈ table) (hp : F.Plain f) :
    F.readLenient table r kvs f = settle (F.kind f) (F.key f) (r f) kvs := by
  induction kvs generalizing r with
  | nil => rfl
  | cons kv kvs ih =>
    rw [Format.readLenient, foldl_cons, settle, foldl_cons]
    have h := ih ((F.assign table r kv.1 kv.2).getD r)
    rw [F.assign_apply hd r kv.1 kv.2 hf hp] at h
    exact h

/-- A field outside the table keeps its value. -/
theorem Format.readLenient_of_not_mem (r : φ → Val) (kvs : List (List UInt8 × List UInt8))
    (hf : f ∉ table) (hp : F.Plain f) :
    F.readLenient table r kvs f = r f := by
  induction kvs generalizing r with
  | nil => rfl
  | cons kv kvs ih =>
    have hone : (F.assign table r kv.1 kv.2).getD r f = r f := by
      unfold Format.assign
      cases hfind : F.find table kv.1 with
      | none => rfl
      | some g =>
        have hg : g ≠ f := fun h => hf (by rw [← h]; exact (F.find_eq_some hfind).1)
        dsimp only
        cases (F.kind g).parse kv.2 with
        | none => rfl
        | some v =>
          dsimp only
          cases hlen : F.lengthOf g with
          | none => exact Function.update_of_ne (Ne.symm hg) _ _
          | some c =>
            have hc : f ≠ c := fun h => hp g (by rw [hlen, h])
            exact (Function.update_of_ne hc _ _).trans (Function.update_of_ne (Ne.symm hg) _ _)
    rw [Format.readLenient, foldl_cons]
    exact (ih _).trans hone

variable {t : List UInt8}

/-- One assignment changes a length field only with its string field, or through its own key. -/
theorem Format.assign_length (hd : F.Distinct table) (r : φ → Val) {g : φ} (hf : f ∈ table)
    (hg : F.lengthOf f = some g) (hne : g ≠ f) (honly : ∀ x, F.lengthOf x = some g → x = f)
    (hk : k ≠ F.key g) (hparse : (F.kind f).parse t ≠ none) :
    (F.assign table r k t).getD r g =
      if k = F.key f then ((F.kind g).parse (lengthText t)).getD (r g) else r g := by
  unfold Format.assign
  by_cases hkf : k = F.key f
  · obtain ⟨v, hv⟩ := Option.ne_none_iff_exists'.1 hparse
    rw [if_pos hkf, hkf, F.find_mem hd hf]
    dsimp only
    rw [hv]
    dsimp only
    rw [hg]
    dsimp only
    rw [Option.getD_some, Function.update_self, Function.update_of_ne hne]
  · rw [if_neg hkf]
    cases hfind : F.find table k with
    | none => rfl
    | some x =>
      obtain ⟨-, hx⟩ := F.find_eq_some hfind
      have hgx : g ≠ x := by
        rintro rfl
        exact hk hx.symm
      dsimp only
      cases (F.kind x).parse t with
      | none => rfl
      | some v =>
        dsimp only
        cases hlen : F.lengthOf x with
        | none => exact Function.update_of_ne hgx _ _
        | some c =>
          have hgc : g ≠ c := by
            rintro rfl
            rw [honly x hlen] at hx
            exact hkf hx.symm
          exact (Function.update_of_ne hgc _ _).trans (Function.update_of_ne hgx _ _)

omit [DecidableEq φ] in
theorem settle_of_not_mem (kind : Kind) (k : List UInt8) (v : Val) (h : k ∉ kvs.map (·.1)) :
    settle kind k v kvs = v := by
  induction kvs generalizing v with
  | nil => rfl
  | cons kv kvs ih =>
    rw [map_cons, mem_cons, not_or] at h
    rw [settle, foldl_cons, if_neg (fun h' => h.1 h'.symm)]
    exact ih v h.2

omit [DecidableEq φ] in
/-- The only assignment to a key decides. -/
theorem settle_of_mem (kind : Kind) (v : Val) (hd : (kvs.map (·.1)).Nodup) (h : (k, t) ∈ kvs) :
    settle kind k v kvs = (kind.parse t).getD v := by
  induction kvs with
  | nil => cases h
  | cons kv kvs ih =>
    rw [map_cons, nodup_cons] at hd
    rw [settle, foldl_cons]
    rcases mem_cons.1 h with rfl | h
    · rw [if_pos rfl]
      exact settle_of_not_mem kind k _ hd.1
    · have hne : kv.1 ≠ k := by
        intro he
        exact hd.1 (by rw [he]; exact mem_map_of_mem h)
      rw [if_neg hne]
      exact ih hd.2 h

variable {width : Nat} {visible : φ → Bool}

omit [DecidableEq φ] in
theorem Format.lines_keys (table : List φ) (r : φ → Val) :
    ((F.lines width visible table r).map (·.1)).Sublist (table.map F.key) := by
  unfold Format.lines
  induction table with
  | nil => exact List.Sublist.slnil
  | cons f table ih =>
    by_cases hf : visible f = true
    · rw [filter_cons_of_pos hf, filterMap_cons]
      dsimp only
      split
      · exact ih.cons _
      · rename_i kv hkv
        split at hkv
        · cases hkv
        · obtain rfl := Option.some.inj hkv
          exact ih.cons_cons _
    · rw [filter_cons_of_neg hf]
      exact ih.cons _

omit [DecidableEq φ] in
theorem Format.mem_lines {r : φ → Val} :
    (k, t) ∈ F.lines width visible table r ↔
      ∃ f ∈ table, visible f = true ∧ t ≠ [] ∧ k = F.key f ∧ t = (F.kind f).print width (r f) := by
  unfold Format.lines
  rw [mem_filterMap]
  constructor
  · rintro ⟨f, hf, h⟩
    rw [mem_filter] at hf
    dsimp only at h
    split at h
    · cases h
    · rename_i hne
      have h := Option.some.inj h
      rw [Prod.mk.injEq] at h
      exact ⟨f, hf.1, hf.2, by rw [← h.2]; exact hne, h.1.symm, h.2.symm⟩
  · rintro ⟨f, hf, hv, hne, rfl, rfl⟩
    exact ⟨f, mem_filter.2 ⟨hf, hv⟩, by dsimp only; rw [if_neg hne]⟩

/-- What a lenient reader makes of the lines of a writer with the same keys: the text of the
field, or the value from before when the field has none. -/
theorem Format.readLenient_lines (G : Format φ) (hkey : G.key = F.key) {written : List φ}
    (hw : F.Distinct written) (hd : G.Distinct table) (r base : φ → Val) (hf : f ∈ written)
    (hv : visible f = true) (ht : f ∈ table) (hp : G.Plain f) :
    G.readLenient table base (F.lines width visible written r) f =
      if (F.kind f).print width (r f) = [] then base f
      else ((G.kind f).parse ((F.kind f).print width (r f))).getD (base f) := by
  rw [G.readLenient_apply hd _ _ ht hp, hkey]
  have hnodup : ((F.lines width visible written r).map (·.1)).Nodup :=
    (F.lines_keys written r).nodup hw
  split
  · rename_i hnil
    refine settle_of_not_mem _ _ _ ?_
    intro hmem
    obtain ⟨⟨k, t⟩, hkt, hk⟩ := mem_map.1 hmem
    obtain ⟨g, hg, -, hne, rfl, rfl⟩ := F.mem_lines.1 hkt
    have hgf := F.find_mem hw hg
    rw [show F.key g = F.key f from hk, F.find_mem hw hf] at hgf
    obtain rfl := Option.some.inj hgf
    exact hne hnil
  · rename_i hne
    exact settle_of_mem _ _ hnodup (F.mem_lines.2 ⟨f, hf, hv, hne, rfl, rfl⟩)

end Records

end RecordFile
