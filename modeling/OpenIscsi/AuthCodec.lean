import OpenIscsi.AuthText

/-!
# Binary values: the decoders as they fill the caller's buffer

`AuthText` says which bytes a received text stands for. Here the two decoders
of `auth.c` run as the code does: bytes are stored one by one, `data_length`
counts down the space that is left, and the length handed back is computed from
that count. A decoder that stops with a nonzero status keeps what it has stored.
The other side is the base64 of RFC 4648, which a peer may use instead of
hexadecimal.
-/

namespace AuthCodec

open CString AuthText List

/-- The caller's buffer: the bytes stored through `data`, and `data_length`. -/
structure Output where
  stored : List UInt8
  dataLength : Nat
  deriving DecidableEq, Repr

/-- Bytes are stored and counted off the space that is left. -/
def Output.put (out : Output) (bytes : List UInt8) : Output :=
  ⟨out.stored ++ bytes, out.dataLength - bytes.length⟩

/-- What a decoder leaves: its status, the buffer, and `*data_lenp`. -/
structure Decoded where
  failed : Bool
  stored : List UInt8
  dataLen : Nat
  deriving DecidableEq, Repr

/-- The end of a decoder: no byte at all is an error, and `*data_lenp` is
written only on success. -/
def finish (capacity : Nat) : Except Output Output → Decoded
  | .error out => ⟨true, out.stored, capacity⟩
  | .ok out =>
    if capacity ≤ out.dataLength then ⟨true, out.stored, capacity⟩
    else ⟨false, out.stored, capacity - out.dataLength⟩

/-- The byte loop of `acl_hex_to_data`. -/
def storeHexBytes : List UInt8 → Output → Except Output Output
  | [], out => .ok out
  | [_], out => .error out
  | c1 :: c2 :: text, out =>
    match hexNibble c1, hexNibble c2 with
    | some n1, some n2 =>
      if out.dataLength < 1 then .error out
      else storeHexBytes text (out.put [UInt8.ofNat (n1 * 16 + n2)])
    | _, _ => .error out

def storeHex (text : List UInt8) (capacity : Nat) : Decoded :=
  let out : Output := ⟨[], capacity⟩
  finish capacity <|
    if text.length % 2 = 1 then
      match text with
      | [] => .error out
      | c :: rest =>
        match hexNibble c with
        | none => .error out
        | some n =>
          if out.dataLength < 1 then .error out else storeHexBytes rest (out.put [UInt8.ofNat n])
    else storeHexBytes text out

/-- The part of `acl_base64_to_data` behind its loops: the last quantum. -/
def storeBase64Tail (n count : Nat) (out : Output) : Except Output Output :=
  if count = 0 then .ok out
  else if count = 2 then
    (if out.dataLength < 1 then .error out else .ok (out.put [UInt8.ofNat (n / 16)]))
  else if count = 3 then
    (if out.dataLength < 2 then .error out
     else .ok (out.put [UInt8.ofNat (n / 4 / 256), UInt8.ofNat (n / 4)]))
  else .error out

/-- The quantum loop and the padding loop of `acl_base64_to_data`. -/
def storeBase64Quanta : List UInt8 → Nat → Nat → Output → Except Output Output
  | [], n, count, out => storeBase64Tail n count out
  | c :: text, n, count, out =>
    if c = 61 then
      (if text.all (fun b => b == 61) then storeBase64Tail n count out else .error out)
    else
      match aclStrIndex aclBase64String c with
      | none => .error out
      | some i =>
        let n := n * 64 + i
        if 4 ≤ count + 1 then
          if out.dataLength < 3 then .error out
          else storeBase64Quanta text 0 0
            (out.put [UInt8.ofNat (n / 65536), UInt8.ofNat (n / 256), UInt8.ofNat n])
        else storeBase64Quanta text n (count + 1) out

/-- `acl_base64_to_data`. -/
def storeBase64 (text : List UInt8) (capacity : Nat) : Decoded :=
  finish capacity (storeBase64Quanta text 0 0 ⟨[], capacity⟩)

def storeText (text : Option (List UInt8)) (capacity : Nat) : Decoded :=
  match text, aclChkString text (2 + 2 * authLargeBinaryMaxLen + 1) with
  | some text, some _ =>
    match cstr text with
    | 48 :: x :: rest =>
      if x = 120 ∨ x = 88 then storeHex rest capacity
      else if x = 98 ∨ x = 66 then storeBase64 rest capacity
      else ⟨true, [], capacity⟩
    | _ => ⟨true, [], capacity⟩
  | _, _ => ⟨true, [], capacity⟩

/-! ## The bytes stored are the bytes the text stands for -/

/-- A decoder never stores more than the buffer holds, and a success reports
the number of bytes it stored. -/
structure Decoded.Bounded (capacity : Nat) (d : Decoded) : Prop where
  stored_le : d.stored.length ≤ capacity
  reported : d.failed = false → d.dataLen = d.stored.length

/-- The bytes a successful decoder handed back. -/
def Decoded.bytes (d : Decoded) : Option (List UInt8) := if d.failed then none else some d.stored

variable (text : List UInt8) (n count : Nat) (data : List UInt8) (out : Output) (k i capacity : Nat)

theorem Output.put_nil : out.put [] = out := by
  simp only [Output.put, append_nil, length_nil, Nat.sub_zero]

theorem Output.put_put (a b : List UInt8) :
    (out.put a).put b = out.put (a ++ b) := by
  simp only [Output.put, append_assoc, length_append, Nat.sub_sub]

/-- A decoder loop agrees with its reading of the text: it stores the bytes of that reading
behind what was there, or fails when there is none, with bytes stored where there was room. -/
def Agrees (reading : Option (List UInt8)) (out : Output) (r : Except Output Output) : Prop :=
  ∃ bytes, bytes.length ≤ out.dataLength ∧
    (reading = some bytes ∧ r = .ok (out.put bytes) ∨ reading = none ∧ r = .error (out.put bytes))

theorem Agrees.error : Agrees none out (.error out) :=
  ⟨[], Nat.zero_le _, .inr ⟨rfl, by rw [Output.put_nil]⟩⟩

theorem Agrees.ok (bytes : List UInt8) (h : bytes.length ≤ out.dataLength) :
    Agrees (some bytes) out (.ok (out.put bytes)) :=
  ⟨bytes, h, .inl ⟨rfl, rfl⟩⟩

/-- Agreement after some bytes have been stored gives agreement before. -/
theorem Agrees.put {reading : Option (List UInt8)} {out : Output} {front : List UInt8}
    {r : Except Output Output} (h : Agrees reading (out.put front) r)
    (hf : front.length ≤ out.dataLength) :
    Agrees (reading.map (fun bytes => front ++ bytes)) out r := by
  obtain ⟨bytes, hlen, h⟩ := h
  rw [Output.put_put] at h
  refine ⟨front ++ bytes, ?_, ?_⟩
  · simp only [Output.put, length_append] at hlen ⊢
    omega
  · rcases h with ⟨rfl, hr⟩ | ⟨rfl, hr⟩
    · exact .inl ⟨rfl, hr⟩
    · exact .inr ⟨rfl, hr⟩

theorem storeHexBytes_agrees :
    Agrees (hexToDataLoop text out.dataLength) out (storeHexBytes text out) := by
  induction text, out using storeHexBytes.induct with
  | case1 out =>
    have h := Agrees.ok out [] (Nat.zero_le _)
    rwa [Output.put_nil] at h
  | case2 c out => exact Agrees.error out
  | case3 c1 c2 text out n1 n2 hn1 hn2 hroom =>
    rw [storeHexBytes, hexToDataLoop, hn1, hn2]
    simp only
    rw [if_pos hroom, if_pos hroom]
    exact Agrees.error out
  | case4 c1 c2 text out n1 n2 hn1 hn2 hroom ih =>
    rw [storeHexBytes, hexToDataLoop, hn1, hn2]
    simp only
    rw [if_neg hroom, if_neg hroom]
    exact ih.put (by simp only [length_singleton]; omega)
  | case5 c1 c2 text out hnone =>
    rw [storeHexBytes, hexToDataLoop]
    cases hn1 : hexNibble c1 with
    | none => exact Agrees.error out
    | some n1 =>
      cases hn2 : hexNibble c2 with
      | none => exact Agrees.error out
      | some n2 => exact absurd hn2 (hnone n1 n2 hn1)

theorem storeBase64Tail_agrees :
    Agrees (base64Tail n count out.dataLength) out (storeBase64Tail n count out) := by
  unfold base64Tail storeBase64Tail
  split
  · have h := Agrees.ok out [] (Nat.zero_le _)
    rwa [Output.put_nil] at h
  · split
    · split
      · exact Agrees.error out
      · exact Agrees.ok out _ (by simp only [length_singleton]; omega)
    · split
      · split
        · exact Agrees.error out
        · exact Agrees.ok out _ (by simp only [length_cons, length_nil]; omega)
      · exact Agrees.error out

theorem storeBase64Quanta_agrees :
    Agrees (base64Loop text n count out.dataLength) out (storeBase64Quanta text n count out) := by
  induction text generalizing n count out with
  | nil => exact storeBase64Tail_agrees n count out
  | cons c text ih =>
    rw [base64Loop, storeBase64Quanta]
    split
    · split
      · exact storeBase64Tail_agrees n count out
      · exact Agrees.error out
    · cases aclStrIndex aclBase64String c with
      | none => exact Agrees.error out
      | some i =>
        dsimp only
        split
        · split
          · exact Agrees.error out
          · rename_i hroom
            have hnext := ih 0 0 (out.put [UInt8.ofNat ((n * 64 + i) / 65536),
              UInt8.ofNat ((n * 64 + i) / 256), UInt8.ofNat (n * 64 + i)])
            exact hnext.put (Nat.not_lt.1 hroom)
        · exact ih _ _ out

/-- An empty reading is an error, as the end of both decoders has it. -/
def nonempty : Option (List UInt8) → Option (List UInt8)
  | some [] => none
  | r => r

theorem finish_agrees {reading : Option (List UInt8)} {r : Except Output Output}
    (h : Agrees reading ⟨[], capacity⟩ r) :
    (finish capacity r).Bounded capacity ∧ (finish capacity r).bytes = nonempty reading := by
  obtain ⟨bytes, hlen, ⟨rfl, rfl⟩ | ⟨rfl, rfl⟩⟩ := h
  · cases bytes with
    | nil =>
      rw [Output.put_nil, finish, if_pos (Nat.le_refl capacity)]
      exact ⟨⟨Nat.zero_le _, fun hf => absurd hf.symm Bool.false_ne_true⟩, rfl⟩
    | cons b bytes =>
      have hroom : ¬ capacity ≤ ((⟨[], capacity⟩ : Output).put (b :: bytes)).dataLength := by
        simp only [Output.put, length_cons] at hlen ⊢
        omega
      rw [finish, if_neg hroom]
      exact ⟨⟨hlen, fun _ => Nat.sub_sub_self hlen⟩, rfl⟩
  · exact ⟨⟨hlen, fun hf => absurd hf.symm Bool.false_ne_true⟩, rfl⟩

theorem storeHex_spec : (storeHex text capacity).Bounded capacity ∧
    (storeHex text capacity).bytes = aclHexToData text capacity := by
  have hread : aclHexToData text capacity = nonempty
      (if text.length % 2 = 1 then
        match text with
        | [] => none
        | c :: rest =>
          match hexNibble c with
          | none => none
          | some n =>
            if capacity < 1 then none
            else (hexToDataLoop rest (capacity - 1)).map (fun r => UInt8.ofNat n :: r)
      else hexToDataLoop text capacity) := by
    unfold aclHexToData
    dsimp only
    generalize (if text.length % 2 = 1 then _ else _ : Option (List UInt8)) = r
    cases r with
    | none => rfl
    | some bytes => cases bytes <;> rfl
  rw [hread]
  apply finish_agrees
  split
  · cases text with
    | nil => exact Agrees.error _
    | cons c rest =>
      dsimp only
      cases hexNibble c with
      | none => exact Agrees.error _
      | some n =>
        dsimp only
        split
        · exact Agrees.error _
        · rename_i hroom
          have hnext := storeHexBytes_agrees rest ((⟨[], capacity⟩ : Output).put [UInt8.ofNat n])
          exact hnext.put (Nat.not_lt.1 hroom)
  · exact storeHexBytes_agrees text ⟨[], capacity⟩

theorem storeBase64_spec : (storeBase64 text capacity).Bounded capacity ∧
    (storeBase64 text capacity).bytes = aclBase64ToData text capacity := by
  have hread : aclBase64ToData text capacity = nonempty (base64Loop text 0 0 capacity) := by
    unfold aclBase64ToData
    cases base64Loop text 0 0 capacity with
    | none => rfl
    | some bytes => cases bytes <;> rfl
  rw [hread]
  exact finish_agrees capacity (storeBase64Quanta_agrees text 0 0 ⟨[], capacity⟩)

/-- A text that is too long or has no `0` in front is refused. -/
theorem storeText_other (hother : ∀ x rest, cstr text ≠ 48 :: x :: rest) :
    storeText (some text) capacity = ⟨true, [], capacity⟩ ∧
      aclTextToData (some text) capacity = none := by
  unfold storeText aclTextToData
  constructor
  all_goals
    split
    · rename_i htext _
      obtain rfl := Option.some.inj htext
      split
      · rename_i heq
        exact absurd heq (hother _ _)
      · rfl
    · rfl

/-- The decoder run on the caller's buffer stays in it and refines the reading of the text. -/
theorem storeText_spec (text : Option (List UInt8)) (capacity : Nat) :
    (storeText text capacity).Bounded capacity ∧
      (storeText text capacity).bytes = aclTextToData text capacity := by
  have hfail : (⟨true, [], capacity⟩ : Decoded).Bounded capacity ∧
      (⟨true, [], capacity⟩ : Decoded).bytes = none :=
    ⟨⟨Nat.zero_le capacity, fun hf => absurd hf.symm Bool.false_ne_true⟩, rfl⟩
  cases text with
  | none => exact hfail
  | some text =>
    by_cases hshape : ∃ x rest, cstr text = 48 :: x :: rest
    · obtain ⟨x, rest, heq⟩ := hshape
      unfold storeText aclTextToData
      cases aclChkString (some text) (2 + 2 * authLargeBinaryMaxLen + 1) with
      | none => exact hfail
      | some n =>
        dsimp only
        rw [heq]
        by_cases hhex : x = 120 ∨ x = 88
        · simp only [if_pos hhex]
          exact storeHex_spec rest capacity
        · by_cases hbase : x = 98 ∨ x = 66
          · simp only [if_neg hhex, if_pos hbase]
            exact storeBase64_spec rest capacity
          · simp only [if_neg hhex, if_neg hbase]
            exact hfail
    · obtain ⟨hstore, hread⟩ := storeText_other text capacity fun x rest heq => hshape ⟨x, rest, heq⟩
      rw [hstore, hread]
      exact hfail

/-! ## Base64 -/

/-- The alphabet of RFC 4648, section 4. -/
def base64Char (i : Nat) : UInt8 :=
  if i < 26 then UInt8.ofNat (65 + i)
  else if i < 52 then UInt8.ofNat (97 + (i - 26))
  else if i < 62 then UInt8.ofNat (48 + (i - 52))
  else if i = 62 then 43
  else 47

/-- RFC 4648 base64 without its padding: six bits a character, the last group
filled up with zero bits. -/
def base64 : List UInt8 → List UInt8
  | [] => []
  | [a] => [base64Char (a.toNat / 4), base64Char (a.toNat % 4 * 16)]
  | [a, b] =>
    [base64Char (a.toNat / 4), base64Char (a.toNat % 4 * 16 + b.toNat / 16),
      base64Char (b.toNat % 16 * 4)]
  | a :: b :: c :: data =>
    base64Char (a.toNat / 4) :: base64Char (a.toNat % 4 * 16 + b.toNat / 16) ::
      base64Char (b.toNat % 16 * 4 + c.toNat / 64) :: base64Char (c.toNat % 64) :: base64 data

/-- The `=` characters that fill the last group of four. -/
def base64Padding (data : List UInt8) : List UInt8 :=
  List.replicate ((3 - data.length % 3) % 3) 61

theorem base64Char_index (h : i < 64) :
    base64Char i ≠ 61 ∧ base64Char i ≠ 0 ∧ aclStrIndex aclBase64String (base64Char i) = some i := by
  have hall : ∀ i < 64, base64Char i ≠ 61 ∧ base64Char i ≠ 0 ∧
      aclStrIndex aclBase64String (base64Char i) = some i := by decide +kernel
  exact hall i h

/-- A character inside a quantum is collected. -/
theorem base64Loop_collect (n count room : Nat) (text : List UInt8) (hi : i < 64)
    (hc : count < 3) :
    base64Loop (base64Char i :: text) n count room =
      base64Loop text (n * 64 + i) (count + 1) room := by
  obtain ⟨hpad, _, hindex⟩ := base64Char_index i hi
  rw [base64Loop, if_neg hpad, hindex]
  dsimp only
  rw [if_neg (by omega)]

/-- The fourth character of a quantum stores its three bytes. -/
theorem base64Loop_store (n room : Nat) (text : List UInt8) (hi : i < 64) (hroom : 3 ≤ room) :
    base64Loop (base64Char i :: text) n 3 room =
      (base64Loop text 0 0 (room - 3)).map (fun r => UInt8.ofNat ((n * 64 + i) / 65536) ::
        UInt8.ofNat ((n * 64 + i) / 256) :: UInt8.ofNat (n * 64 + i) :: r) := by
  obtain ⟨hpad, _, hindex⟩ := base64Char_index i hi
  rw [base64Loop, if_neg hpad, hindex]
  dsimp only
  rw [if_pos (by omega), if_neg (by omega)]

theorem base64Loop_padding (n count room : Nat) :
    base64Loop (List.replicate k 61) n count room = base64Tail n count room := by
  cases k with
  | zero => rfl
  | succ k =>
    have hall : (List.replicate k (61 : UInt8)).all (fun b => b == 61) = true := by
      simp only [all_eq_true]
      intro b hb
      rw [eq_of_mem_replicate hb]
      rfl
    rw [replicate_succ, base64Loop, if_pos rfl, if_pos hall]

/-- A byte is read back from a number that ends in it. -/
theorem ofNat_of_mod (b : UInt8) (n : Nat) (h : n % 256 = b.toNat) : UInt8.ofNat n = b := by
  apply UInt8.toNat_inj.1
  rw [UInt8.toNat_ofNat']
  exact h

/-- The quantum loop inverts the encoding, with any number of padding characters. -/
theorem base64Loop_base64 (room : Nat) (h : data.length ≤ room) :
    base64Loop (base64 data ++ List.replicate k 61) 0 0 room = some data := by
  induction data using base64.induct generalizing room with
  | case1 =>
    rw [base64, nil_append, base64Loop_padding]
    rfl
  | case2 a =>
    have ha : a.toNat < 256 := a.toNat_lt
    have hval : (a.toNat / 4 * 64 + a.toNat % 4 * 16) / 16 % 256 = a.toNat := by omega
    simp only [length_singleton] at h
    simp only [base64, cons_append, nil_append]
    rw [base64Loop_collect _ _ _ _ _ (by omega) (by omega),
      base64Loop_collect _ _ _ _ _ (by omega) (by omega), base64Loop_padding]
    simp only [Nat.zero_mul, Nat.zero_add, Nat.reduceAdd, base64Tail]
    rw [if_neg (by decide), if_pos trivial, if_neg (by omega), ofNat_of_mod a _ hval]
  | case3 a b =>
    have ha : a.toNat < 256 := a.toNat_lt
    have hb : b.toNat < 256 := b.toNat_lt
    have hval : ((a.toNat / 4 * 64 + (a.toNat % 4 * 16 + b.toNat / 16)) * 64 +
        b.toNat % 16 * 4) / 4 = a.toNat * 256 + b.toNat := by omega
    simp only [length_cons, length_nil] at h
    simp only [base64, cons_append, nil_append]
    rw [base64Loop_collect _ _ _ _ _ (by omega) (by omega),
      base64Loop_collect _ _ _ _ _ (by omega) (by omega),
      base64Loop_collect _ _ _ _ _ (by omega) (by omega), base64Loop_padding]
    simp only [Nat.zero_mul, Nat.zero_add, Nat.reduceAdd, base64Tail, hval]
    rw [if_neg (by decide), if_neg (by decide), if_pos trivial, if_neg (by omega),
      ofNat_of_mod a _ (by omega), ofNat_of_mod b _ (by omega)]
  | case4 a b c data ih =>
    have ha : a.toNat < 256 := a.toNat_lt
    have hb : b.toNat < 256 := b.toNat_lt
    have hc : c.toNat < 256 := c.toNat_lt
    have hval : ((a.toNat / 4 * 64 + (a.toNat % 4 * 16 + b.toNat / 16)) * 64 +
        (b.toNat % 16 * 4 + c.toNat / 64)) * 64 + c.toNat % 64 =
        a.toNat * 65536 + b.toNat * 256 + c.toNat := by omega
    simp only [length_cons] at h
    simp only [base64, cons_append]
    rw [base64Loop_collect _ _ _ _ _ (by omega) (by omega),
      base64Loop_collect _ _ _ _ _ (by omega) (by omega),
      base64Loop_collect _ _ _ _ _ (by omega) (by omega)]
    simp only [Nat.zero_mul, Nat.zero_add, Nat.reduceAdd]
    rw [base64Loop_store _ _ _ _ (by omega) (by omega), ih (room - 3) (by omega),
      Option.map_some, hval, ofNat_of_mod a _ (by omega), ofNat_of_mod b _ (by omega),
      ofNat_of_mod c _ (by omega)]

theorem base64_nulFree : NulFree (base64 data) := by
  have hchar : ∀ i < 64, base64Char i ≠ 0 := fun i hi => (base64Char_index i hi).2.1
  induction data using base64.induct with
  | case1 => exact forall_mem_nil _
  | case2 a =>
    have ha : a.toNat < 256 := a.toNat_lt
    simp only [base64, NulFree, forall_mem_cons]
    exact ⟨hchar _ (by omega), hchar _ (by omega), forall_mem_nil _⟩
  | case3 a b =>
    have ha : a.toNat < 256 := a.toNat_lt
    have hb : b.toNat < 256 := b.toNat_lt
    simp only [base64, NulFree, forall_mem_cons]
    exact ⟨hchar _ (by omega), hchar _ (by omega), hchar _ (by omega), forall_mem_nil _⟩
  | case4 a b c data ih =>
    have ha : a.toNat < 256 := a.toNat_lt
    have hb : b.toNat < 256 := b.toNat_lt
    have hc : c.toNat < 256 := c.toNat_lt
    simp only [base64, NulFree, forall_mem_cons]
    exact ⟨hchar _ (by omega), hchar _ (by omega), hchar _ (by omega), hchar _ (by omega), ih⟩

theorem base64_length : (base64 data).length ≤ 4 * (data.length / 3) + 3 := by
  induction data using base64.induct with
  | case1 => exact Nat.zero_le _
  | case2 a =>
    simp only [base64, length_cons, length_nil]
    omega
  | case3 a b =>
    simp only [base64, length_cons, length_nil]
    omega
  | case4 a b c data ih =>
    simp only [base64, length_cons] at ih ⊢
    omega

/-- A base64 text with or without padding stands for the data it encodes. -/
theorem aclTextToData_base64 (hne : data ≠ [])
    (hk : k ≤ 2) (hcap : data.length ≤ capacity) (hmax : data.length ≤ authLargeBinaryMaxLen) :
    aclTextToData (some (48 :: 98 :: (base64 data ++ List.replicate k 61))) capacity =
      some data := by
  have hfree : NulFree (48 :: 98 :: (base64 data ++ List.replicate k 61)) := by
    intro b hb
    simp only [mem_cons, mem_append] at hb
    rcases hb with rfl | rfl | hb | hb
    · decide
    · decide
    · exact base64_nulFree data b hb
    · rw [eq_of_mem_replicate hb]
      decide
  have hlen := base64_length data
  have hshort : (48 :: 98 :: (base64 data ++ List.replicate k 61) : List UInt8).length <
      2 + 2 * authLargeBinaryMaxLen + 1 := by
    simp only [length_cons, length_append, length_replicate]
    simp only [authLargeBinaryMaxLen] at hmax ⊢
    omega
  have hdata : aclBase64ToData (base64 data ++ List.replicate k 61) capacity = some data := by
    rw [aclBase64ToData, base64Loop_base64 data k capacity hcap]
    cases data with
    | nil => exact absurd rfl hne
    | cons b data => rfl
  simp only [aclTextToData, aclChkString, cstr_of_nulFree _ hfree]
  rw [if_pos hshort]
  dsimp only
  rw [cstr_of_nulFree _ hfree]
  simp [hdata]

/-! ## The codec as a whole -/

/-- A decoder that hands the data back has stored it and reports its length. -/
theorem storeText_of_bytes {text : Option (List UInt8)} {capacity : Nat} {data : List UInt8}
    (h : aclTextToData text capacity = some data) :
    storeText text capacity = ⟨false, data, data.length⟩ := by
  obtain ⟨hbound, hbytes⟩ := storeText_spec text capacity
  rw [h] at hbytes
  cases hd : storeText text capacity with
  | mk failed stored dataLen =>
    rw [hd] at hbytes hbound
    cases failed with
    | true => exact absurd hbytes (by simp [Decoded.bytes])
    | false =>
      have hstored : stored = data := Option.some.inj hbytes
      have hlen : dataLen = stored.length := hbound.reported rfl
      rw [hlen, hstored]

/-- The hexadecimal text is complete exactly when the buffer holds it. -/
theorem dataToTextLoop_complete (b : UInt8) (data : List UInt8) (textLength : Nat)
    (h : (dataToTextLoop (b :: data) textLength).1 = false) :
    2 * (b :: data).length < textLength := by
  induction data generalizing b textLength with
  | nil =>
    rw [dataToTextLoop] at h
    split at h
    · cases h
    · simp only [length_singleton]
      omega
  | cons c data ih =>
    rw [dataToTextLoop] at h
    split at h
    · cases h
    · have hrest := ih c (textLength - 2) h
      simp only [length_cons] at hrest ⊢
      omega

theorem aclDataToText_complete (textLength : Nat) (hne : data ≠ [])
    (h : (aclDataToText data textLength).1 = false) : 2 * data.length + 2 < textLength := by
  cases data with
  | nil => exact absurd rfl hne
  | cons b data =>
    unfold aclDataToText at h
    split at h
    · exact nomatch h
    · split at h
      · exact nomatch h
      · have hloop := dataToTextLoop_complete b data (textLength - 2) h
        omega

/-- Both encodings of a binary value decode to it, and no text whatsoever makes
the decoder write past the buffer or misreport its length. -/
theorem binary_values_kept (data : List UInt8) (hpos : 1 ≤ data.length)
    (hmax : data.length ≤ 1024) (capacity : Nat) (hcap : data.length ≤ capacity)
    (text : Option (List UInt8)) (room : Nat) :
    (∀ textLength, 2 * data.length + 2 < textLength ↔
      (aclDataToText data textLength).1 = false) ∧
    (∀ textLength, (aclDataToText data textLength).1 = false →
      storeText (some (aclDataToText data textLength).2) capacity =
        ⟨false, data, data.length⟩) ∧
    storeText (some (ascii "0b" ++ base64 data)) capacity = ⟨false, data, data.length⟩ ∧
    storeText (some (ascii "0b" ++ base64 data ++ base64Padding data)) capacity =
      ⟨false, data, data.length⟩ ∧
    ((storeText text room).failed = true ∨
      (storeText text room).stored.length ≤ room ∧
      (storeText text room).dataLen = (storeText text room).stored.length) := by
  have hne : data ≠ [] := by
    intro h
    rw [h] at hpos
    exact absurd hpos (by decide)
  have hmark : ascii "0b" = [48, 98] := rfl
  refine ⟨?_, ?_, ?_, ?_, ?_⟩
  · intro textLength
    constructor
    · exact aclDataToText_fits data textLength hne
    · exact aclDataToText_complete data textLength hne
  · intro textLength hok
    have hroom := aclDataToText_complete data textLength hne hok
    exact storeText_of_bytes (aclTextToData_aclDataToText data textLength capacity hne hroom hcap hmax)
  · have h := aclTextToData_base64 data 0 capacity hne (by decide) hcap hmax
    rw [replicate_zero, append_nil] at h
    rw [hmark]
    exact storeText_of_bytes h
  · have hk : (3 - data.length % 3) % 3 ≤ 2 := by omega
    rw [hmark, append_assoc]
    exact storeText_of_bytes (aclTextToData_base64 data _ capacity hne hk hcap hmax)
  · have hbound := (storeText_spec text room).1
    cases hf : (storeText text room).failed with
    | true => exact Or.inl rfl
    | false => exact Or.inr ⟨hbound.stored_le, hbound.reported hf⟩

/-- One byte, in a buffer of one byte. -/
theorem byte_kept :
    storeText (some (aclDataToText [7] 5).2) 1 = ⟨false, [7], 1⟩ :=
  (binary_values_kept [7] (by decide) (by decide) 1 (by decide) none 0).2.1 5 (by decide)

end AuthCodec
