import OpenIscsi.Lib.ByteMemory
import OpenIscsi.Lib.OnesComplement

/-!
# The checksum of an IPv6 packet

`ipv6_insert_protocol_chksum` on the memory that holds the packet; `ip` is where its IPv6
header starts. Words are in network order, as `HOST_TO_NET16` reads and writes them.
-/

namespace Ipv6Checksum

open ByteMemory List

def ipprotoIcmpv6 : UInt8 := 58
def ipprotoUdp : UInt8 := 17

def word (m : Mem) (p : Nat) : Nat := (m p).toNat * 256 + (m (p + 1)).toNat

def putWord (m : Mem) (p n : Nat) : Mem :=
  store m p [UInt8.ofNat (n / 256), UInt8.ofNat (n % 256)]

def words (m : Mem) (p : Nat) : Nat → List Nat
  | 0 => []
  | k + 1 => word m p :: words m (p + 2) k

/-- A loop that adds words to `sum`, a `u32_t`. -/
def addWords (sum : Nat) (ws : List Nat) : Nat := ws.foldl (fun s w => (s + w) % 2 ^ 32) sum

def ipv6Plen (m : Mem) (ip : Nat) : Nat := word m (ip + 4)
def ipv6NxtHdr (m : Mem) (ip : Nat) : UInt8 := m (ip + 6)

/-- Behind the last byte of an odd length comes a zero. -/
def padZero (m : Mem) (ip : Nat) : Mem :=
  if ipv6Plen m ip % 2 = 1 then store m (ip + 40 + ipv6Plen m ip) [0] else m

/-- The length in words, a `u16_t` when it is made even. -/
def dataWords (m : Mem) (ip : Nat) : Nat :=
  (if ipv6Plen m ip % 2 = 1 then (ipv6Plen m ip + 1) % 2 ^ 16 else ipv6Plen m ip) / 2

def rawSum (m : Mem) (ip : Nat) : Nat :=
  addWords ((addWords 0 (words m (ip + 8) 16) + ipv6Plen m ip + (ipv6NxtHdr m ip).toNat) % 2 ^ 32)
    (words (padZero m ip) (ip + 40) (dataWords m ip))

def checksum (m : Mem) (ip : Nat) : Nat :=
  let sum := rawSum m ip / 65536 + rawSum m ip % 65536
  65535 - (sum + sum / 65536) % 65536

/-- Where the protocol has its checksum. -/
def checksumField : UInt8 → Option Nat
  | 58 => some 2
  | 17 => some 6
  | _ => none

def ipv6InsertProtocolChksum (m : Mem) (ip : Nat) : Mem :=
  match checksumField (ipv6NxtHdr m ip) with
  | some field => putWord (padZero m ip) (ip + 40 + field) (checksum m ip)
  | none => padZero m ip

/-! ### What is asked of it -/

/-- The words of some bytes, with a zero behind an odd number of them. -/
def wordsOf : List UInt8 → List Nat
  | [] => []
  | [a] => [a.toNat * 256]
  | a :: b :: bytes => (a.toNat * 256 + b.toNat) :: wordsOf bytes

/-- The pseudo header, and the payload with its padding. -/
def covered (m : Mem) (ip : Nat) : List Nat :=
  words m (ip + 8) 16 ++ [ipv6Plen m ip, (ipv6NxtHdr m ip).toNat] ++
    wordsOf (load m (ip + 40) (ipv6Plen m ip))

/-- An ICMPv6 or UDP packet of a length in bytes that has room for the checksum, which is zero. -/
structure Packet (m : Mem) (ip field : Nat) : Prop where
  protocol : checksumField (ipv6NxtHdr m ip) = some field
  room : field + 2 ≤ ipv6Plen m ip
  length : ipv6Plen m ip ≤ 65534
  zero : word m (ip + 40 + field) = 0

structure Right (m : Mem) (ip field : Nat) : Prop where
  sum : OnesComplement.sum (covered (ipv6InsertProtocolChksum m ip) ip) = 65535
  udp : ipv6NxtHdr m ip = ipprotoUdp →
    word (ipv6InsertProtocolChksum m ip) (ip + 40 + field) ≠ 0
  rest : ∀ i < ipv6Plen m ip, i ≠ field → i ≠ field + 1 →
    ipv6InsertProtocolChksum m ip (ip + 40 + i) = m (ip + 40 + i)

/-! ### Words in memory -/

section Memory

variable (m : Mem) {p q n k : Nat}

theorem word_lt (p : Nat) : word m p < 65536 := by
  have h := (m p).toNat_lt
  have h' := (m (p + 1)).toNat_lt
  unfold word
  omega

theorem words_lt (p k : Nat) : ∀ w ∈ words m p k, w < 65536 := by
  induction k generalizing p with
  | zero => simp [words]
  | succ k ih =>
    intro w hw
    rcases mem_cons.1 hw with rfl | hw
    · exact word_lt m p
    · exact ih (p + 2) w hw

theorem words_length (p k : Nat) : (words m p k).length = k := by
  induction k generalizing p with
  | zero => rfl
  | succ k ih => rw [words, length_cons, ih]

theorem putWord_other (h : q ≠ p ∧ q ≠ p + 1) : putWord m p n q = m q := by
  unfold putWord store
  rw [if_neg]
  simp only [length_cons, length_nil]
  omega

theorem word_putWord (h : n < 65536) : word (putWord m p n) p = n := by
  simp [word, putWord, store]
  omega

theorem word_putWord_other (h : q + 1 < p ∨ p + 1 < q) : word (putWord m p n) q = word m q := by
  rw [word, word, putWord_other m (by omega), putWord_other m (by omega)]

theorem words_congr {m' : Mem} (h : ∀ i < 2 * k, m' (p + i) = m (p + i)) :
    words m' p k = words m p k := by
  induction k generalizing p with
  | zero => rfl
  | succ k ih =>
    have hword : word m' p = word m p := by
      rw [word, word, h 1 (by omega)]
      exact congrArg (fun b : UInt8 => b.toNat * 256 + _) (h 0 (by omega))
    rw [words, words, hword, ih fun i hi => ?_]
    rw [Nat.add_assoc]
    exact h (2 + i) (by omega)

/-- A word put in the place of a zero is added to the sum. -/
theorem sum_putWord {j : Nat} (hj : j < k) (hn : n < 65536) (hzero : word m (p + 2 * j) = 0) :
    (words (putWord m (p + 2 * j) n) p k).sum = (words m p k).sum + n := by
  induction k generalizing p j with
  | zero => omega
  | succ k ih =>
    rw [words, words, sum_cons, sum_cons]
    cases j with
    | zero =>
      rw [Nat.mul_zero, Nat.add_zero] at hzero ⊢
      rw [word_putWord m hn, hzero, words_congr m fun i _ => putWord_other m (by omega)]
      omega
    | succ j =>
      have hpos : p + 2 * (j + 1) = p + 2 + 2 * j := by omega
      rw [word_putWord_other m (by omega), hpos, ih (by omega) (hpos ▸ hzero)]
      omega

theorem addWords_eq {sum : Nat} (hsum : sum < 2 ^ 32) (ws : List Nat) :
    addWords sum ws = (sum + ws.sum) % 2 ^ 32 := by
  induction ws generalizing sum with
  | nil => exact (Nat.mod_eq_of_lt hsum).symm
  | cons w ws ih =>
    rw [addWords, foldl_cons]
    refine (ih (Nat.mod_lt _ (by decide))).trans ?_
    rw [sum_cons, Nat.mod_add_mod, Nat.add_assoc]

theorem sum_words_le (p k : Nat) : (words m p k).sum ≤ k * 65535 := by
  have hle := sum_le_card_nsmul (words m p k) 65535 fun w hw => by
    have hlt := words_lt m p k w hw
    omega
  rwa [words_length, smul_eq_mul] at hle

end Memory

/-! ### The sum of the code and that of the words -/

section Sum

variable {m : Mem} {ip field p : Nat}

theorem load_two (m : Mem) (p n : Nat) : load m p (n + 2) = m p :: m (p + 1) :: load m (p + 2) n := by
  rw [Nat.add_comm n 2, load_add]
  rfl

theorem wordsOf_load (n : Nat) (hpad : n % 2 = 1 → m (p + n) = 0) :
    wordsOf (load m p n) = words m p ((n + 1) / 2) := by
  induction n using Nat.twoStepInduction generalizing p with
  | zero => rfl
  | one =>
    have hzero : m (p + 1) = 0 := hpad rfl
    simp [load, wordsOf, words, word, hzero]
  | more n ih _ =>
    rw [load_two, wordsOf, ih fun hodd => ?_, show (n + 2 + 1) / 2 = (n + 1) / 2 + 1 by omega]
    · rfl
    · rw [Nat.add_assoc, Nat.add_comm 2 n]
      exact hpad (by omega)

theorem padZero_below {q : Nat} (h : q < ip + 40 + ipv6Plen m ip) : padZero m ip q = m q := by
  unfold padZero
  split
  · rw [store, if_neg (by omega)]
  · rfl

theorem padZero_at (hodd : ipv6Plen m ip % 2 = 1) :
    padZero m ip (ip + 40 + ipv6Plen m ip) = 0 := by
  simp [padZero, hodd, store]

theorem dataWords_eq (h : ipv6Plen m ip ≤ 65534) : dataWords m ip = (ipv6Plen m ip + 1) / 2 := by
  unfold dataWords
  split
  · rw [Nat.mod_eq_of_lt (by omega)]
  · omega

theorem covered_payload (h : ipv6Plen m ip ≤ 65534) :
    wordsOf (load m (ip + 40) (ipv6Plen m ip)) = words (padZero m ip) (ip + 40) (dataWords m ip) := by
  have hload : load m (ip + 40) (ipv6Plen m ip) = load (padZero m ip) (ip + 40) (ipv6Plen m ip) :=
    map_congr_left fun i hi =>
      (padZero_below (by have := mem_range.1 hi; omega)).symm
  rw [hload, wordsOf_load _ padZero_at, dataWords_eq h]

theorem sum_covered (h : ipv6Plen m ip ≤ 65534) : (covered m ip).sum =
    (words m (ip + 8) 16).sum + ipv6Plen m ip + (ipv6NxtHdr m ip).toNat +
      (words (padZero m ip) (ip + 40) (dataWords m ip)).sum := by
  rw [covered, covered_payload h]
  simp only [sum_append, sum_cons, sum_nil]
  omega

theorem covered_lt (h : ipv6Plen m ip ≤ 65534) : ∀ w ∈ covered m ip, w < 65536 := by
  rw [covered, covered_payload h]
  intro w hw
  rcases mem_append.1 hw with hw | hw
  · rcases mem_append.1 hw with hw | hw
    · exact words_lt m _ _ w hw
    · have hnxt := (ipv6NxtHdr m ip).toNat_lt
      simp only [mem_cons, not_mem_nil, or_false] at hw
      omega
  · exact words_lt _ _ _ w hw

theorem rawSum_eq (h : ipv6Plen m ip ≤ 65534) : rawSum m ip = (covered m ip).sum := by
  have haddr := sum_words_le m (ip + 8) 16
  have hdata := sum_words_le (padZero m ip) (ip + 40) (dataWords m ip)
  have hnxt := (ipv6NxtHdr m ip).toNat_lt
  have hwords := dataWords_eq h
  rw [sum_covered h, rawSum, addWords_eq (Nat.mod_lt _ (by decide)), addWords_eq (by decide)]
  omega

theorem Packet.nxtHdr (h : Packet m ip field) : 0 < (ipv6NxtHdr m ip).toNat ∧ field % 2 = 0 := by
  have hprotocol := h.protocol
  unfold checksumField at hprotocol
  split at hprotocol
  · rename_i hnxt
    exact ⟨by rw [hnxt]; decide, by cases hprotocol; rfl⟩
  · rename_i hnxt
    exact ⟨by rw [hnxt]; decide, by cases hprotocol; rfl⟩
  · cases hprotocol

theorem Packet.sum_pos (h : Packet m ip field) : 0 < (covered m ip).sum := by
  have hpos := h.nxtHdr.1
  rw [sum_covered h.length]
  omega

theorem Packet.checksum_eq (h : Packet m ip field) :
    checksum m ip = 65535 - OnesComplement.fold (covered m ip).sum := by
  have hlt : (covered m ip).sum < 2 ^ 32 := by
    rw [← rawSum_eq h.length, rawSum, addWords_eq (Nat.mod_lt _ (by decide))]
    exact Nat.mod_lt _ (by decide)
  rw [← OnesComplement.fold_carries h.sum_pos hlt, ← rawSum_eq h.length]
  rfl

theorem Packet.insert_eq (h : Packet m ip field) : ipv6InsertProtocolChksum m ip =
    putWord (padZero m ip) (ip + 40 + field) (checksum m ip) := by
  rw [ipv6InsertProtocolChksum, h.protocol]

/-- Nothing but the checksum changes in the headers and the payload. -/
theorem Packet.insert_other (h : Packet m ip field) {q : Nat}
    (hq : q < ip + 40 + ipv6Plen m ip) (hne : q ≠ ip + 40 + field ∧ q ≠ ip + 40 + field + 1) :
    ipv6InsertProtocolChksum m ip q = m q := by
  rw [h.insert_eq, putWord_other _ hne, padZero_below hq]

theorem Packet.insert_field (h : Packet m ip field) :
    word (ipv6InsertProtocolChksum m ip) (ip + 40 + field) = checksum m ip := by
  rw [h.insert_eq, word_putWord]
  rw [h.checksum_eq]
  omega

theorem Packet.sum_insert (h : Packet m ip field) :
    (covered (ipv6InsertProtocolChksum m ip) ip).sum = (covered m ip).sum + checksum m ip := by
  have hroom := h.room
  have heven := h.nxtHdr.2
  have hother := fun {q : Nat} => h.insert_other (q := q)
  have hlen : ipv6Plen (ipv6InsertProtocolChksum m ip) ip = ipv6Plen m ip := by
    rw [ipv6Plen, word, hother (by omega) (by omega), hother (by omega) (by omega)]
    rfl
  have hnxt : ipv6NxtHdr (ipv6InsertProtocolChksum m ip) ip = ipv6NxtHdr m ip :=
    hother (by omega) (by omega)
  have haddr : words (ipv6InsertProtocolChksum m ip) (ip + 8) 16 = words m (ip + 8) 16 :=
    words_congr m fun i hi => hother (by omega) (by omega)
  have hpad : ipv6Plen m ip % 2 = 1 →
      ipv6InsertProtocolChksum m ip (ip + 40 + ipv6Plen m ip) = 0 := by
    intro hodd
    rw [h.insert_eq, putWord_other _ (by omega), padZero_at hodd]
  have hzero : word (padZero m ip) (ip + 40 + 2 * (field / 2)) = 0 := by
    rw [show 2 * (field / 2) = field by omega, ← h.zero, word, word, padZero_below (by omega),
      padZero_below (by omega)]
  have hlt : checksum m ip < 65536 := by
    rw [h.checksum_eq]
    omega
  have hsum := sum_putWord (padZero m ip) (k := dataWords m ip)
    (by rw [dataWords_eq h.length]; omega) hlt hzero
  rw [show 2 * (field / 2) = field by omega, ← h.insert_eq] at hsum
  rw [sum_covered h.length, covered, hlen, hnxt, haddr, wordsOf_load _ hpad, ← dataWords_eq h.length]
  simp only [sum_append, sum_cons, sum_nil, hsum]
  omega

end Sum

/-- The checksum is right unless it is that of a UDP packet and comes to zero. -/
theorem checksum_right_iff {m : Mem} {ip field : Nat} (h : Packet m ip field) :
    Right m ip field ↔ ¬ (ipv6NxtHdr m ip = ipprotoUdp ∧ 65535 ∣ (covered m ip).sum) := by
  have hfold := OnesComplement.fold_lt (covered m ip).sum
  have hzero : checksum m ip = 0 ↔ 65535 ∣ (covered m ip).sum := by
    rw [← OnesComplement.fold_eq_top_iff h.sum_pos, h.checksum_eq]
    omega
  constructor
  · rintro hright ⟨hudp, hdvd⟩
    refine hright.udp hudp ?_
    rw [h.insert_field]
    exact hzero.2 hdvd
  · intro hnot
    refine ⟨?_, fun hudp => ?_, fun i hi hne hne' => ?_⟩
    · have hlen : ipv6Plen (ipv6InsertProtocolChksum m ip) ip ≤ 65534 := by
        have hroom := h.room
        rw [ipv6Plen, word, h.insert_other (by omega) (by omega),
          h.insert_other (by omega) (by omega)]
        exact h.length
      rw [OnesComplement.sum_eq (covered_lt hlen), h.sum_insert, h.checksum_eq]
      exact OnesComplement.fold_complement h.sum_pos
    · rw [h.insert_field]
      exact fun hz => hnot ⟨hudp, hzero.1 hz⟩
    · exact h.insert_other (by omega) (by omega)

/-- An IPv6 header at 0 and a payload. -/
def packet (nxt : UInt8) (payload : List UInt8) : Mem := fun p =>
  ([0x60, 0, 0, 0, 0, UInt8.ofNat payload.length, nxt, 1] ++ List.replicate 32 0 ++ payload).getD p 0

theorem checksum_right_echo : Right (packet 58 [128, 0, 0, 0, 0, 1, 0]) 0 2 :=
  (checksum_right_iff ⟨by decide, by decide, by decide, by decide⟩).2 (by decide)

/-- A UDP packet whose words come to 65535 gets the checksum zero, which stands for none. -/
theorem checksum_zero : Packet (packet 17 [255, 230, 0, 0, 0, 0, 0, 0]) 0 6 ∧
    ¬ Right (packet 17 [255, 230, 0, 0, 0, 0, 0, 0]) 0 6 :=
  ⟨⟨by decide, by decide, by decide, by decide⟩, fun h => h.udp (by decide) (by decide +kernel)⟩

end Ipv6Checksum
