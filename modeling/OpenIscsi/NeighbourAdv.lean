import Mathlib

/-!
# Neighbour advertisements

`ipv6_icmp_handle_nd_sol` turns a solicitation into the advertisement that answers it. The
target of the answer is not copied from the question: it is the address chosen as source.
-/

namespace NeighbourAdv

abbrev Mac := Vector UInt8 6

abbrev Addr := Vector UInt8 16

def ipv6IcmpOptionSrcAddr : UInt8 := 1

/-- `addrs` are the addresses along `addr_list`. -/
structure Context where
  macAddr : Mac
  mcAddr : Vector Mac 5
  linkLocalAddr : Addr
  addrs : List Addr

/-- `optType` is the byte behind the target, the type of an option if there is one. -/
structure Solicitation where
  destMac : Mac
  srcMac : Mac
  src : Addr
  dst : Addr
  target : Addr
  optType : UInt8

structure Advertisement where
  destMac : Mac
  src : Addr
  dst : Addr
  target : Addr
  deriving DecidableEq

def ipv6IsAddrLinklocal (a : Addr) : Prop := a[0] = 0xfe ∧ a[1] &&& 0xc0 = 0x80

instance (a : Addr) : Decidable (ipv6IsAddrLinklocal a) := inferInstanceAs (Decidable (_ ∧ _))

def bestMatchBufcmp : List UInt8 → List UInt8 → Nat
  | a :: as, b :: bs => if a = b then bestMatchBufcmp as bs + 1 else 0
  | _, _ => 0

/-- The first address of those with the longest match. -/
def ipv6FindLongestMatch (c : Context) (ip : Addr) : Option Addr :=
  (c.addrs.filter fun a => ¬ ipv6IsAddrLinklocal a).argmax fun a =>
    bestMatchBufcmp a.toList ip.toList

def ipv6IsItOurLinkLocalAddress (c : Context) (a : Addr) : Prop :=
  a[0] = c.linkLocalAddr[0] ∧ (a[1] &&& 0xc0) >>> 6 = 2

instance (c : Context) (a : Addr) : Decidable (ipv6IsItOurLinkLocalAddress c a) :=
  inferInstanceAs (Decidable (_ ∧ _))

def replySrc (c : Context) (s : Solicitation) : Addr :=
  if s.optType = ipv6IcmpOptionSrcAddr then
    if ipv6IsItOurLinkLocalAddress c s.target then c.linkLocalAddr
    else (ipv6FindLongestMatch c s.target).getD c.linkLocalAddr
  else s.dst

/-- `ipv6_setup_hdrs` takes an address whose first word is zero for a missing one. -/
def setupSrc (c : Context) (a : Addr) : Addr :=
  if a.toList.take 4 = [0, 0, 0, 0] then c.linkLocalAddr else a

def ipv6IcmpHandleNdSol (c : Context) (s : Solicitation) : Option Advertisement :=
  if s.destMac ≠ c.macAddr ∧ s.destMac ∉ c.mcAddr then none
  else if s.target ∉ c.addrs then none
  else some ⟨s.srcMac, setupSrc c (replySrc c s), s.src, replySrc c s⟩

/-! ### What is asked of it -/

def Unicast (a : Addr) : Prop := a[0] ≠ 0xff ∧ a ≠ .replicate 16 0

def Answers (c : Context) (s : Solicitation) (adv : Advertisement) : Prop :=
  adv.target = s.target ∧ adv.src ∈ c.addrs ∧ Unicast adv.src

structure Right (c : Context) (s : Solicitation) : Prop where
  other : s.target ∉ c.addrs → ipv6IcmpHandleNdSol c s = none
  own : s.target ∈ c.addrs → ∃ adv, ipv6IcmpHandleNdSol c s = some adv ∧ Answers c s adv

/-- With the option, a link-local target is the interface's only one; without it, the
solicitation was sent to the target itself. -/
def Chosen (c : Context) (s : Solicitation) : Prop :=
  if s.optType = ipv6IcmpOptionSrcAddr then
    if ipv6IsItOurLinkLocalAddress c s.target then c.linkLocalAddr = s.target
    else ¬ ipv6IsAddrLinklocal s.target
  else s.dst = s.target

structure Answerable (c : Context) (s : Solicitation) : Prop where
  addressed : s.destMac = c.macAddr ∨ s.destMac ∈ c.mcAddr
  chosen : Chosen c s
  src : setupSrc c s.target ∈ c.addrs ∧ Unicast (setupSrc c s.target)

theorem bufcmp_self (l : List UInt8) : bestMatchBufcmp l l = l.length := by
  induction l with
  | nil => rfl
  | cons a l ih => rw [bestMatchBufcmp, if_pos rfl, ih, List.length_cons]

theorem eq_of_bufcmp {l l' : List UInt8} (hlen : l.length = l'.length)
    (h : l.length ≤ bestMatchBufcmp l l') : l = l' := by
  induction l generalizing l' with
  | nil => exact (List.eq_nil_of_length_eq_zero hlen.symm).symm
  | cons a l ih =>
    cases l' with
    | nil => cases hlen
    | cons b l' =>
      rw [bestMatchBufcmp, List.length_cons] at h
      split at h
      · rename_i hab
        rw [hab, ih (Nat.succ.inj hlen) (Nat.le_of_succ_le_succ h)]
      · exact absurd h (Nat.not_succ_le_zero _)

/-- An address that is not link-local is its own longest match. -/
theorem longestMatch_self {c : Context} {a : Addr} (ha : a ∈ c.addrs)
    (hlocal : ¬ ipv6IsAddrLinklocal a) : ipv6FindLongestMatch c a = some a := by
  have hmem : a ∈ c.addrs.filter fun a => ¬ ipv6IsAddrLinklocal a := by
    simpa using ⟨ha, hlocal⟩
  cases h : ipv6FindLongestMatch c a with
  | none =>
    rw [List.argmax_eq_none.1 h] at hmem
    exact absurd hmem List.not_mem_nil
  | some b =>
    have hle := List.le_of_mem_argmax hmem h
    rw [bufcmp_self] at hle
    have heq : b.toList = a.toList := eq_of_bufcmp (by simp) (by simpa using hle)
    rw [Vector.toList_inj.1 heq]

theorem replySrc_eq_iff {c : Context} {s : Solicitation} (h : s.target ∈ c.addrs) :
    replySrc c s = s.target ↔ Chosen c s := by
  unfold replySrc Chosen
  split
  · split
    · rfl
    · rename_i hour
      constructor
      · intro heq hlocal
        cases hmatch : ipv6FindLongestMatch c s.target with
        | none =>
          rw [hmatch, Option.getD_none] at heq
          refine hour ⟨by rw [heq], ?_⟩
          rw [hlocal.2]
          decide
        | some b =>
          rw [hmatch, Option.getD_some] at heq
          have hb := (List.mem_filter.1 (List.argmax_mem hmatch)).2
          exact of_decide_eq_true hb (heq ▸ hlocal)
      · intro hlocal
        rw [longestMatch_self h hlocal, Option.getD_some]
  · rfl

/-- The answer is right exactly if the address asked for is the one that the answer comes from. -/
theorem advertises_iff (c : Context) (s : Solicitation) :
    Right c s ↔ (s.target ∈ c.addrs → Answerable c s) := by
  constructor
  · intro hright h
    obtain ⟨adv, hadv, htarget, hsrc⟩ := hright.own h
    have hmac : s.destMac = c.macAddr ∨ s.destMac ∈ c.mcAddr := by
      by_contra hnot
      rw [ipv6IcmpHandleNdSol, if_pos (not_or.1 hnot)] at hadv
      cases hadv
    rw [ipv6IcmpHandleNdSol, if_neg fun hnot => not_or.2 hnot hmac, if_neg (not_not.2 h)] at hadv
    obtain rfl := Option.some.inj hadv
    dsimp only at htarget hsrc
    rw [htarget] at hsrc
    exact ⟨hmac, (replySrc_eq_iff h).1 htarget, hsrc⟩
  · intro h
    constructor
    · intro hother
      rw [ipv6IcmpHandleNdSol, if_pos hother, ite_self]
    · intro hown
      obtain ⟨hmac, hchosen, hsrc⟩ := h hown
      have htarget := (replySrc_eq_iff hown).2 hchosen
      rw [ipv6IcmpHandleNdSol, if_neg fun hnot => not_or.2 hnot hmac, if_neg (not_not.2 hown)]
      refine ⟨_, rfl, htarget, ?_⟩
      rwa [htarget]

/-- An interface with two link-local addresses, asked for the second one with the option, and
in duplicate address detection without it. -/
theorem advertises_other :
    let address (n : UInt8) : Addr := #v[0xfe, 0x80, 0, 0, 0, 0, 0, 0, 0, 0, 0, 0, 0, 0, 0, n]
    let group : Addr := #v[0xff, 2, 0, 0, 0, 0, 0, 0, 0, 0, 0, 1, 0xff, 0, 0, 2]
    let mac : Mac := .replicate 6 2
    let c : Context := ⟨mac, .replicate 5 mac, address 1, [address 2, address 1]⟩
    (ipv6IcmpHandleNdSol c ⟨mac, mac, address 3, address 2, address 2, 1⟩).map (·.target) =
        some (address 1) ∧
      (ipv6IcmpHandleNdSol c ⟨mac, mac, .replicate 16 0, group, address 2, 0⟩).map (·.target) =
        some group := by
  decide +kernel

end NeighbourAdv
