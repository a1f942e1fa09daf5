import Mathlib

/-!
# The ARP table of uIP

The functions of `uip_arp.c` that change the table or look in it. An address is two words of
16 bits, as in the source.
-/

namespace ArpTable

/-- `u16_t ipaddr[2]` -/
structure Ip4 where
  w0 : BitVec 16
  w1 : BitVec 16
  deriving DecidableEq, Repr

/-- The six bytes of a `struct uip_eth_addr`. -/
abbrev Mac := List UInt8

/-- `struct arp_entry` -/
structure Entry where
  ipaddr : Ip4
  ethaddr : Mac
  time : BitVec 8
  deriving DecidableEq, Repr

structure Arp where
  table : List Entry
  arptime : BitVec 8
  deriving DecidableEq, Repr

def uipArptabSize : Nat := 16
def uipArpMaxage : Nat := 30

def noAddr : Ip4 := ⟨0, 0⟩

def uipArpInit : Arp := ⟨List.replicate uipArptabSize ⟨noAddr, List.replicate 6 0, 0⟩, 0⟩

def uipArpTimer (arp : Arp) : Arp :=
  let arptime := arp.arptime + 1
  let age (e : Entry) : Entry :=
    if e.ipaddr.w0 ||| e.ipaddr.w1 ≠ 0 ∧ uipArpMaxage ≤ (arptime - e.time).toNat then
      { e with ipaddr := noAddr }
    else e
  ⟨arp.table.map age, arptime⟩

/-- The entry of the loop that looks for the oldest one. -/
def oldest (arp : Arp) : Nat :=
  (arp.table.zipIdx.foldl (fun (c, tmpage) (e, i) =>
    if tmpage < (arp.arptime - e.time).toNat then (i, (arp.arptime - e.time).toNat)
    else (c, tmpage)) (0, 0)).1

def uipArpUpdate (arp : Arp) (ipaddr : Ip4) (ethaddr : Mac) : Arp :=
  match arp.table.findIdx? fun e =>
    e.ipaddr.w0 != 0 && e.ipaddr.w1 != 0 && ipaddr == e.ipaddr with
  | some i => { arp with table := arp.table.modify i fun e => { e with time := arp.arptime } }
  | none =>
    let i := (arp.table.findIdx? fun e => e.ipaddr == noAddr).getD (oldest arp)
    { arp with table := arp.table.set i ⟨ipaddr, ethaddr, arp.arptime⟩ }

def isInArpTable (arp : Arp) (ipaddr : Ip4) : Option Entry :=
  arp.table.find? fun e => e.ipaddr == ipaddr

end ArpTable
