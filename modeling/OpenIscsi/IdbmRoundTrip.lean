import OpenIscsi.IdbmRecord

/-!
# Reading a record back

A written record is read back key by key. A key of the writer's table that the reader's
table lacks is lost: the reader of a node record always starts with an IPv4 interface, and
the reader of an interface record knows the name of the interface and nothing else.
-/

namespace IdbmRecord

open CString RecordFile

/-! ### The keys -/

def bytes (l : List Char) : List UInt8 := l.map fun c => UInt8.ofNat c.toNat

variable {t : IfaceType} (l : List Char) {f : Field}

/-- A string literal is a list of characters. -/
theorem ascii_ofList : ascii (String.ofList l) = bytes l := by
  rw [ascii, String.toList_ofList, bytes]

/-- A short word: no white space, no `=` and no `#`. -/
def isWord (l : List Char) : Bool :=
  l != [] && decide (l.length < nameMaxval) &&
    l.all fun c => isName (UInt8.ofNat c.toNat) && UInt8.ofNat c.toNat != hash

theorem word_ok {l : List Char} (h : isWord l = true) :
    KeyOk (bytes l) ∧ (bytes l).length < nameMaxval := by
  rw [bytes, List.length_map]
  simp only [isWord, Bool.and_eq_true, bne_iff_ne, ne_eq, decide_eq_true_eq, List.all_eq_true] at h
  obtain ⟨⟨hne, hlen⟩, hall⟩ := h
  refine ⟨⟨by simpa using hne, ?_, ?_⟩, hlen⟩
  · intro b hb
    obtain ⟨c, hc, rfl⟩ := List.mem_map.1 hb
    exact (hall c hc).1
  · intro hb
    obtain ⟨c, hc, hch⟩ := List.mem_map.1 hb
    exact (hall c hc).2 hch

/-- A string as a number. -/
def code (s : List UInt8) : Nat := s.foldl (fun n b => n * 256 + b.toNat) 0

def charCode (l : List Char) : Nat := l.foldl (fun n c => n * 256 + c.toNat % 256) 0

theorem code_bytes : code (bytes l) = charCode l := by
  rw [bytes, code, charCode, List.foldl_map]
  simp

def keyChars (f : Field) : { l : List Char // f.key = bytes l } := by
  cases f <;> exact ⟨_, ascii_ofList _⟩

def allKeys : List Field := idbmRecinfoNode .ipv4 ++ ipv6Keys

theorem mem_allKeys (f : Field) : f ∈ allKeys := by
  have hlt : f.ctorIdx < 124 := by
    cases f <;> decide
  have hall : ∀ n < 124, Field.ofNat n ∈ allKeys := by decide +kernel
  rw [← Field.ofNat_ctorIdx f]
  exact hall _ hlt

theorem key_ok (f : Field) : KeyOk f.key ∧ f.key.length < nameMaxval := by
  have hall : allKeys.all (fun f => isWord (keyChars f).1) = true := by decide +kernel
  rw [(keyChars f).2]
  exact word_ok (List.all_eq_true.1 hall f (mem_allKeys f))

theorem key_injective : Function.Injective Field.key := by
  have hnodup : (allKeys.map fun f => charCode (keyChars f).1).Nodup := by decide +kernel
  intro f g h
  refine List.inj_on_of_nodup_map hnodup (mem_allKeys f) (mem_allKeys g) ?_
  rw [← code_bytes, ← code_bytes, ← (keyChars f).2, ← (keyChars g).2, h]

/-! ### The kinds -/

/-- The option tables hold distinct words. -/
theorem options_wf {names : List (List UInt8)}
    (h : names ∈ [startups, noYes, authMethods, scans, digests, discoveryTypes]) :
    (Kind.opts names).Wf valueMaxval := by
  simp only [List.mem_cons, List.not_mem_nil, or_false] at h
  rcases h with rfl | rfl | rfl | rfl | rfl | rfl
  all_goals exact ⟨by decide, by decide, by decide +kernel⟩

theorem chapAlgs_wf : (Kind.list chapAlgs 5).Wf valueMaxval := by
  refine ⟨⟨by decide, by decide, by decide +kernel⟩, by decide, ?_⟩
  intro l hl
  have h := @intercalate_valueNames_length chapAlgs 8 (by decide) l
  have : l.length * 9 ≤ 5 * 9 := Nat.mul_le_mul_right 9 hl
  exact lt_of_le_of_lt (h.trans this) (by decide)

def kinds : List Kind :=
  [.int, .intOfUint32, .uint 8, .uint 16, .uint 32, .str 16, .str 18, .str 65, .str 80, .str 255,
   .str 256, .str 1025, .opts startups, .opts noYes, .opts authMethods, .opts scans,
   .opts digests, .opts discoveryTypes, .list chapAlgs 5]

theorem kind_mem (f : Field) : f.kind ∈ kinds := by
  have h : allKeys.all (fun f => decide (f.kind ∈ kinds)) = true := by decide
  exact of_decide_eq_true (List.all_eq_true.1 h f (mem_allKeys f))

theorem kind_wf (f : Field) : f.kind.Wf valueMaxval := by
  have h := kind_mem f
  generalize f.kind = kind at h
  cases kind with
  | int => exact show 11 < valueMaxval by decide
  | intOfUint32 => exact show 11 < valueMaxval by decide
  | uint bits =>
    have hbits : bits = 8 ∨ bits = 16 ∨ bits = 32 := by simpa [kinds] using h
    exact ⟨by omega, by decide⟩
  | int64 => simp [kinds] at h
  | str size => exact show 0 < valueMaxval by decide
  | opts names => exact options_wf (by simpa [kinds] using h)
  | list tbl count =>
    obtain ⟨rfl, rfl⟩ : tbl = chapAlgs ∧ count = 5 := by simpa [kinds] using h
    exact chapAlgs_wf

/-! ### One key -/

theorem distinct_of_nodup {table : List Field} (h : table.Nodup) : tools.Distinct table :=
  h.map key_injective

theorem recinfoNode_distinct (t : IfaceType) : tools.Distinct (idbmRecinfoNode t) := by
  refine distinct_of_nodup ?_
  cases t <;> decide +kernel

theorem recinfoIface_distinct (t : IfaceType) : tools.Distinct (idbmRecinfoIface t) := by
  refine distinct_of_nodup ?_
  cases t <;> decide +kernel

theorem plain_of_visible (h : f.visible = true) : tools.Plain f := by
  intro g hg
  change Field.lengthOf g = some f at hg
  unfold Field.lengthOf at hg
  split at hg
  · obtain rfl := Option.some.inj hg
    cases h
  · obtain rfl := Option.some.inj hg
    cases h
  · cases hg

theorem beginRec_ok : CommentOk bufferLimit iscsiBeginRec where
  head := by decide
  newline := by decide
  short := by decide

theorem endRec_ok : CommentOk bufferLimit iscsiEndRec where
  head := by decide
  newline := by decide
  short := by decide

theorem bounded (r : Rec) (hv : f.visible = true) : f.kind.Bounded (r.val f) := by
  have h := r.stores f
  unfold Field.storage at h
  split at h
  · trivial
  · trivial
  · cases hv
  · cases hv
  · exact Kind.bounded_of_stores h

/-- The lines of a tame record are read as they were printed. -/
theorem assignments_idbmPrint (r : Rec) {table : List Field} {base : Field → Val}
    (h : Tame table base r.val) :
    assignments bufferLimit (idbmPrint table r.val) =
      tools.lines valueMaxval Field.visible table r.val := by
  refine assignments_fileText beginRec_ok endRec_ok ?_
  rintro ⟨k, t⟩ hkt
  obtain ⟨f, hf, hv, hne, rfl, rfl⟩ := tools.mem_lines.1 hkt
  obtain ⟨hkey, hklen⟩ := key_ok f
  have hlen := Kind.print_length_lt (kind_wf f) (bounded r hv)
  refine ⟨hkey, ?_, ?_⟩
  · rcases Kind.print_valueOk (kind_wf f) (h f hf hv).1 with hok | ⟨-, hnil⟩
    · exact hok
    · exact (hne hnil).elim
  · change f.key.length + (f.kind.print valueMaxval (r.val f)).length + 3 < bufferLimit
    unfold nameMaxval at hklen
    unfold valueMaxval at hlen ⊢
    unfold bufferLimit
    omega

section Keys

variable (r : Rec) {written table : List Field} {base : Field → Val}
  (hw : tools.Distinct written) (hd : tools.Distinct table) (h : Tame written base r.val)

include hw hd h

/-- What a reader makes of a key that it knows. -/
theorem config_print (hf : f ∈ written) (ht : f ∈ table) (hv : f.visible = true) :
    idbmRecinfoConfig table base (idbmPrint written r.val) f =
      if f.kind.print valueMaxval (r.val f) = [] then base f
      else (f.kind.parse (f.kind.print valueMaxval (r.val f))).getD (base f) := by
  rw [idbmRecinfoConfig, assignments_idbmPrint r h]
  exact tools.readLenient_lines tools rfl hw hd _ _ hf hv ht (plain_of_visible hv)

/-- A value that its text names is read back. -/
theorem config_print_of_holds (hf : f ∈ written) (ht : f ∈ table)
    (hv : f.visible = true) (hh : f.kind.Holds valueMaxval (r.val f)) :
    idbmRecinfoConfig table base (idbmPrint written r.val) f = r.val f := by
  rw [config_print r hw hd h hf ht hv]
  split
  · rename_i hnil
    obtain ⟨htame, hempty⟩ := h f hf hv
    rcases Kind.print_valueOk (kind_wf f) htame with hok | ⟨htext, -⟩
    · exact (hok.ne_nil hnil).elim
    · rw [htext]
      exact hempty htext
  · rw [Kind.parse_print (kind_wf f) hh]
    rfl

omit hw hd h in
/-- A key that the reader does not know is lost. -/
theorem config_print_of_not_mem (ht : f ∉ table) (hv : f.visible = true) :
    idbmRecinfoConfig table base (idbmPrint written r.val) f = base f :=
  tools.readLenient_of_not_mem _ _ ht (plain_of_visible hv)

end Keys

def trafficClass (r : Field → Val) : Int :=
  match r .ifaceTrafficClass with
  | .num n => n
  | _ => 0

/-- The text of a tame value names it, but for a traffic class that is wider than its key. -/
theorem holds (r : Rec) (ht : f.kind.Tame valueMaxval (r.val f)) (hv : f.visible = true)
    (hclass : f = .ifaceTrafficClass → trafficClass r.val < 256) :
    f.kind.Holds valueMaxval (r.val f) := by
  have hs := r.stores f
  unfold Field.storage at hs
  split at hs
  · have hlt := hclass rfl
    unfold trafficClass at hlt
    cases hval : r.val .ifaceTrafficClass with
    | num n =>
      rw [hval] at hs hlt
      exact ⟨hs.1, hlt⟩
    | text s =>
      rw [hval] at hs
      exact hs.elim
    | nums l =>
      rw [hval] at hs
      exact hs.elim
  · cases hval : r.val .sessionAuthAuthmethod with
    | num n =>
      rw [hval] at ht
      exact ht
    | text s =>
      rw [hval] at hs
      exact hs.elim
    | nums l =>
      rw [hval] at hs
      exact hs.elim
  · cases hv
  · cases hv
  · exact Kind.holds_of_tame (kind_wf f) hs ht

/-! ### Node records -/

theorem default_iptype : ifaceGetIptype idbmNodeSetupDefaults = .ipv4 := by decide

def commonKeys : List Field := nodeHead ++ ifaceKeys ++ nodeTail

theorem mem_recinfoNode :
    f ∈ idbmRecinfoNode t ↔ f ∈ commonKeys ∨ f ∈ nodeFamily t := by
  simp only [idbmRecinfoNode, commonKeys, List.mem_append]
  tauto

theorem ipv6Keys_lost : ∀ f ∈ ipv6Keys, f ∉ idbmRecinfoNode .ipv4 ∧ f.visible = true := by decide

/-- The record is read back whole when its interface is an IPv4 one, or when it has no IPv6
settings. -/
def NodeKept (r : Field → Val) : Prop :=
  ifaceGetIptype r = .ipv4 ∨ ∀ f ∈ ipv6Keys, r f = idbmNodeSetupDefaults f

section Node

variable (r : Rec)
  (h : Tame (idbmRecinfoNode (ifaceGetIptype r.val)) idbmNodeSetupDefaults r.val)

include h

/-- A key that the reader knows is read back. -/
theorem idbmRecRead_known (hf : f ∈ idbmRecinfoNode (ifaceGetIptype r.val))
    (ht : f ∈ idbmRecinfoNode .ipv4) (hv : f.visible = true) :
    idbmRecRead (idbmRecWrite r.val) f = r.val f := by
  unfold idbmRecRead
  rw [default_iptype]
  refine config_print_of_holds r (recinfoNode_distinct _) (recinfoNode_distinct _) h hf ht hv
    (holds r (h f hf hv).1 hv ?_)
  rintro rfl
  exact absurd ht (by decide)

omit h in
/-- An IPv6 key is lost. -/
theorem idbmRecRead_lost (hf : f ∈ ipv6Keys) :
    idbmRecRead (idbmRecWrite r.val) f = idbmNodeSetupDefaults f := by
  obtain ⟨hlost, hv⟩ := ipv6Keys_lost f hf
  unfold idbmRecRead
  rw [default_iptype]
  exact config_print_of_not_mem r hlost hv

theorem node_kept_iff :
    (∀ f ∈ idbmRecinfoNode (ifaceGetIptype r.val), f.visible = true →
      idbmRecRead (idbmRecWrite r.val) f = r.val f) ↔ NodeKept r.val := by
  unfold NodeKept
  cases ht : ifaceGetIptype r.val with
  | ipv4 =>
    refine iff_of_true (fun f hf hv => ?_) (.inl rfl)
    exact idbmRecRead_known r h (by rw [ht]; exact hf) hf hv
  | ipv6 =>
    constructor
    · intro hall
      right
      intro f hf
      rw [← hall f (mem_recinfoNode.2 (.inr hf)) (ipv6Keys_lost f hf).2]
      exact idbmRecRead_lost r hf
    · rintro (heq | hempty) f hf hv
      · cases heq
      · rcases mem_recinfoNode.1 hf with hcommon | hf6
        · exact idbmRecRead_known r h (by rw [ht]; exact hf) (mem_recinfoNode.2 (.inl hcommon)) hv
        · rw [hempty f hf6]
          exact idbmRecRead_lost r hf6

end Node

/-! ### Interface records -/

theorem mem_recinfoIface :
    f ∈ idbmRecinfoIface t ↔ f ∈ ifaceHead ++ ifaceKeys ∨ f ∈ ifaceFamily t := by
  simp only [idbmRecinfoIface, List.mem_append]
  tauto

theorem recinfoIface_visible : ∀ f ∈ idbmRecinfoIface t, f.visible = true := by
  cases t <;> decide

theorem ifaceFamily_lost {u : IfaceType} (h : t ≠ u) :
    ∀ f ∈ ifaceFamily t, f ∉ idbmRecinfoIface u ∧ f ≠ .ifaceName := by
  cases t <;> cases u <;> first | exact (h rfl).elim | decide

theorem trafficClass_mem_iff : .ifaceTrafficClass ∈ idbmRecinfoIface t ↔ t = .ipv6 := by
  cases t <;> decide

/-- The record is read back whole when the name of the interface tells its address family, or
when it has no setting of that family, and its traffic class fits a byte. -/
def IfaceKept (r : Field → Val) : Prop :=
  (ifaceGetIptype (ifaceAlloc (str r .ifaceName)) = ifaceGetIptype r ∨
    ∀ f ∈ ifaceFamily (ifaceGetIptype r), r f = f.zero) ∧
  (ifaceGetIptype r = .ipv6 → trafficClass r < 256)

/-- Only the low byte of the traffic class is written. -/
theorem trafficClass_lost (r : Rec) {table : List Field} {base : Field → Val}
    (hd : tools.Distinct table) (h : Tame table base r.val) (hf : .ifaceTrafficClass ∈ table)
    (hread : idbmRecinfoConfig table base (idbmPrint table r.val) .ifaceTrafficClass =
      r.val .ifaceTrafficClass) : trafficClass r.val < 256 := by
  rw [config_print r hd hd h hf hf rfl] at hread
  unfold trafficClass
  cases hval : r.val .ifaceTrafficClass with
  | num n =>
    rw [hval] at hread
    have hprint : Field.ifaceTrafficClass.kind.print valueMaxval (.num n) =
        decimal (n.toNat % 2 ^ 8) := rfl
    have hlt : n.toNat % 2 ^ 8 < 2 ^ 8 := Nat.mod_lt _ (by decide)
    have hparse : Field.ifaceTrafficClass.kind.parse (decimal (n.toNat % 2 ^ 8)) =
        some (.num (n.toNat % 2 ^ 8 : Nat)) := by
      change some (Val.num _) = _
      rw [strtoul_decimal (by unfold ulongBound; omega), Nat.mod_mod]
    rw [hprint, if_neg (decimal_ne_nil _), hparse, Option.getD_some, Val.num.injEq] at hread
    dsimp only
    omega
  | text s => exact show (0 : Int) < 256 by decide
  | nums l => exact show (0 : Int) < 256 by decide

theorem iface_kept_iff (r : Rec)
    (h : Tame (idbmRecinfoIface (ifaceGetIptype r.val)) (ifaceAlloc (str r.val .ifaceName)) r.val) :
    (∀ f ∈ idbmRecinfoIface (ifaceGetIptype r.val), ifaceConfRead (str r.val .ifaceName)
      (idbmPrint (idbmRecinfoIface (ifaceGetIptype r.val)) r.val) f = r.val f) ↔
      IfaceKept r.val := by
  unfold IfaceKept ifaceConfRead
  generalize hbase : ifaceAlloc (str r.val .ifaceName) = base at h ⊢
  generalize ifaceGetIptype r.val = t at h ⊢
  generalize ifaceGetIptype base = u
  have hw := recinfoIface_distinct t
  have hd := recinfoIface_distinct u
  have hknown : ∀ f ∈ idbmRecinfoIface t, f ∈ idbmRecinfoIface u →
      (f = .ifaceTrafficClass → trafficClass r.val < 256) →
      idbmRecinfoConfig (idbmRecinfoIface u) base (idbmPrint (idbmRecinfoIface t) r.val) f =
        r.val f := by
    intro f hf hu hclass
    have hv := recinfoIface_visible f hf
    exact config_print_of_holds r hw hd h hf hu hv (holds r (h f hf hv).1 hv hclass)
  by_cases htu : t = u
  · subst htu
    constructor
    · intro hall
      refine ⟨.inl rfl, ?_⟩
      rintro rfl
      have hmem := trafficClass_mem_iff.2 rfl
      exact trafficClass_lost r hw h hmem (hall _ hmem)
    · rintro ⟨-, hclass⟩ f hf
      refine hknown f hf hf ?_
      rintro rfl
      exact hclass (trafficClass_mem_iff.1 hf)
  · have hlost : ∀ f ∈ ifaceFamily t, idbmRecinfoConfig (idbmRecinfoIface u) base
        (idbmPrint (idbmRecinfoIface t) r.val) f = f.zero := by
      intro f hf
      obtain ⟨hnot, hname⟩ := ifaceFamily_lost htu f hf
      have hv := recinfoIface_visible f (mem_recinfoIface.2 (.inr hf))
      rw [config_print_of_not_mem r hnot hv, ← hbase]
      exact Function.update_of_ne hname _ _
    constructor
    · intro hall
      have hempty : ∀ f ∈ ifaceFamily t, r.val f = f.zero := by
        intro f hf
        rw [← hlost f hf]
        exact (hall f (mem_recinfoIface.2 (.inr hf))).symm
      refine ⟨.inr hempty, ?_⟩
      rintro rfl
      have hzero := hempty .ifaceTrafficClass (by decide)
      rw [trafficClass, hzero]
      decide
    · rintro ⟨heq | hempty, -⟩ f hf
      · exact (htu heq.symm).elim
      · rcases mem_recinfoIface.1 hf with hcommon | hfam
        · refine hknown f hf (mem_recinfoIface.2 (.inl hcommon)) ?_
          rintro rfl
          exact absurd hcommon (by decide)
        · rw [hempty f hfam]
          exact hlost f hfam

/-! ### The default record -/

instance (table : List Field) (base r : Field → Val) : Decidable (Tame table base r) :=
  inferInstanceAs (Decidable (∀ f ∈ table, _ → _))

theorem zero_stores (f : Field) : f.storage.Stores f.zero := by
  have hall : ∀ f ∈ allKeys, f.storage.Stores f.zero := by decide +kernel
  exact hall f (mem_allKeys f)

theorem defaults_store (f : Field) : f.storage.Stores (idbmNodeSetupDefaults f) := by
  have hall : ∀ f ∈ allKeys, f.storage.Stores (idbmNodeSetupDefaults f) := by decide +kernel
  exact hall f (mem_allKeys f)

/-- The record that a reader starts with. -/
def defaultRec : Rec := ⟨idbmNodeSetupDefaults, defaults_store⟩

def Rec.update (r : Rec) (f : Field) (v : Val) (h : f.storage.Stores v) : Rec where
  val := Function.update r.val f v
  stores := by
    intro g
    by_cases hg : g = f
    · rw [hg, Function.update_self]
      exact h
    · rw [Function.update_of_ne hg]
      exact r.stores g

/-! ### The round trips -/

/-- A record of an IPv6 interface that configures itself. -/
def ipv6Node : Rec :=
  (defaultRec.update .ifaceIpaddress (.text (ascii "fd00::5"))
    ⟨by decide +kernel, by decide +kernel⟩).update
    .ifaceIpv6Autocfg (.text (ascii "nd")) ⟨by decide +kernel, by decide +kernel⟩

/-- The setting is in the file, and it is not in the record that is read from the file. -/
theorem ipv6Node_autocfg_lost :
    Tame (idbmRecinfoNode (ifaceGetIptype ipv6Node.val)) idbmNodeSetupDefaults ipv6Node.val ∧
    .ifaceIpv6Autocfg ∈ idbmRecinfoNode (ifaceGetIptype ipv6Node.val) ∧
    ipv6Node.val .ifaceIpv6Autocfg = .text (ascii "nd") ∧
    idbmRecRead (idbmRecWrite ipv6Node.val) .ifaceIpv6Autocfg = .text [] := by
  have htype : ifaceGetIptype ipv6Node.val = .ipv6 := by decide
  refine ⟨by decide +kernel, ?_, rfl, ?_⟩
  · rw [htype]
    decide
  · exact idbmRecRead_lost ipv6Node (by decide)

/-- Which tame records are read back as they were written: as a node record, and as the record
of an interface. -/
theorem records_kept_iff (r : Rec) :
    (Tame (idbmRecinfoNode (ifaceGetIptype r.val)) idbmNodeSetupDefaults r.val →
      ((∀ f ∈ idbmRecinfoNode (ifaceGetIptype r.val), f.visible = true →
        idbmRecRead (idbmRecWrite r.val) f = r.val f) ↔ NodeKept r.val)) ∧
    ∀ file, ifaceConfWrite r.val = some file →
      Tame (idbmRecinfoIface (ifaceGetIptype r.val)) (ifaceAlloc (str r.val .ifaceName)) r.val →
      ((∀ f ∈ idbmRecinfoIface (ifaceGetIptype r.val),
        ifaceConfRead (str r.val .ifaceName) file f = r.val f) ↔ IfaceKept r.val) := by
  refine ⟨node_kept_iff r, ?_⟩
  intro file hfile h
  unfold ifaceConfWrite at hfile
  split at hfile
  · cases hfile
  · obtain rfl := Option.some.inj hfile
    exact iface_kept_iff r h

def etherIface : Rec :=
  ((⟨Field.zero, zero_stores⟩ : Rec).update .ifaceName (.text (ascii "ether"))
    ⟨by decide +kernel, by decide +kernel⟩).update
    .ifaceNetdev (.text (ascii "eth0")) (by decide +kernel)

theorem default_records_kept :
    (∀ f ∈ idbmRecinfoNode .ipv4, f.visible = true →
      idbmRecRead (idbmRecWrite idbmNodeSetupDefaults) f = idbmNodeSetupDefaults f) ∧
    ∃ file, ifaceConfWrite etherIface.val = some file ∧
      ∀ f ∈ idbmRecinfoIface .ipv4, ifaceConfRead (ascii "ether") file f = etherIface.val f := by
  have hnode : ifaceGetIptype defaultRec.val = .ipv4 := default_iptype
  have hiface : ifaceGetIptype etherIface.val = .ipv4 := by decide
  have hname : str etherIface.val .ifaceName = ascii "ether" := by decide
  have hwrite : ifaceConfWrite etherIface.val =
      some (idbmPrint (idbmRecinfoIface .ipv4) etherIface.val) := by
    rw [ifaceConfWrite, if_neg (by decide), hiface]
  have hkept : IfaceKept etherIface.val := by
    refine ⟨.inl (by decide), ?_⟩
    rw [hiface]
    intro h
    cases h
  constructor
  · have h := ((records_kept_iff defaultRec).1 (by decide +kernel)).2 (.inl hnode)
    rw [hnode] at h
    exact h
  · refine ⟨_, hwrite, ?_⟩
    have h := ((records_kept_iff etherIface).2 _ hwrite (by decide +kernel)).2 hkept
    rw [hiface, hname] at h
    exact h

end IdbmRecord
