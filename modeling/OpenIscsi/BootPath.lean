import OpenIscsi.PpcNics
import OpenIscsi.PromParse

/-!
# The boot path of a PowerPC machine

`fwparam_ppc_boot_info` of `fwparam_ppc.c` with what it calls: the walk for initiators,
the parse of the property, `locate_mac` and `fill_context`. Every store is checked
against the object it goes to and every load against what is there, for `struct ofw_dev`
as a 64-bit process lays it out. Allocations of strings succeed.
-/

namespace BootPath

open CString List
open PromParse (ParamText Reductions tokens yyparse)

inductive ObpParam
  | none | blksize | bootpRetries | chapid | chappw | ciaddr | dhcp | filename | giaddr | ichapid
  | ichappw | ilun | iname | iport | isid | isns | itname | siaddr | slp | subnetMask | tftpRetries
  | timeout
  deriving DecidableEq

/-- What a pointer of `struct ofw_dev` leads to; a qualifier stored over a part of it
leaves an address that nothing was allocated at. -/
inductive Pointer
  | null
  | string (s : List UInt8)
  | overwritten
  deriving DecidableEq

/-- A use of memory that is not the program's. -/
inductive Fault
  /-- A load behind the end of a buffer. -/
  | overread
  /-- A store outside the object. -/
  | outside
  /-- A load through an overwritten pointer. -/
  | wild
  /-- A load through `NULL`. -/
  | unset
  deriving DecidableEq

structure OfwDev where
  qualCount : Nat
  param : ObpParam → Pointer
  devPath : Pointer

/-- A structure from `calloc`. -/
def OfwDev.zero : OfwDev := ⟨0, fun _ => .null, .null⟩

/-! ## Layout -/

def qualsAt : Nat := 16

def paramAt : Nat := 40

def cfgPartAt : Nat := 216

def devPathAt : Nat := 224

def macAt : Nat := 232

def sizeofOfwDev : Nat := 240

/-! ## Actions -/

/-- `ofwdev->quals[ofwdev->qual_count++] = …`: the index is not compared with the size of
the array, so that the store goes to whatever lies at that offset. -/
def storeQual (d : OfwDev) : Except Fault OfwDev :=
  let offset := qualsAt + 4 * d.qualCount
  let d := { d with qualCount := d.qualCount + 1 }
  if offset < paramAt then .ok d
  else if offset < cfgPartAt then
    .ok { d with param := fun p =>
            if p.ctorIdx = (offset - paramAt) / 8 then .overwritten else d.param p }
  else if offset < devPathAt then .ok d
  else if offset < macAt then .ok { d with devPath := .overwritten }
  else if offset < sizeofOfwDev then .ok d
  else .error .outside

def knownQual (qual : List UInt8) : Bool :=
  qual ∈ ["bootp", "dhcpv6", "ipv6", "iscsi", "ping"].map ascii

def obpQualSet (d : OfwDev) (qual : List UInt8) : Except Fault OfwDev :=
  if knownQual qual then storeQual d else .ok d

def strcpy (room : Nat) (s : List UInt8) : Except Fault Pointer :=
  if s.length + 1 ≤ room then .ok (.string s) else .error .outside

/-- `sizeof(struct ofw_obp_param)`: a length and a string of one byte. -/
def sizeofObpParam : Nat := 2

def addObpParm (d : OfwDev) (parm : ObpParam) (str : List UInt8) : Except Fault OfwDev :=
  let psz := sizeofObpParam + str.length
  match strcpy (psz - 1) str with
  | .error e => .error e
  | .ok copy => .ok { d with param := fun p => if p = parm then copy else d.param p }

def parmNamed (names : List (String × ObpParam)) (name : List UInt8) : Option ObpParam :=
  (names.map (fun n => (ascii n.1, n.2))).lookup name

/-- The parameter that `obp_parm_addr`, `obp_parm_iqn`, `obp_parm_hexnum` or `obp_parm_str`
sets, by the kind of the value. -/
def paramOf (t : ParamText) : Option ObpParam :=
  match t.kind with
  | .ipv4 =>
    parmNamed [("ciaddr", .ciaddr), ("dhcp", .dhcp), ("giaddr", .giaddr), ("isns", .isns),
      ("siaddr", .siaddr), ("slp", .slp), ("subnet-mask", .subnetMask)] t.name
  | .iqn => parmNamed [("itname", .itname), ("iname", .iname)] t.name
  | .hex4 | .hex16 =>
    parmNamed [("bootp-retries", .bootpRetries), ("tftp-retries", .tftpRetries), ("iport", .iport),
      ("ilun", .ilun), ("isid", .isid)] t.name
  | .filename =>
    parmNamed [("filename", .filename), ("ichapid", .ichapid), ("ichappw", .ichappw),
      ("chapid", .chapid), ("chappw", .chappw)] t.name
  | _ => none

/-- The action of a parameter. -/
def obpParm (d : OfwDev) (t : ParamText) : Except Fault OfwDev :=
  match paramOf t with
  | some parm => addObpParm d parm t.value
  | none => .ok d

/-- The action of the alternatives of `devpath` that store a path; the room asked for is
that of the two parts and three bytes. -/
def setDevPath (d : OfwDev) : Option (List UInt8) → Except Fault OfwDev
  | none => .ok d
  | some path =>
    match strcpy (path.length - 1 + 3) path with
    | .error e => .error e
    | .ok copy => .ok { d with devPath := copy }

/-- `parse_params`: the actions run before a syntax error too. -/
def parseParams (buf : List UInt8) (d : OfwDev) : Except Fault (Bool × OfwDev) := do
  let d ← (yyparse (tokens buf)).quals.foldlM obpQualSet d
  let d ← (yyparse (tokens buf)).params.foldlM obpParm d
  let d ← setDevPath d (yyparse (tokens buf)).devPath
  return ((yyparse (tokens buf)).accepted, d)

/-! ## Readers -/

def load : Pointer → Except Fault (List UInt8)
  | .null => .error .unset
  | .overwritten => .error .wild
  | .string s => .ok s

/-- The file with the address: an error number of `open`, or the bytes that `read` returns. -/
abbrev MacFile := Except { errno : Int // errno ≠ 0 } (List UInt8)

def eio : Int := 5

def locateMac (file : MacFile) (d : OfwDev) : Except Fault Int :=
  match load d.devPath with
  | .error e => .error e
  | .ok _ =>
    match file with
    | .error errno => .ok errno.1
    | .ok bytes => .ok (if bytes.length = 6 then 0 else eio)

/-- `cp_param`: an unset parameter is skipped. -/
def cpParam (d : OfwDev) (item : ObpParam) (len : Nat) : Except Fault (List UInt8) :=
  if d.param item = .null then .ok []
  else match load (d.param item) with
    | .error e => .error e
    | .ok s => .ok (strlcpy s len).1

/-- The parameters that `fill_context` copies, with the size of the field; `cp_int_param` reads
the port as a string. -/
def contextFields : List (ObpParam × Nat) :=
  [(.itname, 256), (.ciaddr, 1025), (.subnetMask, 1025), (.siaddr, 1025), (.iport, ulongBound),
    (.ilun, 17), (.iname, 256), (.isid, 10), (.ichapid, 256), (.ichappw, 256), (.chapid, 256),
    (.chappw, 256)]

def fillContext (niclist : List PpcNics.Nic) (d : OfwDev) : Except Fault (List (List UInt8)) :=
  match load d.devPath with
  | .error e => .error e
  | .ok path =>
    match contextFields.mapM (fun f => cpParam d f.1 f.2) with
    | .error e => .error e
    | .ok texts => .ok (PpcNics.fillContext niclist path :: texts)

/-! ## The devices -/

/-- A call of `find_initiator`, with what is at the property it would store. -/
structure AliasVisit where
  fpath : List UInt8
  /-- `ftw->base` -/
  base : Nat
  /-- `FTW_F` -/
  isFile : Bool
  content : Option (List UInt8)
  mac : MacFile

/-- The test of `find_initiator`. -/
def AliasVisit.isInitiator (v : AliasVisit) : Bool :=
  v.isFile && strstr (v.fpath.drop v.base) (ascii "/aliases/iscsi-disk")

def findInitiator (found : List AliasVisit) (v : AliasVisit) : List AliasVisit :=
  if v.isInitiator then
    if found.length < PpcNics.ofwdevMax then found ++ [v] else found
  else found

/-- `strstr` and `yy_scan_string` stop at the first zero byte of the buffer. -/
def scan (content : List UInt8) : Except Fault (List UInt8) :=
  if 0 ∈ content then .ok (cstr content) else .error .overread

def readDevice (content : List UInt8) (mac : MacFile) : Except Fault (Int × OfwDev) := do
  let buf ← scan content
  let (accepted, d) ← parseParams buf OfwDev.zero
  if accepted then
    let error ← locateMac mac d
    return (error, d)
  else return (1, d)

def loopDevs (error : Int) : List AliasVisit → Except Fault Int
  | [] => .ok error
  | v :: found =>
    match v.content with
    | none => loopDevs error found
    | some content => do
      let r ← readDevice content v.mac
      loopDevs r.1 found

/-- What a call of `fwparam_ppc_boot_info` meets. -/
structure Input where
  /-- The error of one of the walks, zero without one. -/
  walk : Int
  aliases : List AliasVisit
  niclist : List PpcNics.Nic
  /-- What `find_file` reads of the property. -/
  bootpath : Option (List UInt8)
  /-- Whether `calloc` has room for the device. -/
  calloc : Bool
  mac : MacFile
  /-- Whether the caller gives a context. -/
  context : Bool

/-- The end of a call: the result, the fields of the context, and the devices allocated and
freed. The device of the boot path is number zero, the others follow in the order found. -/
structure Outcome where
  error : Int
  context : Option (List (List UInt8))
  allocated : List Nat
  freed : List Nat

def iscsiErrNomem : Int := 3

def iscsiErrInval : Int := 7

def iscsiErrNoObjsFound : Int := 21

/-- The devices of `loop_devs`. -/
def aliasDevs (devCount : Nat) : List Nat := List.range' 1 devCount

/-- The last steps: `fill_context`, `free(ofwdevs[0])` and the loop over `ofwdevs`, whose first
element is the device that was just freed. -/
def finish (i : Input) (devCount : Nat) (error : Int) (d : OfwDev) : Except Fault Outcome :=
  let allocated := 0 :: aliasDevs devCount
  let freed := 0 :: (0 :: (aliasDevs devCount).tail).take devCount
  if error ≠ 0 then .ok ⟨error, none, allocated, freed⟩
  else if i.context = false then .ok ⟨iscsiErrNomem, none, allocated, freed⟩
  else match fillContext i.niclist d with
    | .error e => .error e
    | .ok texts => .ok ⟨0, some texts, allocated, freed⟩

def fwparamPpcBootInfo (i : Input) : Except Fault Outcome := do
  let found := i.aliases.foldl findInitiator []
  let devs := aliasDevs found.length
  let error ← if i.walk ≠ 0 then .ok i.walk else loopDevs 0 found
  if error ≠ 0 then return ⟨error, none, devs, devs⟩
  else match i.bootpath with
    | none => return ⟨iscsiErrNoObjsFound, none, devs, devs⟩
    | some content => do
      let buf ← scan content
      if strstr buf (ascii "iscsi") then
        if i.calloc then
          let (error, d) ← readDevice content i.mac
          finish i found.length error d
        -- `ofwdevs[0]` is `NULL` now
        else return ⟨iscsiErrNomem, none, devs, devs.tail⟩
      else return ⟨iscsiErrInval, none, devs, devs⟩

/-- The call uses no memory that is not its own and frees every device once. -/
def MemorySafe (i : Input) : Prop :=
  ∃ o, fwparamPpcBootInfo i = .ok o ∧ o.allocated.Nodup ∧ o.freed.Perm o.allocated

/-! ## No device is found under the aliases -/

theorem strstr_mem {s needle : List UInt8} (h : strstr s needle = true) {b : UInt8}
    (hb : b ∈ needle) : b ∈ s := by
  obtain ⟨tail, htail, hstart⟩ := any_eq_true.mp h
  have hin : b ∈ tail := (List.isPrefixOf_iff_prefix.mp hstart).subset hb
  exact ((mem_tails _ _).mp htail).subset hin

/-- `nftw` gives the offset of the last component of the path, which has no slash. -/
def AliasVisit.BaseName (v : AliasVisit) : Prop := 47 ∉ v.fpath.drop v.base

theorem isInitiator_eq_false {v : AliasVisit} (hbase : v.BaseName) : v.isInitiator = false := by
  have hnot : strstr (v.fpath.drop v.base) (ascii "/aliases/iscsi-disk") = false := by
    by_contra hfound
    have hslash : (47 : UInt8) ∈ ascii "/aliases/iscsi-disk" := by decide
    exact hbase (strstr_mem (Bool.not_eq_false _ ▸ hfound) hslash)
  rw [AliasVisit.isInitiator, hnot, Bool.and_false]

theorem found_eq_nil {aliases : List AliasVisit} (hbase : ∀ v ∈ aliases, v.BaseName) :
    aliases.foldl findInitiator [] = [] := by
  induction aliases with
  | nil => rfl
  | cons v aliases ih =>
    have hv := isInitiator_eq_false (hbase v mem_cons_self)
    rw [foldl_cons, findInitiator, hv, if_neg Bool.false_ne_true]
    exact ih (fun w hw => hbase w (mem_cons_of_mem v hw))

/-! ## The actions -/

/-- The structure behind this many qualifiers, as long as they stay inside. -/
def qualified (n : Nat) : OfwDev where
  qualCount := n
  param p := if paramAt + 8 * p.ctorIdx < qualsAt + 4 * n then .overwritten else .null
  devPath := if devPathAt < qualsAt + 4 * n then .overwritten else .null

theorem ctorIdx_lt (p : ObpParam) : p.ctorIdx < 22 := by
  cases p <;> decide

/-- The qualifiers that fit into the structure. -/
def qualRoom : Nat := 56

/-- The offsets as numbers. -/
theorem layout : qualsAt = 16 ∧ paramAt = 40 ∧ cfgPartAt = 216 ∧ devPathAt = 224 ∧ macAt = 232 ∧
    sizeofOfwDev = 240 := by
  decide

theorem qualified_succ_param (n : Nat) (p : ObpParam) :
    (qualified (n + 1)).param p =
      if paramAt ≤ qualsAt + 4 * n ∧ p.ctorIdx = (qualsAt + 4 * n - paramAt) / 8 then .overwritten
      else (qualified n).param p := by
  have hlayout := layout
  simp only [qualified]
  by_cases hhere : paramAt ≤ qualsAt + 4 * n ∧ p.ctorIdx = (qualsAt + 4 * n - paramAt) / 8
  · rw [if_pos hhere, if_pos (by omega)]
  · rw [if_neg hhere]
    by_cases hbefore : paramAt + 8 * p.ctorIdx < qualsAt + 4 * n
    · rw [if_pos hbefore, if_pos (by omega)]
    · rw [if_neg hbefore, if_neg (by omega)]

variable {n : Nat}

theorem qualified_succ_param_of (p : ObpParam)
    (h : ¬ (paramAt ≤ qualsAt + 4 * n ∧ qualsAt + 4 * n < cfgPartAt)) :
    (qualified (n + 1)).param p = (qualified n).param p := by
  have hlayout := layout
  have hp := ctorIdx_lt p
  rw [qualified_succ_param, if_neg (by omega)]

theorem qualified_succ_devPath (h : ¬ (devPathAt ≤ qualsAt + 4 * n ∧ qualsAt + 4 * n < macAt)) :
    (qualified (n + 1)).devPath = (qualified n).devPath := by
  have hlayout := layout
  simp only [qualified]
  by_cases hbefore : devPathAt < qualsAt + 4 * n
  · rw [if_pos hbefore, if_pos (by omega)]
  · rw [if_neg hbefore, if_neg (by omega)]

theorem OfwDev.eq_of {d e : OfwDev} (hcount : d.qualCount = e.qualCount)
    (hparam : ∀ p, d.param p = e.param p) (hpath : d.devPath = e.devPath) : d = e := by
  obtain ⟨n, param, path⟩ := d
  obtain ⟨m, param', path'⟩ := e
  obtain rfl : n = m := hcount
  obtain rfl : param = param' := funext hparam
  obtain rfl : path = path' := hpath
  rfl

/-- A qualifier is stored behind the ones before, over whatever field lies there. -/
theorem storeQual_qualified (hroom : n < qualRoom) :
    storeQual (qualified n) = .ok (qualified (n + 1)) := by
  have hlayout := layout
  have hcount : (qualified n).qualCount = n := rfl
  unfold storeQual
  rw [hcount]
  dsimp only
  by_cases hquals : qualsAt + 4 * n < paramAt
  · rw [if_pos hquals]
    refine congrArg Except.ok (OfwDev.eq_of rfl (fun p => ?_) ?_)
    · exact (qualified_succ_param_of p (by omega)).symm
    · exact (qualified_succ_devPath (by omega)).symm
  · rw [if_neg hquals]
    by_cases hparams : qualsAt + 4 * n < cfgPartAt
    · rw [if_pos hparams]
      refine congrArg Except.ok (OfwDev.eq_of rfl (fun p => ?_) ?_)
      · have hat : paramAt ≤ qualsAt + 4 * n := by omega
        simp only [qualified_succ_param, hat, true_and]
      · exact (qualified_succ_devPath (by omega)).symm
    · rw [if_neg hparams]
      have hparam := fun p => (qualified_succ_param_of (n := n) p (by omega)).symm
      by_cases hcfg : qualsAt + 4 * n < devPathAt
      · rw [if_pos hcfg]
        refine congrArg Except.ok (OfwDev.eq_of rfl hparam ?_)
        exact (qualified_succ_devPath (by omega)).symm
      · rw [if_neg hcfg]
        by_cases hpath : qualsAt + 4 * n < macAt
        · rw [if_pos hpath]
          refine congrArg Except.ok (OfwDev.eq_of rfl hparam ?_)
          have hover : devPathAt < qualsAt + 4 * (n + 1) := by omega
          simp only [qualified, hover, if_true]
        · have hin : qualsAt + 4 * n < sizeofOfwDev := by
            rw [qualRoom] at hroom
            omega
          rw [if_neg hpath, if_pos hin]
          refine congrArg Except.ok (OfwDev.eq_of rfl hparam ?_)
          exact (qualified_succ_devPath (by omega)).symm

/-- The one behind the last that fits is stored outside. -/
theorem storeQual_outside : storeQual (qualified qualRoom) = .error .outside := rfl

theorem foldlM_obpQualSet (quals : List (List UInt8)) (hn : n ≤ qualRoom) :
    quals.foldlM obpQualSet (qualified n) =
      if n + quals.countP knownQual ≤ qualRoom then .ok (qualified (n + quals.countP knownQual))
      else .error .outside := by
  induction quals generalizing n with
  | nil =>
    rw [countP_nil, Nat.add_zero, if_pos hn]
    rfl
  | cons qual quals ih =>
    rw [foldlM_cons, obpQualSet]
    by_cases hknown : knownQual qual = true
    · rw [if_pos hknown, countP_cons_of_pos hknown]
      rcases Nat.lt_or_eq_of_le hn with hroom | rfl
      · have hcount : n + (quals.countP knownQual + 1) = n + 1 + quals.countP knownQual := by omega
        rw [storeQual_qualified hroom, hcount]
        exact ih hroom
      · rw [storeQual_outside, if_neg (by omega)]
        rfl
    · rw [if_neg hknown, countP_cons_of_neg hknown]
      exact ih hn

/-- The structure with a parameter set. -/
def setParam (d : OfwDev) (t : ParamText) : OfwDev :=
  match paramOf t with
  | some parm => { d with param := fun p => if p = parm then .string t.value else d.param p }
  | none => d

variable (d : OfwDev)

/-- The copy of a parameter always fits. -/
theorem obpParm_eq (t : ParamText) : obpParm d t = .ok (setParam d t) := by
  unfold obpParm setParam
  cases paramOf t with
  | none => rfl
  | some parm =>
    have hfits : t.value.length + 1 ≤ sizeofObpParam + t.value.length - 1 := by
      rw [sizeofObpParam]
      omega
    simp only [addObpParm, strcpy, if_pos hfits]

theorem foldlM_obpParm (params : List ParamText) :
    params.foldlM obpParm d = .ok (params.foldl setParam d) := by
  induction params generalizing d with
  | nil => rfl
  | cons t params ih =>
    rw [foldlM_cons, obpParm_eq, foldl_cons]
    exact ih (setParam d t)

theorem setParam_devPath (t : ParamText) : (setParam d t).devPath = d.devPath := by
  unfold setParam
  cases paramOf t <;> rfl

theorem foldl_setParam_devPath (params : List ParamText) :
    (params.foldl setParam d).devPath = d.devPath := by
  induction params generalizing d with
  | nil => rfl
  | cons t params ih => rw [foldl_cons, ih, setParam_devPath]

theorem setParam_param_eq_overwritten {d : OfwDev} {t : ParamText} {p : ObpParam} :
    (setParam d t).param p = .overwritten ↔ d.param p = .overwritten ∧ paramOf t ≠ some p := by
  unfold setParam
  cases hparam : paramOf t with
  | none => simp
  | some parm =>
    by_cases hp : p = parm
    · subst hp
      simp
    · have hne : parm ≠ p := fun h => hp h.symm
      simp [hp, hne]

/-- A parameter set later hides what a qualifier did to it. -/
theorem foldl_setParam_param {d : OfwDev} {params : List ParamText} {p : ObpParam} :
    (params.foldl setParam d).param p = .overwritten ↔
      d.param p = .overwritten ∧ ∀ t ∈ params, paramOf t ≠ some p := by
  induction params generalizing d with
  | nil => simp
  | cons t params ih =>
    rw [foldl_cons, ih, setParam_param_eq_overwritten, forall_mem_cons, and_assoc]

theorem setDevPath_some (path : List UInt8) :
    setDevPath d (some path) = .ok { d with devPath := .string path } := by
  have hfits : path.length + 1 ≤ path.length - 1 + 3 := by omega
  simp only [setDevPath, strcpy, if_pos hfits]

/-- The structure behind a parse that stays inside. -/
def parsed (r : Reductions) : OfwDev :=
  let d := r.params.foldl setParam (qualified (r.quals.countP knownQual))
  match r.devPath with
  | some path => { d with devPath := .string path }
  | none => d

theorem zero_eq_qualified : OfwDev.zero = qualified 0 := by
  refine OfwDev.eq_of rfl (fun p => ?_) rfl
  have hlayout := layout
  simp only [OfwDev.zero, qualified]
  rw [if_neg (by omega)]

theorem parseParams_zero (buf : List UInt8) :
    parseParams buf OfwDev.zero =
      if (yyparse (tokens buf)).quals.countP knownQual ≤ qualRoom then
        .ok ((yyparse (tokens buf)).accepted, parsed (yyparse (tokens buf)))
      else .error .outside := by
  unfold parseParams
  generalize yyparse (tokens buf) = r
  rw [zero_eq_qualified, foldlM_obpQualSet r.quals (Nat.zero_le qualRoom), Nat.zero_add]
  by_cases hroom : r.quals.countP knownQual ≤ qualRoom
  · rw [if_pos hroom, if_pos hroom]
    dsimp only [bind, Except.bind]
    rw [foldlM_obpParm]
    dsimp only
    unfold parsed
    cases r.devPath with
    | none => rfl
    | some path =>
      rw [setDevPath_some]
      rfl
  · rw [if_neg hroom, if_neg hroom]
    rfl

variable {path : List UInt8}

theorem parsed_devPath_some {r : Reductions} (h : r.devPath = some path) :
    (parsed r).devPath = .string path := by
  rw [parsed, h]

theorem load_parsed_none {r : Reductions} (h : r.devPath = none) :
    ∃ e, load (parsed r).devPath = .error e := by
  have hpath : (parsed r).devPath = (qualified (r.quals.countP knownQual)).devPath := by
    rw [parsed, h]
    exact foldl_setParam_devPath _ _
  rw [hpath, qualified]
  dsimp only
  split
  · exact ⟨.wild, rfl⟩
  · exact ⟨.unset, rfl⟩

theorem parsed_param (r : Reductions) (p : ObpParam) :
    (parsed r).param p =
      (r.params.foldl setParam (qualified (r.quals.countP knownQual))).param p := by
  unfold parsed
  cases r.devPath <;> rfl

/-- The qualifiers end before this parameter, or it is set behind them. -/
def Intact (r : Reductions) (p : ObpParam) : Prop :=
  qualsAt + 4 * r.quals.countP knownQual ≤ paramAt + 8 * p.ctorIdx ∨
    ∃ t ∈ r.params, paramOf t = some p

theorem parsed_param_ne_iff (r : Reductions) (p : ObpParam) :
    (parsed r).param p ≠ .overwritten ↔ Intact r p := by
  rw [parsed_param, Ne, foldl_setParam_param, not_and_or, Intact]
  refine or_congr ?_ ?_
  · simp only [qualified]
    by_cases hover : paramAt + 8 * p.ctorIdx < qualsAt + 4 * r.quals.countP knownQual
    · rw [if_pos hover]
      exact iff_of_false (fun h => h rfl) (not_le.mpr hover)
    · rw [if_neg hover]
      exact iff_of_true (by decide) (not_lt.mp hover)
  · simp

/-! ## The readers -/

theorem cpParam_ok_iff (item : ObpParam) (len : Nat) :
    (∃ s, cpParam d item len = .ok s) ↔ d.param item ≠ .overwritten := by
  unfold cpParam
  cases d.param item with
  | null => exact iff_of_true ⟨[], rfl⟩ (by decide)
  | string s => exact iff_of_true ⟨_, rfl⟩ (by simp)
  | overwritten =>
    refine iff_of_false ?_ (fun h => h rfl)
    rintro ⟨s, hs⟩
    exact absurd hs (by simp [load])

theorem mapM_ok_iff {α β : Type} (f : α → Except Fault β) (l : List α) :
    (∃ ys, l.mapM f = .ok ys) ↔ ∀ x ∈ l, ∃ y, f x = .ok y := by
  induction l with
  | nil => simp [pure, Except.pure]
  | cons x l ih =>
    rw [mapM_cons, forall_mem_cons, ← ih]
    cases hx : f x with
    | error e => simp [bind, Except.bind]
    | ok y =>
      cases hl : l.mapM f with
      | error e => simp [bind, Except.bind]
      | ok ys => simp [bind, Except.bind, pure, Except.pure]

theorem fillContext_ok_iff (niclist : List PpcNics.Nic) {d : OfwDev}
    (hpath : d.devPath = .string path) :
    (∃ texts, fillContext niclist d = .ok texts) ↔
      ∀ f ∈ contextFields, d.param f.1 ≠ .overwritten := by
  have hall := mapM_ok_iff (fun f : ObpParam × Nat => cpParam d f.1 f.2) contextFields
  simp only [cpParam_ok_iff] at hall
  rw [← hall]
  unfold fillContext
  rw [hpath]
  dsimp only [load]
  cases contextFields.mapM (fun f : ObpParam × Nat => cpParam d f.1 f.2) with
  | error e => simp
  | ok texts => simp

/-- The file with the address holds one. -/
def MacFile.Complete : MacFile → Prop
  | .error _ => False
  | .ok bytes => bytes.length = 6

theorem locateMac_string {d : OfwDev} (mac : MacFile) (hpath : d.devPath = .string path) :
    ∃ error, locateMac mac d = .ok error ∧ (error = 0 ↔ mac.Complete) := by
  unfold locateMac
  rw [hpath]
  cases mac with
  | error errno => exact ⟨errno.1, rfl, iff_of_false errno.2 id⟩
  | ok bytes =>
    refine ⟨_, rfl, ?_⟩
    by_cases hsix : bytes.length = 6
    · rw [if_pos hsix]
      exact iff_of_true rfl hsix
    · rw [if_neg hsix]
      exact iff_of_false (by decide) hsix

/-! ## The call -/

/-- What the reductions of the property have to satisfy: the qualifiers fit into the
structure, an accepted path is one that is stored, and no qualifier lies over a parameter
that is copied to the context. -/
structure Bounded (i : Input) (r : Reductions) : Prop where
  quals : r.quals.countP knownQual ≤ qualRoom
  path : r.accepted = true → r.devPath.isSome = true
  fields : r.accepted = true → i.mac.Complete → i.context = true →
    ∀ f ∈ contextFields, Intact r f.1

/-- The condition on the property. -/
def Tame (i : Input) (content : List UInt8) : Prop :=
  0 ∈ content ∧ (strstr (cstr content) (ascii "iscsi") = true → i.calloc = true →
    Bounded i (yyparse (tokens (cstr content))))

/-- The device of the boot path is freed once when no other was found. -/
def FreesOnce (r : Except Fault Outcome) : Prop :=
  ∃ o, r = .ok o ∧ o.allocated.Nodup ∧ o.freed.Perm o.allocated

theorem freesOnce_same {error : Int} {context : Option (List (List UInt8))} {devs : List Nat}
    (hdevs : devs.Nodup) : FreesOnce (.ok ⟨error, context, devs, devs⟩) :=
  ⟨_, rfl, hdevs, List.Perm.refl devs⟩

theorem not_freesOnce_error (e : Fault) : ¬ FreesOnce (.error e) := by
  rintro ⟨o, ho, -⟩
  cases ho

theorem finish_freesOnce_iff {i : Input} {error : Int} {d : OfwDev}
    (hpath : d.devPath = .string path) :
    FreesOnce (finish i 0 error d) ↔
      (error = 0 → i.context = true → ∀ f ∈ contextFields, d.param f.1 ≠ .overwritten) := by
  have hone : ([0] : List Nat).Nodup := nodup_singleton 0
  unfold finish
  by_cases herror : error = 0
  · rw [if_neg (fun h => h herror)]
    cases hcontext : i.context with
    | false =>
      refine iff_of_true (freesOnce_same hone) ?_
      intro _ h
      cases h
    | true =>
      rw [if_neg (by decide), ← fillContext_ok_iff i.niclist hpath]
      cases fillContext i.niclist d with
      | error e =>
        refine iff_of_false (not_freesOnce_error e) ?_
        intro h
        obtain ⟨texts, ht⟩ := h herror rfl
        cases ht
      | ok texts => exact iff_of_true (freesOnce_same hone) (fun _ _ => ⟨texts, rfl⟩)
  · rw [if_pos herror]
    exact iff_of_true (freesOnce_same hone) (fun h => absurd h herror)

/-- A device whose parse was rejected is freed without being read. -/
theorem finish_rejected (i : Input) (d : OfwDev) : FreesOnce (finish i 0 1 d) :=
  freesOnce_same (nodup_singleton 0)

/-- The part of the call behind `calloc`. -/
theorem bootDevice_freesOnce_iff (i : Input) {content : List UInt8} (hnul : 0 ∈ content) :
    FreesOnce (do
      let r ← readDevice content i.mac
      finish i 0 r.1 r.2) ↔ Bounded i (yyparse (tokens (cstr content))) := by
  have hscan : scan content = .ok (cstr content) := if_pos hnul
  simp only [readDevice, hscan, bind, Except.bind, parseParams_zero]
  generalize yyparse (tokens (cstr content)) = r
  by_cases hroom : r.quals.countP knownQual ≤ qualRoom
  · rw [if_pos hroom]
    dsimp only
    cases haccepted : r.accepted with
    | false =>
      refine iff_of_true (finish_rejected i (parsed r)) ⟨hroom, ?_, ?_⟩
      · intro h
        exact absurd (haccepted.symm.trans h) Bool.false_ne_true
      · intro h
        exact absurd (haccepted.symm.trans h) Bool.false_ne_true
    | true =>
      rw [if_pos rfl]
      cases hpath : r.devPath with
      | none =>
        obtain ⟨e, he⟩ := load_parsed_none hpath
        have hmac : locateMac i.mac (parsed r) = .error e := by
          unfold locateMac
          rw [he]
        rw [hmac]
        refine iff_of_false (not_freesOnce_error e) ?_
        intro hbounded
        have hsome := hbounded.path haccepted
        rw [hpath] at hsome
        cases hsome
      | some path =>
        have hstring := parsed_devPath_some hpath
        obtain ⟨error, hmac, hzero⟩ := locateMac_string i.mac hstring
        rw [hmac]
        refine (finish_freesOnce_iff hstring).trans ?_
        simp only [hzero, parsed_param_ne_iff]
        constructor
        · intro hfields
          exact ⟨hroom, fun _ => by rw [hpath]; rfl, fun _ => hfields⟩
        · intro hbounded
          exact hbounded.fields haccepted
  · rw [if_neg hroom]
    exact iff_of_false (not_freesOnce_error _) (fun hbounded => hroom hbounded.quals)

/-- The call is safe for exactly the properties that hold a zero byte and whose
qualifiers, path and parameters stay within bounds. -/
theorem boot_path_safe_iff (i : Input) (hbase : ∀ v ∈ i.aliases, v.BaseName) :
    MemorySafe i ↔ (i.walk = 0 → ∀ content, i.bootpath = some content → Tame i content) := by
  change FreesOnce (fwparamPpcBootInfo i) ↔ _
  have hnone : (aliasDevs 0).Nodup := nodup_nil
  unfold fwparamPpcBootInfo
  rw [found_eq_nil hbase]
  by_cases hwalk : i.walk = 0
  · rw [if_neg (fun h => h hwalk)]
    dsimp only [loopDevs, bind, Except.bind]
    rw [if_neg (fun h => h rfl)]
    cases i.bootpath with
    | none =>
      refine iff_of_true (freesOnce_same hnone) ?_
      intro _ content h
      cases h
    | some content =>
      have hall : (i.walk = 0 → ∀ c, some content = some c → Tame i c) ↔ Tame i content := by
        constructor
        · intro h
          exact h hwalk content rfl
        · rintro h - c ⟨⟩
          exact h
      rw [hall]
      dsimp only
      by_cases hnul : 0 ∈ content
      · have hscan : scan content = .ok (cstr content) := if_pos hnul
        rw [hscan]
        dsimp only
        by_cases hiscsi : strstr (cstr content) (ascii "iscsi") = true
        · rw [if_pos hiscsi]
          cases hcalloc : i.calloc with
          | false =>
            refine iff_of_true (freesOnce_same hnone) ⟨hnul, ?_⟩
            intro _ h
            exact absurd (hcalloc.symm.trans h) Bool.false_ne_true
          | true =>
            rw [if_pos rfl]
            refine (bootDevice_freesOnce_iff i hnul).trans ?_
            constructor
            · intro hbounded
              exact ⟨hnul, fun _ _ => hbounded⟩
            · intro htame
              exact htame.2 hiscsi hcalloc
        · rw [if_neg hiscsi]
          exact iff_of_true (freesOnce_same hnone) ⟨hnul, fun h => absurd h hiscsi⟩
      · have hscan : scan content = .error .overread := if_neg hnul
        rw [hscan]
        exact iff_of_false (not_freesOnce_error _) (fun h => hnul h.1)
  · rw [if_pos hwalk]
    dsimp only [bind, Except.bind]
    rw [if_pos hwalk]
    exact iff_of_true (freesOnce_same hnone) (fun h => absurd h hwalk)

/-- A call on a machine without aliases whose property has this content. -/
def bootFrom (content : List UInt8) : Input where
  walk := 0
  aliases := []
  niclist := []
  bootpath := some content
  calloc := true
  mac := .ok [0, 2, 85, 1, 2, 3]
  context := true

/-- One qualifier and two parameters, as the firmware writes them. -/
def plainPath : List UInt8 :=
  ascii "/pci@1/ethernet@1:iscsi,siaddr=10.0.0.1,itname=iqn.2001-04.com.example:a" ++ [0]

theorem plainPath_reductions :
    (yyparse (tokens (cstr plainPath))).quals.length = 1 ∧
      (yyparse (tokens (cstr plainPath))).devPath = some (ascii "/pci@1/ethernet@1") := by
  decide +kernel

theorem boot_path_safe_plain : MemorySafe (bootFrom plainPath) := by
  refine (boot_path_safe_iff (bootFrom plainPath) (fun v hv => absurd hv not_mem_nil)).mpr ?_
  rintro - content ⟨⟩
  obtain ⟨hquals, hpath⟩ := plainPath_reductions
  refine ⟨by decide +kernel, fun _ _ => ?_⟩
  have hfew : (yyparse (tokens (cstr plainPath))).quals.countP knownQual ≤ 1 :=
    hquals ▸ countP_le_length
  have hlayout := layout
  refine ⟨?_, ?_, ?_⟩
  · exact hfew.trans (by decide)
  · intro _
    rw [hpath]
    rfl
  · intro _ _ _ f _
    exact Or.inl (by omega)

/-- A list of this many qualifiers. -/
def qualList : Nat → List UInt8
  | 0 => ascii "iscsi"
  | n + 1 => ascii "iscsi," ++ qualList n

/-- How a call ends in a fault. -/
def faultOf : Except Fault Outcome → Option Fault
  | .error e => some e
  | .ok _ => none

theorem not_memorySafe_of_fault {i : Input} {e : Fault}
    (h : faultOf (fwparamPpcBootInfo i) = some e) : ¬ MemorySafe i := by
  rintro ⟨o, ho, -⟩
  rw [ho] at h
  cases h

/-- A property without a zero byte is read past its end; 57 qualifiers are stored past the
end of the structure; 14 of them make the parameter `chapid` an address that
`fill_context` reads from; a path without a disk label is accepted and not stored. -/
theorem boot_path_unsafe :
    ¬ MemorySafe (bootFrom (ascii "/pci@1/iscsi-toe:iscsi,1")) ∧
    ¬ MemorySafe (bootFrom (ascii "/pci@1/ethernet:" ++ qualList 56 ++ ascii ",1" ++ [0])) ∧
    ¬ MemorySafe (bootFrom (ascii "/pci@1/ethernet:" ++ qualList 13 ++ ascii ",1" ++ [0])) ∧
    ¬ MemorySafe (bootFrom (ascii "/pci@1/iscsi-toe:" ++ [0])) := by
  refine ⟨?_, ?_, ?_, ?_⟩
  · exact not_memorySafe_of_fault (e := .overread) (by decide +kernel)
  · exact not_memorySafe_of_fault (e := .outside) (by decide +kernel)
  · exact not_memorySafe_of_fault (e := .wild) (by decide +kernel)
  · exact not_memorySafe_of_fault (e := .unset) (by decide +kernel)

end BootPath
