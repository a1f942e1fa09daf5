import OpenIscsi.IdbmLock
import OpenIscsi.LibraryStore

/-! # The reference count of the database lock

Every function of the database that takes the lock gives it back, whatever its file calls return,
except at two places. -/

namespace LockBalance

open RecordFile FileSystem Interaction Interaction.Prog IdbmStore LibraryStore
open IdbmRecord (Field)
open SendTargets (DiscoveryType)

/-- `refs` of `struct idbm`, and the file calls that have failed so far. -/
structure Lock where
  refs : Nat
  failures : List FileSystem.Call := []
  deriving DecidableEq, Repr

/-- What the calls do to the lock. Files can answer anything. A lock call only fails if the lock
is not held, and an unlock call does not look whether it is. -/
def moves (s : Lock) : (c : IdbmStore.Call) → c.Answer → Option Lock
  | .file c, r => some { s with failures := if c.fails r then s.failures ++ [c] else s.failures }
  | .lock, (r : Bool) =>
    if 0 < s.refs then if r then some { s with refs := s.refs + 1 } else none
    else some { s with refs := if r then 1 else 0 }
  | .unlock, _ => some { s with refs := if 1 < s.refs then s.refs - 1 else 0 }

section Counting

variable {leak : FileSystem.Call → Bool} {α β : Type}

def Grown (leak : FileSystem.Call → Bool) (s t : Lock) : Prop :=
  ∃ n, t.failures.countP leak = s.failures.countP leak + n ∧ t.refs = s.refs + n

theorem Grown.refl (s : Lock) : Grown leak s s := ⟨0, rfl, rfl⟩

theorem Grown.trans {s t u : Lock} (hst : Grown leak s t) (htu : Grown leak t u) :
    Grown leak s u := by
  obtain ⟨n, hn, hrefs⟩ := hst
  obtain ⟨m, hm, hrefs'⟩ := htu
  exact ⟨n + m, by omega, by omega⟩

/-- The program leaks a reference for each failure of a kind, and no other one. -/
def Counted (leak : FileSystem.Call → Bool) (p : Idbm α) : Prop :=
  ∀ s, p.Ends moves (fun _ t => Grown leak s t) s

/-- The program, which is called with the lock held, gives back one reference. -/
def Released (leak : FileSystem.Call → Bool) (p : Idbm α) : Prop :=
  ∀ s, 0 < s.refs → p.Ends moves (fun _ t => Grown leak { s with refs := s.refs - 1 } t) s

theorem counted_pure (a : α) : Counted leak (pure a : Idbm α) := fun s => Grown.refl s

theorem counted_bind {p : Idbm α} {f : α → Idbm β} (hp : Counted leak p)
    (hf : ∀ a, Counted leak (f a)) : Counted leak (p >>= f) := by
  intro s
  refine ends_then (hp s) fun a t hst => ?_
  exact ends_mono (hf a t) fun _ _ htu => hst.trans htu

theorem counted_ite {b : Bool} {p q : Idbm α} (hp : Counted leak p) (hq : Counted leak q) :
    Counted leak (if b = true then p else q) := by
  cases b with
  | false => exact hq
  | true => exact hp

theorem released_bind {p : Idbm α} {f : α → Idbm β} (hp : Counted leak p)
    (hf : ∀ a, Released leak (f a)) : Released leak (p >>= f) := by
  intro s hs
  refine ends_then (hp s) fun a t hst => ?_
  obtain ⟨n, hn, hrefs⟩ := hst
  refine ends_mono (hf a t (by omega)) fun _ u htu => ?_
  refine Grown.trans ?_ htu
  exact ⟨n, hn, by dsimp only; omega⟩

/-- A file call that does not leak. -/
theorem counted_file {c : FileSystem.Call} (h : leak c = false) : Counted leak (onFile c) := by
  intro s r t ht
  cases ht
  refine ⟨0, ?_, rfl⟩
  dsimp only
  split
  · rw [List.countP_append, List.countP_singleton, h]
    rfl
  · rfl

/-- A file call that does not leak, and what follows it. -/
theorem counted_call {c : FileSystem.Call} {f : c.Answer → Idbm β}
    (hf : ∀ r, Counted leak (f r)) (h : leak c = false := by rfl) : Counted leak (onFile c >>= f) :=
  counted_bind (counted_file h) hf

theorem counted_discard {p : Idbm α} (h : Counted leak p) (a : β) :
    Counted leak (p >>= fun _ => pure a) :=
  counted_bind h fun _ => counted_pure a

/-- At a file call that leaks, the reference is only given back if the call succeeds. -/
theorem released_file {c : FileSystem.Call} {f : c.Answer → Idbm β} (h : leak c = true)
    (hfail : ∀ r, c.fails r = true → Counted leak (f r))
    (hok : ∀ r, c.fails r = false → Released leak (f r)) : Released leak (onFile c >>= f) := by
  intro s hs r t ht
  cases ht
  cases hr : c.fails r with
  | false => exact hok r hr s hs
  | true =>
    refine ends_mono (hfail r hr _) fun _ u htu => ?_
    refine Grown.trans ⟨1, ?_, ?_⟩ htu
    · rw [if_pos rfl, List.countP_append, List.countP_singleton, h]
      rfl
    · exact (Nat.sub_add_cancel hs).symm

theorem released_unlock : Released leak idbmUnlock := by
  intro s hs r t ht
  cases ht
  refine ⟨0, rfl, ?_⟩
  dsimp only
  split <;> omega

theorem released_unlock_return (a : α) :
    Released leak (idbmUnlock >>= fun _ => (pure a : Idbm α)) := by
  intro s hs
  exact ends_then (released_unlock s hs) fun _ _ h => h

/-- Take the lock, and give it back on the one side. On the other there is no reference. -/
theorem counted_lock_or {p q : Idbm α} (hp : Released leak p)
    (hq : ∀ s, s.refs = 0 → q.Ends moves (fun _ t => Grown leak s t) s) :
    Counted leak (idbmLock >>= fun ok => if ok = true then p else q) := by
  intro s r t ht
  have hstep : moves s .lock r = some t := ht
  cases r with
  | true =>
    have ht' : t = { s with refs := s.refs + 1 } := by
      rw [moves] at hstep
      split at hstep
      · exact (Option.some.inj hstep).symm
      · rename_i hzero
        rw [← Option.some.inj hstep, if_pos rfl, Nat.eq_zero_of_not_pos hzero]
    subst ht'
    exact hp { s with refs := s.refs + 1 } (Nat.succ_pos _)
  | false =>
    rw [moves] at hstep
    split at hstep
    · cases hstep
    · rename_i hpos
      have hzero := Nat.eq_zero_of_not_pos hpos
      obtain rfl : t = s := by rw [← Option.some.inj hstep, if_neg Bool.false_ne_true, ← hzero]
      exact hq _ hzero

theorem counted_lock {p q : Idbm α} (hp : Released leak p) (hq : Counted leak q) :
    Counted leak (idbmLock >>= fun ok => if ok = true then p else q) :=
  counted_lock_or hp fun s _ => hq s

theorem counted_locked {err : α} {body : Idbm α} (h : Counted leak body) :
    Counted leak (locked err body) :=
  counted_lock (released_bind h fun a => released_unlock_return a) (counted_pure err)

/-- An unlock after a lock call that failed finds no reference. -/
theorem counted_lock_out {p : Idbm α} (hp : Released leak p) (a : α) :
    Counted leak (idbmLock >>= fun ok =>
      if ok = true then p else (idbmUnlock >>= fun _ => pure a)) := by
  refine counted_lock_or hp fun s hzero r t ht => ?_
  cases ht
  exact ⟨0, rfl, by simp [hzero]⟩

end Counting

/-! ### The functions of `usr` -/

/-- A reference is lost when `scandir` fails in `idbm_delete_node`. -/
def scans : FileSystem.Call → Bool
  | .scandir _ => true
  | _ => false

section Store

variable {rec : Field → Val}

theorem counted_write (p : Path) (text : List UInt8) : Counted scans (write p text) := by
  refine counted_call fun ok => ?_
  cases ok with
  | false => exact counted_pure false
  | true => exact counted_call fun _ => counted_pure true

theorem counted_ensureDir (p : Path) : Counted scans (ensureDir p) := by
  refine counted_call fun kind => ?_
  cases kind with
  | none => exact counted_file rfl
  | some _ => exact counted_pure true

theorem counted_openConf (p : Path) : Counted scans (openConf p rec) :=
  counted_bind (counted_write p _) fun _ => counted_ite (counted_pure 0) (counted_pure _)

theorem counted_mkdirPortal : Counted scans (mkdirPortal rec) :=
  counted_bind (counted_ensureDir _) fun _ => counted_ite (counted_openConf _) (counted_pure _)

theorem counted_storeRec : Counted scans (storeRec rec) := by
  have hunknown : Counted scans (if IdbmRecord.num rec .tpgt = portalGroupTagUnknown then
      openConf (keyOf rec).oldPortal rec else mkdirPortal rec) := by
    split
    · exact counted_openConf _
    · exact counted_mkdirPortal
  have hconvert : Counted scans (if IdbmRecord.num rec .tpgt = portalGroupTagUnknown then
      openConf (keyOf rec).oldPortal rec
      else (unlink (keyOf rec).oldPortal >>= fun ok =>
        if ok = true then mkdirPortal rec else pure iscsiErrIdbm)) := by
    split
    · exact counted_openConf _
    · exact counted_call fun _ => counted_ite counted_mkdirPortal (counted_pure _)
  refine counted_call fun kind => ?_
  cases kind with
  | none => exact hunknown
  | some kind =>
    cases kind with
    | dir => exact counted_pure _
    | file => exact hconvert
    | other => exact hconvert

theorem counted_idbmRecWrite (disableLock : Bool) : Counted scans (idbmRecWrite rec disableLock) := by
  refine counted_bind (counted_ensureDir _) fun _ => counted_ite ?_ (counted_pure _)
  refine counted_bind (counted_ensureDir _) fun _ => counted_ite ?_ (counted_pure _)
  exact counted_ite counted_storeRec (counted_locked counted_storeRec)

theorem counted_recReadFileLocked (conf : Path) (disableLock : Bool) :
    Counted scans (recReadFileLocked conf disableLock) := by
  have hread : Counted scans (recReadFile conf) := by
    refine counted_call fun text => ?_
    cases text with
    | none => exact counted_pure _
    | some text => exact counted_pure _
  exact counted_ite hread (counted_locked hread)

theorem counted_idbmRecRead (k : Key) (disableLock : Bool) :
    Counted scans (idbmRecRead k disableLock) := by
  refine counted_call fun kind => ?_
  cases kind with
  | some _ => exact counted_recReadFileLocked _ _
  | none =>
    dsimp only
    split
    · exact counted_pure _
    · refine counted_call fun kind => ?_
      cases kind with
      | some _ => exact counted_recReadFileLocked _ _
      | none => exact counted_pure _

theorem counted_linkUnder (dir : Path) (k : Key) : Counted scans (linkUnder dir k) :=
  counted_bind (counted_ensureDir _) fun _ => counted_ite (counted_pure _) (counted_pure _)

theorem counted_isnsLink (rc : Int) : Counted scans (isnsLink rec rc) := by
  refine counted_call fun kind => ?_
  cases kind with
  | some _ => exact counted_pure _
  | none =>
    refine counted_call fun kind => ?_
    cases kind with
    | none => exact counted_pure _
    | some kind => cases kind <;> exact counted_pure _

theorem counted_setupDiscToNodeLink : Counted scans (setupDiscToNodeLink rec) := by
  unfold setupDiscToNodeLink
  cases discType rec with
  | none => exact counted_pure _
  | some type =>
    cases type with
    | sendtargets => exact counted_pure _
    | isns =>
      exact counted_bind (counted_ensureDir _) fun _ =>
        counted_ite (counted_isnsLink _) (counted_isnsLink _)
    | offloadSendtargets => exact counted_pure _
    | slp => exact counted_pure _
    | static => exact counted_linkUnder _ _
    | fw => exact counted_linkUnder _ _

theorem counted_rmLink (portal : Path) : Counted scans (rmLink portal) := by
  refine counted_call fun kind => ?_
  cases kind with
  | none => exact counted_pure _
  | some _ =>
    exact counted_call fun _ => counted_ite (counted_pure _) (counted_pure _)

theorem counted_idbmRemoveDiscToNodeLink (k : Key) :
    Counted scans (idbmRemoveDiscToNodeLink k) := by
  refine counted_bind (counted_recReadFileLocked _ _) fun read => ?_
  cases read with
  | error _ => exact counted_pure _
  | ok tmprec =>
    refine counted_bind counted_setupDiscToNodeLink fun (rc, portal) => ?_
    dsimp only
    split
    · exact counted_pure _
    · exact counted_locked (counted_rmLink portal)

theorem released_rmTargetDir (k : Key) : Released scans (rmTargetDir k) :=
  released_bind (counted_file rfl) fun _ => released_unlock_return _

/-- The end of `idbm_delete_node` gives the lock back, unless `scandir` fails. -/
theorem released_rmDirs (k : Key) : Released scans (rmDirs k) := by
  refine released_bind (counted_file rfl) fun kind => ?_
  cases kind with
  | none => exact released_rmTargetDir k
  | some _ =>
    refine released_file rfl (fun names hfail => ?_) fun names hok => ?_
    · cases names with
      | error _ => exact counted_pure _
      | ok _ => cases hfail
    · cases names with
      | error _ => cases hok
      | ok names =>
        dsimp only
        split
        · refine released_bind (counted_file rfl) fun removed => ?_
          cases removed with
          | true => exact released_rmTargetDir k
          | false => exact released_unlock_return _
        · exact released_rmTargetDir k

theorem released_rmConf (k : Key) (conf : Path) : Released scans (rmConf k conf) := by
  refine released_bind (counted_file rfl) fun removed => ?_
  cases removed with
  | true => exact released_rmDirs k
  | false => exact released_unlock_return _

theorem counted_idbmDeleteNode (k : Key) : Counted scans (idbmDeleteNode k) := by
  refine counted_bind (counted_idbmRemoveDiscToNodeLink k) fun rc => ?_
  split
  · exact counted_pure _
  · refine counted_lock (released_bind (counted_file rfl) fun kind => ?_) (counted_pure _)
    cases kind with
    | some _ => exact released_rmConf k _
    | none =>
      refine released_bind (counted_file rfl) fun kind => ?_
      cases kind with
      | some _ => exact released_rmConf k _
      | none => exact released_unlock_return _

theorem counted_linkNode : Counted scans (linkNode rec) := by
  refine counted_bind counted_setupDiscToNodeLink fun (rc, portal) => ?_
  dsimp only
  split
  · exact counted_pure _
  · refine counted_call fun result => ?_
    cases result <;> exact counted_pure _

theorem counted_addRec (drec : Option Drec) : Counted scans (addRec rec drec) := by
  cases drec with
  | none => exact counted_idbmRecWrite _
  | some d =>
    refine counted_bind (counted_idbmRecWrite _) fun rc => ?_
    split
    · exact counted_pure _
    · exact counted_linkNode

theorem counted_idbmAddNode (drec : Option Drec) (overwrite : Bool) :
    Counted scans (idbmAddNode rec drec overwrite) := by
  have hadd : ∀ r, Counted scans (addRec r drec >>= fun rc => pure (some rc)) := fun r =>
    counted_bind (counted_addRec drec) fun _ => counted_pure _
  refine counted_locked (counted_bind (counted_idbmRecRead _ _) fun read => ?_)
  cases read with
  | error _ => exact hadd rec
  | ok old =>
    refine counted_ite (counted_pure _) (counted_bind (counted_idbmDeleteNode _) fun rc => ?_)
    split
    · exact counted_pure _
    · cases drec with
      | none => exact counted_pure _
      | some d => exact hadd _

theorem counted_idbmDiscoveryRead (type : DiscoveryType) (address : List UInt8) (port : Int) :
    Counted scans (idbmDiscoveryRead type address port) := by
  unfold idbmDiscoveryRead
  cases discConfig type with
  | none => exact counted_pure _
  | some config =>
    refine counted_locked (counted_bind (counted_bind (counted_file rfl) fun kind => ?_) ?_)
    · cases kind with
      | none => exact counted_pure _
      | some kind => cases kind <;> exact counted_file rfl
    · intro text
      cases text <;> exact counted_pure _

theorem counted_idbmOpenRecW (portal : Path) (config : Name) (text : List UInt8) :
    Counted scans (idbmOpenRecW portal config text) := by
  have hmkdir : Counted scans (mkdirRec portal config text) :=
    counted_bind (counted_file rfl) fun _ => counted_ite (counted_write _ _) (counted_pure _)
  have hconvert : Counted scans (unlink portal >>= fun ok =>
      if ok = true then mkdirRec portal config text else pure false) :=
    counted_bind (counted_file rfl) fun _ => counted_ite hmkdir (counted_pure _)
  refine counted_call fun kind => ?_
  cases kind with
  | none => exact hmkdir
  | some kind =>
    cases kind with
    | dir => exact counted_write _ _
    | file => exact hconvert
    | other => exact hconvert

theorem counted_idbmAddDiscovery (drec : Drec) : Counted scans (idbmAddDiscovery drec) := by
  refine counted_bind (counted_idbmDiscoveryRead _ _ _) fun _ => ?_
  unfold idbmDiscoveryWrite
  cases discConfig drec.type with
  | none => exact counted_pure _
  | some config =>
    refine counted_locked (counted_bind (counted_ensureDir _) fun _ => ?_)
    refine counted_ite (counted_bind (counted_idbmOpenRecW _ _ _) fun _ => ?_) (counted_pure _)
    exact counted_ite (counted_pure _) (counted_pure _)

theorem counted_rmNodes (links : List Name) : Counted scans (rmNodes links) := by
  induction links with
  | nil => exact counted_pure _
  | cons link links ih =>
    rw [rmNodes]
    cases getParamsFromDiscLink link with
    | none => exact ih
    | some k => exact counted_bind (counted_idbmDeleteNode k) fun _ => ih

theorem counted_idbmRmDiscNodeLinks (dir : Path) : Counted scans (idbmRmDiscNodeLinks dir) := by
  refine counted_call fun links => ?_
  cases links with
  | none => exact counted_pure _
  | some links => exact counted_rmNodes links

theorem counted_idbmDeleteDiscovery (drec : Drec) : Counted scans (idbmDeleteDiscovery drec) := by
  unfold idbmDeleteDiscovery
  cases discConfig drec.type with
  | none => exact counted_pure _
  | some config =>
    have hold : ∀ portal, Counted scans (unlink portal >>= fun _ =>
        idbmRmDiscNodeLinks portal >>= fun _ => pure (some (0 : Int))) := fun portal =>
      counted_bind (counted_file rfl) fun _ =>
        counted_bind (counted_idbmRmDiscNodeLinks _) fun _ => counted_pure _
    refine counted_call fun kind => ?_
    cases kind with
    | none => exact counted_pure _
    | some kind =>
      cases kind with
      | dir =>
        refine counted_call fun _ => ?_
        refine counted_bind (counted_idbmRmDiscNodeLinks _) fun _ => ?_
        exact counted_call fun _ => counted_pure _
      | file => exact hold (sourceDir config.1 drec.address drec.port)
      | other => exact hold (sourceDir config.1 drec.address drec.port)

end Store

/-! ### Iterators -/

/-- A function that is called for each record. It may take the lock itself, and like the others
here it loses a reference only where `scandir` fails. -/
structure Visitor where
  fn : (Field → Val) → Idbm Int
  counted : ∀ rec, Counted scans (fn rec)

/-- For example, every record is deleted. -/
example : Visitor where
  fn rec := idbmDeleteNode (keyOf rec)
  counted rec := counted_idbmDeleteNode (keyOf rec)

section Iterators

variable (visitor : Visitor) (ruwLock : Bool)

theorem counted_visitIfaces (k : Key) (ifaces : List Name) (s : Progress) :
    Counted scans (visitIfaces visitor.fn k ruwLock ifaces s) := by
  induction ifaces generalizing s with
  | nil => exact counted_pure _
  | cons iface ifaces ih =>
    refine counted_bind (counted_recReadFileLocked _ _) fun read => ?_
    cases read with
    | error _ => exact ih s
    | ok rec => exact counted_bind (visitor.counted rec) fun rc => ih _

theorem counted_idbmForEachIface (k : Key) (found : Nat) :
    Counted scans (idbmForEachIface visitor.fn k ruwLock found) := by
  unfold idbmForEachIface
  split
  · refine counted_call fun ifaces => ?_
    cases ifaces with
    | none => exact counted_pure _
    | some ifaces => exact counted_visitIfaces visitor ruwLock k ifaces _
  · refine counted_call fun kind => ?_
    cases kind with
    | none => exact counted_pure _
    | some _ =>
      refine counted_bind (counted_recReadFileLocked _ _) fun read => ?_
      cases read with
      | error _ => exact counted_pure _
      | ok rec =>
        refine counted_bind (visitor.counted rec) fun rc => ?_
        split
        · exact counted_pure _
        · split <;> exact counted_pure _

theorem counted_portalFn (k : Key) (found : Nat) :
    Counted scans (portalFn visitor.fn ruwLock k found) :=
  counted_ite (counted_locked (counted_idbmForEachIface visitor ruwLock k found))
    (counted_idbmForEachIface visitor ruwLock k found)

theorem counted_visitPortals (target : Name) (portals : List Name) (s : Progress) :
    Counted scans (visitPortals (portalFn visitor.fn ruwLock) target portals s) := by
  induction portals generalizing s with
  | nil => exact counted_pure _
  | cons entry rest ih =>
    rw [visitPortals]
    cases portalOf target entry with
    | none => exact ih s
    | some k => exact counted_bind (counted_portalFn visitor ruwLock k _) fun _ => ih _

theorem counted_visitNodes (targets : List Name) (s : Progress) :
    Counted scans (visitNodes (idbmForEachPortal (portalFn visitor.fn ruwLock)) targets s) := by
  induction targets generalizing s with
  | nil => exact counted_pure _
  | cons target rest ih =>
    refine counted_bind (counted_bind (counted_file rfl) fun portals => ?_) fun _ => ih _
    cases portals with
    | none => exact counted_pure _
    | some portals => exact counted_visitPortals visitor ruwLock target portals _

theorem counted_idbmForEachRec : Counted scans (idbmForEachRec visitor.fn ruwLock) := by
  refine counted_call fun targets => ?_
  cases targets with
  | none => exact counted_pure _
  | some targets => exact counted_visitNodes visitor ruwLock targets _

end Iterators

/-! ### The functions of the library -/

section Library

/-- No failure leaks a reference. -/
def never : FileSystem.Call → Bool := fun _ => false

/-- A reference is lost when the file cannot be opened in `_iface_conf_write`. -/
def creates : FileSystem.Call → Bool
  | .create _ => true
  | _ => false

theorem counted_libScandir (p : Path) : Counted never (libScandir p) := by
  refine counted_call fun names => ?_
  cases names with
  | ok _ => exact counted_pure _
  | error e => cases e <;> exact counted_pure _

theorem counted_idbmIfaceGet (name : Name) : Counted never (idbmIfaceGet name) := by
  unfold idbmIfaceGet
  split
  · exact counted_pure _
  · refine counted_call fun text => ?_
    cases text <;> exact counted_pure _

theorem counted_getIfaces (names : List Name) (ifaces : List (Field → Val)) :
    Counted never (getIfaces names ifaces) := by
  induction names generalizing ifaces with
  | nil => exact counted_pure _
  | cons name rest ih =>
    refine counted_bind (counted_idbmIfaceGet name) fun iface => ?_
    cases iface with
    | error _ => exact counted_pure _
    | ok iface =>
      cases iface with
      | none => exact ih _
      | some _ => exact ih _

theorem counted_ifacesLocked : Counted never ifacesLocked := by
  refine counted_bind (counted_libScandir _) fun names => ?_
  cases names with
  | error _ => exact counted_pure _
  | ok names =>
    refine counted_bind (counted_getIfaces names []) fun ifaces => ?_
    cases ifaces <;> exact counted_pure _

theorem counted_iscsiIfacesGet : Counted never iscsiIfacesGet :=
  counted_lock_out (released_bind counted_ifacesLocked fun _ => released_unlock_return _) _

theorem counted_iscsiIfaceGet (name : Name) : Counted never (iscsiIfaceGet name) := by
  unfold iscsiIfaceGet
  split
  · exact counted_pure _
  · refine counted_locked (counted_bind (counted_idbmIfaceGet name) fun iface => ?_)
    cases iface with
    | error _ => exact counted_pure _
    | ok iface => cases iface <;> exact counted_pure _

theorem counted_nodeGet (conf : Path) (iface : Option Name) : Counted never (nodeGet conf iface) := by
  refine counted_call fun text => ?_
  cases text with
  | none => exact counted_pure _
  | some text =>
    dsimp only
    split <;> exact counted_pure _

theorem counted_getNodeIfaces (portal : Path) (ifaces : List Name) (nodes : Nodes) :
    Counted never (getNodeIfaces portal ifaces nodes) := by
  induction ifaces generalizing nodes with
  | nil => exact counted_pure _
  | cons iface rest ih =>
    refine counted_bind (counted_nodeGet _ _) fun node => ?_
    cases node with
    | error _ => exact counted_pure _
    | ok node => exact ih _

theorem counted_getPortal (portal : Path) (nodes : Nodes) :
    Counted never (getPortal portal nodes) := by
  refine counted_call fun kind => ?_
  cases kind with
  | none => exact counted_pure _
  | some kind =>
    cases kind with
    | file =>
      refine counted_bind (counted_nodeGet _ _) fun node => ?_
      cases node <;> exact counted_pure _
    | dir =>
      refine counted_bind (counted_libScandir _) fun ifaces => ?_
      cases ifaces with
      | error _ => exact counted_pure _
      | ok ifaces => exact counted_getNodeIfaces portal ifaces nodes
    | other => exact counted_pure _

theorem counted_getPortals (target : Path) (portals : List Name) (nodes : Nodes) :
    Counted never (getPortals target portals nodes) := by
  induction portals generalizing nodes with
  | nil => exact counted_pure _
  | cons portal rest ih =>
    refine counted_bind (counted_getPortal _ _) fun found => ?_
    cases found with
    | error _ => exact counted_pure _
    | ok nodes => exact ih nodes

theorem counted_getTargets (targets : List Name) (nodes : Nodes) :
    Counted never (getTargets targets nodes) := by
  induction targets generalizing nodes with
  | nil => exact counted_pure _
  | cons target rest ih =>
    refine counted_bind (counted_libScandir _) fun portals => ?_
    cases portals with
    | error _ => exact counted_pure _
    | ok portals =>
      refine counted_bind (counted_getPortals _ portals nodes) fun found => ?_
      cases found with
      | error _ => exact counted_pure _
      | ok nodes => exact ih nodes

theorem counted_iscsiNodesGet : Counted never iscsiNodesGet := by
  refine counted_lock_out (released_bind ?_ fun _ => released_unlock_return _) _
  refine counted_bind (counted_libScandir _) fun targets => ?_
  cases targets with
  | error _ => exact counted_pure _
  | ok targets => exact counted_getTargets targets []

theorem counted_ifaceConfWrite (iface : Field → Val) : Counted creates (ifaceConfWrite iface) := by
  unfold ifaceConfWrite
  refine counted_ite (counted_pure _) (counted_lock ?_ (counted_pure _))
  refine released_file rfl (fun ok hfail => ?_) fun ok hok => ?_
  · cases ok with
    | false => exact counted_pure _
    | true => cases hfail
  · cases ok with
    | false => cases hok
    | true => exact released_bind (counted_file rfl) fun _ => released_unlock_return _

end Library

/-! ### All operations -/

inductive Op where
  | recWrite (rec : Field → Val) (disableLock : Bool)
  | addNode (newrec : Field → Val) (drec : Option Drec) (overwrite : Bool)
  | deleteNode (rec : Field → Val)
  | addDiscovery (drec : Drec)
  | deleteDiscovery (drec : Drec)
  | forEachRec (visitor : Visitor) (ruwLock : Bool)
  | ifaceConfWrite (iface : Field → Val)
  | nodesGet
  | ifacesGet
  | ifaceGet (name : Name)

/-- The operation, without what it returns. -/
def Op.prog : Op → Idbm Unit
  | recWrite rec disableLock => idbmRecWrite rec disableLock >>= fun _ => pure ()
  | addNode newrec drec overwrite => idbmAddNode newrec drec overwrite >>= fun _ => pure ()
  | deleteNode rec => idbmDeleteNode (keyOf rec) >>= fun _ => pure ()
  | addDiscovery drec => idbmAddDiscovery drec >>= fun _ => pure ()
  | deleteDiscovery drec => idbmDeleteDiscovery drec >>= fun _ => pure ()
  | forEachRec visitor ruwLock => idbmForEachRec visitor.fn ruwLock >>= fun _ => pure ()
  | ifaceConfWrite iface => LibraryStore.ifaceConfWrite iface >>= fun _ => pure ()
  | nodesGet => iscsiNodesGet >>= fun _ => pure ()
  | ifacesGet => iscsiIfacesGet >>= fun _ => pure ()
  | ifaceGet name => iscsiIfaceGet name >>= fun _ => pure ()

/-- The calls whose failure costs an operation a reference: in `usr` a `scandir`, which only
`idbm_delete_node` calls, and in `_iface_conf_write` the `fopen`. -/
def Op.leak : Op → FileSystem.Call → Bool
  | ifaceConfWrite _ => creates
  | nodesGet | ifacesGet | ifaceGet _ => never
  | _ => scans

theorem Op.counted (op : Op) : Counted op.leak op.prog := by
  cases op with
  | recWrite rec disableLock => exact counted_discard (counted_idbmRecWrite disableLock) ()
  | addNode newrec drec overwrite => exact counted_discard (counted_idbmAddNode drec overwrite) ()
  | deleteNode rec => exact counted_discard (counted_idbmDeleteNode _) ()
  | addDiscovery drec => exact counted_discard (counted_idbmAddDiscovery drec) ()
  | deleteDiscovery drec => exact counted_discard (counted_idbmDeleteDiscovery drec) ()
  | forEachRec visitor ruwLock => exact counted_discard (counted_idbmForEachRec visitor ruwLock) ()
  | ifaceConfWrite iface => exact counted_discard (counted_ifaceConfWrite iface) ()
  | nodesGet => exact counted_discard counted_iscsiNodesGet ()
  | ifacesGet => exact counted_discard counted_iscsiIfacesGet ()
  | ifaceGet name => exact counted_discard (counted_iscsiIfaceGet name) ()

/-- The count on return is the one on entry exactly if none of these calls failed. -/
theorem refs_balanced_iff (op : Op) (refs : Nat) :
    op.prog.Ends moves (fun _ s => s.refs = refs ↔ ∀ c ∈ s.failures, op.leak c = false)
      { refs } := by
  refine ends_mono (op.counted { refs }) fun _ s hs => ?_
  obtain ⟨n, hn, hrefs⟩ := hs
  rw [List.countP_nil, Nat.zero_add] at hn
  have hzero : n = 0 ↔ ∀ c ∈ s.failures, op.leak c = false := by
    rw [← hn, List.countP_eq_zero]
    simp only [Bool.not_eq_true]
  rw [← hzero]
  dsimp only at hrefs
  omega

def diskRec : Field → Val
  | .name => .text (CString.ascii "iqn.2004-04.com.example:disk1")
  | .tpgt => .num 1
  | .connAddress => .text (CString.ascii "10.0.0.1")
  | .connPort => .num 3260
  | f => IdbmRecord.idbmNodeSetupDefaults f

/-- A node whose portal directory cannot be read once its file is gone, and an interface whose
file cannot be opened, cost a reference each. -/
theorem refs_leaked :
    ¬ (Op.deleteNode diskRec).prog.Ends moves (fun _ s => s.refs = 0) { refs := 0 } ∧
      ¬ (Op.ifaceConfWrite IdbmRecord.etherIface.val).prog.Ends moves (fun _ s => s.refs = 0)
        { refs := 0 } := by
  constructor
  · intro h
    -- the record is read and its link looked for; then its file is found and removed
    have hend : (1 : Nat) = 0 := h true _ rfl (some []) _ rfl () _ rfl (some .dir) _ rfl true _ rfl
      none _ rfl () _ rfl true _ rfl none _ rfl (some .file) _ rfl true _ rfl (some .dir) _ rfl
      (.error .nomem) _ rfl
    exact absurd hend (by decide)
  · intro h
    have hname : iscsiIsDefaultIface (IdbmRecord.str IdbmRecord.etherIface.val .ifaceName) = false :=
      by decide
    rw [Op.prog, LibraryStore.ifaceConfWrite, hname] at h
    have hend : (1 : Nat) = 0 := h true _ rfl false _ rfl
    exact absurd hend (by decide)

end LockBalance
