import OpenIscsi.SyncSession
import OpenIscsi.Lib.KeepNew

/-!
# The sessions of the discovery daemon

`update_sessions` of `discoveryd.c`: after a discovery the tracked records whose portals
were not sent again are logged out of, and the new records are tracked. `resolveSame`
says which names resolve to one address.
-/

namespace DiscoverySessions

open CString KeepNew SyncSession List

variable (resolveSame : Bytes → Bytes → Bool)

def matchAnySid : Nat := 0

def iscsiAddrMatch (address1 address2 : Bytes) : Bool :=
  address1 = [] || address1 = address2 || resolveSame address1 address2

def matchSession (r : NodeRec) (targetname address : Bytes) (port : Int) (iface : Iface)
    (sid : Nat) : Bool :=
  (r.sid = 0 || sid = 0 || r.sid = sid) && (r.name = [] || r.name = targetname) &&
    iscsiAddrMatch resolveSame r.address address && (r.port = -1 || port = r.port) &&
    ifaceMatch r.iface iface

def iscsiMatchSession (r : NodeRec) (info : SessionInfo) : Bool :=
  matchSession resolveSame r info.targetname info.persistentAddress info.persistentPort info.iface
    info.sid

/-- The comparison of `idbm_find_rec_in_list`: does a record of the list match this one? -/
def sameRec (r s : NodeRec) : Bool :=
  matchSession resolveSame r s.name s.address s.port s.iface matchAnySid

def idbmFindRecInList (recs : List NodeRec) (r : NodeRec) : Bool := found (sameRec resolveSame) recs r

def iscsiCheckForRunningSession (sessions : List SessionInfo) (r : NodeRec) : Bool :=
  sessions.any (iscsiMatchSession resolveSame r)

/-- The first two tests of the first loop: the record is not skipped. -/
def matched (icSourceName : Bytes) (targetname iname : Option Bytes) (r : NodeRec) : Bool :=
  (match targetname with
    | none => true
    | some targetname => r.name = targetname) &&
  match iname with
  | none => true
  | some iname =>
    if r.iface.iname ≠ [] ∧ r.iface.iname ≠ iname then false
    else iname = icSourceName

def logoutSession (recs : List NodeRec) (info : SessionInfo) : Bool :=
  recs.any (fun r => iscsiMatchSession resolveSame r info)

/-- What `update_sessions` leaves: the list `iscsi_targets`, the records that were
freed, and the logins and logouts it asked for. -/
structure Updated where
  iscsiTargets : List NodeRec
  freed : List NodeRec
  logins : List NodeRec
  logouts : List SessionInfo

/-- `update_sessions`. `running` are the sessions while it looks for new portals,
`sessions` those it reads for the logouts. -/
def updateSessions (icSourceName : Bytes) (running sessions : List SessionInfo)
    (iscsiTargets newRecs : List NodeRec) (targetname iname : Option Bytes) : Updated :=
  let isStale := fun r =>
    matched icSourceName targetname iname r && !idbmFindRecInList resolveSame newRecs r
  let staleRecs := iscsiTargets.filter isStale
  let kept := keepNew (sameRec resolveSame) ⟨iscsiTargets.filter (fun r => !isStale r), []⟩ newRecs
  { iscsiTargets := kept.list
    freed := kept.freed ++ staleRecs
    logins := newRecs.filter (fun r => !iscsiCheckForRunningSession resolveSame running r)
    logouts :=
      if staleRecs = [] then [] else sessions.filter (logoutSession resolveSame staleRecs) }

/-! ## The filter -/

/-- The initiator name of a record: its interface's, or the default. -/
def initiatorName (icSourceName : Bytes) (r : NodeRec) : Bytes :=
  if r.iface.iname = [] then icSourceName else r.iface.iname

/-- The record has the given target name and the given initiator name. -/
def Inside (icSourceName : Bytes) (targetname iname : Option Bytes) (r : NodeRec) : Prop :=
  (∀ name, targetname = some name → r.name = name) ∧
    ∀ name, iname = some name → initiatorName icSourceName r = name

/-- The record has the given target name, and its interface has the given initiator
name, which is not the default. -/
def OwnInitiator (icSourceName : Bytes) (targetname iname : Option Bytes) (r : NodeRec) : Prop :=
  (∀ name, targetname = some name → r.name = name) ∧
    r.iface.iname ≠ [] ∧ iname = some r.iface.iname ∧ r.iface.iname ≠ icSourceName

/-- The test of the initiator name, for a name that is given. -/
theorem matched_iname_iff (icSourceName iname : Bytes) (r : NodeRec) :
    (if r.iface.iname ≠ [] ∧ r.iface.iname ≠ iname then false
      else (iname = icSourceName : Bool)) = true ↔
      initiatorName icSourceName r = iname ∧
        (r.iface.iname = [] ∨ r.iface.iname = icSourceName) := by
  unfold initiatorName
  by_cases hempty : r.iface.iname = []
  · rw [if_neg (fun h => h.1 hempty), if_pos hempty, decide_eq_true_iff]
    exact ⟨fun h => ⟨h.symm, Or.inl hempty⟩, fun h => h.1.symm⟩
  · rw [if_neg hempty]
    by_cases heq : r.iface.iname = iname
    · rw [if_neg (fun h => h.2 heq), decide_eq_true_iff, ← heq]
      exact ⟨fun h => ⟨rfl, Or.inr h⟩, fun h => h.2.resolve_left hempty⟩
    · rw [if_pos ⟨hempty, heq⟩]
      exact iff_of_false Bool.false_ne_true (fun h => heq h.1)

/-- The tests let through what is inside the filter, except for such records. -/
theorem matched_iff (icSourceName : Bytes) (targetname iname : Option Bytes) (r : NodeRec) :
    matched icSourceName targetname iname r = true ↔
      Inside icSourceName targetname iname r ∧
        ¬ OwnInitiator icSourceName targetname iname r := by
  have htarget : (match targetname with
      | none => true
      | some targetname => (r.name = targetname : Bool)) = true ↔
      ∀ name, targetname = some name → r.name = name := by
    cases targetname with
    | none => exact iff_of_true rfl (fun _ h => (nomatch h))
    | some t =>
      rw [decide_eq_true_iff]
      exact ⟨fun h name hname => Option.some.inj hname ▸ h, fun h => h t rfl⟩
  unfold matched Inside OwnInitiator
  rw [Bool.and_eq_true, htarget]
  cases iname with
  | none =>
    exact ⟨fun h => ⟨⟨h.1, fun _ hname => (nomatch hname)⟩, fun hown => (nomatch hown.2.2.1)⟩,
      fun h => ⟨h.1.1, rfl⟩⟩
  | some i =>
    dsimp only
    rw [matched_iname_iff]
    constructor
    · rintro ⟨hname, hiname, hdefault⟩
      refine ⟨⟨hname, fun name h => Option.some.inj h ▸ hiname⟩, ?_⟩
      rintro ⟨_, hne, _, hown⟩
      exact hdefault.elim hne hown
    · rintro ⟨⟨hname, hiname⟩, hown⟩
      have hi := hiname i rfl
      refine ⟨hname, hi, ?_⟩
      by_contra hdefault
      rw [not_or] at hdefault
      have hsome : r.iface.iname = i := by
        unfold initiatorName at hi
        rw [if_neg hdefault.1] at hi
        exact hi
      exact hown ⟨hname, hdefault.1, congrArg some hsome.symm, hdefault.2⟩

theorem sameRec_refl (r : NodeRec) : sameRec resolveSame r r = true := by
  unfold sameRec matchSession iscsiAddrMatch ifaceMatch matchAnySid
  simp

/-- The tracked records are those outside the filter and the new ones, each once, and
the sessions of the others are logged out. -/
def Exact (icSourceName : Bytes) (sessions : List SessionInfo)
    (iscsiTargets newRecs : List NodeRec) (targetname iname : Option Bytes) (u : Updated) : Prop :=
  (∀ r ∈ u.iscsiTargets, r ∈ iscsiTargets ∨ r ∈ newRecs) ∧
  (∀ r ∈ u.iscsiTargets,
    (r ∈ iscsiTargets ∧ ¬ Inside icSourceName targetname iname r) ∨
      idbmFindRecInList resolveSame newRecs r = true) ∧
  (∀ r ∈ iscsiTargets, ¬ Inside icSourceName targetname iname r → r ∈ u.iscsiTargets) ∧
  (∀ r ∈ newRecs, idbmFindRecInList resolveSame u.iscsiTargets r = true) ∧
  Distinct (sameRec resolveSame) u.iscsiTargets ∧
  (u.iscsiTargets ++ u.freed).Perm (iscsiTargets ++ newRecs) ∧
  ∀ s, s ∈ u.logouts ↔ s ∈ sessions ∧ ∃ r ∈ iscsiTargets,
    Inside icSourceName targetname iname r ∧ idbmFindRecInList resolveSame newRecs r = false ∧
      iscsiMatchSession resolveSame r s = true

section Update

variable (icSourceName : Bytes) (running sessions : List SessionInfo)
  (iscsiTargets newRecs : List NodeRec) (targetname iname : Option Bytes)

/-- A tracked record is stale: it is let through and not among the new ones. -/
def stale (r : NodeRec) : Bool :=
  matched icSourceName targetname iname r && !idbmFindRecInList resolveSame newRecs r

theorem updateSessions_targets :
    ∃ added, (updateSessions resolveSame icSourceName running sessions iscsiTargets newRecs
        targetname iname).iscsiTargets =
      iscsiTargets.filter
        (fun r => !stale resolveSame icSourceName newRecs targetname iname r) ++ added ∧
      ∀ r ∈ added, r ∈ newRecs :=
  keepNew_list (sameRec resolveSame) _ newRecs

/-- A session is logged out exactly when it matches a stale record. -/
theorem updateSessions_logouts (s : SessionInfo) :
    s ∈ (updateSessions resolveSame icSourceName running sessions iscsiTargets newRecs
        targetname iname).logouts ↔
      s ∈ sessions ∧ ∃ r ∈ iscsiTargets,
        stale resolveSame icSourceName newRecs targetname iname r = true ∧
          iscsiMatchSession resolveSame r s = true := by
  have hrecs : logoutSession resolveSame
      (iscsiTargets.filter (stale resolveSame icSourceName newRecs targetname iname)) s = true ↔
      ∃ r ∈ iscsiTargets, stale resolveSame icSourceName newRecs targetname iname r = true ∧
        iscsiMatchSession resolveSame r s = true := by
    unfold logoutSession
    simp only [any_eq_true, mem_filter, and_assoc]
  rw [← hrecs]
  change s ∈ (if iscsiTargets.filter (stale resolveSame icSourceName newRecs targetname iname) = []
    then [] else sessions.filter _) ↔ _
  split
  · rename_i hnil
    rw [hnil]
    exact iff_of_false (fun h => (nomatch h)) (fun h => (nomatch h.2))
  · rw [mem_filter]
    rfl

/-- Every record ends on the list or is freed. -/
theorem updateSessions_perm :
    ((updateSessions resolveSame icSourceName running sessions iscsiTargets newRecs
        targetname iname).iscsiTargets ++
      (updateSessions resolveSame icSourceName running sessions iscsiTargets newRecs
        targetname iname).freed).Perm (iscsiTargets ++ newRecs) := by
  have hkept := keepNew_perm (sameRec resolveSame)
    ⟨iscsiTargets.filter
      (fun r => !stale resolveSame icSourceName newRecs targetname iname r), []⟩ newRecs
  have hsplit := filter_append_perm
    (stale resolveSame icSourceName newRecs targetname iname) iscsiTargets
  rw [append_nil] at hkept
  change (_ ++ (_ ++ iscsiTargets.filter
    (stale resolveSame icSourceName newRecs targetname iname))).Perm _
  rw [← append_assoc]
  refine (hkept.append_right _).trans ?_
  refine perm_append_comm.trans ?_
  rw [← append_assoc]
  exact hsplit.append_right newRecs

end Update

/-- After `update_sessions` on a list without duplicates the tracked records and the
logouts are exact, whatever the filter, if and only if every tracked record with the
given initiator name of its own, which is not the default, is among the new ones. -/
theorem update_sessions_exact_iff (icSourceName : Bytes) (running sessions : List SessionInfo)
    (iscsiTargets newRecs : List NodeRec) (targetname iname : Option Bytes)
    (hdistinct : Distinct (sameRec resolveSame) iscsiTargets) :
    Exact resolveSame icSourceName sessions iscsiTargets newRecs targetname iname
        (updateSessions resolveSame icSourceName running sessions iscsiTargets newRecs
          targetname iname) ↔
      ∀ r ∈ iscsiTargets, OwnInitiator icSourceName targetname iname r →
        idbmFindRecInList resolveSame newRecs r = true := by
  obtain ⟨added, hlist, hadded⟩ := updateSessions_targets resolveSame icSourceName running sessions
    iscsiTargets newRecs targetname iname
  constructor
  · rintro ⟨_, hexact, _⟩ r hr hown
    -- such a record is skipped and stays on the list, inside the filter
    have hskip : stale resolveSame icSourceName newRecs targetname iname r = false := by
      unfold stale
      rw [Bool.and_eq_false_iff]
      left
      rw [← Bool.not_eq_true, matched_iff]
      exact fun h => h.2 hown
    have hkept : r ∈ iscsiTargets.filter
        (fun r => !stale resolveSame icSourceName newRecs targetname iname r) := by
      rw [mem_filter, hskip]
      exact ⟨hr, rfl⟩
    have hstays := mem_append_left added hkept
    rw [← hlist] at hstays
    have hinside : Inside icSourceName targetname iname r := by
      refine ⟨hown.1, fun name hname => ?_⟩
      rw [hown.2.2.1] at hname
      unfold initiatorName
      rw [if_neg hown.2.1]
      exact Option.some.inj hname
    exact (hexact r hstays).resolve_left (fun h => h.2 hinside)
  · intro hown
    -- what is stale for the code is what is inside the filter and not new
    have hstale : ∀ r ∈ iscsiTargets,
        stale resolveSame icSourceName newRecs targetname iname r = true ↔
          Inside icSourceName targetname iname r ∧
            idbmFindRecInList resolveSame newRecs r = false := by
      intro r hr
      unfold stale
      rw [Bool.and_eq_true, matched_iff, Bool.not_eq_true']
      constructor
      · exact fun h => ⟨h.1.1, h.2⟩
      · rintro ⟨hin, hnew⟩
        refine ⟨⟨hin, fun ho => ?_⟩, hnew⟩
        rw [hown r hr ho] at hnew
        exact nomatch hnew
    refine ⟨?_, ?_, ?_, ?_, ?_, updateSessions_perm _ _ _ _ _ _ _ _, ?_⟩
    · intro r hr
      rw [hlist] at hr
      cases mem_append.mp hr with
      | inl hold => exact Or.inl (mem_filter.mp hold).1
      | inr hnew => exact Or.inr (hadded r hnew)
    · intro r hr
      rw [hlist] at hr
      cases mem_append.mp hr with
      | inl hold =>
        obtain ⟨hmem, hkeep⟩ := mem_filter.mp hold
        by_cases hin : Inside icSourceName targetname iname r
        · right
          by_contra hnew
          have htrue := (hstale r hmem).mpr ⟨hin, by simpa using hnew⟩
          rw [htrue] at hkeep
          exact nomatch hkeep
        · exact Or.inl ⟨hmem, hin⟩
      | inr hnew =>
        exact Or.inr (found_iff.mpr ⟨r, hadded r hnew, sameRec_refl resolveSame r⟩)
    · intro r hr hout
      rw [hlist]
      refine mem_append_left added (mem_filter.mpr ⟨hr, ?_⟩)
      rw [Bool.not_eq_true', ← Bool.not_eq_true]
      exact fun htrue => hout ((hstale r hr).mp htrue).1
    · exact keepNew_found (sameRec_refl resolveSame) _ newRecs
    · exact keepNew_distinct _ newRecs (hdistinct.filter _)
    · intro s
      rw [updateSessions_logouts]
      constructor
      · rintro ⟨hs, r, hr, htrue, hmatch⟩
        obtain ⟨hin, hnew⟩ := (hstale r hr).mp htrue
        exact ⟨hs, r, hr, hin, hnew, hmatch⟩
      · rintro ⟨hs, r, hr, hin, hnew, hmatch⟩
        exact ⟨hs, r, hr, (hstale r hr).mpr ⟨hin, hnew⟩, hmatch⟩

/-- A tracked record whose interface has the initiator name `i`. -/
def ownRec : NodeRec :=
  { name := ascii "t", address := ascii "a",
    iface := { name := ascii "f", transportName := ascii "tcp", iname := ascii "i" } }

def ownSession : SessionInfo where
  sid := 1
  targetname := ascii "t"
  tpgt := 1
  persistentAddress := ascii "a"
  persistentPort := 3260
  iface := { name := ascii "f", transportName := ascii "tcp", iname := ascii "i" }
  targetname_nulFree := by decide +kernel
  address_nulFree := by decide +kernel
  address_lt := by decide +kernel

/-- With no filter the portal that vanished is logged out of. -/
theorem vanished_portal_logged_out :
    Exact (fun _ _ => false) (ascii "d") [ownSession] [ownRec] [] none none
      (updateSessions (fun _ _ => false) (ascii "d") [] [ownSession] [ownRec] [] none none) :=
  (update_sessions_exact_iff (fun _ _ => false) (ascii "d") [] [ownSession] [ownRec] [] none none
    (pairwise_singleton _ _)).mpr (fun _ _ hown => (nomatch hown.2.2.1))

/-- With the initiator name of the record as filter it is not: the record stays and its
session goes on. -/
theorem own_initiator_kept :
    Distinct (sameRec (fun _ _ => false)) [ownRec] ∧
      Inside (ascii "d") none (some (ascii "i")) ownRec ∧
      iscsiMatchSession (fun _ _ => false) ownRec ownSession = true ∧
      (updateSessions (fun _ _ => false) (ascii "d") [] [ownSession] [ownRec] [] none
        (some (ascii "i"))).iscsiTargets = [ownRec] ∧
      (updateSessions (fun _ _ => false) (ascii "d") [] [ownSession] [ownRec] [] none
        (some (ascii "i"))).logouts = [] ∧
      ¬ Exact (fun _ _ => false) (ascii "d") [ownSession] [ownRec] [] none (some (ascii "i"))
        (updateSessions (fun _ _ => false) (ascii "d") [] [ownSession] [ownRec] [] none
          (some (ascii "i"))) := by
  have hinside : Inside (ascii "d") none (some (ascii "i")) ownRec := by
    refine ⟨fun _ h => (nomatch h), fun name hname => ?_⟩
    rw [← Option.some.inj hname]
    decide
  refine ⟨pairwise_singleton _ _, hinside, by decide, by decide, rfl, fun hexact => ?_⟩
  have hstays := hexact.2.1 ownRec (by decide)
  cases hstays with
  | inl h => exact h.2 hinside
  | inr h => exact nomatch h

end DiscoverySessions
