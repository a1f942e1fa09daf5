import OpenIscsi.Lib.Runs

/-!
# Refreshing the registration with an iSNS server

The registration and its refresh in `discoveryd.c`: `isns_scn_recv` with the timers it
runs, the entity queries that are answered later, and the list of refresh data. Of the
iSNS library it is assumed that a timer of `isns_add_timer` repeats until it is cancelled,
that a oneshot timer fires once, that cancelling without data cancels every timer of the
function, and that the answer to a query, or its failure, is reported once.
-/

namespace IsnsRefresh

open List

/-! ## State -/

inductive TimerFn where
  /-- `isns_reg_refresh_with_disc` -/
  | withDisc
  /-- `isns_reg_refresh_by_eid_qry` -/
  | byEidQry
  deriving DecidableEq, Repr

structure Timer where
  fn : TimerFn
  /-- The refresh data that the callback is given. -/
  data : Nat
  delay : Nat
  repeats : Bool
  deriving DecidableEq, Repr

/-- `isns_refresh_data`; its number stands for its address. -/
structure RefreshData where
  id : Nat
  xid : Nat := 0
  interval : Nat
  startTime : Nat
  deriving DecidableEq, Repr

structure Daemon where
  pollInval : Int
  registerNodes : Bool := true
  refreshInterval : Nat := 0
  refreshList : List RefreshData := []
  timers : List Timer := []
  /-- The transaction ids of the queries that have not been answered. -/
  queries : List Nat := []
  /-- The next allocation and the next transaction. -/
  nextId : Nat := 0
  nextXid : Nat := 1
  /-- History: the last registration succeeded with a period, and none was requested since. -/
  registered : Bool := false
  deriving DecidableEq, Repr

/-- What the rest of the system answers to one callback or one registration. -/
structure World where
  now : Nat := 0
  /-- The tries of `isns_disc_new_portals`. -/
  discovers : Nat → Bool := fun _ => true
  createClient : Bool := true
  createQuery : Bool := true
  transmit : Bool := true
  portalInfo : Bool := true
  buildObjs : Bool := true
  createRegistration : Bool := true
  register : Bool := true
  getObjects : Bool := true
  /-- The registration period of the entity, zero if there is none. -/
  interval : Nat := 0
  calloc : Bool := true
  /-- For each initiator name, whether its registration for notifications can be made,
  and whether the server accepts it. -/
  scn : List (Bool × Bool) := []

/-! ## Timers -/

def isnsAddTimer (d : Daemon) (delay : Nat) (fn : TimerFn) (data : Nat) : Daemon :=
  { d with timers := d.timers ++ [⟨fn, data, delay, true⟩] }

def isnsAddOneshotTimer (d : Daemon) (delay : Nat) (fn : TimerFn) (data : Nat) : Daemon :=
  { d with timers := d.timers ++ [⟨fn, data, delay, false⟩] }

def isnsCancelTimer (d : Daemon) (fn : TimerFn) : Daemon :=
  { d with timers := d.timers.filter (fun t => t.fn ≠ fn) }

def isnsCancelRefreshTimers (d : Daemon) : Daemon :=
  isnsCancelTimer (isnsCancelTimer d .withDisc) .byEidQry

/-! ## Refreshing -/

/-- Another registration is wanted. -/
def requestRegistration (d : Daemon) : Daemon := { d with registerNodes := true, registered := false }

/-- The loop of `isns_reg_refresh_with_disc`, from this try on. -/
def discLoop (discovers : Nat → Bool) (retries : Nat) : Nat → Bool
  | 0 => false
  | left + 1 => discovers retries || discLoop discovers (retries + 1) left

def isnsRegRefreshWithDisc (w : World) (d : Daemon) : Daemon :=
  if discLoop w.discovers 0 3 then d else requestRegistration d

def isnsFreeRefreshData (d : Daemon) (id : Nat) : Daemon :=
  { d with refreshList := d.refreshList.filter (fun r => r.id ≠ id) }

def rearm (d : Daemon) (data : Nat) : Daemon := isnsAddOneshotTimer d 2 .byEidQry data

def setXid (xid id : Nat) (r : RefreshData) : RefreshData := if r.id = id then { r with xid := xid } else r

def isnsRegRefreshByEidQry (w : World) (d : Daemon) (data : Nat) : Option Daemon :=
  match d.refreshList.find? (fun r => r.id = data) with
  | none => none
  | some r =>
    if r.startTime + r.interval ≤ w.now then
      some (requestRegistration (isnsFreeRefreshData d data))
    else if !w.createClient then some (rearm d data)
    else if !w.createQuery then some (rearm d data)
    else if !w.transmit then some (rearm d data)
    else
      some { d with
        queries := d.queries ++ [d.nextXid]
        refreshList := d.refreshList.map (setXid d.nextXid data)
        nextXid := d.nextXid + 1 }

def setStartTime (now id : Nat) (r : RefreshData) : RefreshData :=
  if r.id = id then { r with startTime := now } else r

def isnsEidQryRsp (w : World) (d : Daemon) (xid : Nat) (success : Bool) : Daemon :=
  match d.refreshList.find? (fun r => r.xid = xid) with
  | none => d
  | some r =>
    if !success then isnsAddOneshotTimer d 2 .byEidQry r.id
    else
      isnsAddOneshotTimer { d with refreshList := d.refreshList.map (setStartTime w.now r.id) }
        d.refreshInterval .byEidQry r.id

/-! ## Registering -/

/-- `isns_setup_registration_refresh`; the flag says whether it returns success. -/
def isnsSetupRegistrationRefresh (w : World) (d : Daemon) : Bool × Daemon :=
  if !w.getObjects then (false, d)
  else if w.interval = 0 then (true, d)
  else if !w.calloc then (false, d)
  else
    let half := w.interval / 2
    let interval := if half = 0 then w.interval else half
    let data := d.nextId
    let d := { d with
      nextId := d.nextId + 1
      refreshList := d.refreshList ++ [{ id := data, interval := w.interval, startTime := w.now }]
      refreshInterval := interval }
    if 0 < d.pollInval then
      let interval := if d.pollInval < (interval : Int) then d.pollInval.toNat else interval
      (true, isnsAddTimer { d with refreshInterval := interval } interval .withDisc data)
    else (true, isnsAddOneshotTimer d interval .byEidQry data)

/-- The loop over the initiator names in `isns_register_objs`. -/
def registerScns (d : Daemon) : List (Bool × Bool) → Bool × Daemon
  | [] => (true, d)
  | (created, accepted) :: nodes =>
    if !created then (false, isnsCancelRefreshTimers d)
    -- a user who polls may have a server without notifications
    else if !accepted && d.pollInval < 0 then (false, isnsCancelRefreshTimers d)
    else registerScns d nodes

def isnsRegisterObjs (w : World) (d : Daemon) : Bool × Daemon :=
  if !w.createRegistration || !w.register then (false, d)
  else if d.pollInval = 0 then (true, d)
  else
    let r := isnsSetupRegistrationRefresh w d
    if !r.1 then (false, r.2) else registerScns r.2 w.scn

def isnsScnRegister (w : World) (d : Daemon) : Bool × Daemon :=
  if !w.createClient || !w.portalInfo || !w.buildObjs then (false, d) else isnsRegisterObjs w d

def isnsClearRefreshList (d : Daemon) : Daemon := { d with refreshList := [] }

/-- The branch of `isns_scn_recv` for a registration that is wanted. -/
def registerNow (w : World) (d : Daemon) : Daemon :=
  let r := isnsScnRegister w (isnsClearRefreshList d)
  if r.1 then { r.2 with registerNodes := false, registered := decide (w.interval ≠ 0) } else r.2

/-! ## Runs -/

inductive Event where
  /-- `isns_run_timers` runs a timer. -/
  | fire (i : Nat) (w : World)
  /-- A query is answered, or fails. -/
  | answer (i : Nat) (success : Bool) (w : World)
  | register (w : World)

def runTimer (w : World) (d : Daemon) (i : Nat) (t : Timer) : Option Daemon :=
  let d := if t.repeats then d else { d with timers := d.timers.eraseIdx i }
  match t.fn with
  | .withDisc => some (isnsRegRefreshWithDisc w d)
  | .byEidQry => isnsRegRefreshByEidQry w d t.data

/-- One event; `none` is a use of freed memory. -/
def step (o : Option Daemon) (e : Event) : Option Daemon :=
  match o, e with
  | none, _ => none
  | some d, .fire i w =>
    match d.timers[i]? with
    | none => some d
    | some t => runTimer w d i t
  | some d, .answer i success w =>
    match d.queries[i]? with
    | none => some d
    | some xid => some (isnsEidQryRsp w { d with queries := d.queries.eraseIdx i } xid success)
  | some d, .register w => if d.registerNodes then some (registerNow w d) else some d

def run (pollInval : Int) (events : List Event) : Option Daemon :=
  Runs.run step (some { pollInval := pollInval }) events

/-! ## One chain -/

def Timer.Sound (d : Daemon) (t : Timer) : Prop :=
  (t.repeats = true ↔ t.fn = .withDisc) ∧ ∃ r ∈ d.refreshList, r.id = t.data

inductive Chain (d : Daemon) : Prop where
  | idle (ht : d.timers = []) (hq : d.queries = [])
  | timer (t : Timer) (ht : d.timers = [t]) (hq : d.queries = []) (hsound : t.Sound d)
  | query (xid : Nat) (ht : d.timers = []) (hq : d.queries = [xid])
    (hdata : ∃ r ∈ d.refreshList, r.xid = xid)

/-- The invariant of a run. -/
structure Single (d : Daemon) : Prop where
  pollInval : d.pollInval ≠ 0
  chain : Chain d
  wanted : d.registerNodes = true → d.timers = [] ∧ d.queries = [] ∧ d.registered = false
  registered : d.registered = true → d.timers.length + d.queries.length = 1

theorem cancel_timers (d : Daemon) : (isnsCancelRefreshTimers d).timers = [] := by
  unfold isnsCancelRefreshTimers isnsCancelTimer
  dsimp only
  rw [filter_filter, filter_eq_nil_iff]
  intro t _
  cases t.fn <;> simp

/-! ## A registration -/

/-- What a registration leaves: nothing, or one timer if there is a period. -/
structure Outcome (d : Daemon) (interval : Nat) (ok : Bool) (d' : Daemon) : Prop where
  pollInval : d'.pollInval = d.pollInval
  queries : d'.queries = d.queries
  wanted : d'.registerNodes = d.registerNodes
  registered : d'.registered = d.registered
  failed : ok = false → d'.timers = []
  plain : ok = true → interval = 0 → d'.timers = []
  period : ok = true → interval ≠ 0 → ∃ t, d'.timers = [t] ∧ t.Sound d'

variable {d : Daemon}

theorem Outcome.refused (htimers : d.timers = []) (interval : Nat) :
    Outcome d interval false d where
  pollInval := rfl
  queries := rfl
  wanted := rfl
  registered := rfl
  failed := fun _ => htimers
  plain := fun h => by cases h
  period := fun h => by cases h

theorem Outcome.cancelled {d' : Daemon} {interval : Nat} {ok : Bool} (h : Outcome d interval ok d') :
    Outcome d interval false (isnsCancelRefreshTimers d') where
  pollInval := h.pollInval
  queries := h.queries
  wanted := h.wanted
  registered := h.registered
  failed := fun _ => cancel_timers d'
  plain := fun hok => by cases hok
  period := fun hok => by cases hok

theorem setup_outcome (w : World) (htimers : d.timers = []) :
    Outcome d w.interval (isnsSetupRegistrationRefresh w d).1
      (isnsSetupRegistrationRefresh w d).2 := by
  unfold isnsSetupRegistrationRefresh
  split
  · exact Outcome.refused htimers _
  split
  · rename_i hzero
    exact ⟨rfl, rfl, rfl, rfl, fun _ => htimers, fun _ _ => htimers,
      fun _ hperiod => absurd hzero hperiod⟩
  rename_i hperiod
  split
  · exact Outcome.refused htimers _
  dsimp only
  split
  · refine ⟨rfl, rfl, rfl, rfl, fun h => Bool.noConfusion h, fun _ hzero => absurd hzero hperiod, ?_⟩
    intro _ _
    refine ⟨_, by rw [isnsAddTimer, htimers]; rfl, by simp, ?_⟩
    exact ⟨_, mem_append_right _ mem_cons_self, rfl⟩
  · refine ⟨rfl, rfl, rfl, rfl, fun h => Bool.noConfusion h, fun _ hzero => absurd hzero hperiod, ?_⟩
    intro _ _
    refine ⟨_, by rw [isnsAddOneshotTimer, htimers]; rfl, by simp, ?_⟩
    exact ⟨_, mem_append_right _ mem_cons_self, rfl⟩

theorem registerScns_outcome {d' : Daemon} {interval : Nat} (h : Outcome d interval true d')
    (nodes : List (Bool × Bool)) :
    Outcome d interval (registerScns d' nodes).1 (registerScns d' nodes).2 := by
  induction nodes with
  | nil => exact h
  | cons node nodes ih =>
    obtain ⟨created, accepted⟩ := node
    unfold registerScns
    split
    · exact h.cancelled
    · split
      · exact h.cancelled
      · exact ih

theorem scnRegister_outcome (w : World) (hpoll : d.pollInval ≠ 0) (htimers : d.timers = []) :
    Outcome d w.interval (isnsScnRegister w d).1 (isnsScnRegister w d).2 := by
  unfold isnsScnRegister isnsRegisterObjs
  split
  · exact Outcome.refused htimers _
  split
  · exact Outcome.refused htimers _
  have hsetup := setup_outcome w htimers
  generalize isnsSetupRegistrationRefresh w d = r at hsetup ⊢
  obtain ⟨ok, d'⟩ := r
  dsimp only at hsetup ⊢
  cases ok with
  | false => exact hsetup
  | true => exact registerScns_outcome hsetup w.scn

theorem Single.registerNow (h : Single d) (hwanted : d.registerNodes = true) (w : World) :
    Single (registerNow w d) := by
  obtain ⟨htimers, hqueries, hregistered⟩ := h.wanted hwanted
  have hout := scnRegister_outcome w (d := isnsClearRefreshList d) h.pollInval htimers
  unfold IsnsRefresh.registerNow
  generalize isnsScnRegister w (isnsClearRefreshList d) = r at hout ⊢
  obtain ⟨ok, d'⟩ := r
  dsimp only at hout ⊢
  have hpoll : d'.pollInval ≠ 0 := by
    rw [hout.pollInval]
    exact h.pollInval
  have hnone : d'.queries = [] := hout.queries.trans hqueries
  cases ok with
  | false =>
    rw [if_neg (by decide)]
    have hempty := hout.failed rfl
    have hnot : d'.registered = false := hout.registered.trans hregistered
    refine ⟨hpoll, .idle hempty hnone, fun _ => ⟨hempty, hnone, hnot⟩, ?_⟩
    intro hreg
    rw [hnot] at hreg
    cases hreg
  | true =>
    rw [if_pos rfl]
    by_cases hzero : w.interval = 0
    · have hempty := hout.plain rfl hzero
      refine ⟨hpoll, .idle hempty hnone, fun hreg => Bool.noConfusion hreg, ?_⟩
      intro hreg
      exact absurd hzero (of_decide_eq_true hreg)
    · obtain ⟨t, hone, hsound⟩ := hout.period rfl hzero
      refine ⟨hpoll, .timer t hone hnone hsound, fun hreg => Bool.noConfusion hreg, ?_⟩
      intro _
      dsimp only
      rw [hone, hnone]
      rfl

/-! ## Timers and answers -/

/-- A callback runs: its timer or its query is gone, and the next one is not there yet. -/
structure Between (d : Daemon) : Prop where
  pollInval : d.pollInval ≠ 0
  wanted : d.registerNodes = false
  timers : d.timers = []
  queries : d.queries = []

/-- A registration that is wanted finds nothing left of the last one. -/
theorem Between.requested (h : Between d) (id : Nat) :
    Single (requestRegistration (isnsFreeRefreshData d id)) where
  pollInval := h.pollInval
  chain := .idle h.timers h.queries
  wanted := fun _ => ⟨h.timers, h.queries, rfl⟩
  registered := fun hreg => Bool.noConfusion hreg

theorem Between.oneshot (h : Between d) {data : Nat} (hdata : ∃ r ∈ d.refreshList, r.id = data)
    (delay : Nat) :
    Single (isnsAddOneshotTimer d delay .byEidQry data) := by
  have hone : (isnsAddOneshotTimer d delay .byEidQry data).timers =
      [⟨.byEidQry, data, delay, false⟩] := by
    rw [isnsAddOneshotTimer, h.timers]
    rfl
  refine ⟨h.pollInval, .timer _ hone h.queries ⟨by simp, hdata⟩, ?_, ?_⟩
  · intro hwanted
    exact absurd (hwanted.symm.trans h.wanted) (by decide)
  · intro _
    rw [hone]
    dsimp only [isnsAddOneshotTimer]
    rw [h.queries]
    rfl

theorem Between.byEidQry (h : Between d) {data : Nat} (hdata : ∃ r ∈ d.refreshList, r.id = data)
    (w : World) :
    ∃ d', isnsRegRefreshByEidQry w d data = some d' ∧ Single d' := by
  unfold isnsRegRefreshByEidQry
  cases hfind : d.refreshList.find? (fun r => r.id = data) with
  | none =>
    obtain ⟨r, hmem, hid⟩ := hdata
    exact absurd (decide_eq_true hid) (find?_eq_none.mp hfind r hmem)
  | some r =>
    have hrearm : Single (rearm d data) := h.oneshot hdata 2
    dsimp only
    split
    · exact ⟨_, rfl, h.requested data⟩
    split
    · exact ⟨_, rfl, hrearm⟩
    split
    · exact ⟨_, rfl, hrearm⟩
    split
    · exact ⟨_, rfl, hrearm⟩
    refine ⟨_, rfl, h.pollInval, .query d.nextXid h.timers (by rw [h.queries]; rfl) ?_, ?_, ?_⟩
    · obtain ⟨r, hmem, hid⟩ := hdata
      refine ⟨setXid d.nextXid data r, mem_map_of_mem hmem, ?_⟩
      rw [setXid, if_pos hid]
    · intro hwanted
      exact absurd (hwanted.symm.trans h.wanted) (by decide)
    · intro _
      dsimp only
      rw [h.timers, h.queries]
      rfl

/-- An answer finds the data of its query and arms one timer. -/
theorem Between.eidQryRsp (h : Between d) {xid : Nat} (hdata : ∃ r ∈ d.refreshList, r.xid = xid)
    (w : World) (success : Bool) :
    Single (isnsEidQryRsp w d xid success) := by
  unfold isnsEidQryRsp
  cases hfind : d.refreshList.find? (fun r => r.xid = xid) with
  | none =>
    obtain ⟨r, hmem, hid⟩ := hdata
    exact absurd (decide_eq_true hid) (find?_eq_none.mp hfind r hmem)
  | some r =>
    have hmem := mem_of_find?_eq_some hfind
    dsimp only
    split
    · exact h.oneshot ⟨r, hmem, rfl⟩ 2
    · have hnew : Between { d with refreshList := d.refreshList.map (setStartTime w.now r.id) } :=
        ⟨h.pollInval, h.wanted, h.timers, h.queries⟩
      apply hnew.oneshot
      refine ⟨setStartTime w.now r.id r, mem_map_of_mem hmem, ?_⟩
      rw [setStartTime, if_pos rfl]

/-- Without a chain that was wanted anew, none is wanted now. -/
theorem Single.not_wanted (h : Single d) (hsome : d.timers ≠ [] ∨ d.queries ≠ []) :
    d.registerNodes = false := by
  apply Bool.eq_false_of_not_eq_true
  intro hwanted
  obtain ⟨htimers, hqueries, _⟩ := h.wanted hwanted
  rcases hsome with hsome | hsome
  · exact hsome htimers
  · exact hsome hqueries

/-! ## Every run -/

/-- A refresh by discovery succeeds within its three tries. -/
def Refreshes (o : Option Daemon) (e : Event) : Prop :=
  ∀ d i w t, o = some d → e = .fire i w → d.timers[i]? = some t → t.fn = .withDisc →
    ∃ n < 3, w.discovers n = true

theorem discLoop_of_success {discovers : Nat → Bool} (left : Nat) {retries n : Nat}
    (hle : retries ≤ n) (hlt : n < retries + left) (hn : discovers n = true) :
    discLoop discovers retries left = true := by
  induction left generalizing retries with
  | zero => omega
  | succ left ih =>
    rw [discLoop, Bool.or_eq_true]
    by_cases heq : retries = n
    · exact .inl (heq ▸ hn)
    · exact .inr (ih (by omega) (by omega))

theorem Single.fire (h : Single d) {i : Nat} {t : Timer} (hget : d.timers[i]? = some t) (w : World)
    (hgood : t.fn = .withDisc → ∃ n < 3, w.discovers n = true) :
    ∃ d', runTimer w d i t = some d' ∧ Single d' := by
  have hnot := h.not_wanted (.inl (ne_nil_of_mem (mem_of_getElem? hget)))
  cases h.chain with
  | idle ht hq =>
    rw [ht] at hget
    cases hget
  | query xid ht hq hdata =>
    rw [ht] at hget
    cases hget
  | timer t' ht hq hsound =>
    have hzero : i = 0 ∧ t' = t := by
      rw [ht] at hget
      cases i with
      | zero => exact ⟨rfl, Option.some.inj hget⟩
      | succ i => cases hget
    obtain ⟨rfl, rfl⟩ := hzero
    obtain ⟨hrepeats, hdata⟩ := hsound
    unfold runTimer
    cases hfn : t'.fn with
    | withDisc =>
      obtain ⟨n, hn, hok⟩ := hgood hfn
      have hloop := discLoop_of_success 3 (Nat.zero_le n) hn hok
      rw [if_pos (hrepeats.mpr hfn)]
      refine ⟨d, ?_, h⟩
      dsimp only
      rw [isnsRegRefreshWithDisc, if_pos hloop]
    | byEidQry =>
      rw [if_neg (by rw [hrepeats, hfn]; decide)]
      have hgone : Between { d with timers := d.timers.eraseIdx 0 } :=
        ⟨h.pollInval, hnot, by rw [ht]; rfl, hq⟩
      exact hgone.byEidQry hdata w

theorem Single.answer (h : Single d) {i xid : Nat} (hget : d.queries[i]? = some xid)
    (success : Bool) (w : World) :
    Single (isnsEidQryRsp w { d with queries := d.queries.eraseIdx i } xid success) := by
  have hnot := h.not_wanted (.inr (ne_nil_of_mem (mem_of_getElem? hget)))
  cases h.chain with
  | idle ht hq =>
    rw [hq] at hget
    cases hget
  | timer t ht hq hsound =>
    rw [hq] at hget
    cases hget
  | query xid' ht hq hdata =>
    have hzero : i = 0 ∧ xid' = xid := by
      rw [hq] at hget
      cases i with
      | zero => exact ⟨rfl, Option.some.inj hget⟩
      | succ i => cases hget
    obtain ⟨rfl, rfl⟩ := hzero
    have hgone : Between { d with queries := d.queries.eraseIdx 0 } :=
      ⟨h.pollInval, hnot, ht, by rw [hq]; rfl⟩
    exact hgone.eidQryRsp hdata w success

theorem step_single (h : Single d) (e : Event) (hgood : Refreshes (some d) e) :
    ∃ d', step (some d) e = some d' ∧ Single d' := by
  cases e with
  | fire i w =>
    unfold step
    dsimp only
    cases hget : d.timers[i]? with
    | none => exact ⟨d, rfl, h⟩
    | some t => exact h.fire hget w (fun hfn => hgood d i w t rfl rfl hget hfn)
  | answer i success w =>
    unfold step
    dsimp only
    cases hget : d.queries[i]? with
    | none => exact ⟨d, rfl, h⟩
    | some xid => exact ⟨_, rfl, h.answer hget success w⟩
  | register w =>
    unfold step
    dsimp only
    split
    · rename_i hwanted
      exact ⟨_, rfl, h.registerNow hwanted w⟩
    · exact ⟨d, rfl, h⟩

/-- While every refresh by discovery succeeds within its tries, at most one timer or query is
there, exactly one after a registration with a period, and its data was not freed. -/
theorem one_refresh (pollInval : Int) (hpoll : pollInval ≠ 0) (events : List Event)
    (hgood : Runs.Guarded step Refreshes (some { pollInval := pollInval }) events) :
    ∃ d, run pollInval events = some d ∧
      d.timers.length + d.queries.length ≤ 1 ∧
      (d.registered = true → d.timers.length + d.queries.length = 1) ∧
      ∀ t ∈ d.timers, ∃ r ∈ d.refreshList, r.id = t.data := by
  have hstart : Single { pollInval := pollInval } :=
    ⟨hpoll, .idle rfl rfl, fun _ => ⟨rfl, rfl, rfl⟩, fun hreg => Bool.noConfusion hreg⟩
  have hrun : ∃ d, run pollInval events = some d ∧ Single d := by
    refine Runs.Guarded.run_invariant (I := fun o => ∃ d, o = some d ∧ Single d) ?_
      ⟨_, rfl, hstart⟩ hgood
    rintro o e ⟨d, rfl, h⟩ hstep
    exact step_single h e hstep
  obtain ⟨d, heq, h⟩ := hrun
  refine ⟨d, heq, ?_, h.registered, ?_⟩
  · cases h.chain with
    | idle ht hq => simp [ht, hq]
    | timer t ht hq _ => simp [ht, hq]
    | query xid ht hq _ => simp [ht, hq]
  · intro t hmem
    cases h.chain with
    | idle ht hq =>
      rw [ht] at hmem
      cases hmem
    | query xid ht hq _ =>
      rw [ht] at hmem
      cases hmem
    | timer t' ht hq hsound =>
      rw [ht] at hmem
      rw [mem_singleton.mp hmem]
      exact hsound.2

/-- A registration with a period, refreshed by a query that fails once. -/
theorem one_refresh_by_query :
    ∃ d, run (-1) [.register { interval := 100 }, .fire 0 {}, .answer 0 false {}, .fire 0 {}] =
        some d ∧
      d.timers.length + d.queries.length ≤ 1 ∧
      (d.registered = true → d.timers.length + d.queries.length = 1) ∧
      ∀ t ∈ d.timers, ∃ r ∈ d.refreshList, r.id = t.data := by
  refine one_refresh (-1) (by decide) _ ⟨?_, ?_, ?_, ?_, trivial⟩
  · rintro d i w t hd he
    cases he
  · rintro d i w t hd he _ _
    cases he
    exact ⟨0, by decide, rfl⟩
  · rintro d i w t hd he
    cases he
  · rintro d i w t hd he _ _
    cases he
    exact ⟨0, by decide, rfl⟩

/-- A user who polls, and a server that is away for three tries and comes back: the timer
of the first registration stays beside the second one's, with data that was freed. -/
theorem disc_timer_kept :
    (run 60 [.register { interval := 100 }, .fire 0 { discovers := fun _ => false },
        .register { interval := 100 }]).map
      (fun d => (d.timers.map Timer.data, d.refreshList.map RefreshData.id)) =
      some ([0, 1], [1]) := by
  decide

end IsnsRefresh
