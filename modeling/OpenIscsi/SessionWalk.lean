import OpenIscsi.Lib.Runs

/-!
# Working on all sessions

`iscsi_sysfs_for_each_session` of `iscsi_sysfs.c` and `for_each_session` of `iscsiadm.c`.
In parallel, each session has a child process, and the results come back as eight bits
of an exit status, in the order in which the children end.
-/

namespace SessionWalk

open List

variable {ι : Type}

def iscsiErrNoObjsFound : Int := 21
def iscsiErrChildTerminated : Int := 31

/-- A session of the directory: its data, unless it is gone when it is read, and what
becomes of its child process. -/
structure Entry (ι : Type) where
  info : Option ι
  /-- `fork` succeeds. -/
  forks : Bool := true
  /-- The child dies by a signal. -/
  killed : Bool := false

/-- What `wait` stores. -/
inductive Status where
  | exited (code : Nat)
  | signaled
  deriving DecidableEq, Repr

inductive WaitResult where
  | child (status : Status)
  | failed (errno : Int)
  deriving DecidableEq, Repr

def echild : Int := 10

/-- `exit`: the parent sees the low eight bits. -/
def exitCode (rc : Int) : Nat := (rc % 256).toNat

structure Walk where
  rc : Int := 0
  nrFound : Nat
  /-- The children that have not been waited for. -/
  children : List Status := []
  deriving DecidableEq, Repr

/-- How the child of a session ends. -/
def childStatus (fn : ι → Int) (e : Entry ι) (info : ι) : Status :=
  if e.killed then .signaled else .exited (exitCode (fn info))

/-- The loop over the directory. -/
def visit (fn : ι → Int) (inParallel : Bool) : List (Entry ι) → Walk → Walk
  | [], w => w
  | e :: entries, w =>
    match e.info with
    -- raced: the session was shut down
    | none => visit fn inParallel entries { w with rc := 0 }
    | some info =>
      if inParallel then
        if e.forks then
          visit fn inParallel entries
            { w with rc := 0, children := w.children ++ [childStatus fn e info] }
        -- a fork that fails is only logged
        else visit fn inParallel entries { w with rc := 0 }
      else if 0 < fn info then { w with rc := fn info }
      else if fn info = 0 then visit fn inParallel entries { w with rc := 0, nrFound := w.nrFound + 1 }
      else visit fn inParallel entries { w with rc := 0 }

/-- One child in the `wait` loop: the first error is kept. -/
def collect (w : Walk) : Status → Walk
  | .signaled => if w.rc = 0 then { w with rc := iscsiErrChildTerminated } else w
  | .exited code =>
    if code ≠ 0 ∧ code ≠ 255 then if w.rc = 0 then { w with rc := code } else w
    else if code = 0 then { w with nrFound := w.nrFound + 1 }
    else w

def reap : List WaitResult → Walk → Walk
  | [], w => w
  | .failed errno :: _, w => if errno ≠ echild then { w with rc := errno } else w
  | .child status :: waits, w => reap waits (collect w status)

def iscsiSysfsForEachSession (fn : ι → Int) (inParallel : Bool) (entries : List (Entry ι))
    (waits : List WaitResult) (nrFound : Nat) : Int × Nat :=
  if entries = [] then (0, nrFound)
  else
    let w := visit fn inParallel entries { nrFound := nrFound }
    let w := if inParallel then reap waits w else w
    (w.rc, w.nrFound)

def forEachSession (fn : ι → Int) (inParallel : Bool) (named : Option ι) (entries : List (Entry ι))
    (waits : List WaitResult) : Int :=
  match named with
  | some info => fn info
  | none =>
    let r := iscsiSysfsForEachSession fn inParallel entries waits 0
    if r.1 ≠ 0 then r.1 else if r.2 = 0 then iscsiErrNoObjsFound else 0

/-! ## The parallel walk -/

/-- The child that a session gets. -/
def childOf (fn : ι → Int) (e : Entry ι) : Option Status :=
  if e.forks then e.info.map (childStatus fn e) else none

variable (fn : ι → Int) (entries : List (Entry ι)) (w : Walk)

theorem visit_parallel (hrc : w.rc = 0) :
    visit fn true entries w =
      { w with children := w.children ++ entries.filterMap (childOf fn) } := by
  induction entries generalizing w with
  | nil => simp [visit]
  | cons e entries ih =>
    cases hinfo : e.info with
    | none =>
      have hno : childOf fn e = none := by
        rw [childOf, hinfo]
        split <;> rfl
      rw [visit, hinfo, filterMap_cons, hno]
      exact (ih _ rfl).trans (by rw [← hrc])
    | some info =>
      rw [visit, hinfo, filterMap_cons]
      dsimp only
      rw [if_pos rfl]
      by_cases hforks : e.forks = true
      · have hchild : childOf fn e = some (childStatus fn e info) := by
          rw [childOf, if_pos hforks, hinfo]
          rfl
        rw [if_pos hforks, hchild]
        dsimp only
        rw [ih _ rfl, ← hrc, append_assoc]
        rfl
      · have hno : childOf fn e = none := by rw [childOf, if_neg hforks]
        rw [if_neg hforks, hno]
        exact (ih _ rfl).trans (by rw [← hrc])

def Status.found : Status → Bool
  | .exited code => code = 0
  | .signaled => false

/-- An end that counts as an error. -/
def Status.bad : Status → Bool
  | .exited code => code ≠ 0 ∧ code ≠ 255
  | .signaled => true

theorem collect_nrFound (status : Status) :
    (collect w status).nrFound = w.nrFound + if status.found then 1 else 0 := by
  cases status with
  | signaled =>
    dsimp only [collect]
    split <;> rfl
  | exited code =>
    dsimp only [collect]
    by_cases hzero : code = 0
    · simp [hzero, Status.found]
    · by_cases hnone : code = 255
      · simp [hnone, Status.found]
      · rw [if_pos ⟨hzero, hnone⟩]
        split <;> simp [Status.found, hzero]

theorem collect_rc (status : Status) :
    (collect w status).rc ≠ 0 ↔ w.rc ≠ 0 ∨ status.bad = true := by
  cases status with
  | signaled =>
    dsimp only [collect]
    by_cases hrc : w.rc = 0
    · simp [hrc, Status.bad, iscsiErrChildTerminated]
    · simp [hrc]
  | exited code =>
    dsimp only [collect]
    by_cases hbad : code ≠ 0 ∧ code ≠ 255
    · have hstatus : (Status.exited code).bad = true := decide_eq_true hbad
      rw [if_pos hbad, hstatus]
      by_cases hrc : w.rc = 0
      · simp [hrc, hbad.1]
      · simp [hrc]
    · have hstatus : (Status.exited code).bad = false := decide_eq_false hbad
      rw [if_neg hbad, hstatus]
      split <;> simp

def reaped (order : List Status) : List WaitResult := order.map .child ++ [.failed echild]

theorem reap_nrFound (order : List Status) (w : Walk) :
    (reap (reaped order) w).nrFound = w.nrFound + order.countP Status.found := by
  induction order generalizing w with
  | nil => rfl
  | cons status order ih =>
    have hstep : reap (reaped (status :: order)) w = reap (reaped order) (collect w status) := rfl
    rw [hstep, ih, collect_nrFound, countP_cons]
    omega

theorem reap_rc (order : List Status) (w : Walk) :
    (reap (reaped order) w).rc ≠ 0 ↔ w.rc ≠ 0 ∨ ∃ status ∈ order, status.bad = true := by
  induction order generalizing w with
  | nil => simp [reaped, reap]
  | cons status order ih =>
    have hstep : reap (reaped (status :: order)) w = reap (reaped order) (collect w status) := rfl
    rw [hstep, ih, collect_rc, exists_mem_cons_iff, or_assoc]

/-- What the function makes of the children does not depend on the order in which they end. -/
theorem parallel_walk (nrFound : Nat)
    {order : List Status} (horder : order.Perm (entries.filterMap (childOf fn))) :
    (iscsiSysfsForEachSession fn true entries (reaped order) nrFound).2 =
        nrFound + (entries.filterMap (childOf fn)).countP Status.found ∧
      ((iscsiSysfsForEachSession fn true entries (reaped order) nrFound).1 ≠ 0 ↔
        ∃ status ∈ entries.filterMap (childOf fn), status.bad = true) := by
  unfold iscsiSysfsForEachSession
  by_cases hempty : entries = []
  · rw [if_pos hempty, hempty]
    simp
  · rw [if_neg hempty]
    dsimp only
    rw [if_pos rfl, visit_parallel fn entries { nrFound := nrFound } rfl, reap_nrFound, reap_rc,
      horder.countP_eq]
    simp [horder.mem_iff]

/-- `iscsiadm` reports success exactly if no child ended badly and one found its session. -/
theorem forEachSession_parallel {order : List Status}
    (horder : order.Perm (entries.filterMap (childOf fn))) :
    forEachSession fn true none entries (reaped order) = 0 ↔
      (∀ status ∈ entries.filterMap (childOf fn), status.bad = false) ∧
        ∃ status ∈ entries.filterMap (childOf fn), status.found = true := by
  obtain ⟨hfound, hrc⟩ := parallel_walk fn entries 0 horder
  unfold forEachSession
  dsimp only
  rw [hfound, Nat.zero_add]
  by_cases hbad : ∃ status ∈ entries.filterMap (childOf fn), status.bad = true
  · rw [if_pos (hrc.mpr hbad)]
    obtain ⟨status, hmem, hstatus⟩ := hbad
    refine iff_of_false (hrc.mpr ⟨status, hmem, hstatus⟩) ?_
    rintro ⟨hgood, _⟩
    rw [hgood status hmem] at hstatus
    cases hstatus
  · rw [if_neg (mt hrc.mp hbad)]
    have hgood : ∀ status ∈ entries.filterMap (childOf fn), status.bad = false := by
      intro status hmem
      exact Bool.eq_false_of_not_eq_true (fun h => hbad ⟨status, hmem, h⟩)
    rw [and_iff_right hgood, ← countP_pos_iff]
    split
    · rename_i hzero
      exact iff_of_false (by decide) (by omega)
    · exact iff_of_true rfl (by omega)

theorem forEachSession_parallel_two :
    forEachSession id true none [⟨some 0, true, false⟩, ⟨some (-1), true, false⟩]
      (reaped [.exited 255, .exited 0]) = 0 :=
  (forEachSession_parallel id _ (by decide)).mpr (by decide)

/-! ## What should come back -/

/-- The function ran on the session and returned `rc`. -/
def Returned (fn : ι → Int) (e : Entry ι) (rc : Int) : Prop :=
  e.forks = true ∧ e.killed = false ∧ e.info.map fn = some rc

instance (fn : ι → Int) (e : Entry ι) (rc : Int) : Decidable (Returned fn e rc) :=
  inferInstanceAs (Decidable (_ ∧ _ ∧ _))

def ForkFailed (e : Entry ι) : Prop := e.info.isSome = true ∧ e.forks = false

def Died (e : Entry ι) : Prop := e.info.isSome = true ∧ e.forks = true ∧ e.killed = true

/-- The function failed on a session, a child died, or a session could not be processed. -/
def SomethingFailed (fn : ι → Int) (entries : List (Entry ι)) : Prop :=
  ∃ e ∈ entries, ForkFailed e ∨ Died e ∨ ∃ rc, 0 < rc ∧ Returned fn e rc

/-- The walk hides no result. -/
def HidesNothing (fn : ι → Int) (entries : List (Entry ι)) (nrFound : Nat) (r : Int × Nat) : Prop :=
  r.2 = nrFound + entries.countP (fun e => Returned fn e 0) ∧
    (r.1 ≠ 0 ↔ SomethingFailed fn entries)

theorem exitCode_eq_zero {rc : Int} : exitCode rc = 0 ↔ rc % 256 = 0 := by
  unfold exitCode
  omega

theorem exitCode_eq_255 {rc : Int} : exitCode rc = 255 ↔ rc % 256 = 255 := by
  unfold exitCode
  omega

theorem childOf_eq_exited {fn : ι → Int} {e : Entry ι} {code : Nat} :
    childOf fn e = some (.exited code) ↔ ∃ rc, Returned fn e rc ∧ exitCode rc = code := by
  unfold childOf Returned childStatus
  cases e.info with
  | none => simp
  | some info => cases e.forks <;> cases e.killed <;> simp

theorem childOf_eq_signaled {fn : ι → Int} {e : Entry ι} :
    childOf fn e = some .signaled ↔ Died e := by
  unfold childOf Died childStatus
  cases e.info with
  | none => simp
  | some info => cases e.forks <;> cases e.killed <;> simp

theorem exists_bad_iff :
    (∃ status ∈ entries.filterMap (childOf fn), status.bad = true) ↔
      ∃ e ∈ entries, Died e ∨ ∃ rc, (rc % 256 ≠ 0 ∧ rc % 256 ≠ 255) ∧ Returned fn e rc := by
  constructor
  · rintro ⟨status, hmem, hbad⟩
    obtain ⟨e, he, hchild⟩ := mem_filterMap.mp hmem
    refine ⟨e, he, ?_⟩
    cases status with
    | signaled => exact .inl (childOf_eq_signaled.mp hchild)
    | exited code =>
      obtain ⟨rc, hreturned, hcode⟩ := childOf_eq_exited.mp hchild
      obtain ⟨hzero, hnone⟩ := of_decide_eq_true hbad
      rw [← hcode] at hzero hnone
      exact .inr ⟨rc, ⟨mt exitCode_eq_zero.mpr hzero, mt exitCode_eq_255.mpr hnone⟩, hreturned⟩
  · rintro ⟨e, he, hdied | ⟨rc, ⟨hzero, hnone⟩, hreturned⟩⟩
    · exact ⟨.signaled, mem_filterMap.mpr ⟨e, he, childOf_eq_signaled.mpr hdied⟩, rfl⟩
    · refine ⟨.exited (exitCode rc),
        mem_filterMap.mpr ⟨e, he, childOf_eq_exited.mpr ⟨rc, hreturned, rfl⟩⟩, ?_⟩
      exact decide_eq_true ⟨mt exitCode_eq_zero.mp hzero, mt exitCode_eq_255.mp hnone⟩

theorem countP_found :
    (entries.filterMap (childOf fn)).countP Status.found =
      entries.countP (fun e => childOf fn e = some (.exited 0)) := by
  rw [countP_filterMap]
  apply countP_congr
  intro e _
  cases childOf fn e with
  | none => simp
  | some status => cases status <;> simp [Status.found]

/-- Where one test implies another, they count the same exactly if they agree. -/
theorem countP_eq_countP_iff {α : Type} {p q : α → Bool} (l : List α)
    (himp : ∀ a, p a = true → q a = true) :
    l.countP q = l.countP p ↔ ∀ a ∈ l, q a = true → p a = true := by
  induction l with
  | nil => simp
  | cons a l ih =>
    have hle : l.countP p ≤ l.countP q := countP_mono_left (fun x _ => himp x)
    rw [countP_cons, countP_cons, forall_mem_cons, ← ih]
    cases hp : p a with
    | true =>
      rw [himp a hp]
      simp
    | false =>
      cases hq : q a with
      | true =>
        simp
        omega
      | false => simp

/-- No negative result is read as a success, and a failed fork shows, or a negative result
other than `-1` is taken for an error, only together or beside a real failure. -/
def Visible (fn : ι → Int) (entries : List (Entry ι)) : Prop :=
  (∀ e ∈ entries, ∀ rc, rc < 0 → Returned fn e rc → rc % 256 ≠ 0) ∧
    ((∃ e ∈ entries, Died e ∨ ∃ rc, 0 < rc ∧ Returned fn e rc) ∨
      ((∃ e ∈ entries, ForkFailed e) ↔
        ∃ e ∈ entries, ∃ rc, rc < 0 ∧ rc % 256 ≠ 255 ∧ Returned fn e rc))

theorem returned_le {fn : ι → Int} (hfn : ∀ info, fn info ≤ 254) {e : Entry ι} {rc : Int}
    (h : Returned fn e rc) : rc ≤ 254 := by
  obtain ⟨info, _, hrc⟩ := Option.map_eq_some_iff.mp h.2.2
  rw [← hrc]
  exact hfn info

/-- The count is right exactly if no negative result ends in eight zero bits. -/
theorem count_iff {fn : ι → Int} (hfn : ∀ info, fn info ≤ 254) (entries : List (Entry ι)) :
    entries.countP (fun e => childOf fn e = some (.exited 0)) =
        entries.countP (fun e => Returned fn e 0) ↔
      ∀ e ∈ entries, ∀ rc, rc < 0 → Returned fn e rc → rc % 256 ≠ 0 := by
  rw [countP_eq_countP_iff]
  · apply forall₂_congr
    intro e _
    rw [decide_eq_true_iff, decide_eq_true_iff, childOf_eq_exited]
    constructor
    · intro hsame rc hneg hreturned hzero
      have hback := hsame ⟨rc, hreturned, exitCode_eq_zero.mpr hzero⟩
      have hrc : some rc = some 0 := hreturned.2.2.symm.trans hback.2.2
      cases hrc
      omega
    · rintro hnot ⟨rc, hreturned, hcode⟩
      have hzero := exitCode_eq_zero.mp hcode
      have hle := returned_le hfn hreturned
      by_cases hneg : rc < 0
      · exact absurd hzero (hnot rc hneg hreturned)
      · have hrc : rc = 0 := by omega
        rw [hrc] at hreturned
        exact hreturned
  · intro e hreturned
    rw [decide_eq_true_iff] at hreturned ⊢
    exact childOf_eq_exited.mpr ⟨0, hreturned, rfl⟩

/-- The error is right exactly if failed forks and misread results do not differ. -/
theorem error_iff {fn : ι → Int} (hfn : ∀ info, fn info ≤ 254) {entries : List (Entry ι)}
    (hcount : ∀ e ∈ entries, ∀ rc, rc < 0 → Returned fn e rc → rc % 256 ≠ 0) :
    ((∃ status ∈ entries.filterMap (childOf fn), status.bad = true) ↔
        SomethingFailed fn entries) ↔
      ((∃ e ∈ entries, Died e ∨ ∃ rc, 0 < rc ∧ Returned fn e rc) ∨
        ((∃ e ∈ entries, ForkFailed e) ↔
          ∃ e ∈ entries, ∃ rc, rc < 0 ∧ rc % 256 ≠ 255 ∧ Returned fn e rc)) := by
  have hbad : (∃ status ∈ entries.filterMap (childOf fn), status.bad = true) ↔
      (∃ e ∈ entries, Died e ∨ ∃ rc, 0 < rc ∧ Returned fn e rc) ∨
        ∃ e ∈ entries, ∃ rc, rc < 0 ∧ rc % 256 ≠ 255 ∧ Returned fn e rc := by
    rw [exists_bad_iff]
    constructor
    · rintro ⟨e, he, hdied | ⟨rc, ⟨hzero, hnone⟩, hreturned⟩⟩
      · exact .inl ⟨e, he, .inl hdied⟩
      · by_cases hneg : rc < 0
        · exact .inr ⟨e, he, rc, hneg, hnone, hreturned⟩
        · exact .inl ⟨e, he, .inr ⟨rc, by omega, hreturned⟩⟩
    · rintro (⟨e, he, hdied | ⟨rc, hpos, hreturned⟩⟩ | ⟨e, he, rc, hneg, hnone, hreturned⟩)
      · exact ⟨e, he, .inl hdied⟩
      · have hle := returned_le hfn hreturned
        exact ⟨e, he, .inr ⟨rc, by omega, hreturned⟩⟩
      · exact ⟨e, he, .inr ⟨rc, ⟨hcount e he rc hneg hreturned, hnone⟩, hreturned⟩⟩
  have hfailed : SomethingFailed fn entries ↔
      (∃ e ∈ entries, ForkFailed e) ∨
        ∃ e ∈ entries, Died e ∨ ∃ rc, 0 < rc ∧ Returned fn e rc := by
    unfold SomethingFailed
    simp only [and_or_left, exists_or]
  rw [hbad, hfailed]
  have hlogic : ∀ D F N : Prop, (D ∨ N ↔ F ∨ D) ↔ D ∨ (F ↔ N) := by
    intro D F N
    by_cases hD : D
    · simp only [hD, true_or, or_true]
    · simp only [hD, false_or, or_false]
      exact ⟨Iff.symm, Iff.symm⟩
  exact hlogic _ _ _

/-- In parallel, whatever the order in which the children end, no result is hidden exactly
if every negative result is read as one, and no failed fork is the only thing that went
wrong. -/
theorem parallel_hides_nothing_iff (fn : ι → Int) (hfn : ∀ info, fn info ≤ 254)
    (entries : List (Entry ι)) (nrFound : Nat) (order : List Status)
    (horder : order.Perm (entries.filterMap (childOf fn))) :
    HidesNothing fn entries nrFound
        (iscsiSysfsForEachSession fn true entries (reaped order) nrFound) ↔
      Visible fn entries := by
  obtain ⟨hfound, hrc⟩ := parallel_walk fn entries nrFound horder
  unfold HidesNothing Visible
  rw [hfound, hrc, countP_found, Nat.add_left_cancel_iff, count_iff hfn]
  exact and_congr_right (fun hcount => error_iff hfn hcount)

/-- A function that only tells whether a session matches. -/
def matchOnly (hit : Bool) : Int := if hit then 0 else -1

theorem matchOnly_visible {entries : List (Entry Bool)} (hforks : ∀ e ∈ entries, e.forks = true) :
    Visible matchOnly entries := by
  have hrc : ∀ {e : Entry Bool} {rc : Int}, Returned matchOnly e rc → rc = 0 ∨ rc = -1 := by
    intro e rc h
    obtain ⟨hit, _, hrc⟩ := Option.map_eq_some_iff.mp h.2.2
    rw [← hrc]
    cases hit
    · exact .inr rfl
    · exact .inl rfl
  constructor
  · intro e _ rc hneg hreturned
    have := hrc hreturned
    omega
  · refine .inr (iff_of_false ?_ ?_)
    · rintro ⟨e, he, _, hfailed⟩
      rw [hforks e he] at hfailed
      cases hfailed
    · rintro ⟨e, _, rc, hneg, hnone, hreturned⟩
      have := hrc hreturned
      omega

/-- One session of three does not match, and its child ends first. -/
theorem parallel_hides_nothing_three :
    HidesNothing matchOnly [⟨some true, true, false⟩, ⟨some false, true, false⟩,
      ⟨some true, true, false⟩] 0
      (iscsiSysfsForEachSession matchOnly true [⟨some true, true, false⟩,
        ⟨some false, true, false⟩, ⟨some true, true, false⟩]
        (reaped [.exited 255, .exited 0, .exited 0]) 0) :=
  (parallel_hides_nothing_iff matchOnly (by decide) _ 0 _ (by decide)).mpr
    (matchOnly_visible (by decide))

/-- A session whose child cannot be started, beside one that is found: no error. -/
theorem failed_fork_hidden :
    iscsiSysfsForEachSession matchOnly true [⟨some true, true, false⟩, ⟨some true, false, false⟩]
      (reaped [.exited 0]) 0 = (0, 1) ∧
    SomethingFailed matchOnly [⟨some true, true, false⟩, ⟨some true, false, false⟩] := by
  refine ⟨by decide, ⟨some true, false, false⟩, by simp, .inl ⟨rfl, rfl⟩⟩

end SessionWalk
