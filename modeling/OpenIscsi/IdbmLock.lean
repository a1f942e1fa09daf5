import OpenIscsi.Lib.Runs

/-!
# The lock of the record database

`idbm_lock` and `idbm_unlock` of `usr/idbm.c`, `_idbm_lock` and `_idbm_unlock` of
`libopeniscsiusr/idbm.c`, and how their callers use them. The lock is the link
`LOCK_WRITE_FILE`. Each agent has its own reference count: a process has one for
`usr` and one for each context of the library. Every attempt to link and every
unlink is one step, and the steps of all agents are interleaved in any order.
-/

namespace IdbmLock

/-- Who calls the lock: any caller in `usr`, or a function of the library. -/
inductive Caller where
  | usr
  | iscsiNodesGet
  | iscsiIfacesGet
  | ifaceConfWrite
  | iscsiIfaceGet
  | iscsiDefaultIfaceSetup
  deriving DecidableEq, Repr

/-- The function has its own `idbm_lock`, which does not look at the last result. -/
def Caller.ignoresTimeout : Caller → Bool
  | .usr => true
  | _ => false

/-- The function goes to its `_idbm_unlock` when the lock call fails. -/
def Caller.unlocksOnError : Caller → Bool
  | .iscsiNodesGet => true
  | .iscsiIfacesGet => true
  | _ => false

/-- Where an agent is: between calls, in the retry loop after some attempts, or at
`out` after a lock call that failed. -/
inductive Pc where
  | ready
  | linking (caller : Caller) (attempts : Nat)
  | out
  deriving DecidableEq, Repr

/-- `refs` is the field of `struct idbm`. The sections are the lock calls that have
returned success and have not been matched by an unlock, the last one first. -/
structure Agent where
  refs : Nat := 0
  pc : Pc := .ready
  sections : List Caller := []
  deriving DecidableEq, Repr

structure World (A : Type) where
  agent : A → Agent
  /-- Whose link call created `LOCK_WRITE_FILE`, if it exists. -/
  lockFile : Option A := none
  /-- Every unlink of an existing lock file: who did it, and who had created it. -/
  unlinks : List (A × A) := []

inductive Event (A : Type) where
  /-- A lock call, up to its retry loop; `dir` says whether `LOCK_DIR` is there. -/
  | lock (a : A) (caller : Caller) (dir : Bool)
  /-- One attempt to link; `err` is an error other than `EEXIST`. -/
  | link (a : A) (err : Bool)
  | unlock (a : A)

def maxAttempts : Nat := 3000

section Steps

variable {A : Type} [DecidableEq A]

def World.setAgent (w : World A) (a : A) (t : Agent) : World A :=
  { w with agent := Function.update w.agent a t }

/-- The lock call returns success with the count set to 1. -/
def acquired (w : World A) (a : A) (caller : Caller) : World A :=
  w.setAgent a { refs := 1, pc := .ready, sections := caller :: (w.agent a).sections }

/-- The lock call returns an error. -/
def failed (w : World A) (a : A) (caller : Caller) : World A :=
  w.setAgent a { w.agent a with pc := if caller.unlocksOnError then .out else .ready }

def lockCall (w : World A) (a : A) (caller : Caller) (dir : Bool) : World A :=
  let t := w.agent a
  if 0 < t.refs then
    w.setAgent a { t with refs := t.refs + 1, sections := caller :: t.sections }
  else if dir then w.setAgent a { t with pc := .linking caller 0 }
  else failed w a caller

/-- One round of the retry loop, and what follows the loop after the last one. -/
def linkAttempt (w : World A) (a : A) (caller : Caller) (attempts : Nat) (err : Bool) : World A :=
  if err then failed w a caller
  else
    match w.lockFile with
    | none => acquired { w with lockFile := some a } a caller
    | some _ =>
      if attempts + 1 < maxAttempts then
        w.setAgent a { w.agent a with pc := .linking caller (attempts + 1) }
      else if caller.ignoresTimeout then acquired w a caller
      else failed w a caller

def unlinkFile (w : World A) (a : A) : World A :=
  match w.lockFile with
  | some owner => { w with lockFile := none, unlinks := w.unlinks ++ [(a, owner)] }
  | none => w

def unlockCall (w : World A) (a : A) (sections : List Caller) : World A :=
  let t := w.agent a
  if 1 < t.refs then w.setAgent a { refs := t.refs - 1, pc := .ready, sections := sections }
  else unlinkFile (w.setAgent a { refs := 0, pc := .ready, sections := sections }) a

/-- An agent between calls may lock again or leave its last section; at `out` the
unlock call is on its way. -/
def step (w : World A) : Event A → World A
  | .lock a caller dir =>
    match (w.agent a).pc with
    | .ready => lockCall w a caller dir
    | _ => w
  | .link a err =>
    match (w.agent a).pc with
    | .linking caller attempts => linkAttempt w a caller attempts err
    | _ => w
  | .unlock a =>
    match (w.agent a).pc with
    | .out => unlockCall w a (w.agent a).sections
    | .ready =>
      match (w.agent a).sections with
      | _ :: sections => unlockCall w a sections
      | [] => w
    | _ => w

def run (w : World A) (es : List (Event A)) : World A := Runs.run step w es

/-- Nobody holds the lock and nobody is in a call. -/
def start : World A := { agent := fun _ => {} }

/-- The agent is between a lock call that returned success and its unlock. -/
def Inside (w : World A) (a : A) : Prop := (w.agent a).sections ≠ []

/-- At most one agent is inside, and only the creator has unlinked a lock file. -/
def Exclusive (w : World A) : Prop :=
  (∀ a b, Inside w a → Inside w b → a = b) ∧ ∀ u ∈ w.unlinks, u.1 = u.2

/-- The step is not the last attempt of a `usr` lock call that finds the file, and
not the failure of a lock call whose caller unlocks all the same. -/
def Patient (w : World A) : Event A → Prop
  | .lock a caller dir =>
    (w.agent a).refs = 0 → caller.unlocksOnError = true → dir = true
  | .link a err =>
    ∀ caller attempts, (w.agent a).pc = .linking caller attempts →
      (caller.ignoresTimeout = true → w.lockFile.isSome = true → attempts + 1 < maxAttempts) ∧
      (caller.unlocksOnError = true →
        err = false ∧ (w.lockFile.isSome = true → attempts + 1 < maxAttempts))
  | .unlock _ => True

/-! ## The invariant -/

/-- The count of an agent is the number of its sections, and it has one exactly if
its link is the lock file. -/
structure Held (w : World A) : Prop where
  counted : ∀ a, (w.agent a).refs = (w.agent a).sections.length
  owned : ∀ a, (w.agent a).sections ≠ [] ↔ w.lockFile = some a
  waiting : ∀ a caller attempts, (w.agent a).pc = .linking caller attempts →
    (w.agent a).sections = []
  noError : ∀ a, (w.agent a).pc ≠ .out
  unlinked : ∀ u ∈ w.unlinks, u.1 = u.2

variable {w : World A}

omit [DecidableEq A] in
theorem held_exclusive (h : Held w) : Exclusive w := by
  constructor
  · intro a b ha hb
    have hfile := (h.owned a).mp ha
    rw [(h.owned b).mp hb] at hfile
    exact (Option.some.inj hfile).symm
  · exact h.unlinked

omit [DecidableEq A] in
theorem held_start : Held (start : World A) := by
  constructor <;> intros <;> simp_all [start]

/-- One agent and the lock file change. -/
theorem Held.set (h : Held w) (a : A) {t : Agent} {file : Option A} {unlinks : List (A × A)}
    (hcount : t.refs = t.sections.length) (hself : t.sections ≠ [] ↔ file = some a)
    (hothers : ∀ b, b ≠ a → (w.lockFile = some b ↔ file = some b))
    (hlink : ∀ caller attempts, t.pc = .linking caller attempts → t.sections = [])
    (hout : t.pc ≠ .out) (hunlinks : ∀ u ∈ unlinks, u.1 = u.2) :
    Held { agent := Function.update w.agent a t, lockFile := file, unlinks := unlinks } := by
  constructor
  · intro b
    by_cases hb : b = a
    · subst hb
      simpa using hcount
    · simpa [hb] using h.counted b
  · intro b
    by_cases hb : b = a
    · subst hb
      simpa using hself
    · simpa [hb] using (h.owned b).trans (hothers b hb)
  · intro b caller attempts
    by_cases hb : b = a
    · subst hb
      simpa using hlink caller attempts
    · simpa [hb] using h.waiting b caller attempts
  · intro b
    by_cases hb : b = a
    · subst hb
      simpa using hout
    · simpa [hb] using h.noError b
  · exact hunlinks

omit [DecidableEq A] in
/-- Without a section of the agent, the file is not its own. -/
theorem Held.not_owner (h : Held w) {a : A} (ha : (w.agent a).sections = []) :
    w.lockFile ≠ some a := fun hfile => (h.owned a).mpr hfile ha

theorem Held.lockCall (h : Held w) (a : A) (hready : (w.agent a).pc = .ready) (caller : Caller)
    (dir : Bool) (hdir : (w.agent a).refs = 0 → caller.unlocksOnError = true → dir = true) :
    Held (lockCall w a caller dir) := by
  unfold IdbmLock.lockCall
  have hcount := h.counted a
  by_cases hrefs : 0 < (w.agent a).refs
  · have hne : (w.agent a).sections ≠ [] := by
      intro h0
      rw [h0] at hcount
      exact absurd hcount (Nat.ne_of_gt hrefs)
    rw [if_pos hrefs]
    refine h.set a ?_ ?_ (fun _ _ => Iff.rfl) ?_ ?_ h.unlinked
    · simp [hcount]
    · simp [(h.owned a).mp hne]
    · simp [hready]
    · simp [hready]
  · have hnil : (w.agent a).sections = [] := List.length_eq_zero_iff.mp (by omega)
    have hfile := h.not_owner hnil
    rw [if_neg hrefs]
    cases dir with
    | true =>
      exact h.set a (by exact hcount) (by simp [hnil, hfile]) (fun _ _ => Iff.rfl) (by simp [hnil])
        (by simp) h.unlinked
    | false =>
      have hcaller : caller.unlocksOnError = false := by
        cases hc : caller.unlocksOnError with
        | false => rfl
        | true => exact absurd (hdir (by omega) hc) (by decide)
      simp only [failed, hcaller]
      exact h.set a (by exact hcount) (by simp [hnil, hfile]) (fun _ _ => Iff.rfl) (by simp) (by simp)
        h.unlinked

theorem Held.linkAttempt (h : Held w) (a : A) (caller : Caller) (attempts : Nat)
    (hpc : (w.agent a).pc = .linking caller attempts) (err : Bool)
    (hlast : caller.ignoresTimeout = true → w.lockFile.isSome = true → attempts + 1 < maxAttempts)
    (hfail : caller.unlocksOnError = true → err = false ∧ (w.lockFile.isSome = true →
      attempts + 1 < maxAttempts)) :
    Held (linkAttempt w a caller attempts err) := by
  have hcount := h.counted a
  have hnil := h.waiting a caller attempts hpc
  have hfile := h.not_owner hnil
  have hfailed : caller.unlocksOnError = false → Held (failed w a caller) := by
    intro hcaller
    simp only [failed, hcaller]
    exact h.set a (by exact hcount) (by simp [hnil, hfile]) (fun _ _ => Iff.rfl) (by simp) (by simp) h.unlinked
  unfold IdbmLock.linkAttempt
  cases err with
  | true =>
    refine hfailed ?_
    cases hc : caller.unlocksOnError with
    | false => rfl
    | true => exact absurd (hfail hc).1 (by decide)
  | false =>
    cases hlock : w.lockFile with
    | none =>
      refine h.set a (by simp [hnil]) (by simp) (fun b hb => ?_) (by simp) (by simp) h.unlinked
      simp [hlock, Ne.symm hb]
    | some owner =>
      simp only [Bool.false_eq_true, if_false]
      split
      · exact h.set a (by exact hcount) (by simp [hnil, hfile]) (fun _ _ => Iff.rfl) (by simp [hnil]) (by simp)
          h.unlinked
      · rename_i hmax
        rw [hlock] at hlast hfail
        have htimeout : caller.ignoresTimeout = false := by
          cases hc : caller.ignoresTimeout with
          | false => rfl
          | true => exact absurd (hlast hc rfl) hmax
        rw [htimeout]
        refine hfailed ?_
        cases hc : caller.unlocksOnError with
        | false => rfl
        | true => exact absurd ((hfail hc).2 rfl) hmax

/-- An agent that leaves its last section unlinks its own file. -/
theorem Held.unlockCall (h : Held w) (a : A) {caller : Caller} {sections : List Caller}
    (hsec : (w.agent a).sections = caller :: sections) :
    Held (unlockCall w a sections) := by
  have hcount := h.counted a
  rw [hsec, List.length_cons] at hcount
  have hfile : w.lockFile = some a := (h.owned a).mp (by simp [hsec])
  unfold IdbmLock.unlockCall
  dsimp only
  by_cases hrefs : 1 < (w.agent a).refs
  · have hne : sections ≠ [] := by
      intro h0
      rw [h0] at hcount
      simp at hcount
      omega
    rw [if_pos hrefs]
    exact h.set a (by simp; omega) (by simp [hne, hfile]) (fun _ _ => Iff.rfl) (by simp) (by simp)
      h.unlinked
  · have hnil : sections = [] := List.length_eq_zero_iff.mp (by omega)
    rw [if_neg hrefs, unlinkFile, World.setAgent, hfile]
    refine h.set a (by simp [hnil]) (by simp [hnil]) (fun b hb => ?_) (by simp) (by simp) ?_
    · simp [hfile, Ne.symm hb]
    · intro u hu
      rcases List.mem_append.mp hu with hu | hu
      · exact h.unlinked u hu
      · rw [List.mem_singleton.mp hu]

theorem held_step (h : Held w) (e : Event A) (he : Patient w e) : Held (step w e) := by
  cases e with
  | lock a caller dir =>
    cases hpc : (w.agent a).pc with
    | ready =>
      simp only [step, hpc]
      exact h.lockCall a hpc caller dir he
    | linking caller' attempts => simpa only [step, hpc] using h
    | out => simpa only [step, hpc] using h
  | link a err =>
    cases hpc : (w.agent a).pc with
    | linking caller attempts =>
      obtain ⟨hlast, hfail⟩ := he caller attempts hpc
      simp only [step, hpc]
      exact h.linkAttempt a caller attempts hpc err hlast hfail
    | ready => simpa only [step, hpc] using h
    | out => simpa only [step, hpc] using h
  | unlock a =>
    cases hpc : (w.agent a).pc with
    | ready =>
      cases hsec : (w.agent a).sections with
      | nil => simpa only [step, hpc, hsec] using h
      | cons caller sections =>
        simp only [step, hpc, hsec]
        exact h.unlockCall a hsec
    | linking caller attempts => simpa only [step, hpc] using h
    | out => exact absurd hpc (h.noError a)

/-- Whatever the interleaving: as long as no `usr` lock call runs out of attempts and
no lock call of `iscsi_nodes_get` or `iscsi_ifaces_get` fails, at most one agent is
inside the lock, and the lock file is unlinked by its creator only. -/
theorem run_exclusive (es : List (Event A)) (hes : Runs.Guarded step Patient start es) :
    Exclusive (run (start : World A) es) := by
  have hheld : Held (run (start : World A) es) :=
    Runs.Guarded.run_invariant (I := Held) (fun _ e h he => held_step h e he) held_start hes
  exact held_exclusive hheld

/-- Attempts while the file exists change nothing but their count. -/
theorem retry_run (w : World A) (a : A) (caller : Caller) (hfile : w.lockFile.isSome = true)
    (n i : Nat) (hn : i + n < maxAttempts) (hpc : (w.agent a).pc = .linking caller i) :
    run w (List.replicate n (.link a false)) =
      w.setAgent a { w.agent a with pc := .linking caller (i + n) } := by
  induction n generalizing i w with
  | zero =>
    have hsame : w.agent a = { w.agent a with pc := .linking caller (i + 0) } := by
      rw [Nat.add_zero, ← hpc]
    rw [← hsame, World.setAgent, Function.update_eq_self]
    rfl
  | succ n ih =>
    have hstep : step w (.link a false) =
        w.setAgent a { w.agent a with pc := .linking caller (i + 1) } := by
      obtain ⟨owner, howner⟩ := Option.isSome_iff_exists.mp hfile
      simp [step, hpc, linkAttempt, howner, show i + 1 < maxAttempts by omega]
    have hnext := ih (w.setAgent a { w.agent a with pc := .linking caller (i + 1) }) hfile (i + 1)
      (by omega) (by simp [World.setAgent])
    rw [List.replicate_succ, run, Runs.run_cons, hstep, ← run, hnext]
    simp [World.setAgent, show i + 1 + n = i + (n + 1) by omega]

end Steps

/-- Two agents, the second one in the library. -/
theorem run_exclusive_handover :
    Exclusive (run (start : World Bool)
      [.lock false .usr true, .link false false, .lock true .iscsiNodesGet true, .link true false,
        .unlock false, .link true false, .unlock true]) := by
  refine run_exclusive _ ?_
  simp [Runs.Guarded, Patient, step, lockCall, linkAttempt, acquired, unlockCall, unlinkFile,
    World.setAgent, start, maxAttempts]

/-- A second agent in `usr` waits while the first one stays inside. -/
def longWait : List (Event Bool) :=
  [.lock false .usr true, .link false false, .lock true .usr true] ++
    List.replicate maxAttempts (.link true false)

/-- The last attempt that finds the file makes the lock call succeed. -/
theorem lock_timeout_succeeds {w : World Bool} (hw : w = run start longWait) :
    (w.agent false).sections = [.usr] ∧ (w.agent true).sections = [.usr] ∧
      w.lockFile = some false ∧ (w.agent true).refs = 1 ∧ (w.agent true).pc = .ready ∧
      w.unlinks = [] := by
  have hsplit : List.replicate maxAttempts (Event.link true false) =
      List.replicate 2999 (.link true false) ++ [.link true false] :=
    List.replicate_succ' (n := 2999)
  obtain ⟨v, hv⟩ : ∃ v, v = run (start : World Bool)
      [.lock false .usr true, .link false false, .lock true .usr true] := ⟨_, rfl⟩
  have hpc : (v.agent true).pc = .linking .usr 0 := by rw [hv]; rfl
  have hsec : (v.agent true).sections = [] := by rw [hv]; rfl
  have hother : v.agent false = ⟨1, .ready, [.usr]⟩ := by rw [hv]; rfl
  have hfile : v.lockFile = some false := by rw [hv]; rfl
  have hunlinks : v.unlinks = [] := by rw [hv]; rfl
  have hretry := retry_run v true .usr (by rw [hfile]; rfl) 2999 0 (by decide) hpc
  rw [longWait, run, Runs.run_append, ← run, ← run, ← hv, hsplit, run, Runs.run_snoc, ← run,
    hretry] at hw
  rw [hw]
  simp [step, World.setAgent, linkAttempt, hfile, maxAttempts, Caller.ignoresTimeout, acquired, hother,
    hsec, hunlinks]

/-- Two agents are inside at once, and the unlock of the second one removes the lock
file of the first. A failed lock call of `iscsi_nodes_get` removes it as well. -/
theorem run_not_exclusive :
    ¬ Exclusive (run start longWait) ∧
    Inside (run start longWait) false ∧ Inside (run start longWait) true ∧
    (run start (longWait ++ [.unlock true])).unlinks = [(true, false)] ∧
    (run (start : World Bool) [.lock false .usr true, .link false false,
      .lock true .iscsiNodesGet true, .link true true, .unlock true]).unlinks = [(true, false)] := by
  have hsnoc : run start (longWait ++ [.unlock true]) = step (run start longWait) (.unlock true) :=
    Runs.run_snoc step start longWait (.unlock true)
  obtain ⟨w, hw⟩ : ∃ w, w = run start longWait := ⟨_, rfl⟩
  obtain ⟨hfirst, hsecond, hfile, hrefs, hpc, hunlinks⟩ := lock_timeout_succeeds hw
  rw [hsnoc, ← hw]
  have hin : Inside w false ∧ Inside w true := by simp [Inside, hfirst, hsecond]
  refine ⟨fun hex => ?_, hin.1, hin.2, ?_, by rfl⟩
  · exact absurd (hex.1 false true hin.1 hin.2) (by decide)
  · simp [step, hpc, hsecond, unlockCall, hrefs, unlinkFile, World.setAgent, hfile, hunlinks]

end IdbmLock
