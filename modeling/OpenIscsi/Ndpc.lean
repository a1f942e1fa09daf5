import OpenIscsi.Lib.Runs

/-!
# Acquiring an IPv6 address

`handle_ndp` and the loop of `ndpc_request` in `ipv6_ndpc.c`, and the write to `retry_count` with
which `process_dhcp_loop` in `nic.c` gives up. That write is made without `nic_mutex`, so a step of
the protothread is what it does between two uses of `retry_count`.
-/

namespace Ndpc

open Runs

def ipv6MaxRouterSolRetry : Nat := 3
def dhcpv6NumOfRetry : Nat := 4
def dhcpv6RetryTimeout : List Nat := [1, 2, 4, 8]

def ipv6ConfigStatic : Nat := 0x20
def ipv6ConfigDhcp : Nat := 0x40

inductive NdpcState
  | init | rtrSol | rtrAdv | dhcpv6Dis | dhcpv6Done | backgroundLoop
  deriving DecidableEq

/-- Places in `handle_ndp`. A call starts at `begin`, a wait or `ipv6_loop`. -/
inductive Label
  | begin | solRtr | waitRtr | bumpRtr | testRtr | rtrAdv | solDhcp | waitDhcp | bumpDhcp
  | testDhcp | bumpStatic | testStatic | copyOut | ipv6Loop
  deriving DecidableEq

/-- What `ipv6_rx_packet` can change of the two contexts. -/
structure Flags where
  routerAdvReceived : Bool := false
  managedAddrConfig : Bool := false
  dhcpv6Done : Bool := false

/-- `ipv6_do_stateful_dhcpv6` for `ISCSI_FLAGS_DHCP_TCPIP_CONFIG`: whether there is a task. -/
def ipv6DoStatefulDhcpv6 (f : Flags) : Bool := !f.routerAdvReceived || f.managedAddrConfig

/-- The protothread, `force` of the call that runs, how many solicitations were sent, and how
often `process_dhcp_loop` wrote between the increment and the test of the DHCPv6 phase. `timeout`
is `none` after a read outside `dhcpv6_retry_timeout`. -/
structure Thread where
  label : Label := .begin
  call : Option Bool := none
  newdata : Bool := false
  state : NdpcState := .init
  retryCount : Nat := 0
  flags : Flags := {}
  timeout : Option Nat := some 0
  rtrSols : Nat := 0
  dhcpv6Sols : Nat := 0
  late : Nat := 0

/-- What `timer_expired` says and what a received packet leaves. -/
structure Answer where
  expired : Bool
  rx : Flags

namespace Thread

/-- `PT_WAIT_UNTIL` and what stands behind it. With other data than it waits for and time left,
the thread goes back to the wait. -/
def await (t : Thread) (force : Bool) (a : Answer) (success : Flags → Bool)
    (found : Thread → Thread) (bump : Label) : Thread :=
  if t.newdata then
    if success a.rx then found { t with flags := a.rx }
    else if a.expired then { t with flags := a.rx, label := bump }
    else { t with flags := a.rx, newdata := false }
  else if a.expired || force then { t with label := bump }
  else { t with call := none }

def gotRtrAdv (t : Thread) : Thread :=
  { t with retryCount := 0, state := .rtrAdv, label := .rtrAdv }

def gotDhcpv6 (t : Thread) : Thread := { t with state := .dhcpv6Done, label := .copyOut }

def enterLoop (t : Thread) : Thread :=
  { t with state := .backgroundLoop, newdata := false, label := .ipv6Loop }

def handleNdp (ipConfig : Nat) (force : Bool) (a : Answer) (t : Thread) : Thread :=
  match t.label with
  | .begin =>
    if t.state = .backgroundLoop then t.enterLoop
    else if t.state = .rtrAdv then { t with label := .rtrAdv }
    else { t with state := .rtrSol, retryCount := 0, label := .solRtr }
  | .solRtr => { t with rtrSols := t.rtrSols + 1, newdata := false, label := .waitRtr }
  | .waitRtr => t.await force a Flags.routerAdvReceived gotRtrAdv .bumpRtr
  | .bumpRtr => { t with retryCount := t.retryCount + 1, label := .testRtr }
  | .testRtr =>
    if ipv6MaxRouterSolRetry ≤ t.retryCount then { t with state := .rtrAdv, label := .rtrAdv }
    else if t.flags.routerAdvReceived then t.gotRtrAdv
    else { t with label := .solRtr }
  | .rtrAdv =>
    if ipConfig &&& ipv6ConfigDhcp = 0 then { t with label := .copyOut }
    else if ipv6DoStatefulDhcpv6 t.flags then
      { t with retryCount := 0, state := .dhcpv6Dis, label := .solDhcp }
    else if ipConfig = ipv6ConfigDhcp then { t with label := .bumpStatic }
    else { t with label := .copyOut }
  | .solDhcp =>
    { t with timeout := dhcpv6RetryTimeout[t.retryCount]?, dhcpv6Sols := t.dhcpv6Sols + 1,
             newdata := false, label := .waitDhcp }
  | .waitDhcp => t.await force a Flags.dhcpv6Done gotDhcpv6 .bumpDhcp
  | .bumpDhcp => { t with retryCount := t.retryCount + 1, label := .testDhcp }
  | .testDhcp =>
    if t.retryCount < dhcpv6NumOfRetry then
      if t.flags.dhcpv6Done then t.gotDhcpv6 else { t with label := .solDhcp }
    else t.enterLoop
  | .bumpStatic => { t with retryCount := t.retryCount + 1, label := .testStatic }
  | .testStatic =>
    if dhcpv6NumOfRetry < t.retryCount then { t with label := .copyOut }
    -- `PT_RESTART` returns.
    else { t with label := .begin, call := none }
  | .copyOut => t.enterLoop
  | .ipv6Loop =>
    if t.newdata then { t with flags := a.rx, newdata := false } else { t with call := none }

end Thread

/-- `ndpc_call`, a step of the call that runs, a step of the loop in `ndpc_request`, and
`process_dhcp_loop` giving up. A call starts with `UIP_NEWDATA` as it is then. -/
inductive Event
  | call (newdata : Bool)
  | work (a : Answer)
  | request (newdata : Bool) (a : Answer)
  | giveUp

def Thread.start (t : Thread) (force newdata : Bool) : Thread :=
  { t with call := some force, newdata := newdata }

def step (ipConfig : Nat) (t : Thread) : Event → Thread
  | .call newdata => if t.call = none then t.start false newdata else t
  | .work a => t.call.elim t fun force => t.handleNdp ipConfig force a
  | .request newdata a =>
    t.call.elim (if t.state = .backgroundLoop then t else t.start true newdata)
      fun force => t.handleNdp ipConfig force a
  | .giveUp =>
    if ipConfig = ipv6ConfigDhcp ∨ ipConfig = ipv6ConfigStatic then
      { t with retryCount := ipv6MaxRouterSolRetry
               late := if t.label = .testDhcp then t.late + 1 else t.late }
    else t

open Thread

variable {t : Thread}

/-- What the counter says about the solicitations at each place. -/
def Counts (t : Thread) : Prop :=
  match t.label with
  | .begin => (t.state = .rtrAdv ∨ t.rtrSols = 0) ∧ t.dhcpv6Sols = 0
  | .solRtr => t.rtrSols < 3 ∧ t.rtrSols ≤ t.retryCount ∧ t.dhcpv6Sols = 0
  | .waitRtr | .bumpRtr => t.rtrSols ≤ t.retryCount + 1 ∧ t.dhcpv6Sols = 0
  | .testRtr => t.rtrSols ≤ t.retryCount ∧ t.dhcpv6Sols = 0
  | .rtrAdv | .bumpStatic | .testStatic => t.state = .rtrAdv ∧ t.dhcpv6Sols = 0
  | .solDhcp => t.dhcpv6Sols ≤ t.retryCount + t.late ∧ t.retryCount < 4
  | .waitDhcp | .bumpDhcp => t.dhcpv6Sols ≤ t.retryCount + 1 + t.late ∧ t.retryCount < 4
  | .testDhcp => t.dhcpv6Sols ≤ t.retryCount + t.late ∧ t.retryCount ≤ 4
  | .copyOut | .ipv6Loop => t.dhcpv6Sols ≤ 4 + t.late

structure Inv (t : Thread) : Prop where
  rtrSols : t.rtrSols ≤ 3
  counts : Counts t
  timeout : t.timeout ≠ none
  loop : t.state = .backgroundLoop ↔ t.label = .ipv6Loop

theorem Inv.dhcpv6Sols (h : Inv t) : t.dhcpv6Sols ≤ 4 + t.late := by
  have hc := h.counts
  unfold Counts at hc
  split at hc <;> omega

theorem Inv.enterLoop (hr : t.rtrSols ≤ 3) (hd : t.dhcpv6Sols ≤ 4 + t.late)
    (ht : t.timeout ≠ none) : Inv t.enterLoop :=
  ⟨hr, hd, ht, iff_of_true rfl rfl⟩

/-- A wait ends with what it waits for or with the time over, or goes on with the data gone, or
the call returns. -/
theorem Thread.await_induct {P : Thread → Prop} {force : Bool} {a : Answer}
    {success : Flags → Bool} {found : Thread → Thread} {bump : Label}
    (hfound : P (found { t with flags := a.rx }))
    (hbump : ∀ f, P { t with flags := f, label := bump })
    (hback : P { t with flags := a.rx, newdata := false }) (hreturn : P { t with call := none }) :
    P (t.await force a success found bump) := by
  unfold await
  split_ifs
  · exact hfound
  · exact hbump a.rx
  · exact hback
  · exact hbump t.flags
  · exact hreturn

theorem Inv.handleNdp (h : Inv t) (ipConfig : Nat) (force : Bool) (a : Answer) :
    Inv (t.handleNdp ipConfig force a) := by
  obtain ⟨label, call, newdata, state, r, flags, timeout, rs, ds, late⟩ := t
  obtain ⟨hr, hc, ht, hl⟩ := h
  change rs ≤ 3 at hr
  by_cases hloop : label = .ipv6Loop
  · subst hloop
    unfold handleNdp
    dsimp only
    split <;> exact ⟨hr, hc, ht, hl⟩
  have hs : state ≠ .backgroundLoop := fun heq => hloop (hl.mp heq)
  cases label with
  | ipv6Loop => exact absurd rfl hloop
  | begin =>
    obtain ⟨hsols, hd⟩ := hc
    unfold handleNdp
    dsimp only
    rw [if_neg hs]
    split
    · rename_i hadv
      exact ⟨hr, ⟨hadv, hd⟩, ht, by simp [hs]⟩
    · rename_i hadv
      have hzero : rs = 0 := hsols.resolve_left hadv
      exact ⟨hr, ⟨by simp [hzero], by simp [hzero], hd⟩, ht, by simp⟩
  | solRtr =>
    obtain ⟨hlt, hle, hd⟩ := hc
    exact ⟨hlt, ⟨Nat.succ_le_succ hle, hd⟩, ht, by simp [handleNdp, hs]⟩
  | waitRtr =>
    refine await_induct ?_ (fun f => ?_) ?_ ?_
    · exact ⟨hr, ⟨rfl, hc.2⟩, ht, by simp [gotRtrAdv]⟩
    all_goals exact ⟨hr, hc, ht, by simp [hs]⟩
  | testRtr =>
    unfold handleNdp ipv6MaxRouterSolRetry
    dsimp only
    split_ifs with hle
    · exact ⟨hr, ⟨rfl, hc.2⟩, ht, by simp⟩
    · exact ⟨hr, ⟨rfl, hc.2⟩, ht, by simp [gotRtrAdv]⟩
    · have hsols : rs ≤ r := hc.1
      exact ⟨hr, ⟨show rs < 3 by omega, hc⟩, ht, by simp [hs]⟩
  | rtrAdv =>
    have hd : ds ≤ 4 + late := hc.2.trans_le (Nat.zero_le _)
    unfold handleNdp
    dsimp only
    split_ifs
    · exact ⟨hr, hd, ht, by simp [hs]⟩
    · exact ⟨hr, ⟨hc.2.trans_le (Nat.zero_le _), by simp⟩, ht, by simp⟩
    · exact ⟨hr, hc, ht, by simp [hs]⟩
    · exact ⟨hr, hd, ht, by simp [hs]⟩
  | solDhcp =>
    obtain ⟨hle, hlt⟩ : ds ≤ r + late ∧ r < 4 := hc
    refine ⟨hr, ⟨show ds + 1 ≤ r + 1 + late by omega, hlt⟩, ?_, by simp [handleNdp, hs]⟩
    simpa [handleNdp, dhcpv6RetryTimeout] using hlt
  | waitDhcp =>
    obtain ⟨hle, hlt⟩ : ds ≤ r + 1 + late ∧ r < 4 := hc
    refine await_induct ?_ (fun f => ?_) ?_ ?_
    · exact ⟨hr, (show ds ≤ 4 + late by omega), ht, by simp [gotDhcpv6]⟩
    all_goals exact ⟨hr, ⟨hle, hlt⟩, ht, by simp [hs]⟩
  | bumpRtr | bumpDhcp | bumpStatic => exact ⟨hr, hc, ht, by simp [handleNdp, hs]⟩
  | testDhcp =>
    obtain ⟨hle, hmax⟩ : ds ≤ r + late ∧ r ≤ 4 := hc
    have hd : ds ≤ 4 + late := by omega
    unfold handleNdp dhcpv6NumOfRetry
    dsimp only
    split_ifs with hlt
    · exact ⟨hr, hd, ht, by simp [gotDhcpv6]⟩
    · exact ⟨hr, ⟨hle, hlt⟩, ht, by simp [hs]⟩
    · exact .enterLoop hr hd ht
  | testStatic =>
    unfold handleNdp
    dsimp only
    split
    · exact ⟨hr, (hc.2.trans_le (Nat.zero_le _)), ht, by simp [hs]⟩
    · exact ⟨hr, ⟨.inl hc.1, hc.2⟩, ht, by simp [hs]⟩
  | copyOut => exact .enterLoop hr hc ht

/-- What the calls of `handle_ndp` keep is kept by all steps, if the overwritten counter does. -/
theorem step_induct {P : Thread → Prop} {ipConfig : Nat} (e : Event) (h : P t)
    (hstart : ∀ force newdata, P (t.start force newdata))
    (hwork : ∀ force a, P (t.handleNdp ipConfig force a))
    (hgiveUp : P { t with
      retryCount := ipv6MaxRouterSolRetry
      late := if t.label = .testDhcp then t.late + 1 else t.late }) :
    P (step ipConfig t e) := by
  unfold step
  cases e with
  | call newdata =>
    dsimp only
    split
    · exact hstart false newdata
    · exact h
  | work a =>
    cases t.call with
    | none => exact h
    | some force => exact hwork force a
  | request newdata a =>
    cases t.call with
    | none =>
      dsimp only [Option.elim_none]
      split
      · exact h
      · exact hstart true newdata
    | some force => exact hwork force a
  | giveUp =>
    dsimp only
    split
    · exact hgiveUp
    · exact h

theorem Inv.step (h : Inv t) (ipConfig : Nat) (e : Event) : Inv (step ipConfig t e) := by
  refine step_induct e h (fun _ _ => ⟨h.rtrSols, h.counts, h.timeout, h.loop⟩)
    (h.handleNdp ipConfig) ⟨h.rtrSols, ?_, h.timeout, h.loop⟩
  have hc := h.counts
  have hr := h.rtrSols
  unfold Counts ipv6MaxRouterSolRetry at *
  cases hlabel : t.label <;> simp only [hlabel, reduceCtorEq, if_true, if_false] at hc ⊢ <;> omega

/-- The thread stays in its background loop and sends nothing. -/
def Loops (t u : Thread) : Prop :=
  u.label = .ipv6Loop ∧ u.state = .backgroundLoop ∧ u.rtrSols = t.rtrSols ∧
    u.dhcpv6Sols = t.dhcpv6Sols

theorem Loops.step {u : Thread} (h : Loops t u) (ipConfig : Nat) (e : Event) :
    Loops t (step ipConfig u e) := by
  refine step_induct e h (fun _ _ => h) (fun force a => ?_) h
  simp only [handleNdp, h.1]
  split <;> exact ⟨rfl, h.2⟩

end Ndpc
