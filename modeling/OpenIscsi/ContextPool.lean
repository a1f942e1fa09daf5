import OpenIscsi.Lib.SlotPool
import OpenIscsi.Initiator
import OpenIscsi.Netlink

/-!
# The event contexts of a connection

`iscsi_ev_context_get` and its callers in `initiator.c`, with `ctldev_handle`,
`krecv_pdu_begin` and `krecv_pdu_end` of `netlink.c`, for one connection. A context is
a slot of the pool; the scheduler holds the actors of those that are scheduled. What a
callback does once its context is back in the pool, the events that the kernel sends
meanwhile included, are events of their own.
-/

namespace ContextPool

open List

open Netlink (ConnEvent nlmBufDefaultMax enomem enxio)
open SafeLogout (ConnState)
open SlotPool (Use Ledger replay)

/-! ## State -/

/-- What `data` of a context points to: the buffer behind the context, or a task. -/
inductive Datum where
  | buffer (content : Option ConnEvent)
  | task (qtask : Nat)
  deriving DecidableEq, Repr

structure Context where
  allocated : Bool := false
  buffer : Option ConnEvent := none
  task : Option Nat := none
  deriving DecidableEq, Repr

def Context.datum (x : Context) : Datum :=
  match x.task with
  | some qtask => .task qtask
  | none => .buffer x.buffer

/-- The callbacks that `iscsi_sched_ev_context` sets. -/
inductive Callback where
  | recvPdu | connError | processLogin | poll | logoutTimedout | stop
  deriving DecidableEq, Repr

/-- A scheduled actor. What its context held when it was scheduled is history. -/
structure Actor where
  slot : Nat
  callback : Callback
  carries : Datum
  deriving DecidableEq, Repr

structure Conn where
  pool : List Context
  actors : List Actor := []
  state : ConnState := .free
  recvContext : Option Nat := none
  /-- The context that `recvbuf` points into. -/
  recvbuf : Option Nat := none
  /-- History: the uses of the pool, and what a callback should read and what it reads. -/
  uses : List (Use Nat) := []
  delivered : List (Datum × Datum) := []
  deriving DecidableEq, Repr

def iscsiEvContextAlloc : Conn := { pool := List.replicate Initiator.contextPoolMax {} }

def allocated (c : Conn) (slot : Nat) : Bool := (c.pool[slot]?.map Context.allocated).getD false

def datum (c : Conn) (slot : Nat) : Datum := (c.pool.getD slot {}).datum

/-! ## The pool -/

def iscsiEvContextGet (c : Conn) (evSize : Nat) : Option (Nat × Conn) :=
  if nlmBufDefaultMax < evSize then none
  else
    match c.pool.findIdx? (fun x => !x.allocated) with
    | none => none
    | some slot =>
      some (slot, { c with
        pool := c.pool.modify slot (fun x => { x with allocated := true, task := none })
        uses := c.uses ++ [.taken slot] })

def iscsiEvContextPut (c : Conn) (slot : Nat) : Conn :=
  { c with
    pool := c.pool.modify slot (fun x => { x with allocated := false })
    uses := c.uses ++ [.returned slot] }

/-- `ev_context->data = qtask`. -/
def setTask (c : Conn) (slot qtask : Nat) : Conn :=
  { c with pool := c.pool.modify slot (fun x => { x with task := some qtask }) }

def iscsiSchedEvContext (c : Conn) (slot : Nat) (callback : Callback) : Int × Conn :=
  (0, { c with actors := c.actors ++ [⟨slot, callback, datum c slot⟩] })

def actorDelete (c : Conn) (slot : Nat) : Conn :=
  { c with actors := c.actors.filter (fun a => a.slot ≠ slot) }

def flushSlot (c : Conn) (slot : Nat) : Conn :=
  if allocated c slot then iscsiEvContextPut (actorDelete c slot) slot else c

def iscsiFlushContextPool (c : Conn) : Conn := (List.range c.pool.length).foldl flushSlot c

/-! ## Events of the kernel -/

/-- An event for the connection: its data, its length and whether it can be read. -/
structure Arrival where
  event : ConnEvent
  evSize : Nat
  read : Bool
  deriving DecidableEq, Repr

def callbackOf : ConnEvent → Callback
  | .recvPdu _ => .recvPdu
  | .error _ => .connError
  | .login _ => .processLogin
  | .stop => .stop

def nlpayloadRead (c : Conn) (slot : Nat) (event : ConnEvent) : Conn :=
  { c with pool := c.pool.modify slot (fun x => { x with buffer := some event }) }

def ctldevHandle (c : Conn) (a : Arrival) : Int × Conn :=
  match iscsiEvContextGet c a.evSize with
  | none => (-enomem, c)
  | some (slot, c) =>
    if !a.read then (-1, iscsiEvContextPut c slot)
    else
      let r := iscsiSchedEvContext (nlpayloadRead c slot a.event) slot (callbackOf a.event)
      if r.1 ≠ 0 then (r.1, iscsiEvContextPut r.2 slot) else r

def handleAll (c : Conn) (arrivals : List Arrival) : Conn :=
  arrivals.foldl (fun c a => (ctldevHandle c a).2) c

/-! ## Receiving -/

def eio : Int := 5
def eagain : Int := 11

/-- `krecv_pdu_begin`. The event that `ctldev_handle` finds is for another connection
when it is not given here. -/
def krecvPduBegin (c : Conn) (next : Option Arrival) : Int × Conn :=
  if c.recvbuf.isSome then (-eio, c)
  else
    match c.recvContext with
    | some slot => (0, { c with recvbuf := some slot })
    | none =>
      match next with
      | none => (-eagain, c)
      | some a =>
        let r := ctldevHandle c a
        if r.1 < 0 then r
        else
          match r.2.recvContext with
          | none => (-eagain, r.2)
          | some slot => (0, { r.2 with recvbuf := some slot })

def krecvPduEnd (c : Conn) : Option Conn :=
  match c.recvbuf, c.recvContext with
  | none, _ => some c
  | some _, none => none
  | some _, some slot => some { iscsiEvContextPut c slot with recvContext := none, recvbuf := none }

/-- `kread`: what is read, beside what the event brought. -/
def kread (c : Conn) (carries : Datum) : Conn :=
  match c.recvbuf with
  | some slot => { c with delivered := c.delivered ++ [(carries, datum c slot)] }
  | none => c

/-- `iscsi_io_recv_pdu` of a session that uses the kernel. A header or a length it does
not like ends in `recv_pdu_end` too. -/
def iscsiIoRecvPdu (c : Conn) (carries : Datum) (next : Option Arrival) : Option Conn :=
  let r := krecvPduBegin c next
  if r.1 = -eagain then some r.2
  else if r.1 < 0 then krecvPduEnd r.2
  else krecvPduEnd (kread r.2 carries)

/-! ## Callbacks -/

def sessionConnRecvPdu (c : Conn) (slot : Nat) (carries : Datum) (next : Option Arrival) :
    Option Conn :=
  let c := { c with recvContext := some slot }
  match c.state with
  | .inLogin => iscsiIoRecvPdu c carries next
  | .loggedIn => iscsiIoRecvPdu c carries next
  | .inLogout => iscsiIoRecvPdu c carries next
  | .logoutRequested => iscsiIoRecvPdu c carries next
  -- the pointer in `recv_context` stays
  | .xptWait => some (iscsiEvContextPut c slot)
  | .cleanupWait => some (iscsiEvContextPut c slot)
  | .free => some (iscsiEvContextPut c slot)

/-- The start of `session_conn_error` and `session_conn_process_login`: the data is read
and the context is given back. -/
def readAndPut (c : Conn) (slot : Nat) (carries : Datum) : Conn :=
  iscsiEvContextPut { c with delivered := c.delivered ++ [(carries, datum c slot)] } slot

def schedPoll (c : Conn) (slot qtask : Nat) : Conn :=
  (iscsiSchedEvContext (setTask c slot qtask) slot .poll).2

def Datum.qtask : Datum → Nat
  | .task qtask => qtask
  | .buffer _ => 0

/-- `session_conn_poll`, up to a connection that is there or lost. While the transport is
polled the kernel may send events. -/
def sessionConnPoll (c : Conn) (slot : Nat) (carries : Datum) (arrivals : List Arrival)
    (epPoll : Int) : Conn :=
  let qtask := (datum c slot).qtask
  let c := readAndPut c slot carries
  if c.state ≠ .xptWait then c
  else
    let c := handleAll c arrivals
    if epPoll = 0 then
      match iscsiEvContextGet c 0 with
      | none => c
      | some (slot, c) => schedPoll c slot qtask
    else c

def callback (c : Conn) (a : Actor) (arrivals : List Arrival) (epPoll : Int) : Option Conn :=
  match a.callback with
  | .recvPdu => sessionConnRecvPdu c a.slot a.carries arrivals.head?
  | .connError => some (readAndPut c a.slot a.carries)
  | .processLogin => some (readAndPut c a.slot a.carries)
  | .poll => some (sessionConnPoll c a.slot a.carries arrivals epPoll)
  | .logoutTimedout => some (iscsiEvContextPut c a.slot)
  | .stop => some (iscsiEvContextPut c a.slot)

/-! ## The other users -/

/-- `iscsi_conn_connect`; while the transport connects the kernel may send events. -/
def iscsiConnConnect (c : Conn) (qtask : Nat) (arrivals : List Arrival) (epConnect : Bool) : Conn :=
  match iscsiEvContextGet c 0 with
  | none => c
  | some (slot, c) =>
    let c := handleAll (setTask c slot qtask) arrivals
    if epConnect then (iscsiSchedEvContext c slot .poll).2 else iscsiEvContextPut c slot

def iscsiSendLogout (c : Conn) (sendPdu : Bool) : Conn :=
  if c.state ≠ .loggedIn then c
  else if !sendPdu then c
  else
    let c := { c with state := .inLogout }
    match iscsiEvContextGet c 0 with
    | none => c
    | some (slot, c) => (iscsiSchedEvContext c slot .logoutTimedout).2

/-! ## Runs -/

inductive Event where
  | kernel (a : Arrival)
  /-- The scheduler runs an actor that is ready, or whose timer has expired. -/
  | run (i : Nat) (arrivals : List Arrival) (epPoll : Int)
  | connect (qtask : Nat) (arrivals : List Arrival) (epConnect : Bool)
  | sendLogout (sendPdu : Bool)
  | flush
  | setState (state : ConnState)

/-- One event; nothing is left of a daemon that follows a null pointer. -/
def step (c : Option Conn) (e : Event) : Option Conn :=
  match c, e with
  | none, _ => none
  | some c, .kernel a => some (ctldevHandle c a).2
  | some c, .run i arrivals epPoll =>
    match c.actors[i]? with
    | none => some c
    | some a => callback { c with actors := c.actors.eraseIdx i } a arrivals epPoll
  | some c, .connect qtask arrivals epConnect => some (iscsiConnConnect c qtask arrivals epConnect)
  | some c, .sendLogout sendPdu => some (iscsiSendLogout c sendPdu)
  | some c, .flush => some (iscsiFlushContextPool c)
  | some c, .setState state => some { c with state := state }

def run (events : List Event) : Option Conn := Runs.run step (some iscsiEvContextAlloc) events

/-! ## Changing one context -/

variable {c : Conn} {held : List Nat} {slot : Nat} {carries : Datum}

variable {f : Context → Context}

theorem allocated_modify (hslot : slot < c.pool.length) (b : Bool) (hf : ∀ x, (f x).allocated = b) :
    (fun t => (((c.pool.modify slot f)[t]?.map Context.allocated).getD false)) =
      Function.update (allocated c) slot b := by
  funext t
  rw [getElem?_modify]
  by_cases ht : t = slot
  · subst ht
    simp [hf, hslot]
  · have ht' : slot ≠ t := fun heq => ht heq.symm
    simp [Function.update_of_ne ht, allocated, ht']

theorem allocated_modify_same (slot : Nat) (hf : ∀ x, (f x).allocated = x.allocated) :
    (fun t => (((c.pool.modify slot f)[t]?.map Context.allocated).getD false)) = allocated c := by
  funext t
  rw [getElem?_modify, allocated]
  cases c.pool[t]? with
  | none => rfl
  | some x =>
    by_cases ht : slot = t
    · simp [ht, hf]
    · simp [ht]

theorem datum_modify_ne {pool : List Context} {t : Nat} (ht : t ≠ slot) (f : Context → Context) :
    ((pool.modify slot f).getD t {}).datum = (pool.getD t {}).datum := by
  have ht' : slot ≠ t := fun heq => ht heq.symm
  simp [getD_eq_getElem?_getD, ht']

theorem allocated_lt (h : allocated c slot = true) :
    slot < c.pool.length := by
  by_contra hge
  rw [allocated, getElem?_eq_none (by omega)] at h
  cases h

/-! ## The invariant -/

/-- The owners of contexts are the scheduled actors and what runs; each context still
holds what it was scheduled with, and every callback has read just that. -/
structure Sound (c : Conn) (held : List Nat) : Prop where
  size : c.pool.length = Initiator.contextPoolMax
  recvbuf : c.recvbuf = none
  ledger : Ledger (allocated c) (held ++ c.actors.map Actor.slot) c.uses
  carried : ∀ a ∈ c.actors, datum c a.slot = a.carries
  delivered : ∀ p ∈ c.delivered, p.2 = p.1

theorem Sound.held_allocated (h : Sound c held) (hmem : slot ∈ held) : allocated c slot = true :=
  (h.ledger.out_iff slot).mpr (mem_append_left _ hmem)

variable {a : Actor}

/-- No actor is scheduled on a context that is held. -/
theorem Sound.held_ne (h : Sound c held) (hmem : slot ∈ held) (ha : a ∈ c.actors) :
    a.slot ≠ slot := by
  intro heq
  have hdisjoint := (nodup_append.mp h.ledger.nodup).2.2
  exact hdisjoint slot hmem a.slot (mem_map_of_mem ha) heq.symm

theorem alloc_sound : Sound iscsiEvContextAlloc [] where
  size := rfl
  recvbuf := rfl
  ledger := by
    have hfree : allocated iscsiEvContextAlloc = fun _ => false := by
      funext slot
      unfold allocated iscsiEvContextAlloc
      dsimp only
      rw [getElem?_replicate]
      split <;> rfl
    rw [hfree]
    exact Ledger.empty
  carried := fun _ hmem => absurd hmem not_mem_nil
  delivered := fun _ hmem => absurd hmem not_mem_nil

/-- A context that is handed out was in the pool. -/
theorem Sound.get {c' : Conn} {evSize : Nat} (h : Sound c held)
    (hget : iscsiEvContextGet c evSize = some (slot, c')) : Sound c' (slot :: held) := by
  unfold iscsiEvContextGet at hget
  split at hget
  · cases hget
  cases hfind : c.pool.findIdx? (fun x => !x.allocated) with
  | none =>
    rw [hfind] at hget
    cases hget
  | some free =>
    rw [hfind] at hget
    obtain ⟨rfl, rfl⟩ := Prod.mk.inj (Option.some.inj hget)
    obtain ⟨hlt, hfree, _⟩ := findIdx?_eq_some_iff_getElem.mp hfind
    have hout : allocated c free = false := by
      rw [allocated, getElem?_eq_getElem hlt]
      simpa using hfree
    have hne : ∀ a ∈ c.actors, a.slot ≠ free := by
      intro a ha heq
      have hmem : free ∈ held ++ c.actors.map Actor.slot :=
        mem_append_right _ (heq ▸ mem_map_of_mem ha)
      rw [(h.ledger.out_iff free).mpr hmem] at hout
      cases hout
    refine ⟨?_, h.recvbuf, ?_, ?_, h.delivered⟩
    · rw [length_modify]
      exact h.size
    · have hmarks := allocated_modify hlt true
        (f := fun x => { x with allocated := true, task := none }) (fun _ => rfl)
      have htake := (h.ledger.take hout).perm (perm_append_singleton free _)
      rw [← hmarks] at htake
      exact htake
    · intro a ha
      exact (datum_modify_ne (hne a ha) _).trans (h.carried a ha)

theorem Sound.put (h : Sound c (slot :: held)) :
    Sound (iscsiEvContextPut c slot) held := by
  have hlt := allocated_lt (h.held_allocated mem_cons_self)
  refine ⟨?_, h.recvbuf, ?_, ?_, h.delivered⟩
  · rw [iscsiEvContextPut, length_modify]
    exact h.size
  · have hmarks := allocated_modify hlt false
      (f := fun x => { x with allocated := false }) (fun _ => rfl)
    have hgive := Ledger.give h.ledger
    rw [← hmarks] at hgive
    exact hgive
  · intro a ha
    exact (datum_modify_ne (h.held_ne mem_cons_self ha) _).trans (h.carried a ha)

/-- What is in a context that is held may change. -/
theorem Sound.write (h : Sound c held) (hmem : slot ∈ held)
    (hf : ∀ x, (f x).allocated = x.allocated) :
    Sound { c with pool := c.pool.modify slot f } held := by
  refine ⟨?_, h.recvbuf, ?_, ?_, h.delivered⟩
  · rw [length_modify]
    exact h.size
  · have hsame := h.ledger
    rw [← allocated_modify_same slot hf] at hsame
    exact hsame
  · intro a ha
    exact (datum_modify_ne (h.held_ne hmem ha) _).trans (h.carried a ha)

/-- Scheduling hands a context to its actor. -/
theorem Sound.sched (h : Sound c (slot :: held))
    (callback : Callback) : Sound (iscsiSchedEvContext c slot callback).2 held := by
  refine ⟨h.size, h.recvbuf, ?_, ?_, h.delivered⟩
  · have hperm : (slot :: held ++ c.actors.map Actor.slot).Perm
        (held ++ (c.actors ++ [Actor.mk slot callback (datum c slot)]).map Actor.slot) := by
      rw [map_append, ← append_assoc]
      exact (perm_append_singleton slot _).symm
    exact h.ledger.perm hperm
  · intro a ha
    rcases mem_append.mp ha with hold | hnew
    · exact h.carried a hold
    · rw [mem_singleton.mp hnew]
      rfl

theorem iscsiSchedEvContext_rc (c : Conn) (slot : Nat) (callback : Callback) :
    (iscsiSchedEvContext c slot callback).1 = 0 := rfl

theorem Sound.ctldevHandle (h : Sound c held) (a : Arrival) :
    Sound (ctldevHandle c a).2 held := by
  unfold ContextPool.ctldevHandle
  cases hget : iscsiEvContextGet c a.evSize with
  | none => exact h
  | some got =>
    obtain ⟨slot, c'⟩ := got
    have hheld := h.get hget
    dsimp only
    split
    · exact hheld.put
    · rw [if_neg (not_not.mpr (iscsiSchedEvContext_rc _ _ _))]
      have hread : Sound (nlpayloadRead c' slot a.event) (slot :: held) :=
        hheld.write mem_cons_self (fun _ => rfl)
      exact hread.sched _

theorem Sound.handleAll (h : Sound c held)
    (arrivals : List Arrival) : Sound (handleAll c arrivals) held := by
  induction arrivals generalizing c with
  | nil => exact h
  | cons a arrivals ih => exact ih (h.ctldevHandle a)

/-- An actor that is taken off the list leaves its context to the callback. -/
theorem Sound.dispatch (h : Sound c []) {i : Nat} (ha : c.actors[i]? = some a) :
    Sound { c with actors := c.actors.eraseIdx i } [a.slot] ∧ datum c a.slot = a.carries := by
  obtain ⟨hi, hget⟩ := List.getElem?_eq_some_iff.mp ha
  have hmem : a ∈ c.actors := hget ▸ getElem_mem hi
  refine ⟨⟨h.size, h.recvbuf, ?_, ?_, h.delivered⟩, h.carried a hmem⟩
  · have hperm := (getElem_cons_eraseIdx_perm hi).symm.map Actor.slot
    rw [hget] at hperm
    exact h.ledger.perm hperm
  · intro b hb
    exact h.carried b (mem_of_mem_eraseIdx hb)

theorem Sound.readAndPut (h : Sound c [slot])
    (hdatum : datum c slot = carries) : Sound (readAndPut c slot carries) [] := by
  have hread : Sound { c with delivered := c.delivered ++ [(carries, datum c slot)] } [slot] := by
    refine ⟨h.size, h.recvbuf, h.ledger, h.carried, ?_⟩
    intro p hp
    rcases mem_append.mp hp with hold | hnew
    · exact h.delivered p hold
    · rw [mem_singleton.mp hnew]
      exact hdatum
  exact hread.put

/-- The receive path reads the context it was given and gives it back. -/
theorem Sound.iscsiIoRecvPdu (h : Sound c [slot])
    (hrecv : c.recvContext = some slot) (hdatum : datum c slot = carries)
    (next : Option Arrival) :
    ∃ c', iscsiIoRecvPdu c carries next = some c' ∧ Sound c' [] := by
  have hbegin : krecvPduBegin c next = (0, { c with recvbuf := some slot }) := by
    unfold krecvPduBegin
    rw [h.recvbuf, hrecv]
    rfl
  refine ⟨{ ContextPool.readAndPut c slot carries with recvContext := none, recvbuf := none }, ?_, ?_⟩
  · unfold ContextPool.iscsiIoRecvPdu
    rw [hbegin]
    dsimp only
    rw [if_neg (by decide), if_neg (by decide), kread, krecvPduEnd, hrecv]
    rfl
  · obtain ⟨hsize, _, hledger, hcarried, hdelivered⟩ := h.readAndPut hdatum
    exact ⟨hsize, rfl, hledger, hcarried, hdelivered⟩

theorem Sound.sessionConnRecvPdu (h : Sound c [slot])
    (hdatum : datum c slot = carries) (next : Option Arrival) :
    ∃ c', sessionConnRecvPdu c slot carries next = some c' ∧ Sound c' [] := by
  have hset : Sound { c with recvContext := some slot } [slot] :=
    ⟨h.size, h.recvbuf, h.ledger, h.carried, h.delivered⟩
  have hread := hset.iscsiIoRecvPdu rfl hdatum next
  unfold ContextPool.sessionConnRecvPdu
  dsimp only
  split
  · exact hread
  · exact hread
  · exact hread
  · exact hread
  · exact ⟨_, rfl, hset.put⟩
  · exact ⟨_, rfl, hset.put⟩
  · exact ⟨_, rfl, hset.put⟩

theorem Sound.schedPoll (h : Sound c (slot :: held))
    (qtask : Nat) : Sound (schedPoll c slot qtask) held := by
  have hset : Sound (setTask c slot qtask) (slot :: held) :=
    h.write mem_cons_self (fun _ => rfl)
  exact hset.sched .poll

theorem Sound.sessionConnPoll (h : Sound c [slot])
    (hdatum : datum c slot = carries) (arrivals : List Arrival) (epPoll : Int) :
    Sound (sessionConnPoll c slot carries arrivals epPoll) [] := by
  have hput := h.readAndPut hdatum
  unfold ContextPool.sessionConnPoll
  dsimp only
  split
  · exact hput
  · have hall := hput.handleAll arrivals
    split
    · generalize ContextPool.handleAll _ arrivals = c' at hall ⊢
      cases hget : iscsiEvContextGet c' 0 with
      | none => exact hall
      | some got => exact (hall.get hget).schedPoll _
    · exact hall

theorem Sound.callback (h : Sound c [a.slot]) (hdatum : datum c a.slot = a.carries)
    (arrivals : List Arrival) (epPoll : Int) :
    ∃ c', callback c a arrivals epPoll = some c' ∧ Sound c' [] := by
  unfold ContextPool.callback
  cases a.callback with
  | recvPdu => exact h.sessionConnRecvPdu hdatum _
  | connError => exact ⟨_, rfl, h.readAndPut hdatum⟩
  | processLogin => exact ⟨_, rfl, h.readAndPut hdatum⟩
  | poll => exact ⟨_, rfl, h.sessionConnPoll hdatum arrivals epPoll⟩
  | logoutTimedout => exact ⟨_, rfl, h.put⟩
  | stop => exact ⟨_, rfl, h.put⟩

theorem Sound.iscsiConnConnect (h : Sound c []) (qtask : Nat)
    (arrivals : List Arrival) (epConnect : Bool) :
    Sound (iscsiConnConnect c qtask arrivals epConnect) [] := by
  unfold ContextPool.iscsiConnConnect
  cases hget : iscsiEvContextGet c 0 with
  | none => exact h
  | some got =>
    obtain ⟨slot, c'⟩ := got
    have hset : Sound (setTask c' slot qtask) [slot] :=
      (h.get hget).write mem_cons_self (fun _ => rfl)
    have hall := hset.handleAll arrivals
    dsimp only
    split
    · exact hall.sched .poll
    · exact hall.put

theorem Sound.iscsiSendLogout (h : Sound c []) (sendPdu : Bool) :
    Sound (iscsiSendLogout c sendPdu) [] := by
  have hout : Sound { c with state := .inLogout } [] :=
    ⟨h.size, h.recvbuf, h.ledger, h.carried, h.delivered⟩
  unfold ContextPool.iscsiSendLogout
  split
  · exact h
  · split
    · exact h
    · dsimp only
      cases hget : iscsiEvContextGet { c with state := .inLogout } 0 with
      | none => exact hout
      | some got => exact (hout.get hget).sched _

/-- A flush deletes the actor of a context before it gives the context back. -/
theorem Sound.flushSlot (h : Sound c []) (slot : Nat) : Sound (flushSlot c slot) [] := by
  unfold ContextPool.flushSlot
  split
  · rename_i hout
    have hmem : slot ∈ c.actors.map Actor.slot := (h.ledger.out_iff slot).mp hout
    have hdeleted : Sound (actorDelete c slot) [slot] := by
      refine ⟨h.size, h.recvbuf, ?_, ?_, h.delivered⟩
      · have hfilter : (c.actors.filter (fun a => a.slot ≠ slot)).map Actor.slot =
            (c.actors.map Actor.slot).erase slot := by
          have hnodup : (c.actors.map Actor.slot).Nodup := h.ledger.nodup
          rw [hnodup.erase_eq_filter, filter_map]
          congr 2
          funext a
          rw [Bool.eq_iff_iff]
          simp
        have hperm : (c.actors.map Actor.slot).Perm
            (slot :: (c.actors.filter (fun a => a.slot ≠ slot)).map Actor.slot) := by
          rw [hfilter]
          exact perm_cons_erase hmem
        exact h.ledger.perm hperm
      · intro a ha
        exact h.carried a (mem_of_mem_filter ha)
    exact hdeleted.put
  · exact h

theorem Sound.iscsiFlushContextPool (h : Sound c []) :
    Sound (iscsiFlushContextPool c) [] := by
  unfold ContextPool.iscsiFlushContextPool
  generalize List.range c.pool.length = slots
  induction slots generalizing c with
  | nil => exact h
  | cons slot slots ih => exact ih (h.flushSlot slot)

/-! ## The models above and beside this one -/

/-- The choice of a context is the one made in `Netlink`. -/
theorem get_eq_netlink (c : Conn) (sid evSize : Nat) :
    (iscsiEvContextGet c evSize).map Prod.fst =
      Netlink.iscsiEvContextGet ⟨sid, c.pool.map Context.allocated⟩ evSize := by
  unfold iscsiEvContextGet Netlink.iscsiEvContextGet
  split
  · rfl
  · have hsame : (fun x : Context => !x.allocated) =
        (fun b => b == false) ∘ Context.allocated := by
      funext x
      cases hx : x.allocated <;> simp [hx]
    rw [findIdx?_map, ← hsame]
    cases c.pool.findIdx? (fun x => !x.allocated) <;> rfl

/-! ## Every run -/

theorem step_sound (h : Sound c []) (e : Event) :
    ∃ c', step (some c) e = some c' ∧ Sound c' [] := by
  cases e with
  | kernel a => exact ⟨_, rfl, h.ctldevHandle a⟩
  | run i arrivals epPoll =>
    unfold step
    dsimp only
    cases ha : c.actors[i]? with
    | none => exact ⟨c, rfl, h⟩
    | some a =>
      obtain ⟨hheld, hdatum⟩ := h.dispatch ha
      exact hheld.callback hdatum arrivals epPoll
  | connect qtask arrivals epConnect => exact ⟨_, rfl, h.iscsiConnConnect qtask arrivals epConnect⟩
  | sendLogout sendPdu => exact ⟨_, rfl, h.iscsiSendLogout sendPdu⟩
  | flush => exact ⟨_, rfl, h.iscsiFlushContextPool⟩
  | setState state => exact ⟨_, rfl, h.size, h.recvbuf, h.ledger, h.carried, h.delivered⟩

theorem run_sound (events : List Event) : ∃ c, run events = some c ∧ Sound c [] := by
  apply Runs.run_invariant step (fun o => ∃ c, o = some c ∧ Sound c [])
  · rintro o e ⟨c, rfl, h⟩
    exact step_sound h e
  · exact ⟨_, rfl, alloc_sound⟩

/-- Over every sequence of events, a context is handed out and given back in turn, the
contexts that are out are those of the scheduled events, one each, a callback reads what
its event brought, and with no event scheduled the whole pool is free. -/
theorem contexts_accounted (events : List Event) :
    ∃ c, run events = some c ∧
      (∀ slot, replay slot c.uses = some (allocated c slot)) ∧
      (c.actors.map Actor.slot).Nodup ∧
      (∀ slot, allocated c slot = true ↔ slot ∈ c.actors.map Actor.slot) ∧
      (∀ p ∈ c.delivered, p.2 = p.1) ∧
      (c.actors = [] → c.pool.length = Initiator.contextPoolMax ∧
        ∀ slot, allocated c slot = false) := by
  obtain ⟨c, hrun, h⟩ := run_sound events
  refine ⟨c, hrun, h.ledger.replays, h.ledger.nodup, h.ledger.out_iff, h.delivered, ?_⟩
  intro hnone
  refine ⟨h.size, fun slot => h.ledger.out_eq ?_⟩
  rw [hnone]
  exact not_mem_nil

end ContextPool
