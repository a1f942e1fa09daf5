import OpenIscsi.NetlinkRuns

/-! # Pings

`kexec_ping` of `usr/netlink.c` asks the kernel for a ping, waits in `__kipc_call` for the reply
to that request, and then polls for the completion of the ping. Whatever else arrives meanwhile
is left to `ctldev_handle`, which keeps the last completion in `ping_event`. -/

namespace Ping

open Netlink List

/-! ### Sending the request -/

/-- How a `poll` in `kexec_ping` can return. -/
inductive Wake where
  | message (m : Message)
  /-- Nothing to read, and the timer has not expired yet. -/
  | idle
  | expired
  | hup | nval | err
  | failed
  deriving DecidableEq, Repr

def arrive (d : Daemon) (m : Message) : Daemon := { d with queue := d.queue ++ [m] }

/-- `__kipc_call` for a ping: what it returns, the daemon then, and what is still to come. Its
reads block until the next message. -/
def kipcCall (d : Daemon) : List Wake → Option (Int × Daemon × List Wake)
  | [] => none
  | .message m :: ws =>
    match nlpayloadRead (arrive d m) sizeofUevent true with
    | (none, d) => some (-1, d, ws)
    | (some (.ifError _ iferror), d) => some (iferror, (nlpayloadRead d sizeofUevent false).2, ws)
    | (some (.reply _ .ping _ _), d) => some (0, (nlpayloadRead d sizeofUevent false).2, ws)
    | (some _, d) => kipcCall (ctldevHandle d).2 ws
  | _ :: ws => kipcCall d ws

def enosys : Int := 38

def einval : Int := 22

def iscsiErr : Int := 1

def iscsiErrTrans : Int := 4

def iscsiErrInval : Int := 7

def iscsiErrTransTimeout : Int := 8

def iscsiErrInternal : Int := 9

def iscsiErrOpNotSupp : Int := 27

/-- `ksend_ping`: zero, or a negative error. -/
def ksendPing (d : Daemon) (ws : List Wake) : Option (Int × Daemon × List Wake) :=
  (kipcCall d ws).map fun (rc, d, ws) => (if rc < 0 then rc else 0, d, ws)

/-! ### Waiting for the completion -/

/-- The polling loop: the code that is returned and the status. -/
def await (pid : Nat) : Daemon → List Wake → Option (Int × Int)
  | _, [] => none
  | _, .expired :: _ => some (iscsiErrTransTimeout, 0)
  | d, .message m :: ws =>
    let d := (ctldevHandle (arrive d m)).2
    if d.pingEvent.active ≠ 1 then await pid d ws
    else if pid ≠ d.pingEvent.pid then await pid d ws
    else some (0, d.pingEvent.status)
  | _, .hup :: _ => some (iscsiErrTrans, 0)
  | _, .nval :: _ => some (iscsiErrInternal, 0)
  | _, .err :: _ => some (iscsiErrInternal, 0)
  | _, .failed :: _ => some (iscsiErrInternal, 0)
  | d, .idle :: ws => await pid d ws

/-- No completion is expected. -/
def reset (d : Daemon) : Daemon := { d with pingEvent := ⟨-1, -1, -1, -1⟩ }

/-- `kexec_ping`, once the socket is open: `pid` is its random number. There is no result while
the kernel keeps it waiting. -/
def kexecPing (pid : Nat) (d : Daemon) (ws : List Wake) : Option (Int × Int) :=
  match ksendPing { d with queue := [] } ws with
  | none => none
  | some (rc, d, ws) =>
    if rc ≠ 0 then
      some (if rc = -enosys then iscsiErrOpNotSupp
        else if rc = -einval then iscsiErrInval else iscsiErr, 0)
    -- the event is cleared only now, when the reply has been read
    else await pid (reset d) ws

/-! ### One message -/

def completion (d : Daemon) : Message → PingEvent
  | .event (.pingComp hostNo status pid _) => ⟨hostNo, pid, status, 1⟩
  | _ => d.pingEvent

structure Took (d d' : Daemon) (event : PingEvent) : Prop where
  queue : d'.queue <:+ d.queue
  pingEvent : d'.pingEvent = event

theorem Took.refl (d : Daemon) : Took d d d.pingEvent := ⟨suffix_refl _, rfl⟩

theorem nlpayloadRead_took (d : Daemon) (count : Nat) (peek : Bool) :
    Took d (nlpayloadRead d count peek).2 d.pingEvent := by
  unfold nlpayloadRead
  split
  · exact .refl d
  · split
    · exact .refl d
    · rename_i m rest hq
      split
      · exact .refl d
      · exact ⟨hq ▸ suffix_cons m rest, rfl⟩

theorem handleConn_took (d : Daemon) (m : Message) (sid : Nat) (event : ConnEvent) :
    Took d (handleConn d m sid event).2 d.pingEvent := by
  unfold handleConn
  cases sessionFindBySid d sid with
  | none => exact nlpayloadRead_took d _ _
  | some s =>
    dsimp only
    cases iscsiEvContextGet s m.evSize with
    | none => exact nlpayloadRead_took d _ _
    | some slot =>
      have hread := nlpayloadRead_took (allocate d sid slot s) m.evSize false
      dsimp only
      generalize nlpayloadRead (allocate d sid slot s) m.evSize false = r at hread ⊢
      obtain ⟨o, d'⟩ := r
      cases o with
      | none =>
        dsimp only [iscsiEvContextPut]
        cases sessionFindBySid d' sid <;> exact ⟨hread.queue, hread.pingEvent⟩
      | some m' => exact ⟨hread.queue, hread.pingEvent⟩

theorem handleOther_took (d : Daemon) (m : Message) :
    Took d (handleOther d m) (completion d m) := by
  have hdrop : Took d (dropData d m) d.pingEvent := nlpayloadRead_took d _ _
  cases m with
  | reply req type r data => cases type <;> exact ⟨hdrop.queue, hdrop.pingEvent⟩
  | ifError req iferror => exact hdrop
  | event k =>
    cases k with
    | pingComp hostNo status pid data => exact ⟨hdrop.queue, rfl⟩
    | recvPdu sid cid pdu => exact hdrop
    | connError sid cid error => exact hdrop
    | connLoginState sid cid state => exact hdrop
    | unbindSession sid hostNo => exact hdrop
    | hostEvent hostNo code data => exact hdrop
    | createSession hostNo sid => exact ⟨hdrop.queue, hdrop.pingEvent⟩
    | destroySession hostNo sid => exact ⟨hdrop.queue, hdrop.pingEvent⟩
    | other type data => exact hdrop

variable {m : Message}

/-- Only a completion changes `ping_event`. -/
theorem ctldevHandle_took {d : Daemon} {rest : List Message} (hq : d.queue = m :: rest) :
    Took d (ctldevHandle d).2 (completion d m) := by
  unfold ctldevHandle
  rw [hq]
  cases m with
  | reply req type r data => exact handleOther_took d (.reply req type r data)
  | ifError req iferror => exact handleOther_took d (.ifError req iferror)
  | event k =>
    have hother := handleOther_took d (.event k)
    cases k with
    | recvPdu sid cid pdu => exact handleConn_took d _ _ _
    | connError sid cid error => exact handleConn_took d _ _ _
    | connLoginState sid cid state => exact handleConn_took d _ _ _
    | unbindSession sid hostNo => exact handleConn_took d _ _ _
    | hostEvent hostNo code data => exact hother
    | pingComp hostNo status pid data => exact hother
    | createSession hostNo sid => exact hother
    | destroySession hostNo sid => exact hother
    | other type data => exact hother

/-- `ctldev_handle` only takes from the front of the socket. -/
theorem ctldevHandle_suffix (d : Daemon) : (ctldevHandle d).2.queue <:+ d.queue := by
  cases hq : d.queue with
  | nil =>
    have hsame : (ctldevHandle d).2 = d := by
      rw [ctldevHandle, hq]
    rw [hsame, hq]
  | cons m rest =>
    rw [← hq]
    exact (ctldevHandle_took hq).queue

/-- What `ctldev_handle` makes of the only message on the socket. -/
theorem handle_arrive {d : Daemon} (hd : d.queue = []) (hf : Fits m) :
    (ctldevHandle (arrive d m)).2.queue = [] ∧
      (ctldevHandle (arrive d m)).2.pingEvent = completion d m := by
  have hq : (arrive d m).queue = m :: [] := by simp [arrive, hd]
  exact ⟨(ctldevHandle_handled hq hf).queue, (ctldevHandle_took hq).pingEvent⟩

/-! ### Messages that have nothing to do with the ping -/

/-- Neither a reply to the request nor the completion of this ping. -/
def Unrelated (pid : Nat) : Message → Prop
  | .reply _ type _ _ => type ≠ .ping
  | .ifError _ _ => False
  | .event (.pingComp _ _ pid' _) => pid' ≠ pid
  | .event _ => True

instance (pid : Nat) (m : Message) : Decidable (Unrelated pid m) := by
  cases m with
  | reply req type r data => exact inferInstanceAs (Decidable (type ≠ .ping))
  | ifError req iferror => exact .isFalse id
  | event k => cases k <;> simp only [Unrelated] <;> infer_instance

def Quiet (pid : Nat) : Wake → Prop
  | .message m => Unrelated pid m ∧ Fits m
  | .idle => True
  | _ => False

instance (pid : Nat) (w : Wake) : Decidable (Quiet pid w) := by
  cases w with
  | message m => exact inferInstanceAs (Decidable (_ ∧ nlmsgSpace m.evSize ≤ _))
  | idle => exact .isTrue trivial
  | expired => exact .isFalse id
  | hup => exact .isFalse id
  | nval => exact .isFalse id
  | err => exact .isFalse id
  | failed => exact .isFalse id

variable {pid : Nat}

def Foreign (pid : Nat) (p : PingEvent) : Prop := p.active = 1 → p.pid ≠ pid

theorem foreign_reset (d : Daemon) : Foreign pid (reset d).pingEvent := by
  intro h
  have hone : (-1 : Int) = 1 := h
  omega

theorem foreign_completion {d : Daemon} (hd : Foreign pid d.pingEvent) (hm : Unrelated pid m) :
    Foreign pid (completion d m) := by
  cases m with
  | reply req type r data => exact hd
  | ifError req iferror => exact hd
  | event k =>
    cases k with
    | pingComp hostNo status pid' data =>
      intro _ heq
      exact hm (Int.ofNat_inj.mp heq)
    | recvPdu sid cid pdu => exact hd
    | connError sid cid error => exact hd
    | connLoginState sid cid state => exact hd
    | unbindSession sid hostNo => exact hd
    | hostEvent hostNo code data => exact hd
    | createSession hostNo sid => exact hd
    | destroySession hostNo sid => exact hd
    | other type data => exact hd

/-- The request handles a message that is no reply and reads on. -/
theorem kipcCall_message {d : Daemon} (hd : d.queue = []) (hf : Fits m)
    (hm : ∀ req iferror, m ≠ .ifError req iferror) (hr : ∀ req r data, m ≠ .reply req .ping r data)
    (ws : List Wake) :
    kipcCall d (.message m :: ws) = kipcCall (ctldevHandle (arrive d m)).2 ws := by
  have hq : (arrive d m).queue = m :: [] := by simp [arrive, hd]
  rw [kipcCall, nlpayloadRead_peek hq hf]
  cases m with
  | reply req type r data =>
    cases type with
    | ping => exact absurd rfl (hr req r data)
    | _ => rfl
  | ifError req iferror => exact absurd rfl (hm req iferror)
  | event k => rfl

/-- The request leaves the messages behind the reply, and an empty socket. -/
theorem kipcCall_reply {d : Daemon} (hd : d.queue = []) (req : Nat) (r : Nat × Nat)
    {data : List UInt8} (hf : Fits (.reply req .ping r data)) (ws : List Wake) :
    ∃ d', d'.queue = [] ∧
      kipcCall d (.message (.reply req .ping r data) :: ws) = some (0, d', ws) := by
  have hq : (arrive d (.reply req .ping r data)).queue = .reply req .ping r data :: [] := by
    simp [arrive, hd]
  have hread := nlpayloadRead_pop hq hf (sizeofUevent_le _)
  refine ⟨_, ?_, by rw [kipcCall, nlpayloadRead_peek hq hf]⟩
  rw [hread]
  rfl

theorem unrelated_no_answer (h : Unrelated pid m) :
    (∀ req iferror, m ≠ .ifError req iferror) ∧ ∀ req r data, m ≠ .reply req .ping r data := by
  constructor
  · rintro req iferror rfl
    exact h
  · rintro req r data rfl
    exact h rfl

theorem kipcCall_quiet {a : List Wake} (ha : ∀ w ∈ a, Quiet pid w) {d : Daemon}
    (hd : d.queue = []) (ws : List Wake) :
    ∃ d', d'.queue = [] ∧ kipcCall d (a ++ ws) = kipcCall d' ws := by
  induction a generalizing d with
  | nil => exact ⟨d, hd, rfl⟩
  | cons w a ih =>
    have hw := ha w mem_cons_self
    have ha' : ∀ w ∈ a, Quiet pid w := fun w hw => ha w (mem_cons_of_mem _ hw)
    cases w with
    | message m =>
      obtain ⟨hm, hf⟩ := hw
      obtain ⟨d', hd', heq⟩ := ih ha' (handle_arrive hd hf).1
      have hno := unrelated_no_answer hm
      exact ⟨d', hd', (kipcCall_message hd hf hno.1 hno.2 _).trans heq⟩
    | idle => exact ih ha' hd
    | expired => exact hw.elim
    | hup => exact hw.elim
    | nval => exact hw.elim
    | err => exact hw.elim
    | failed => exact hw.elim

/-- The loop goes on after a message that is not the completion. -/
theorem await_foreign {d : Daemon} (h : Foreign pid (ctldevHandle (arrive d m)).2.pingEvent)
    (ws : List Wake) :
    await pid d (.message m :: ws) = await pid (ctldevHandle (arrive d m)).2 ws := by
  rw [await]
  by_cases hactive : (ctldevHandle (arrive d m)).2.pingEvent.active = 1
  · have hpid := h hactive
    simp [hactive, Ne.symm hpid]
  · simp [hactive]

theorem await_quiet {a : List Wake} (ha : ∀ w ∈ a, Quiet pid w) {d : Daemon}
    (hd : d.queue = []) (hp : Foreign pid d.pingEvent) (ws : List Wake) :
    ∃ d', d'.queue = [] ∧ await pid d (a ++ ws) = await pid d' ws := by
  induction a generalizing d with
  | nil => exact ⟨d, hd, rfl⟩
  | cons w a ih =>
    have hw := ha w mem_cons_self
    have ha' : ∀ w ∈ a, Quiet pid w := fun w hw => ha w (mem_cons_of_mem _ hw)
    cases w with
    | message m =>
      obtain ⟨hm, hf⟩ := hw
      obtain ⟨hempty, hcomp⟩ := handle_arrive hd hf
      have hnext : Foreign pid (ctldevHandle (arrive d m)).2.pingEvent := by
        rw [hcomp]
        exact foreign_completion hp hm
      obtain ⟨d', hd', heq⟩ := ih ha' hempty hnext
      exact ⟨d', hd', (await_foreign hnext _).trans heq⟩
    | idle => exact ih ha' hd hp
    | expired => exact hw.elim
    | hup => exact hw.elim
    | nval => exact hw.elim
    | err => exact hw.elim
    | failed => exact hw.elim

/-! ### The status that is returned -/

variable {s : Int}

theorem error_ne_success {rc : Int} (hrc : rc ≠ 0) {t : Int} :
    some (rc, s) ≠ some ((0 : Int), t) := by
  intro h
  exact hrc (congrArg Prod.fst (Option.some.inj h))

/-- The messages on the socket and those still to come. -/
def Pending (d : Daemon) (ws : List Wake) (m : Message) : Prop :=
  m ∈ d.queue ∨ Wake.message m ∈ ws

variable {x : Message}

/-- What is pending after some reads was pending when the message arrived. -/
theorem Pending.of_suffix {d d' : Daemon} {ws : List Wake} (hd : d'.queue <:+ (arrive d m).queue)
    (h : Pending d' ws x) :
    Pending d (.message m :: ws) x := by
  rcases h with h | h
  · rcases mem_append.1 (hd.mem h) with h | h
    · exact .inl h
    · rw [mem_singleton.1 h]
      exact .inr mem_cons_self
  · exact .inr (mem_cons_of_mem _ h)

theorem Pending.cons {d : Daemon} {w : Wake} {ws : List Wake} (h : Pending d ws x) :
    Pending d (w :: ws) x :=
  h.imp id (mem_cons_of_mem _)

/-- The event of this ping that `ctldev_handle` leaves came with a message. -/
theorem pending_of_own {d : Daemon} (ws : List Wake) (hp : Foreign pid d.pingEvent)
    (h : ¬ Foreign pid (ctldevHandle (arrive d m)).2.pingEvent) :
    ∃ hostNo status data, Pending d (.message m :: ws) (.event (.pingComp hostNo status pid data)) ∧
      (ctldevHandle (arrive d m)).2.pingEvent = ⟨hostNo, pid, status, 1⟩ := by
  cases hq : (arrive d m).queue with
  | nil => exact absurd hq (by simp [arrive])
  | cons x rest =>
    have hcomp := (ctldevHandle_took hq).pingEvent
    have hx : x ∈ d.queue ++ [m] := by
      have : x ∈ (arrive d m).queue := by rw [hq]; exact mem_cons_self
      exact this
    have hpending : Pending d (.message m :: ws) x := by
      rcases mem_append.1 hx with h | h
      · exact .inl h
      · rw [mem_singleton.1 h]
        exact .inr mem_cons_self
    rw [hcomp] at h
    by_cases hown : ∃ hostNo status data, x = .event (.pingComp hostNo status pid data)
    · obtain ⟨hostNo, status, data, rfl⟩ := hown
      exact ⟨hostNo, status, data, hpending, hcomp⟩
    · refine absurd ?_ h
      cases x with
      | reply req type r data => exact hp
      | ifError req iferror => exact hp
      | event k =>
        cases k with
        | pingComp hostNo status pid' data =>
          refine foreign_completion hp ?_
          rintro rfl
          exact hown ⟨hostNo, status, data, rfl⟩
        | recvPdu sid cid pdu => exact hp
        | connError sid cid error => exact hp
        | connLoginState sid cid state => exact hp
        | unbindSession sid hostNo => exact hp
        | hostEvent hostNo code data => exact hp
        | createSession hostNo sid => exact hp
        | destroySession hostNo sid => exact hp
        | other type data => exact hp

/-- A status comes from a completion of this ping that was read in the loop. -/
theorem pending_of_await {d : Daemon} (hp : Foreign pid d.pingEvent) {ws : List Wake}
    (h : await pid d ws = some (0, s)) :
    ∃ hostNo status data, Pending d ws (.event (.pingComp hostNo status pid data)) ∧
      (status : Int) = s := by
  induction ws generalizing d with
  | nil => cases h
  | cons w ws ih =>
    cases w with
    | message m =>
      by_cases hnext : Foreign pid (ctldevHandle (arrive d m)).2.pingEvent
      · rw [await_foreign hnext] at h
        obtain ⟨hostNo, status, data, hmem, hs⟩ := ih hnext h
        exact ⟨hostNo, status, data, hmem.of_suffix (ctldevHandle_suffix _), hs⟩
      · obtain ⟨hostNo, status, data, hmem, heq⟩ := pending_of_own ws hp hnext
        refine ⟨hostNo, status, data, hmem, ?_⟩
        rw [await, heq] at h
        simpa using h
    | idle =>
      obtain ⟨hostNo, status, data, hmem, hs⟩ := ih hp h
      exact ⟨hostNo, status, data, hmem.cons, hs⟩
    | expired => exact absurd h (error_ne_success (by decide))
    | hup => exact absurd h (error_ne_success (by decide))
    | nval => exact absurd h (error_ne_success (by decide))
    | err => exact absurd h (error_ne_success (by decide))
    | failed => exact absurd h (error_ne_success (by decide))

theorem kipcCall_pending {d d' : Daemon} {ws rest : List Wake} {rc : Int}
    (h : kipcCall d ws = some (rc, d', rest)) (hx : Pending d' rest x) : Pending d ws x := by
  induction ws generalizing d with
  | nil => cases h
  | cons w ws ih =>
    cases w with
    | message m =>
      rw [kipcCall] at h
      have hpeek := (nlpayloadRead_took (arrive d m) sizeofUevent true).queue
      generalize nlpayloadRead (arrive d m) sizeofUevent true = r at h hpeek
      obtain ⟨o, e⟩ := r
      have hread := (nlpayloadRead_took e sizeofUevent false).queue.trans hpeek
      have hnext (h : kipcCall (ctldevHandle e).2 ws = some (rc, d', rest)) :
          Pending d (.message m :: ws) x :=
        (ih h).of_suffix ((ctldevHandle_suffix e).trans hpeek)
      cases o with
      | none =>
        cases h
        exact hx.of_suffix hpeek
      | some m' =>
        cases m' with
        | reply req type a data =>
          cases type with
          | ping =>
            cases h
            exact hx.of_suffix hread
          | _ => exact hnext h
        | ifError req iferror =>
          cases h
          exact hx.of_suffix hread
        | event k => exact hnext h
    | idle => exact (ih h).cons
    | expired => exact (ih h).cons
    | hup => exact (ih h).cons
    | nval => exact (ih h).cons
    | err => exact (ih h).cons
    | failed => exact (ih h).cons

/-- The status that is returned is that of a completion of this ping. -/
theorem completion_of_kexecPing {d : Daemon} {ws : List Wake} (h : kexecPing pid d ws = some (0, s)) :
    ∃ hostNo status data, Wake.message (.event (.pingComp hostNo status pid data)) ∈ ws ∧
      (status : Int) = s := by
  unfold kexecPing ksendPing at h
  cases hcall : kipcCall { d with queue := [] } ws with
  | none =>
    rw [hcall] at h
    cases h
  | some r =>
    obtain ⟨rc, d', rest⟩ := r
    rw [hcall] at h
    simp only [Option.map_some] at h
    by_cases hrc : rc < 0
    · rw [if_pos hrc, if_pos (by omega)] at h
      refine absurd h (error_ne_success ?_)
      unfold iscsiErrOpNotSupp iscsiErrInval iscsiErr
      split
      · decide
      · split
        · decide
        · decide
    · rw [if_neg hrc, if_neg (by simp)] at h
      obtain ⟨hostNo, status, data, hmem, hs⟩ := pending_of_await (foreign_reset d') h
      have hall := kipcCall_pending hcall (hmem.imp id id : Pending d' rest _)
      exact ⟨hostNo, status, data, hall.resolve_left not_mem_nil, hs⟩

/-! ### Every order -/

/-- The reply, the completion and everything else, in the one order or the other, until the
timer of the ping expires. -/
def arrivals (replyFirst : Bool) (reply own : Message) (a b c : List Wake) : List Wake :=
  if replyFirst then a ++ .message reply :: (b ++ .message own :: (c ++ [.expired]))
  else a ++ .message own :: (b ++ .message reply :: (c ++ [.expired]))

section Order

variable {d : Daemon} {a b c : List Wake} {req hostNo status : Nat} {r : Nat × Nat}
  {replyData data : List UInt8}

/-- The wait starts behind the reply, with an empty socket. -/
theorem kexecPing_reply (pid : Nat) (hf : Fits (.reply req .ping r replyData)) {e : Daemon}
    {front rest : List Wake} (he : e.queue = [])
    (h : kipcCall { d with queue := [] } (front ++ .message (.reply req .ping r replyData) :: rest) =
      kipcCall e (.message (.reply req .ping r replyData) :: rest)) :
    ∃ d', d'.queue = [] ∧
      kexecPing pid d (front ++ .message (.reply req .ping r replyData) :: rest) =
        await pid (reset d') rest := by
  obtain ⟨d', hd', hcall⟩ := kipcCall_reply he req r hf rest
  refine ⟨d', hd', ?_⟩
  unfold kexecPing ksendPing
  rw [h, hcall]
  rfl

theorem kexecPing_reply_first (rest : List Wake) (hr : Fits (.reply req .ping r replyData))
    (ho : Fits (.event (.pingComp hostNo status pid data))) (ha : ∀ w ∈ a, Quiet pid w)
    (hb : ∀ w ∈ b, Quiet pid w) :
    kexecPing pid d (a ++ .message (.reply req .ping r replyData) ::
        (b ++ .message (.event (.pingComp hostNo status pid data)) :: rest)) =
      some (0, (status : Int)) := by
  have hempty : ({ d with queue := [] } : Daemon).queue = [] := rfl
  obtain ⟨e, he, hcall⟩ := kipcCall_quiet ha hempty
    (.message (.reply req .ping r replyData) ::
      (b ++ .message (.event (.pingComp hostNo status pid data)) :: rest))
  obtain ⟨d', hd', hret⟩ := kexecPing_reply pid hr he hcall
  have hreset : (reset d').queue = [] := hd'
  obtain ⟨f, hf, hwait⟩ := await_quiet hb hreset (foreign_reset d')
    (.message (.event (.pingComp hostNo status pid data)) :: rest)
  have hcomp := (handle_arrive hf ho).2
  rw [hret, hwait, await, hcomp]
  simp [completion]

/-- A completion in front of the reply is read by the request and then cleared. -/
theorem kexecPing_completion_first (hr : Fits (.reply req .ping r replyData))
    (ho : Fits (.event (.pingComp hostNo status pid data))) (ha : ∀ w ∈ a, Quiet pid w)
    (hb : ∀ w ∈ b, Quiet pid w) (hc : ∀ w ∈ c, Quiet pid w) :
    kexecPing pid d (a ++ .message (.event (.pingComp hostNo status pid data)) ::
        (b ++ .message (.reply req .ping r replyData) :: (c ++ [.expired]))) =
      some (iscsiErrTransTimeout, 0) := by
  have hempty : ({ d with queue := [] } : Daemon).queue = [] := rfl
  have hlist : a ++ .message (.event (.pingComp hostNo status pid data)) ::
      (b ++ .message (.reply req .ping r replyData) :: (c ++ [.expired])) =
        (a ++ .message (.event (.pingComp hostNo status pid data)) :: b) ++
          .message (.reply req .ping r replyData) :: (c ++ [.expired]) := by simp
  obtain ⟨e, he, hfront⟩ := kipcCall_quiet ha hempty
    (.message (.event (.pingComp hostNo status pid data)) ::
      (b ++ .message (.reply req .ping r replyData) :: (c ++ [.expired])))
  have hown := kipcCall_message he ho (fun _ _ h => Message.noConfusion h)
    (fun _ _ _ h => Message.noConfusion h)
    (b ++ .message (.reply req .ping r replyData) :: (c ++ [.expired]))
  obtain ⟨f, hf, hmiddle⟩ := kipcCall_quiet hb (handle_arrive he ho).1
    (.message (.reply req .ping r replyData) :: (c ++ [.expired]))
  have hcall := (congrArg (kipcCall { d with queue := [] }) hlist).symm.trans
    (hfront.trans (hown.trans hmiddle))
  obtain ⟨d', hd', hret⟩ := kexecPing_reply pid hr hf hcall
  have hreset : (reset d').queue = [] := hd'
  obtain ⟨g, -, hwait⟩ := await_quiet hc hreset (foreign_reset d') [.expired]
  rw [hlist, hret, hwait]
  rfl

end Order

/-- The status of the completion is returned exactly if the reply comes first, and no other
status ever is. -/
theorem ping_status_iff (pid : Nat) (d : Daemon) (replyFirst : Bool) (req : Nat) (r : Nat × Nat)
    (hostNo status : Nat) (data : List UInt8) (a b c : List Wake)
    (hfits : Fits (.event (.pingComp hostNo status pid data)))
    (h : ∀ w ∈ a ++ b ++ c, Quiet pid w) :
    (kexecPing pid d (arrivals replyFirst (.reply req .ping r [])
        (.event (.pingComp hostNo status pid data)) a b c) = some (0, (status : Int)) ↔
          replyFirst = true) ∧
      ∀ ws s, kexecPing pid d ws = some (0, s) →
        ∃ hostNo status data, Wake.message (.event (.pingComp hostNo status pid data)) ∈ ws ∧
          (status : Int) = s := by
  have ha : ∀ w ∈ a, Quiet pid w := fun w hw => h w (by simp [hw])
  have hb : ∀ w ∈ b, Quiet pid w := fun w hw => h w (by simp [hw])
  have hc : ∀ w ∈ c, Quiet pid w := fun w hw => h w (by simp [hw])
  have hr : Fits (.reply req .ping r []) :=
    (by decide : nlmsgSpace sizeofUevent ≤ nlmBufDefaultMax)
  refine ⟨?_, fun ws s => completion_of_kexecPing⟩
  cases replyFirst with
  | true =>
    have hret := kexecPing_reply_first (d := d) (c ++ [.expired]) hr hfits ha hb
    exact ⟨fun _ => rfl, fun _ => hret⟩
  | false =>
    have hret := kexecPing_completion_first (d := d) hr hfits ha hb hc
    constructor
    · intro heq
      exact absurd (hret.symm.trans heq) (error_ne_success (by decide))
    · intro hf
      cases hf

/-- Another ping completes between the reply and the completion. -/
theorem ping_status_second :
    kexecPing 7 {} (arrivals true (.reply 0 .ping (0, 0) []) (.event (.pingComp 2 0 7 [])) []
        [.message (.event (.pingComp 2 5 8 [])), .idle] []) = some (0, 0) :=
  (ping_status_iff 7 {} true 0 (0, 0) 2 0 [] [] [.message (.event (.pingComp 2 5 8 [])), .idle] []
    (by unfold Fits; decide) (by decide)).1.2 rfl

/-- The completion overtakes the reply: the ping times out. -/
theorem ping_completion_lost :
    kexecPing 7 {} (arrivals false (.reply 0 .ping (0, 0) []) (.event (.pingComp 2 0 7 [])) []
        [] []) = some (iscsiErrTransTimeout, 0) ∧
      kexecPing 7 {} (arrivals false (.reply 0 .ping (0, 0) []) (.event (.pingComp 2 0 7 [])) []
        [] []) ≠ some (0, 0) := by
  decide

end Ping
