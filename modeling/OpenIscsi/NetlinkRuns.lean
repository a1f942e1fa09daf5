import OpenIscsi.Netlink

/-!
# No event is lost and no event is taken for a reply

At every moment at most one answer is on the socket or owed by the kernel, and it is the
answer to the request the daemon is in. From this invariant: every request returns its
own answer, messages leave the socket in the order in which they came, and the events
handed to `sched_ev_context` are those due when their message is read.
-/

namespace Netlink

open List

/-! ### One message -/

def Fits (m : Message) : Prop := nlmsgSpace m.evSize ≤ nlmBufDefaultMax

/-- What the kernel does: its messages fit the receive buffer, and its interface errors
are negative error numbers. -/
def FromKernel : Event → Prop
  | .arrive k => Fits (.event k)
  | .answer _ data => nlmsgSpace (sizeofUevent + data.length) ≤ nlmBufDefaultMax
  | .refuse iferror => iferror < 0
  | _ => True

instance : DecidablePred FromKernel
  | .arrive k => inferInstanceAs (Decidable (nlmsgSpace (Message.event k).evSize ≤ _))
  | .answer _ data => inferInstanceAs (Decidable (nlmsgSpace (sizeofUevent + data.length) ≤ _))
  | .refuse iferror => inferInstanceAs (Decidable (iferror < 0))
  | .request _ => isTrue trivial
  | .turn => isTrue trivial
  | .get _ => isTrue trivial
  | .put _ _ => isTrue trivial
  | .addSession _ => isTrue trivial
  | .removeSession _ => isTrue trivial

/-- Every context of the connection is allocated. -/
def Session.exhausted (s : Session) : Bool := s.pool.all (· == true)

/-- The events a read of the front of the socket has to pass on: the event of a known
session with a context left. -/
def due (d : Daemon) : List (Nat × ConnEvent) :=
  match d.queue with
  | .event k :: _ =>
    match k.connEvent with
    | some (sid, event) =>
      match sessionFindBySid d sid with
      | some s => if s.exhausted then [] else [(sid, event)]
      | none => []
    | none => []
  | _ => []

/-- What a message of the socket passes on when it is read. -/
def Message.connEvent : Message → Option (Nat × ConnEvent)
  | .event k => k.connEvent
  | _ => none

/-- What was passed on by a call of `sched_ev_context`. -/
def Sched.passed (s : Sched) : Nat × ConnEvent := (s.sid, s.event)

def passed (d : Daemon) : List (Nat × ConnEvent) := d.sched.map Sched.passed

theorem nlmsgSpace_mono {a b : Nat} (h : a ≤ b) : nlmsgSpace a ≤ nlmsgSpace b := by
  unfold nlmsgSpace nlmsgAlign
  omega

theorem sizeofUevent_le (m : Message) : sizeofUevent ≤ m.evSize := by
  cases m <;> simp [Message.evSize]

theorem Fits.le {m : Message} (h : Fits m) {count : Nat} (hc : count ≤ m.evSize) :
    ¬ nlmBufDefaultMax < nlmsgSpace count :=
  Nat.not_lt.2 (le_trans (nlmsgSpace_mono hc) h)

theorem Fits.evSize_le {m : Message} (h : Fits m) : ¬ nlmBufDefaultMax < m.evSize := by
  unfold Fits nlmsgSpace nlmsgAlign at h
  omega

/-- The front of the socket is read off. -/
def Daemon.pop (d : Daemon) (m : Message) (rest : List Message) : Daemon :=
  { d with queue := rest, taken := d.taken ++ [m] }

section Read

variable {d : Daemon} {m : Message} {rest : List Message}

theorem nlpayloadRead_pop (hq : d.queue = m :: rest) (hf : Fits m) {count : Nat}
    (hc : count ≤ m.evSize) : nlpayloadRead d count false = (some m, d.pop m rest) := by
  rw [nlpayloadRead, if_neg (hf.le hc), hq]
  rfl

theorem nlpayloadRead_peek (hq : d.queue = m :: rest) (hf : Fits m) :
    nlpayloadRead d sizeofUevent true = (some m, d) := by
  rw [nlpayloadRead, if_neg (hf.le (sizeofUevent_le m)), hq]
  rfl

theorem dropData_pop (hq : d.queue = m :: rest) (hf : Fits m) :
    dropData d m = d.pop m rest := by
  rw [dropData, nlpayloadRead_pop hq hf (le_refl _)]

structure Handled (d d' : Daemon) (m : Message) (rest : List Message) : Prop where
  queue : d'.queue = rest
  taken : d'.taken = d.taken ++ [m]
  passed : passed d' = passed d ++ due d

variable {n : Nat}

/-- Without a free context the pool is exhausted, and the other way round. -/
theorem iscsiEvContextGet_eq_none (s : Session) (hn : ¬ nlmBufDefaultMax < n) :
    iscsiEvContextGet s n = none ↔ s.exhausted = true := by
  rw [iscsiEvContextGet, if_neg hn, findIdx?_eq_none_iff, Session.exhausted,
    all_eq_true]
  simp

variable {k : Kevent}

theorem handleConn_handled {sid : Nat} {event : ConnEvent} (hq : d.queue = .event k :: rest)
    (hf : Fits (.event k)) (hk : k.connEvent = some (sid, event)) :
    Handled d (handleConn d (.event k) sid event).2 (.event k) rest := by
  have hdrop := dropData_pop hq hf
  unfold handleConn
  cases hs : sessionFindBySid d sid with
  | none =>
    refine ⟨by rw [hdrop]; rfl, by rw [hdrop]; rfl, ?_⟩
    simp [hdrop, due, hq, hk, hs, passed, Daemon.pop]
  | some s =>
    dsimp only
    have hfree := iscsiEvContextGet_eq_none s hf.evSize_le
    cases hslot : iscsiEvContextGet s (Message.event k).evSize with
    | none =>
      have hex := hfree.1 hslot
      refine ⟨by rw [hdrop]; rfl, by rw [hdrop]; rfl, ?_⟩
      simp [hdrop, due, hq, hk, hs, hex, passed, Daemon.pop]
    | some slot =>
      have hex : s.exhausted = false := by
        cases h : s.exhausted with
        | false => rfl
        | true => rw [hfree.2 h] at hslot; cases hslot
      have hq' : (allocate d sid slot s).queue = .event k :: rest := hq
      dsimp only
      rw [nlpayloadRead_pop hq' hf (le_refl _)]
      refine ⟨rfl, rfl, ?_⟩
      simp [due, hq, hk, hs, hex, passed, Daemon.pop, allocate, Sched.passed]

theorem handleOther_pop (hq : d.queue = m :: rest) (hf : Fits m) :
    (handleOther d m).queue = rest ∧ (handleOther d m).taken = d.taken ++ [m] ∧
      (handleOther d m).sched = d.sched := by
  have hdrop := dropData_pop hq hf
  unfold handleOther
  split <;> rw [hdrop] <;> exact ⟨rfl, rfl, rfl⟩

theorem ctldevHandle_handled (hq : d.queue = m :: rest) (hf : Fits m) :
    Handled d (ctldevHandle d).2 m rest := by
  have hother (h : due d = []) : Handled d (handleOther d m) m rest := by
    obtain ⟨h1, h2, h3⟩ := handleOther_pop hq hf
    exact ⟨h1, h2, by rw [passed, h3, h, append_nil]; rfl⟩
  unfold ctldevHandle
  rw [hq]
  cases m with
  | reply req type r data => exact hother (by simp [due, hq])
  | ifError req iferror => exact hother (by simp [due, hq])
  | event k =>
    dsimp only
    cases hk : k.connEvent with
    | none => exact hother (by simp [due, hq, hk])
    | some p => exact handleConn_handled hq hf hk

end Read

/-! ### One answer at a time -/

def Events (q : List Message) : Prop := ∀ m ∈ q, ∃ k, m = .event k

/-- The message is the kernel's answer to the request. -/
def Answers (req : Nat) (type : Uevent) (m : Message) : Prop :=
  (∃ r data, m = .reply req type r data) ∨ ∃ iferror < 0, m = .ifError req iferror

/-- What is owed and what is on the socket, by where the daemon is. -/
inductive Open : Call → Option (Nat × Uevent) → List Message → Prop
  | idle {q : List Message} (hq : Events q) : Open .idle none q
  | asked {req : Nat} {type : Uevent} {q : List Message} (hq : Events q) :
      Open (.waiting req type) (some (req, type)) q
  | answered {req : Nat} {type : Uevent} {pre post : List Message} {a : Message}
      (hpre : Events pre) (ha : Answers req type a) (hpost : Events post) :
      Open (.waiting req type) none (pre ++ a :: post)
  | fetching {req : Nat} {type : Uevent} {r : Nat × Nat} {data : List UInt8}
      {post : List Message} (hpost : Events post) :
      Open (.fetching req type) none (.reply req type r data :: post)

/-- The request the daemon is in. -/
def Call.req : Call → Option Nat
  | .idle => none
  | .waiting req _ => some req
  | .fetching req _ => some req

/-- The invariant. -/
structure Sound (w : World) : Prop where
  fifo : w.arrived = w.daemon.taken ++ w.daemon.queue
  fits : ∀ m ∈ w.daemon.queue, Fits m
  opened : Open w.call w.owed w.daemon.queue
  matched : ∀ r ∈ w.returned, ∃ a, r.answer = some a ∧ Answers r.req r.type a
  counted : w.returned.map (·.req) ++ w.call.req.toList = List.range w.requests
  order : (passed w.daemon).Sublist (w.daemon.taken.filterMap Message.connEvent)

variable {q : List Message}

theorem Events.append {p : List Message} (hp : Events p) (hq : Events q) : Events (p ++ q) := by
  intro m hm
  rcases mem_append.1 hm with h | h
  · exact hp m h
  · exact hq m h

theorem events_single (k : Kevent) : Events [.event k] := by
  intro m hm
  exact ⟨k, mem_singleton.1 hm⟩

theorem Events.tail {m : Message} (h : Events (m :: q)) : Events q :=
  fun x hx => h x (mem_cons_of_mem m hx)

variable {c : Call} {o : Option (Nat × Uevent)}

/-- An event at the end of the socket changes nothing before it. -/
theorem Open.arrive (h : Open c o q) (k : Kevent) : Open c o (q ++ [.event k]) := by
  cases h with
  | idle hq => exact .idle (hq.append (events_single k))
  | asked hq => exact .asked (hq.append (events_single k))
  | answered hpre ha hpost =>
    rw [append_assoc, cons_append]
    exact .answered hpre ha (hpost.append (events_single k))
  | fetching hpost => exact .fetching (hpost.append (events_single k))

/-- With an event in front, the daemon is not about to fetch a reply, and the event can go. -/
theorem Open.pop_event {rest : List Message} (h : Open c o (.event k :: rest)) :
    Open c o rest ∧ ∀ req type, c ≠ .fetching req type := by
  generalize hq : Message.event k :: rest = q at h
  cases h with
  | idle hq' =>
    subst hq
    exact ⟨.idle hq'.tail, by simp⟩
  | asked hq' =>
    subst hq
    exact ⟨.asked hq'.tail, by simp⟩
  | @answered req type pre post a hpre ha hpost =>
    cases pre with
    | nil =>
      injection hq with h1
      rcases ha with ⟨r, data, rfl⟩ | ⟨e, -, rfl⟩ <;> cases h1
    | cons x pre =>
      injection hq with h1 h2
      subst h2
      exact ⟨.answered hpre.tail ha hpost, by simp⟩
  | fetching hpost => cases hq

/-- An answer in front is the answer to the request the daemon is in. -/
theorem Open.front {m : Message} {rest : List Message} (h : Open c o (m :: rest))
    (hm : ∀ k, m ≠ .event k) :
    o = none ∧ Events rest ∧
      ((∃ req type, c = .waiting req type ∧ Answers req type m) ∨
        ∃ req type r data, c = .fetching req type ∧ m = .reply req type r data) := by
  generalize hq : m :: rest = q at h
  have hno {q' : List Message} (hq' : Events q') (e : m :: rest = q') : False := by
    obtain ⟨k, hk⟩ := hq' m (by rw [← e]; exact mem_cons_self)
    exact hm k hk
  cases h with
  | idle hq' => exact (hno hq' hq).elim
  | asked hq' => exact (hno hq' hq).elim
  | @answered req type pre post a hpre ha hpost =>
    cases pre with
    | nil =>
      injection hq with h1 h2
      subst h1 h2
      exact ⟨rfl, hpost, .inl ⟨req, type, rfl, ha⟩⟩
    | cons x pre =>
      injection hq with h1 h2
      obtain ⟨k, hk⟩ := hpre x mem_cons_self
      exact (hm k (h1.trans hk)).elim
  | fetching hpost =>
    injection hq with h1 h2
    subst h1 h2
    exact ⟨rfl, hpost, .inr ⟨_, _, _, _, rfl, rfl⟩⟩

/-! ### One turn -/

section Turn

variable {w : World} {m : Message} {rest : List Message}

theorem turn_event (hw : Sound w) (hq : w.daemon.queue = .event k :: rest) :
    ∃ d, Handled w.daemon d (.event k) rest ∧ step w .turn = { w with daemon := d } := by
  have hf : Fits (.event k) := hw.fits _ (by rw [hq]; exact mem_cons_self)
  have hne : w.daemon.queue ≠ [] := by rw [hq]; exact cons_ne_nil _ _
  have ho := hw.opened
  rw [hq] at ho
  refine ⟨_, ctldevHandle_handled hq hf, ?_⟩
  rw [step, turn, if_neg hne]
  cases hc : w.call with
  | idle => rfl
  | waiting req type =>
    dsimp only
    rw [kipcTurn, nlpayloadRead_peek hq hf, ← hc]
  | fetching req type => exact (ho.pop_event.2 req type hc).elim

variable {type : Uevent}

/-- A waiting call takes its answer, or leaves a reply to its caller. -/
theorem turn_answer (hw : Sound w) (hq : w.daemon.queue = m :: rest) {req : Nat}
    (hc : w.call = .waiting req type) (ha : Answers req type m) :
    step w .turn = w.finish req type (some m, w.daemon.pop m rest) ∨
      (∃ r data, m = .reply req type r data) ∧
        step w .turn = { w with call := .fetching req type } := by
  have hf : Fits m := hw.fits _ (by rw [hq]; exact mem_cons_self)
  have hne : w.daemon.queue ≠ [] := by rw [hq]; exact cons_ne_nil _ _
  rw [step, turn, if_neg hne, hc]
  dsimp only
  rw [kipcTurn, nlpayloadRead_peek hq hf]
  rcases ha with ⟨r, data, rfl⟩ | ⟨iferror, hneg, rfl⟩
  · dsimp only
    rw [if_pos rfl]
    cases hr : type.readByCaller with
    | true => exact .inr ⟨⟨r, data, rfl⟩, rfl⟩
    | false =>
      refine .inl ?_
      rw [nlpayloadRead_pop hq hf (sizeofUevent_le _)]
      rfl
  · refine .inl ?_
    dsimp only
    rw [if_neg (by omega), nlpayloadRead_pop hq hf (sizeofUevent_le _)]

theorem turn_fetch (hw : Sound w) (hq : w.daemon.queue = m :: rest) {req : Nat}
    (hc : w.call = .fetching req type) :
    step w .turn = w.finish req type (some m, w.daemon.pop m rest) := by
  have hf : Fits m := hw.fits _ (by rw [hq]; exact mem_cons_self)
  have hne : w.daemon.queue ≠ [] := by rw [hq]; exact cons_ne_nil _ _
  have hsize : fetchSize type m ≤ m.evSize := by
    unfold fetchSize
    split
    · exact Nat.min_le_left _ _
    · exact le_refl _
  rw [step, turn, if_neg hne, hc]
  dsimp only
  rw [fetchTurn, hq]
  dsimp only
  rw [nlpayloadRead_pop hq hf hsize]

/-- Everything a turn can do: nothing on an empty socket, handle an event, end the call
with the answer in front, or go on to the caller's read of a reply. -/
theorem turn_cases (hw : Sound w) :
    (w.daemon.queue = [] ∧ step w .turn = w) ∨
    (∃ k rest d, w.daemon.queue = .event k :: rest ∧ Handled w.daemon d (.event k) rest ∧
      step w .turn = { w with daemon := d }) ∨
    (∃ m rest req type, w.daemon.queue = m :: rest ∧ (∀ k, m ≠ .event k) ∧ Events rest ∧
      w.owed = none ∧ w.call.req = some req ∧ Answers req type m ∧
      step w .turn = w.finish req type (some m, w.daemon.pop m rest)) ∨
    ∃ req type r data rest, w.daemon.queue = .reply req type r data :: rest ∧ Events rest ∧
      w.owed = none ∧ w.call = .waiting req type ∧
      step w .turn = { w with call := .fetching req type } := by
  cases hq : w.daemon.queue with
  | nil => exact .inl ⟨rfl, by rw [step, turn, if_pos hq]⟩
  | cons m rest =>
    by_cases hm : ∃ k, m = .event k
    · obtain ⟨k, rfl⟩ := hm
      obtain ⟨d, hd, hs⟩ := turn_event hw hq
      exact .inr (.inl ⟨k, rest, d, rfl, hd, hs⟩)
    · have hm' : ∀ k, m ≠ .event k := fun k h => hm ⟨k, h⟩
      have ho := hw.opened
      rw [hq] at ho
      obtain ⟨hnone, hev, ⟨req, type, hc, ha⟩ | ⟨req, type, r, data, hc, rfl⟩⟩ := ho.front hm'
      · rcases turn_answer hw hq hc ha with hs | ⟨⟨r, data, rfl⟩, hs⟩
        · exact .inr (.inr (.inl ⟨m, rest, req, type, rfl, hm', hev, hnone, by rw [hc]; rfl,
            ha, hs⟩))
        · exact .inr (.inr (.inr ⟨req, type, r, data, rest, rfl, hev, hnone, hc, hs⟩))
      · exact .inr (.inr (.inl ⟨_, rest, req, type, rfl, hm', hev, hnone, by rw [hc]; rfl,
          .inl ⟨r, data, rfl⟩, turn_fetch hw hq hc⟩))

end Turn

/-! ### One step -/

theorem due_sublist {d : Daemon} {m : Message} {rest : List Message}
    (hq : d.queue = m :: rest) : (due d).Sublist ([m].filterMap Message.connEvent) := by
  unfold due
  rw [hq]
  cases m with
  | reply req type r data => exact nil_sublist _
  | ifError req iferror => exact nil_sublist _
  | event k =>
    cases hk : k.connEvent with
    | none => simp [hk]
    | some p =>
      have he : [Message.event k].filterMap Message.connEvent = [p] := by
        simp [Message.connEvent, hk]
      rw [he]
      dsimp only
      rw [hk]
      dsimp only
      cases sessionFindBySid d p.1 with
      | none => exact nil_sublist _
      | some s =>
        dsimp only
        split
        · exact nil_sublist _
        · exact List.Sublist.refl _

variable {e : Event}

/-- A step other than a turn leaves what was read and passed on, and only adds to the
socket. -/
theorem step_quiet (w : World) (he : e ≠ .turn) :
    (step w e).daemon.taken = w.daemon.taken ∧ (step w e).daemon.sched = w.daemon.sched ∧
      ∃ more, (step w e).daemon.queue = w.daemon.queue ++ more := by
  have hsame : ∃ more, w.daemon.queue = w.daemon.queue ++ more := ⟨[], by simp⟩
  cases e with
  | turn => exact (he rfl).elim
  | arrive k => exact ⟨rfl, rfl, _, rfl⟩
  | request type =>
    simp only [step, request]
    split <;> exact ⟨rfl, rfl, hsame⟩
  | answer r data =>
    simp only [step, respond]
    split
    · exact ⟨rfl, rfl, _, rfl⟩
    · exact ⟨rfl, rfl, hsame⟩
  | refuse iferror =>
    simp only [step, respond]
    split
    · exact ⟨rfl, rfl, _, rfl⟩
    · exact ⟨rfl, rfl, hsame⟩
  | get sid =>
    simp only [step, takeContext]
    split
    · split <;> exact ⟨rfl, rfl, hsame⟩
    · exact ⟨rfl, rfl, hsame⟩
  | put sid slot =>
    simp only [step, iscsiEvContextPut]
    split <;> exact ⟨rfl, rfl, hsame⟩
  | addSession s => exact ⟨rfl, rfl, hsame⟩
  | removeSession sid => exact ⟨rfl, rfl, hsame⟩

/-- The invariant only looks at these parts of the daemon. -/
theorem Sound.congr {w : World} (hw : Sound w) {d : Daemon} (hq : d.queue = w.daemon.queue)
    (ht : d.taken = w.daemon.taken) (hs : d.sched = w.daemon.sched) :
    Sound { w with daemon := d } where
  fifo := by rw [ht, hq]; exact hw.fifo
  fits := by rw [hq]; exact hw.fits
  opened := by rw [hq]; exact hw.opened
  matched := hw.matched
  counted := hw.counted
  order := by
    have hp : passed d = passed w.daemon := by rw [passed, hs]; rfl
    rw [hp, ht]
    exact hw.order

/-- The kernel puts its answer on the socket. -/
theorem respond_sound {w : World} (hw : Sound w) {answer : Nat → Uevent → Message}
    (hf : ∀ req type, Fits (answer req type)) (ha : ∀ req type, Answers req type (answer req type)) :
    Sound (respond w answer) := by
  unfold respond
  cases ho : w.owed with
  | none => exact hw
  | some p =>
    obtain ⟨req, type⟩ := p
    have hopen := hw.opened
    rw [ho] at hopen
    obtain ⟨c, hc⟩ : ∃ c, c = w.call := ⟨_, rfl⟩
    rw [← hc] at hopen
    refine ⟨?_, ?_, ?_, hw.matched, hw.counted, hw.order⟩
    · simp only [World.push]
      rw [hw.fifo, append_assoc]
    · intro m hm
      rcases mem_append.1 hm with h | h
      · exact hw.fits m h
      · rw [mem_singleton.1 h]
        exact hf req type
    · simp only [World.push, ← hc]
      cases hopen with
      | asked hq => exact .answered hq (ha req type) (by intro m hm; cases hm)

theorem finish_sound {w : World} (hw : Sound w) {m : Message} {rest : List Message} {req : Nat}
    (hq : w.daemon.queue = m :: rest) (hrest : Events rest) (ho : w.owed = none)
    (hc : w.call.req = some req) (ha : Answers req type m) :
    Sound (w.finish req type (some m, w.daemon.pop m rest)) where
  fifo := by
    rw [World.finish, hw.fifo, hq]
    simp [Daemon.pop]
  fits := fun x hx => hw.fits x (by rw [hq]; exact mem_cons_of_mem m hx)
  opened := by
    simp only [World.finish, ho]
    exact .idle hrest
  matched := by
    intro r hr
    rcases mem_append.1 hr with h | h
    · exact hw.matched r h
    · rw [mem_singleton.1 h]
      exact ⟨m, rfl, ha⟩
  counted := by
    have h := hw.counted
    rw [hc] at h
    simpa [World.finish, Call.req] using h
  order := by
    have h : (passed w.daemon).Sublist ((w.daemon.taken ++ [m]).filterMap Message.connEvent) := by
      rw [filterMap_append]
      exact hw.order.trans (sublist_append_left _ _)
    exact h

theorem turn_sound {w : World} (hw : Sound w) : Sound (step w .turn) := by
  rcases turn_cases hw with ⟨-, hs⟩ | ⟨k, rest, d, hq, hd, hs⟩ |
      ⟨m, rest, req, type, hq, -, hrest, ho, hc, ha, hs⟩ |
      ⟨req, type, r, data, rest, hq, hrest, ho, hc, hs⟩
  · rw [hs]
    exact hw
  · rw [hs]
    refine ⟨?_, ?_, ?_, hw.matched, hw.counted, ?_⟩
    · rw [hw.fifo, hd.taken, hd.queue, hq]
      simp
    · intro x hx
      rw [hd.queue] at hx
      exact hw.fits x (by rw [hq]; exact mem_cons_of_mem _ hx)
    · have h := hw.opened
      rw [hq] at h
      rw [hd.queue]
      exact h.pop_event.1
    · rw [hd.passed, hd.taken, filterMap_append]
      exact hw.order.append (due_sublist hq)
  · rw [hs]
    exact finish_sound hw hq hrest ho hc ha
  · rw [hs]
    have hcount := hw.counted
    rw [hc] at hcount
    refine ⟨hw.fifo, hw.fits, ?_, hw.matched, hcount, hw.order⟩
    dsimp only
    rw [ho, hq]
    exact .fetching hrest

theorem step_sound {w : World} (hw : Sound w) (he : FromKernel e) : Sound (step w e) := by
  cases e with
  | arrive k =>
    refine ⟨?_, ?_, hw.opened.arrive k, hw.matched, hw.counted, hw.order⟩
    · simp only [step, World.push]
      rw [hw.fifo, append_assoc]
    · intro m hm
      rcases mem_append.1 hm with h | h
      · exact hw.fits m h
      · rw [mem_singleton.1 h]
        exact he
  | request type =>
    have hopen := hw.opened
    have hcount := hw.counted
    simp only [step, request]
    cases hc : w.call with
    | idle =>
      rw [hc] at hopen hcount
      refine ⟨hw.fifo, hw.fits, ?_, hw.matched, ?_, hw.order⟩
      · obtain ⟨o, ho⟩ : ∃ o, o = w.owed := ⟨_, rfl⟩
        rw [← ho] at hopen
        cases hopen with
        | idle hq => exact .asked hq
      · simp only [Call.req, Option.toList_none, append_nil] at hcount
        simp only [Call.req, Option.toList_some]
        rw [hcount, range_succ]
    | waiting req t => exact hw
    | fetching req t => exact hw
  | answer r data => exact respond_sound hw (fun _ _ => he) (fun _ _ => .inl ⟨r, data, rfl⟩)
  | refuse iferror =>
    have hsize : nlmsgSpace sizeofUevent ≤ nlmBufDefaultMax := by decide
    exact respond_sound hw (fun _ _ => hsize) (fun _ _ => .inr ⟨iferror, he, rfl⟩)
  | turn => exact turn_sound hw
  | get sid =>
    simp only [step, takeContext]
    split
    · split
      · exact hw.congr rfl rfl rfl
      · exact hw
    · exact hw
  | put sid slot =>
    simp only [step, iscsiEvContextPut]
    split
    · exact hw.congr rfl rfl rfl
    · exact hw
  | addSession s => exact hw.congr rfl rfl rfl
  | removeSession sid => exact hw.congr rfl rfl rfl

theorem start_sound (sessions : List Session) : Sound (start sessions) where
  fifo := rfl
  fits := by intro m hm; cases hm
  opened := .idle (by intro m hm; cases hm)
  matched := by intro r hr; cases hr
  counted := rfl
  order := nil_sublist _

variable {es : List Event}

theorem run_sound {w : World} (hw : Sound w) (hes : ∀ e ∈ es, FromKernel e) : Sound (run w es) := by
  induction es generalizing w with
  | nil => exact hw
  | cons e es ih =>
    exact ih (step_sound hw (hes e mem_cons_self))
      (fun x hx => hes x (mem_cons_of_mem e hx))

/-! ### Nothing stays on the socket -/

/-- How many turns read the message behind `k` others, at most: one each, and one more
for each reply that a caller reads itself. -/
def turnsFor (w : World) (k : Nat) : Nat :=
  match w.call with
  | .fetching _ _ => 2 * k + 1
  | _ => 2 * k + 2

theorem turnsFor_le (w : World) (k : Nat) : turnsFor w k ≤ 2 * k + 2 := by
  unfold turnsFor
  split <;> omega

theorem turnsFor_quiet {w : World} (he : e ≠ .turn) (k : Nat) :
    turnsFor (step w e) k = turnsFor w k := by
  cases e with
  | turn => exact (he rfl).elim
  | request type =>
    simp only [step, request]
    cases hc : w.call with
    | idle => simp [turnsFor, hc]
    | waiting req t => rfl
    | fetching req t => rfl
  | answer r data => simp only [step, respond]; split <;> rfl
  | refuse iferror => simp only [step, respond]; split <;> rfl
  | _ => rfl

theorem step_taken_le {w : World} (hw : Sound w) (e : Event) :
    w.daemon.taken.length ≤ (step w e).daemon.taken.length := by
  by_cases he : e = .turn
  · subst he
    rcases turn_cases hw with ⟨-, hs⟩ | ⟨k, rest, d, -, hd, hs⟩ |
        ⟨m, rest, req, type, -, -, -, -, -, -, hs⟩ | ⟨req, type, r, data, rest, -, -, -, -, hs⟩
    · rw [hs]
    · rw [hs]
      simp [hd.taken]
    · rw [hs]
      simp [World.finish, Daemon.pop]
    · rw [hs]
  · rw [(step_quiet w he).1]

theorem run_taken_le {w : World} (hw : Sound w) (hes : ∀ e ∈ es, FromKernel e) :
    w.daemon.taken.length ≤ (run w es).daemon.taken.length := by
  induction es generalizing w with
  | nil => exact le_refl _
  | cons e es ih =>
    exact le_trans (step_taken_le hw e) (ih (step_sound hw (hes e mem_cons_self))
      (fun x hx => hes x (mem_cons_of_mem e hx)))

theorem turnsFor_pos (w : World) (k : Nat) : 2 * k + 1 ≤ turnsFor w k := by
  unfold turnsFor
  split <;> omega

/-- The message behind `k` others is read after so many turns, whatever else happens. -/
theorem run_reads {w : World} (hw : Sound w) (hes : ∀ e ∈ es, FromKernel e) {k : Nat}
    (hk : k < w.daemon.queue.length) (ht : turnsFor w k ≤ es.count .turn) :
    w.daemon.taken.length + k + 1 ≤ (run w es).daemon.taken.length := by
  induction es generalizing w k with
  | nil =>
    have := turnsFor_pos w k
    rw [count_nil] at ht
    omega
  | cons e es ih =>
    have hstep := step_sound hw (hes e mem_cons_self)
    have hes' : ∀ x ∈ es, FromKernel x := fun x hx => hes x (mem_cons_of_mem e hx)
    -- a turn that reads the front: done for `k = 0`, one message less in front otherwise
    have hpop {m : Message} {rest : List Message} (he : e = .turn)
        (hq : w.daemon.queue = m :: rest) (hq' : (step w e).daemon.queue = rest)
        (htaken : (step w e).daemon.taken = w.daemon.taken ++ [m]) :
        w.daemon.taken.length + k + 1 ≤ (run w (e :: es)).daemon.taken.length := by
      have hlen : (step w e).daemon.taken.length = w.daemon.taken.length + 1 := by
        rw [htaken, length_append, length_singleton]
      cases k with
      | zero =>
        have := run_taken_le hstep hes'
        change _ ≤ (run (step w e) es).daemon.taken.length
        omega
      | succ k =>
        have hpos := turnsFor_pos w (k + 1)
        have hle := turnsFor_le (step w e) k
        rw [he, count_cons_self] at ht
        rw [hq, length_cons] at hk
        have h := ih hstep hes' (k := k) (by rw [hq']; omega) (by omega)
        change _ ≤ (run (step w e) es).daemon.taken.length
        omega
    by_cases he : e = .turn
    · subst he
      rcases turn_cases hw with ⟨hq, -⟩ | ⟨k', rest, d, hq, hd, hs⟩ |
          ⟨m, rest, req, type, hq, -, -, -, -, -, hs⟩ | ⟨req, type, r, data, rest, -, -, -, hc, hs⟩
      · rw [hq] at hk
        exact (Nat.not_lt_zero k hk).elim
      · exact hpop rfl hq (by rw [hs]; exact hd.queue) (by rw [hs]; exact hd.taken)
      · exact hpop rfl hq (by rw [hs]; rfl) (by rw [hs]; rfl)
      · -- the reply stays for its caller, which reads it in the next turn
        have hdaemon : (step w .turn).daemon = w.daemon := by rw [hs]
        have hturns : turnsFor (step w .turn) k + 1 = turnsFor w k := by
          rw [hs]
          simp [turnsFor, hc]
        rw [count_cons_self] at ht
        have h := ih hstep hes' (k := k) (by rw [hdaemon]; exact hk) (by omega)
        rw [hdaemon] at h
        exact h
    · obtain ⟨htaken, -, more, hmore⟩ := step_quiet w he
      rw [count_cons_of_ne he] at ht
      have h := ih hstep hes' (k := k)
        (by rw [hmore, length_append]; omega) (by rw [turnsFor_quiet he]; exact ht)
      rw [htaken] at h
      exact h

/-! ### Every answered request returns -/

def Done (w : World) (req : Nat) : Prop := req ∈ w.returned.map (·.req)

theorem step_returned {w : World} (hw : Sound w) (e : Event) {req : Nat} (h : Done w req) :
    Done (step w e) req := by
  cases e with
  | turn =>
    rcases turn_cases hw with ⟨-, hs⟩ | ⟨k, rest, d, -, -, hs⟩ |
        ⟨m, rest, req', type, -, -, -, -, -, -, hs⟩ | ⟨req', type, r, data, rest, -, -, -, -, hs⟩
    · rw [hs]
      exact h
    · rw [hs]
      exact h
    · rw [hs, Done, World.finish, map_append]
      exact mem_append_left _ h
    · rw [hs]
      exact h
  | request type => simp only [step, request]; split <;> exact h
  | answer r data => simp only [step, respond]; split <;> exact h
  | refuse iferror => simp only [step, respond]; split <;> exact h
  | _ => exact h

/-- The kernel has answered the request, and so many turns are enough for it to return. -/
def Waits (w : World) (req n : Nat) : Prop :=
  w.owed = none ∧ ∃ pre a post, w.daemon.queue = pre ++ a :: post ∧ (∀ k, a ≠ .event k) ∧
    ((∃ type, w.call = .waiting req type ∧ pre.length + 2 ≤ n) ∨
      ∃ type, w.call = .fetching req type ∧ 1 ≤ n)

/-- An answered request waits for the messages in front of its answer. -/
theorem Sound.waits {w : World} (hw : Sound w) {req : Nat} (ho : w.owed = none)
    (hc : w.call.req = some req) : Waits w req (w.daemon.queue.length + 1) := by
  have hopen := hw.opened
  obtain ⟨c, hcall⟩ : ∃ c, c = w.call := ⟨_, rfl⟩
  obtain ⟨o, ho'⟩ : ∃ o, o = w.owed := ⟨_, rfl⟩
  obtain ⟨q, hq⟩ : ∃ q, q = w.daemon.queue := ⟨_, rfl⟩
  rw [← hcall, ← ho', ← hq] at hopen
  rw [← hcall] at hc
  rw [Waits, ← hq, ← hcall]
  refine ⟨ho, ?_⟩
  cases hopen with
  | idle hq => cases hc
  | asked hq =>
    rw [ho] at ho'
    cases ho'
  | @answered req' type pre post a hpre ha hpost =>
    injection hc with hc
    subst hc
    refine ⟨pre, a, post, rfl, ?_, .inl ⟨type, rfl, ?_⟩⟩
    · rcases ha with ⟨r, data, rfl⟩ | ⟨e, -, rfl⟩ <;> intro k h <;> cases h
    · rw [length_append, length_cons]
      omega
  | @fetching req' type r data post hpost =>
    injection hc with hc
    subst hc
    exact ⟨[], _, post, rfl, (by intro k h; cases h), .inr ⟨type, rfl, by omega⟩⟩

theorem Waits.turn {w : World} (hw : Sound w) {req : Nat} (h : Waits w req (n + 1)) :
    Done (step w .turn) req ∨ Waits (step w .turn) req n := by
  obtain ⟨ho, pre, a, post, hq, hne, hcall⟩ := h
  have hreq : w.call.req = some req := by
    rcases hcall with ⟨type, hc, -⟩ | ⟨type, hc, -⟩ <;> rw [hc] <;> rfl
  rcases turn_cases hw with ⟨hq', -⟩ | ⟨k, rest, d, hq', hd, hs⟩ |
      ⟨m, rest, req', type, hq', -, -, -, hc', -, hs⟩ | ⟨req', type, r, data, rest, hq', -, -, hc', hs⟩
  · rw [hq'] at hq
    simp at hq
  · have hopen := hw.opened
    rw [hq'] at hopen
    rw [hq'] at hq
    cases pre with
    | nil =>
      injection hq with h1
      exact (hne k h1.symm).elim
    | cons x pre =>
      injection hq with h1 h2
      rw [hs]
      refine .inr ⟨ho, pre, a, post, by rw [hd.queue, h2]; rfl, hne, ?_⟩
      rcases hcall with ⟨type, hc, hn⟩ | ⟨type, hc, -⟩
      · rw [length_cons] at hn
        exact .inl ⟨type, hc, by omega⟩
      · exact (hopen.pop_event.2 req type hc).elim
  · rw [hreq] at hc'
    injection hc' with hc'
    rw [hs, hc', Done, World.finish, map_append]
    exact .inl (mem_append_right _ mem_cons_self)
  · rw [hc'] at hreq
    injection hreq with hreq
    rcases hcall with ⟨t, hc, hn⟩ | ⟨t, hc, -⟩
    · rw [hs]
      exact .inr ⟨ho, pre, a, post, hq, hne, .inr ⟨type, by rw [hreq], by omega⟩⟩
    · rw [hc] at hc'
      cases hc'

theorem Waits.quiet {w : World} (he : e ≠ .turn) {req : Nat} (h : Waits w req n) :
    Waits (step w e) req n := by
  obtain ⟨ho, pre, a, post, hq, hne, hcall⟩ := h
  obtain ⟨-, -, more, hmore⟩ := step_quiet w he
  have hkeep : (step w e).owed = none ∧ (step w e).call = w.call := by
    cases e with
    | turn => exact (he rfl).elim
    | request type =>
      rcases hcall with ⟨t, hc, -⟩ | ⟨t, hc, -⟩ <;> simp [step, request, hc, ho]
    | answer r data => simp [step, respond, ho]
    | refuse iferror => simp [step, respond, ho]
    | _ => exact ⟨ho, rfl⟩
  refine ⟨hkeep.1, pre, a, post ++ more, by rw [hmore, hq]; simp, hne, ?_⟩
  rw [hkeep.2]
  exact hcall

theorem run_returns {w : World} (hw : Sound w) (hes : ∀ e ∈ es, FromKernel e) {req : Nat}
    (h : Done w req ∨ Waits w req n) (hn : n ≤ es.count .turn) :
    Done (run w es) req := by
  induction es generalizing w n with
  | nil =>
    rcases h with h | ⟨-, pre, a, post, -, -, ⟨type, -, hlen⟩ | ⟨type, -, hlen⟩⟩
    · exact h
    · rw [count_nil] at hn; omega
    · rw [count_nil] at hn; omega
  | cons e es ih =>
    have hstep := step_sound hw (hes e mem_cons_self)
    have hes' : ∀ x ∈ es, FromKernel x := fun x hx => hes x (mem_cons_of_mem e hx)
    rcases h with h | h
    · exact ih hstep hes' (.inl (step_returned hw e h)) (Nat.zero_le _)
    · by_cases he : e = .turn
      · subst he
        rw [count_cons_self] at hn
        cases n with
        | zero =>
          obtain ⟨-, pre, a, post, -, -, ⟨type, -, hlen⟩ | ⟨type, -, hlen⟩⟩ := h <;> omega
        | succ n => exact ih hstep hes' (h.turn hw) (by omega)
      · rw [count_cons_of_ne he] at hn
        exact ih hstep hes' (.inr (h.quiet he)) hn

/-! ### Every run -/

/-- Every request that has returned got its own answer, and the requests return in
order; an answered request returns after as many turns as there are messages, and one. -/
structure RepliesMatch (w : World) : Prop where
  own : ∀ r ∈ w.returned, ∃ a, r.answer = some a ∧ Answers r.req r.type a
  order : w.returned.map (·.req) ++ w.call.req.toList = List.range w.requests
  returns : ∀ req, w.owed = none → w.call.req = some req →
    ∀ es, (∀ e ∈ es, FromKernel e) → w.daemon.queue.length + 1 ≤ es.count .turn →
      Done (run w es) req

/-- What was read and what is on the socket is what the kernel sent, each message once;
an event in front is read in the next turn, and each message after so many turns. -/
structure ReadOnce (w : World) : Prop where
  fifo : w.arrived = w.daemon.taken ++ w.daemon.queue
  front : ∀ k rest, w.daemon.queue = .event k :: rest →
    (step w .turn).daemon.queue = rest ∧
      (step w .turn).daemon.taken = w.daemon.taken ++ [.event k]
  read : ∀ k < w.daemon.queue.length, ∀ es, (∀ e ∈ es, FromKernel e) →
    2 * k + 2 ≤ es.count .turn →
      w.daemon.taken.length + k + 1 ≤ (run w es).daemon.taken.length

/-- The events passed on are among those read, in the same order, and each step passes
on exactly what is due. -/
structure PassedOnce (w : World) : Prop where
  order : (passed w.daemon).Sublist (w.daemon.taken.filterMap Message.connEvent)
  turn : passed (step w .turn).daemon = passed w.daemon ++ due w.daemon
  other : ∀ e ≠ .turn, passed (step w e).daemon = passed w.daemon

theorem turn_passed {w : World} (hw : Sound w) :
    passed (step w .turn).daemon = passed w.daemon ++ due w.daemon := by
  rcases turn_cases hw with ⟨hq, hs⟩ | ⟨k, rest, d, -, hd, hs⟩ |
      ⟨m, rest, req, type, hq, hne, -, -, -, -, hs⟩ | ⟨req, type, r, data, rest, hq, -, -, -, hs⟩
  · rw [hs]
    simp [due, hq]
  · rw [hs]
    exact hd.passed
  · have hdue : due w.daemon = [] := by
      rw [due, hq]
      cases m with
      | event k => exact (hne k rfl).elim
      | reply req type r data => rfl
      | ifError req iferror => rfl
    rw [hs, hdue, append_nil]
    rfl
  · rw [hs]
    simp [due, hq]

/-- In every run, each request returns the reply to it, each message is read off the
socket once and in order, and each event of a known session with a context left is
passed on once and in order. -/
theorem run_kernel_events (sessions : List Session) (es : List Event)
    (hes : ∀ e ∈ es, FromKernel e) :
    RepliesMatch (run (start sessions) es) ∧ ReadOnce (run (start sessions) es) ∧
      PassedOnce (run (start sessions) es) := by
  have hw : Sound (run (start sessions) es) := run_sound (start_sound sessions) hes
  refine ⟨⟨hw.matched, hw.counted, ?_⟩, ⟨hw.fifo, ?_, ?_⟩, ⟨hw.order, turn_passed hw, ?_⟩⟩
  · intro req ho hc fs hfs hn
    exact run_returns hw hfs (.inr (hw.waits ho hc)) hn
  · intro k rest hq
    obtain ⟨d, hd, hs⟩ := turn_event hw hq
    rw [hs]
    exact ⟨hd.queue, hd.taken⟩
  · intro k hk fs hfs hn
    exact run_reads hw hfs hk (le_trans (turnsFor_le _ k) hn)
  · intro e he
    rw [passed, (step_quiet _ he).2.1]
    rfl

/-- A connection error arrives between a request and its reply. -/
def errorDuringCall : List Event :=
  [.request .startConn, .arrive (.connError 7 0 1011), .turn, .answer (0, 0) [], .turn]

theorem run_kernel_events_sample :
    (run (start [⟨7, [false]⟩]) errorDuringCall).returned =
        [⟨0, .startConn, some (.reply 0 .startConn (0, 0) [])⟩] ∧
      passed (run (start [⟨7, [false]⟩]) errorDuringCall).daemon = [(7, .error 1011)] ∧
      PassedOnce (run (start [⟨7, [false]⟩]) errorDuringCall) :=
  ⟨by decide, by decide,
    (run_kernel_events [⟨7, [false]⟩] errorDuringCall (by decide)).2.2⟩

end Netlink
