import OpenIscsi.Actor
import OpenIscsi.Lib.DueQueue

/-!
# The two queues behind the links

The abstract scheduler is a pair of lists: the waiting actors in order of their
due times and the ready ones in the order of execution. Every function of
`actor.c` is shown to do to the lists what its name says.
-/

namespace ActorQueues

open Ring Actor DueQueue List

variable {A C P : Type} [DecidableEq A]

/-- The waiting and the ready actors, and when an actor is due. -/
structure Queues (A : Type) where
  pend : List A
  ready : List A
  due : A → Nat

/-- The actor is on neither list. -/
def Queues.remove (q : Queues A) (a : A) : Queues A :=
  { q with pend := q.pend.erase a, ready := q.ready.erase a }

/-- The actor is ready, in front or behind. -/
def Queues.enqueue (q : Queues A) (a : A) (head : Bool) : Queues A :=
  { q with ready := if head then a :: q.ready else q.ready ++ [a] }

/-- The actor waits until `t`, behind those due at the same time. -/
def Queues.arm (q : Queues A) (a : A) (t : Nat) : Queues A :=
  let due := Function.update q.due a t
  { q with due := due, pend := q.pend.orderedInsert (fun b c => due b < due c) a }

/-- The actor is taken off its list and scheduled anew. -/
def Queues.schedule (q : Queues A) (a : A) (delaySecs : UInt32) (head : Bool) (now : Nat) :
    Queues A :=
  if delaySecs = 0 then (q.remove a).enqueue a head
  else (q.remove a).arm a (now + delaySecs.toNat)

def Queues.ripen (q : Queues A) (now : Nat) : Queues A :=
  { q with
    pend := q.pend.dropWhile (fun a => q.due a ≤ now)
    ready := q.ready ++ q.pend.takeWhile (fun a => q.due a ≤ now) }

/-! ## Links of two lists -/

/-- The links hold these two lists. -/
structure Rings (links : Links (Node A)) (pend ready : List A) : Prop where
  pendRing : IsRing links .pendList (pend.map .actor)
  readyRing : IsRing links .readyList (ready.map .actor)
  disjoint : ∀ a ∈ pend, a ∉ ready

section Disjoint

omit [DecidableEq A]

variable {links : Links (Node A)} {pend ready : List A}

theorem Rings.pend_nodup (h : Rings links pend ready) : pend.Nodup :=
  List.Nodup.of_map _ (nodup_cons.mp h.pendRing.nodup).2

theorem Rings.ready_nodup (h : Rings links pend ready) : ready.Nodup :=
  List.Nodup.of_map _ (nodup_cons.mp h.readyRing.nodup).2

/-- The nodes of `pend_list` are none of `ready_list`, and not the actor `a` either. -/
theorem Rings.pend_off (h : Rings links pend ready) {a : A} (ha : a ∉ pend) :
    ∀ n ∈ Node.pendList :: pend.map Node.actor,
      n ∉ Node.actor a :: Node.readyList :: ready.map Node.actor := by
  intro n hn hmem
  simp only [mem_cons, mem_map] at hn hmem
  rcases hn with rfl | ⟨b, hb, rfl⟩
  · simp at hmem
  · simp only [Node.actor.injEq, reduceCtorEq, exists_eq_right, false_or] at hmem
    rcases hmem with rfl | hmem
    · exact ha hb
    · exact h.disjoint b hb hmem

theorem Rings.ready_off (h : Rings links pend ready) {a : A} (ha : a ∉ ready) :
    ∀ n ∈ Node.readyList :: ready.map Node.actor,
      n ∉ Node.actor a :: Node.pendList :: pend.map Node.actor := by
  intro n hn hmem
  simp only [mem_cons, mem_map] at hn hmem
  rcases hn with rfl | ⟨b, hb, rfl⟩
  · simp at hmem
  · simp only [Node.actor.injEq, reduceCtorEq, exists_eq_right, false_or] at hmem
    rcases hmem with rfl | hmem
    · exact ha hb
    · exact h.disjoint b hmem hb

end Disjoint

variable {links : Links (Node A)} {pend ready : List A}

/-- Initialising the links of an actor on no list. -/
theorem Rings.init (h : Rings links pend ready) (a : A) (hp : a ∉ pend) (hr : a ∉ ready) :
    Rings (initListHead links (.actor a)) pend ready := by
  refine ⟨h.pendRing.other (initListHead_agreeOff links _ (by simp)) (h.pend_off hp),
    h.readyRing.other (initListHead_agreeOff links _ (by simp)) (h.ready_off hr), h.disjoint⟩

/-- An actor on no list becomes ready. -/
theorem Rings.enqueue (h : Rings links pend ready) (a : A) (hp : a ∉ pend) (hr : a ∉ ready)
    (head : Bool) :
    Rings (if head then listAdd links (.actor a) .readyList else listAddTail links (.actor a) .readyList)
      pend (if head then a :: ready else ready ++ [a]) := by
  have hnew : Node.actor a ∉ Node.readyList :: ready.map Node.actor := by simpa using hr
  cases head with
  | true =>
    obtain ⟨hring, hagree⟩ := listAdd_isRing h.readyRing hnew
    refine ⟨h.pendRing.other hagree (h.pend_off hp), hring, fun b hb => ?_⟩
    have hne : b ≠ a := fun he => hp (he ▸ hb)
    simp [hne, h.disjoint b hb]
  | false =>
    obtain ⟨hring, hagree⟩ := listAddTail_isRing h.readyRing hnew
    refine ⟨h.pendRing.other hagree (h.pend_off hp), by simpa using hring, fun b hb => ?_⟩
    have hne : b ≠ a := fun he => hp (he ▸ hb)
    simp [hne, h.disjoint b hb]

/-- An actor is taken off the list it is on. -/
theorem listDelInit_erase {head : Node A} {l : List A} {a : A}
    (hring : IsRing links head (l.map Node.actor)) (ha : a ∈ l) :
    IsRing (listDelInit links (.actor a)) head ((l.erase a).map Node.actor) ∧
      AgreeOff (head :: l.map Node.actor) links (listDelInit links (.actor a)) := by
  obtain ⟨xs, ys, -, hsplit, herase⟩ := exists_erase_eq ha
  rw [herase, map_append]
  rw [hsplit, map_append, map_cons] at hring ⊢
  exact listDelInit_isRing hring

theorem Rings.delPend (h : Rings links pend ready) (a : A) (ha : a ∈ pend) :
    Rings (listDelInit links (.actor a)) (pend.erase a) ready := by
  obtain ⟨hdel, hagree⟩ := listDelInit_erase h.pendRing ha
  exact ⟨hdel, h.readyRing.other hagree fun n hn hmem =>
    h.ready_off (h.disjoint a ha) n hn (mem_cons_of_mem _ hmem),
    fun b hb => h.disjoint b (mem_of_mem_erase hb)⟩

theorem Rings.delReady (h : Rings links pend ready) (a : A) (ha : a ∈ ready) :
    Rings (listDelInit links (.actor a)) pend (ready.erase a) := by
  obtain ⟨hdel, hagree⟩ := listDelInit_erase h.readyRing ha
  exact ⟨h.pendRing.other hagree fun n hn hmem =>
    h.pend_off (fun hp => h.disjoint a hp ha) n hn (mem_cons_of_mem _ hmem), hdel,
    fun b hb hmem => h.disjoint b hb (mem_of_mem_erase hmem)⟩

/-- An actor on no list is linked into `pend_list` at its place. -/
theorem linkOnPendList_rings [Fintype A] {s : Sched A C P} (h : Rings s.links pend ready) (a : A)
    (hp : a ∉ pend) (hr : a ∉ ready) (due : A → Nat) (hdue : ∀ b, due b = (s.actor b).ttschedule) :
    Rings (linkOnPendList s a) (pend.orderedInsert (fun b c => due b < due c) a) ready := by
  have hnew : Node.actor a ∉ Node.pendList :: pend.map Node.actor := by simpa using hp
  have hfuel : pend.length < rounds A :=
    Nat.lt_succ_of_le (List.Nodup.length_le_card h.pend_nodup)
  have hfind : findFrom s.links .pendList (dueLater s a) (rounds A) (s.links.next .pendList) =
      (pend.find? (fun b => due a < due b)).map Node.actor := by
    have hring : IsRing s.links .pendList ([] ++ pend.map Node.actor) := h.pendRing
    rw [h.pendRing.next_head, findFrom_isRing _ _ hring (rounds A) (by simpa using hfuel),
      find?_map]
    congr 2
    funext b
    simp [dueLater, hdue]
  have hdisj : ∀ b ∈ pend.orderedInsert (fun b c => due b < due c) a, b ∉ ready := by
    intro b hb
    rcases mem_insertion.mp hb with rfl | hb
    · exact hr
    · exact h.disjoint b hb
  rw [linkOnPendList, hfind]
  cases hcase : pend.find? (fun b => due a < due b) with
  | none =>
    obtain ⟨hring, hagree⟩ := listAddTail_isRing h.pendRing hnew
    refine ⟨?_, h.readyRing.other hagree (h.ready_off hr), hdisj⟩
    rw [orderedInsert_of_find_none (r := fun b c => due b < due c) a pend hcase]
    simpa using hring
  | some b =>
    obtain ⟨xs, ys, hsplit, hins⟩ :=
      orderedInsert_of_find (r := fun b c => due b < due c) a b pend hcase
    have hring := h.pendRing
    rw [hsplit, map_append, map_cons] at hring hnew
    obtain ⟨hadd, hagree⟩ := insertBefore_isRing hring hnew
    refine ⟨by rw [hins]; simpa using hadd, h.readyRing.other hagree ?_, hdisj⟩
    have hoff := h.ready_off hr
    rw [hsplit, map_append, map_cons] at hoff
    exact hoff

/-! ## The abstraction -/

structure Rep (s : Sched A C P) (q : Queues A) : Prop where
  rings : Rings s.links q.pend q.ready
  waiting : ∀ a, a ∈ q.pend ↔ (s.actor a).state = .waiting
  scheduled : ∀ a, a ∈ q.ready ↔ (s.actor a).state = .scheduled
  due : ∀ a, q.due a = (s.actor a).ttschedule
  sorted : q.pend.Pairwise (fun a b => q.due a ≤ q.due b)

variable {s : Sched A C P} {q : Queues A} {a : A}

theorem Queues.remove_of_not_mem (hp : a ∉ q.pend) (hr : a ∉ q.ready) :
    q.remove a = q := by
  simp [Queues.remove, erase_of_not_mem hp, erase_of_not_mem hr]

omit [DecidableEq A] in
theorem Rep.onNoList (h : Rep s q) (ha : OnNoList s a) : a ∉ q.pend ∧ a ∉ q.ready :=
  ⟨fun hp => ha.1 ⟨_, h.rings.pendRing, mem_map_of_mem hp⟩,
    fun hr => ha.2 ⟨_, h.rings.readyRing, mem_map_of_mem hr⟩⟩

structure Tracks (s : Sched A C P) (q : Queues A) (a : A) : Prop where
  waiting : ∀ b, b ≠ a → (b ∈ q.pend ↔ (s.actor b).state = .waiting)
  scheduled : ∀ b, b ≠ a → (b ∈ q.ready ↔ (s.actor b).state = .scheduled)
  due : ∀ b, q.due b = (s.actor b).ttschedule

theorem Rep.tracks (h : Rep s q) (a : A) :
    Tracks s (q.remove a) a :=
  ⟨fun b hb => by simp [Queues.remove, mem_erase_of_ne hb, h.waiting b],
    fun b hb => by simp [Queues.remove, mem_erase_of_ne hb, h.scheduled b],
    h.due⟩

theorem Rep.remove_sorted (h : Rep s q) (a : A) :
    (q.remove a).pend.Pairwise (fun b c => q.due b ≤ q.due c) :=
  h.sorted.sublist erase_sublist

theorem Rep.not_mem_remove (h : Rep s q) (a : A) :
    a ∉ (q.remove a).pend ∧ a ∉ (q.remove a).ready :=
  ⟨h.rings.pend_nodup.not_mem_erase, h.rings.ready_nodup.not_mem_erase⟩

/-- One actor is given a new record. -/
theorem Tracks.rep {s' : Sched A C P} {q' : Queues A} (h : Tracks s q a) {t : ActorT C P}
    (hactor : s'.actor = Function.update s.actor a t)
    (hsame : ∀ b, b ≠ a → (b ∈ q'.pend ↔ b ∈ q.pend) ∧ (b ∈ q'.ready ↔ b ∈ q.ready) ∧ q'.due b =
      q.due b)
    (hrings : Rings s'.links q'.pend q'.ready) (hw : a ∈ q'.pend ↔ t.state = .waiting)
    (hs : a ∈ q'.ready ↔ t.state = .scheduled) (hd : q'.due a = t.ttschedule)
    (hsorted : q'.pend.Pairwise (fun b c => q'.due b ≤ q'.due c)) : Rep s' q' := by
  refine ⟨hrings, fun b => ?_, fun b => ?_, fun b => ?_, hsorted⟩ <;> rw [hactor]
  · by_cases hb : b = a
    · subst hb
      rw [Function.update_self]
      exact hw
    · rw [Function.update_of_ne hb, (hsame b hb).1]
      exact h.waiting b hb
  · by_cases hb : b = a
    · subst hb
      rw [Function.update_self]
      exact hs
    · rw [Function.update_of_ne hb, (hsame b hb).2.1]
      exact h.scheduled b hb
  · by_cases hb : b = a
    · subst hb
      rw [Function.update_self]
      exact hd
    · rw [Function.update_of_ne hb, (hsame b hb).2.2]
      exact h.due b

/-! ## The functions -/

theorem actorInit_rep (h : Rep s q) (hp : a ∉ q.pend) (hr : a ∉ q.ready) (callback : C) (data : P) :
    Rep (actorInit s a callback data) q := by
  have htracks := h.tracks a
  rw [Queues.remove_of_not_mem hp hr] at htracks
  refine htracks.rep rfl (fun _ _ => ⟨Iff.rfl, Iff.rfl, rfl⟩) (h.rings.init a hp hr) ?_ ?_ (h.due a)
    h.sorted
  · simp [hp]
  · simp [hr]

/-- `unlink` works on whichever list the actor is on. -/
theorem unlink_rings (h : Rep s q)
    (ha : (s.actor a).state = .waiting ∨ (s.actor a).state = .scheduled) :
    Rings (unlink s a).links (q.remove a).pend (q.remove a).ready ∧
      (unlink s a).actor = s.actor ∧
      (unlink s a).alarm = if (q.remove a).pend = [] then none else s.alarm := by
  have hlinks : (unlink s a).links = listDelInit s.links (.actor a) := by
    unfold unlink
    dsimp only
    split <;> rfl
  have hrings : Rings (listDelInit s.links (.actor a)) (q.remove a).pend (q.remove a).ready := by
    rcases ha with ha | ha
    · have hp := (h.waiting a).mpr ha
      have hdel := h.rings.delPend a hp
      simpa [Queues.remove, erase_of_not_mem (h.rings.disjoint a hp)] using hdel
    · have hr := (h.scheduled a).mpr ha
      have hp : a ∉ q.pend := fun hp => h.rings.disjoint a hp hr
      have hdel := h.rings.delReady a hr
      simpa [Queues.remove, erase_of_not_mem hp] using hdel
  refine ⟨by rw [hlinks]; exact hrings, ?_, ?_⟩
  · unfold unlink
    dsimp only
    split <;> rfl
  · have hempty := listEmpty_isRing hrings.pendRing
    unfold unlink
    dsimp only
    rw [hempty]
    cases (q.remove a).pend <;> simp

/-- `actor_delete` takes the actor off its list. -/
theorem actorDelete_rep (h : Rep s q) (a : A) :
    Rep (actorDelete s a) (q.remove a) ∧
      ((q.remove a).pend ≠ [] → (actorDelete s a).alarm = s.alarm) := by
  obtain ⟨hnp, hnr⟩ := h.not_mem_remove a
  by_cases hlisted : (s.actor a).state = .waiting ∨ (s.actor a).state = .scheduled
  · obtain ⟨hrings, hactor, halarm⟩ := unlink_rings h hlisted
    have heq : actorDelete s a =
        (unlink s a).setActor a { s.actor a with state := .notScheduled } := by
      unfold actorDelete
      rcases hlisted with hst | hst <;> simp only [hst, hactor]
    rw [heq]
    refine ⟨(h.tracks a).rep (t := { s.actor a with state := .notScheduled })
      (by rw [Sched.setActor, hactor]) (fun _ _ => ⟨Iff.rfl, Iff.rfl, rfl⟩) hrings (by simp [hnp])
      (by simp [hnr]) (h.due a) (h.remove_sorted a), fun hne => ?_⟩
    rw [Sched.setActor, halarm, if_neg hne]
  · have hp : a ∉ q.pend := fun hp => hlisted (.inl ((h.waiting a).mp hp))
    have hr : a ∉ q.ready := fun hr => hlisted (.inr ((h.scheduled a).mp hr))
    have heq : actorDelete s a = s.setActor a { s.actor a with state := .notScheduled } := by
      unfold actorDelete
      cases hst : (s.actor a).state with
      | waiting => exact absurd (.inl hst) hlisted
      | scheduled => exact absurd (.inr hst) hlisted
      | invalid => rfl
      | notScheduled => rfl
    rw [heq]
    refine ⟨(h.tracks a).rep rfl (fun _ _ => ⟨Iff.rfl, Iff.rfl, rfl⟩) ?_ (by simp [hnp])
      (by simp [hnr]) (h.due a) (h.remove_sorted a), fun _ => rfl⟩
    rw [Queues.remove_of_not_mem hp hr]
    exact h.rings

theorem actorDelete_other (s : Sched A C P) {b : A} (hb : b ≠ a) :
    (actorDelete s a).actor b = s.actor b := by
  have hunlink : (unlink s a).actor = s.actor := by
    unfold unlink
    dsimp only
    split <;> rfl
  unfold actorDelete
  cases (s.actor a).state <;> simp [Sched.setActor, hb, hunlink]

structure Detached (s : Sched A C P) (q : Queues A) (a : A) : Prop where
  rings : Rings (initListHead s.links (.actor a)) q.pend q.ready
  tracks : Tracks s q a
  sorted : q.pend.Pairwise (fun b c => q.due b ≤ q.due c)
  pend : a ∉ q.pend
  ready : a ∉ q.ready

/-- An actor on no list. -/
theorem Rep.detached (h : Rep s q) (hp : a ∉ q.pend) (hr : a ∉ q.ready) : Detached s q a := by
  have htracks := h.tracks a
  rw [Queues.remove_of_not_mem hp hr] at htracks
  exact ⟨h.rings.init a hp hr, htracks, h.sorted, hp, hr⟩

/-- A waiting actor after `list_del`. -/
theorem Rep.listDel_detached (h : Rep s q) (hp : a ∈ q.pend) :
    Detached { s with links := listDel .null s.links (.actor a) } (q.remove a) a := by
  obtain ⟨hnp, hnr⟩ := h.not_mem_remove a
  have htracks := h.tracks a
  refine ⟨?_, ⟨htracks.waiting, htracks.scheduled, htracks.due⟩, h.remove_sorted a, hnp, hnr⟩
  rw [initListHead_listDel]
  simpa [Queues.remove, erase_of_not_mem (h.rings.disjoint a hp)] using h.rings.delPend a hp

/-- The alarm covers the waiting actors, or was delivered. -/
def Watched (alarm : Option Nat) (fired : Bool) (q : Queues A) : Prop :=
  q.pend ≠ [] → fired = true ∨ ∃ t, alarm = some t ∧ ∀ b ∈ q.pend, t ≤ q.due b

theorem Watched.remove {alarm : Option Nat} {fired : Bool} (h : Watched alarm fired q) (a : A) :
    Watched alarm fired (q.remove a) := by
  intro hne
  have hpend : q.pend ≠ [] := by
    intro h0
    simp [Queues.remove, h0] at hne
  rcases h hpend with hf | ⟨t, ht, hall⟩
  · exact .inl hf
  · exact .inr ⟨t, ht, fun b hb => hall b (mem_of_mem_erase hb)⟩

/-- A new waiting actor is covered: it is behind the first one, or has the alarm set. -/
theorem Watched.arm {alarm : Option Nat} {fired : Bool} {t : Nat} (h : Watched alarm fired q)
    (ha : a ∉ q.pend)
    (hs : (q.arm a t).pend.Pairwise (fun b c => (q.arm a t).due b ≤ (q.arm a t).due c)) :
    Watched (if q.pend.head? = (q.arm a t).pend.head? then alarm else some t) fired
      (q.arm a t) := by
  intro hne
  obtain ⟨b, l, hbl⟩ := exists_cons_of_ne_nil hne
  rw [hbl] at hs
  have hfirst : ∀ c ∈ (q.arm a t).pend, (q.arm a t).due b ≤ (q.arm a t).due c := by
    intro c hc
    rw [hbl] at hc
    rcases mem_cons.mp hc with rfl | hc
    · exact Nat.le_refl _
    · exact (pairwise_cons.mp hs).1 c hc
  by_cases hc : q.pend.head? = (q.arm a t).pend.head?
  · rw [if_pos hc]
    have hb : b ∈ q.pend := mem_of_head? (by rw [hc, hbl]; rfl)
    have hba : b ≠ a := fun he => ha (he ▸ hb)
    have hdue : (q.arm a t).due b = q.due b := by simp [Queues.arm, hba]
    rcases h (ne_nil_of_mem hb) with hf | ⟨u, hu, hall⟩
    · exact .inl hf
    · refine .inr ⟨u, hu, fun c hcm => ?_⟩
      calc u ≤ q.due b := hall b hb
        _ = (q.arm a t).due b := hdue.symm
        _ ≤ (q.arm a t).due c := hfirst c hcm
  · rw [if_neg hc]
    have hba : b = a := by
      rcases head?_orderedInsert (fun b c => (q.arm a t).due b < (q.arm a t).due c) a q.pend
        with hd | hd
      · have hhead : (q.arm a t).pend.head? = some a := hd
        rw [hbl] at hhead
        exact Option.some.inj hhead
      · exact absurd hd.symm hc
    refine .inr ⟨t, rfl, fun c hcm => ?_⟩
    have hdue : (q.arm a t).due b = t := by simp [Queues.arm, hba]
    calc t = (q.arm a t).due b := hdue.symm
      _ ≤ (q.arm a t).due c := hfirst c hcm

section Insertion

variable [Fintype A]

/-- Without a delay the actor is ready, and the alarm is not touched. -/
theorem scheduleFresh_ready (h : Detached s q a)
    (head : Bool) (now : Nat) :
    Rep (scheduleFresh s a 0 head now) (q.enqueue a head) ∧
      (scheduleFresh s a 0 head now).alarm = s.alarm := by
  have hrings := h.rings.enqueue a h.pend h.ready head
  refine ⟨h.tracks.rep (t := { s.actor a with state := .scheduled }) rfl
    (fun b hb => ⟨Iff.rfl, ?_, rfl⟩) hrings ?_ ?_ (h.tracks.due a) h.sorted, rfl⟩
  · cases head <;> simp [Queues.enqueue, hb]
  · simp [Queues.enqueue, h.pend]
  · cases head <;> simp [Queues.enqueue]

omit [Fintype A] in
/-- The first entry as the code reads it. -/
theorem pendHead_rings (h : Rings s.links pend ready) : pendHead s = pend.head?.map Node.actor := by
  rw [pendHead, listEmpty_isRing h.pendRing, h.pendRing.next_head]
  cases pend <;> simp

/-- With a delay the actor waits, and the alarm is set if it is first now. -/
theorem scheduleFresh_waits (h : Detached s q a)
    (delay : UInt32) (hd : delay ≠ 0) (head : Bool) (now : Nat) :
    Rep (scheduleFresh s a delay head now) (q.arm a (now + delay.toNat)) ∧
      (scheduleFresh s a delay head now).alarm =
        if q.pend.head? = (q.arm a (now + delay.toNat)).pend.head? then s.alarm
        else some (now + delay.toNat) := by
  obtain ⟨t, ht⟩ : ∃ t : ActorT C P, t =
      { s.actor a with state := .waiting, ttschedule := now + delay.toNat } := ⟨_, rfl⟩
  obtain ⟨s1, hs1⟩ : ∃ s1 : Sched A C P, s1 =
      { s with links := initListHead s.links (.actor a) }.setActor a t := ⟨_, rfl⟩
  have heq : scheduleFresh s a delay head now = actorInsertOnPendList s1 a delay.toNat now := by
    rw [scheduleFresh, hs1, ht]
    simp only [hd, if_false]
  have hrings1 : Rings s1.links q.pend q.ready := by rw [hs1]; exact h.rings
  have hdue : ∀ b, (q.arm a (now + delay.toNat)).due b = (s1.actor b).ttschedule := by
    intro b
    rw [hs1]
    by_cases hb : b = a
    · subst hb
      simp [Queues.arm, Sched.setActor, ht]
    · simp [Queues.arm, Sched.setActor, hb, h.tracks.due b]
  have hins : Rings (linkOnPendList s1 a) (q.arm a (now + delay.toNat)).pend q.ready :=
    linkOnPendList_rings hrings1 a h.pend h.ready _ hdue
  have harm : ∀ b, b ∈ (q.arm a (now + delay.toNat)).pend ↔ b = a ∨ b ∈ q.pend := fun b => mem_insertion
  have hlt : delay.toNat % 2 ^ 32 = delay.toNat := Nat.mod_eq_of_lt delay.toNat_lt
  have hpos : delay.toNat ≠ 0 := fun h0 => hd (UInt32.toNat.inj h0)
  have hfirst : some ((linkOnPendList s1 a).next .pendList) =
      (q.arm a (now + delay.toNat)).pend.head?.map Node.actor := by
    rw [hins.pendRing.next_head]
    cases hcase : (q.arm a (now + delay.toNat)).pend with
    | nil =>
      have := (harm a).mpr (.inl rfl)
      rw [hcase] at this
      simp at this
    | cons b l => simp
  have hinsert : actorInsertOnPendList s1 a delay.toNat now =
      { s1 with
        links := linkOnPendList s1 a
        alarm := if q.pend.head? = (q.arm a (now + delay.toNat)).pend.head? then s.alarm
          else some (now + delay.toNat) } := by
    have halarm : s1.alarm = s.alarm := by rw [hs1]; rfl
    have hinj : Function.Injective (Option.map (Node.actor (A := A))) :=
      Option.map_injective (fun _ _ he => Node.actor.inj he)
    unfold actorInsertOnPendList
    simp only [pendHead_rings hrings1, hfirst, ne_eq, hinj.eq_iff]
    by_cases hc : q.pend.head? = (q.arm a (now + delay.toNat)).pend.head?
    · simp only [hc, not_true_eq_false, if_false, if_true, halarm.symm]
    · simp only [hc, not_false_eq_true, if_true, if_false, Sched.setAlarm, hlt, hpos]
  rw [heq, hinsert]
  refine ⟨h.tracks.rep (t := t) (by rw [hs1]; rfl) (fun b hb => ⟨?_, Iff.rfl, ?_⟩) hins ?_ ?_ ?_ ?_, rfl⟩
  · rw [harm]
    simp [hb]
  · simp [Queues.arm, hb]
  · rw [harm, ht]
    simp
  · rw [ht]
    simp [Queues.arm, h.ready]
  · rw [ht]
    simp [Queues.arm]
  · refine orderedInsert_sorted _ a _ (h.sorted.imp_of_mem (fun {b c} hb hc hle => ?_))
    have hba : b ≠ a := fun he => h.pend (he ▸ hb)
    have hca : c ≠ a := fun he => h.pend (he ▸ hc)
    simpa [Queues.arm, hba, hca] using hle

/-- The actor that is scheduled is off its list, and nothing else has changed. -/
theorem actorSchedulePrivate_fresh (h : Rep s q)
    (ha : (s.actor a).state = .waiting ∨ (s.actor a).state = .notScheduled) (delaySecs : UInt32)
    (head : Bool) (now : Nat) :
    ∃ s0, Detached s0 (q.remove a) a ∧ s0.alarm = s.alarm ∧ s0.actor = s.actor ∧
      actorSchedulePrivate s a delaySecs head (some now) =
        scheduleFresh s0 a delaySecs head now := by
  rcases ha with ha | ha
  · refine ⟨_, h.listDel_detached ((h.waiting a).mpr ha), rfl, rfl, ?_⟩
    simp only [actorSchedulePrivate, ha]
  · have hp : a ∉ q.pend := fun hp => by simp [(h.waiting a).mp hp] at ha
    have hr : a ∉ q.ready := fun hr => by simp [(h.scheduled a).mp hr] at ha
    refine ⟨s, ?_, rfl, rfl, ?_⟩
    · rw [Queues.remove_of_not_mem hp hr]
      exact h.detached hp hr
    · simp only [actorSchedulePrivate, ha]

/-- `actor_schedule_private` on an actor that is waiting or not scheduled. -/
theorem actorSchedulePrivate_rep (h : Rep s q)
    (ha : (s.actor a).state = .waiting ∨ (s.actor a).state = .notScheduled) (delaySecs : UInt32)
    (head : Bool) (now : Nat) {fired : Bool} (hw : Watched s.alarm fired q) :
    Rep (actorSchedulePrivate s a delaySecs head (some now)) (q.schedule a delaySecs head now) ∧
      Watched (actorSchedulePrivate s a delaySecs head (some now)).alarm fired
        (q.schedule a delaySecs head now) := by
  obtain ⟨s0, hdet, halarm, -, heq⟩ := actorSchedulePrivate_fresh h ha delaySecs head now
  rw [heq]
  by_cases hd : delaySecs = 0
  · subst hd
    obtain ⟨hrep, hal⟩ := scheduleFresh_ready hdet head now
    rw [Queues.schedule, if_pos rfl, hal, halarm]
    exact ⟨hrep, hw.remove a⟩
  · obtain ⟨hrep, hal⟩ := scheduleFresh_waits hdet delaySecs hd head now
    rw [Queues.schedule, if_neg hd, hal, halarm]
    exact ⟨hrep, (hw.remove a).arm hdet.pend hrep.sorted⟩

/-- Only the record of the actor itself is written. -/
theorem actorSchedulePrivate_other {b : A} (hb : b ≠ a) (delaySecs : UInt32)
    (head : Bool) (reading : Option Nat) :
    (actorSchedulePrivate s a delaySecs head reading).actor b = s.actor b := by
  have hfresh : ∀ (s : Sched A C P) (now : Nat),
      (scheduleFresh s a delaySecs head now).actor b = s.actor b := by
    intro s now
    unfold scheduleFresh actorInsertOnPendList
    dsimp only
    split
    · simp [Sched.setActor, hb]
    · split <;> simp [Sched.setActor, Sched.setAlarm, hb]
  cases reading with
  | none => rfl
  | some now =>
    cases hst : (s.actor a).state <;> simp only [actorSchedulePrivate, hst, hfresh]

end Insertion

/-! ## The poll -/

/-- A ripe entry is moved behind the ready ones. -/
theorem moveRipe_rep (h : Rep s q) {l : List A} (hq : q.pend = a :: l) :
    Rep (moveRipe s a) { q with pend := l, ready := q.ready ++ [a] } := by
  have hmem : a ∈ q.pend := by simp [hq]
  have hr : a ∉ q.ready := h.rings.disjoint a hmem
  have hnd := h.rings.pend_nodup
  rw [hq] at hnd
  have hl : a ∉ l := (nodup_cons.mp hnd).1
  have herase : q.remove a = { q with pend := l } := by
    simp [Queues.remove, hq, erase_of_not_mem hr]
  have hdel : Rings (listDelInit s.links (.actor a)) l q.ready := by
    simpa [hq] using h.rings.delPend a hmem
  have htracks := h.tracks a
  have hsorted := h.remove_sorted a
  rw [herase] at htracks hsorted
  refine htracks.rep (t := { s.actor a with state := .scheduled }) rfl
    (fun b hb => ⟨Iff.rfl, by simp [hb], rfl⟩) (hdel.enqueue a hl hr false) ?_ ?_ (h.due a) hsorted
  · simp [hl]
  · simp

/-- The records after a poll has moved what is due at `now`. -/
def ripened (s : Sched A C P) (q : Queues A) (now : Nat) (b : A) : ActorT C P :=
  if b ∈ q.pend ∧ q.due b ≤ now then { s.actor b with state := .scheduled } else s.actor b

/-- The scan of a poll: what is due becomes ready, and the alarm is set for the
first one that is not. -/
theorem pollScan_rep (now : Nat) (h : Rep s q) (fuel : Nat) (hfuel : q.pend.length < fuel)
    {first : Node A} (hfirst : first = s.links.next .pendList) :
    let s' := pollScan now fuel s first (s.links.next first)
    Rep s' (q.ripen now) ∧ (∀ b, s'.actor b = ripened s q now b) ∧
      s'.pollInProgress = s.pollInProgress ∧
      ∀ b l, (q.ripen now).pend = b :: l → s'.alarm = (s.setAlarm now (q.due b - now)).alarm := by
  obtain ⟨pend, hpend⟩ : ∃ pend, pend = q.pend := ⟨_, rfl⟩
  rw [← hpend] at hfuel
  induction pend generalizing s q fuel first with
  | nil =>
    have hnext : first = .pendList := by
      rw [hfirst, h.rings.pendRing.next_head, ← hpend]
      rfl
    have hsame : q.ripen now = q := by
      cases q
      simp only at hpend
      simp [Queues.ripen, ← hpend]
    obtain ⟨k, rfl⟩ : ∃ k, fuel = k + 1 := ⟨fuel - 1, by simp at hfuel; omega⟩
    rw [hsame, ← hpend, hnext]
    exact ⟨h, fun b => by simp [pollScan, ripened, ← hpend], rfl, fun b l hbl => nomatch hbl⟩
  | cons a l ih =>
    obtain ⟨k, rfl⟩ : ∃ k, fuel = k + 1 := ⟨fuel - 1, by simp at hfuel; omega⟩
    have hring := h.rings.pendRing
    rw [← hpend, map_cons] at hring
    have hnext : first = .actor a := by
      rw [hfirst, hring.next_head]
      rfl
    have hleft : actorTimeLeft (s.actor a) now = q.due a - now := by
      rw [actorTimeLeft, ← h.due a]
      split <;> omega
    by_cases hripe : q.due a ≤ now
    · have hzero : actorTimeLeft (s.actor a) now = 0 := by rw [hleft]; omega
      have htmp : s.links.next first = (moveRipe s a).links.next .pendList := by
        have hmid : IsRing s.links .pendList ([] ++ .actor a :: l.map .actor) := hring
        rw [hnext, hmid.next_mid, (moveRipe_rep h hpend.symm).rings.pendRing.next_head]
      have hstep : pollScan now (k + 1) s first (s.links.next first) =
          pollScan now k (moveRipe s a) (s.links.next first)
            ((moveRipe s a).links.next (s.links.next first)) := by
        rw [hnext]
        simp only [pollScan, hzero, ne_eq, not_true_eq_false, if_false]
      obtain ⟨hrep, hactor, hpoll, halarm⟩ :=
        ih (moveRipe_rep h hpend.symm) k htmp (by simpa using hfuel) rfl
      have hq : Queues.ripen { q with pend := l, ready := q.ready ++ [a] } now = q.ripen now := by
        simp [Queues.ripen, ← hpend, hripe]
      rw [hq] at hrep halarm
      dsimp only
      rw [hstep]
      refine ⟨hrep, fun b => ?_, hpoll, halarm⟩
      rw [hactor b]
      have hnd := h.rings.pend_nodup
      rw [← hpend] at hnd
      by_cases hb : b = a
      · subst hb
        have hl := (nodup_cons.mp hnd).1
        simp [ripened, ← hpend, hl, hripe, moveRipe, Sched.setActor]
      · simp [ripened, ← hpend, hb, moveRipe, Sched.setActor]
    · have hsame : q.ripen now = q := by
        simp [Queues.ripen, ← hpend, hripe]
        rw [hpend]
      have hpos : q.due a - now ≠ 0 := by omega
      have hstep : pollScan now (k + 1) s first (s.links.next first) =
          s.setAlarm now (q.due a - now) := by
        rw [hnext]
        simp only [pollScan, hleft, ne_eq, hpos, not_false_eq_true, if_true]
      have hsorted := h.sorted
      rw [← hpend] at hsorted
      dsimp only
      rw [hstep, hsame, ← hpend]
      refine ⟨⟨h.rings, h.waiting, h.scheduled, h.due, h.sorted⟩, fun b => ?_, rfl, fun b l' hbl => ?_⟩
      · have hlate : ¬ (b ∈ q.pend ∧ q.due b ≤ now) := by
          rintro ⟨hb, hle⟩
          rw [← hpend] at hb
          rcases mem_cons.mp hb with rfl | hb
          · exact hripe hle
          · have := (pairwise_cons.mp hsorted).1 b hb
            omega
        rw [ripened, if_neg hlate]
        rfl
      · obtain ⟨rfl, -⟩ := List.cons.inj hbl
        rfl

/-- A poll that reads `now` makes what is due ready and sets the alarm for the rest. -/
theorem actorPollBegin_rep [Fintype A] (h : Rep s q) (hidle : s.pollInProgress = false) (now : Nat)
    (hbound : ∀ b ∈ q.pend, q.due b < now + 2 ^ 32) :
    let s' := actorPollBegin s (some now)
    Rep s' (q.ripen now) ∧ (∀ b, s'.actor b = ripened s q now b) ∧ s'.pollInProgress = true ∧
      Watched s'.alarm false (q.ripen now) := by
  have hfuel : q.pend.length < rounds A :=
    Nat.lt_succ_of_le (List.Nodup.length_le_card h.rings.pend_nodup)
  obtain ⟨hrep, hactor, -, halarm⟩ := pollScan_rep now h (rounds A) hfuel rfl
  obtain ⟨s1, hs1⟩ : ∃ s1, s1 = pollScan now (rounds A) s (s.links.next .pendList)
      (s.links.next (s.links.next .pendList)) := ⟨_, rfl⟩
  rw [← hs1] at hrep hactor halarm
  have heq : actorPollBegin s (some now) =
      { s1 with
        alarm := if (q.ripen now).pend = [] then none else s1.alarm
        pollInProgress := true } := by
    unfold actorPollBegin
    simp only [hidle, ← hs1, listEmpty_isRing hrep.rings.pendRing]
    cases (q.ripen now).pend <;> simp
  dsimp only
  rw [heq]
  refine ⟨⟨hrep.rings, hrep.waiting, hrep.scheduled, hrep.due, hrep.sorted⟩, hactor, rfl, ?_⟩
  intro hne
  obtain ⟨b, l, hbl⟩ := exists_cons_of_ne_nil hne
  have hsorted := hrep.sorted
  have hmem : b ∈ q.pend.dropWhile (fun a => q.due a ≤ now) := by
    show b ∈ (q.ripen now).pend
    simp [hbl]
  have hlate : now < q.due b := lt_of_mem_dropWhile q.due now q.pend h.sorted b hmem
  have hnear : q.due b < now + 2 ^ 32 := hbound b ((dropWhile_sublist _).subset hmem)
  have hmod : (q.due b - now) % 2 ^ 32 = q.due b - now := Nat.mod_eq_of_lt (by omega)
  refine .inr ⟨q.due b, ?_, fun c hc => ?_⟩
  · rw [if_neg hne, halarm b l hbl, Sched.setAlarm, hmod, if_neg (by omega),
      Nat.add_sub_of_le (Nat.le_of_lt hlate)]
  · rw [hbl] at hc hsorted
    rcases mem_cons.mp hc with rfl | hc
    · exact Nat.le_refl _
    · exact (pairwise_cons.mp hsorted).1 c hc

/-- A running poll takes the first ready actor. -/
theorem actorPollExec_rep (h : Rep s q) (hrun : s.pollInProgress = true) {l : List A}
    (hq : q.ready = a :: l) :
    ∃ s', actorPollExec s = some (a, s') ∧ Rep s' { q with ready := l } ∧
      s'.actor = Function.update s.actor a { s.actor a with state := .notScheduled } ∧
      s'.alarm = s.alarm ∧ s'.pollInProgress = true := by
  have hmem : a ∈ q.ready := by simp [hq]
  have hp : a ∉ q.pend := fun hp => h.rings.disjoint a hp hmem
  have hnd := h.rings.ready_nodup
  have hring := h.rings.readyRing
  rw [hq] at hnd hring
  have hl : a ∉ l := (nodup_cons.mp hnd).1
  have hnext : s.links.next .readyList = .actor a := hring.next_head
  have hsome : listEmpty s.links .readyList = false := by
    rw [listEmpty_isRing hring]
    rfl
  have hdel : Rings (listDelInit s.links (.actor a)) q.pend l := by
    simpa [hq] using h.rings.delReady a hmem
  have htracks := h.tracks a
  have hremove : q.remove a = { q with ready := l } := by
    simp [Queues.remove, hq, erase_of_not_mem hp]
  rw [hremove] at htracks
  refine ⟨{ s with links := listDelInit s.links (.actor a) }.setActor a
      { s.actor a with state := .notScheduled }, ?_,
    htracks.rep (t := { s.actor a with state := .notScheduled }) rfl
      (fun _ _ => ⟨Iff.rfl, Iff.rfl, rfl⟩) hdel ?_ ?_ (h.due a) h.sorted, rfl, rfl, hrun⟩
  · simp only [actorPollExec, hrun, hsome, hnext, Bool.not_false, Bool.and_self, if_true]
  · simp [hp]
  · simp [hl]

/-- Outside a poll, or with nothing ready, no callback is invoked. -/
theorem actorPollExec_none (h : Rep s q)
    (hno : s.pollInProgress = false ∨ q.ready = []) : actorPollExec s = none := by
  rcases hno with hno | hno
  · simp [actorPollExec, hno]
  · have hempty := listEmpty_isRing h.rings.readyRing
    simp [actorPollExec, hempty, hno]

end ActorQueues
