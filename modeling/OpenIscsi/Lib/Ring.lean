import Mathlib

/-!
# Circular doubly linked lists

The links live in the nodes, and a list is known by its head node: the head of
an empty list points to itself. A heap is one pair of link functions for all
nodes, so that several lists share it and an operation on one of them has to be
shown to leave the others alone.
-/

namespace Ring

open List

variable {N : Type}

structure Links (N : Type) where
  next : N → N
  prev : N → N

/-! ## The list a head stands for -/

/-- Two nodes that follow each other. -/
def Links.Link (h : Links N) (u v : N) : Prop := h.next u = v ∧ h.prev v = u

/-- The nodes after `head`, in order. -/
structure IsRing (h : Links N) (head : N) (xs : List N) : Prop where
  nodup : (head :: xs).Nodup
  chain : List.IsChain h.Link (head :: (xs ++ [head]))

theorem isChain_mono {R S : N → N → Prop} (l : List N) (hl : List.IsChain R l)
    (h : ∀ u ∈ l.dropLast, ∀ v ∈ l.tail, R u v → S u v) : List.IsChain S l := by
  induction l with
  | nil => exact List.IsChain.nil
  | cons a l ih =>
    cases l with
    | nil => exact List.IsChain.singleton a
    | cons b l =>
      rw [isChain_cons_cons] at hl ⊢
      refine ⟨h a (by simp) b (by simp) hl.1, ih hl.2 (fun u hu v hv => h u ?_ v ?_)⟩
      · simp [hu]
      · exact mem_of_mem_tail hv

variable {h : Links N} {head new e : N} {xs : List N} {h' : Links N} {n : N} {ys : List N}

/-- A ring is untouched when the links of its nodes are. -/
theorem IsRing.congr (hr : IsRing h head xs)
    (hn : ∀ n ∈ head :: xs, h'.next n = h.next n ∧ h'.prev n = h.prev n) : IsRing h' head xs := by
  refine ⟨hr.nodup, isChain_mono _ hr.chain (fun u hu v hv huv => ?_)⟩
  have hmem : ∀ w, w ∈ head :: (xs ++ [head]) → w ∈ head :: xs := by
    intro w hw
    simp only [mem_cons, mem_append, not_mem_nil, or_false] at hw ⊢
    tauto
  obtain ⟨h1, h2⟩ := huv
  exact ⟨(hn u (hmem u (dropLast_subset _ hu))).1.trans h1,
    (hn v (hmem v (mem_of_mem_tail hv))).2.trans h2⟩

/-- Where a ring is cut in two, the ends of the parts are linked. -/
theorem IsRing.cut (hr : IsRing h head (xs ++ ys)) :
    List.IsChain h.Link (head :: xs) ∧ List.IsChain h.Link (ys ++ [head]) ∧
      h.Link (xs.getLastD head) (ys.headD head) := by
  have hc := hr.chain
  rw [append_assoc, ← cons_append, isChain_append] at hc
  refine ⟨hc.1, hc.2.1, hc.2.2 _ ?_ _ ?_⟩
  · cases xs with
    | nil => simp
    | cons x xs => simp [getLast?_cons]
  · cases ys <;> simp

/-- Two parts with linked ends make a ring. -/
theorem IsRing.glue (hn : (head :: (xs ++ ys)).Nodup)
    (hx : List.IsChain h.Link (head :: xs)) (hy : List.IsChain h.Link (ys ++ [head]))
    (hl : h.Link (xs.getLastD head) (ys.headD head)) : IsRing h head (xs ++ ys) := by
  refine ⟨hn, ?_⟩
  rw [append_assoc, ← cons_append, isChain_append]
  refine ⟨hx, hy, fun u hu v hv => ?_⟩
  have hu' : u = xs.getLastD head := by
    cases xs with
    | nil => simpa using hu.symm
    | cons x xs => simpa [getLast?_cons] using hu.symm
  have hv' : v = ys.headD head := by
    cases ys <;> simpa using hv.symm
  rw [hu', hv']
  exact hl

theorem IsRing.next_head (hr : IsRing h head xs) :
    h.next head = xs.headD head := by
  have hr' : IsRing h head ([] ++ xs) := hr
  have hc := hr'.cut
  exact hc.2.2.1

theorem IsRing.prev_head (hr : IsRing h head xs) :
    h.prev head = xs.getLastD head := by
  have hr' : IsRing h head (xs ++ []) := by rw [append_nil]; exact hr
  exact hr'.cut.2.2.2

theorem IsRing.next_mid (hr : IsRing h head (xs ++ n :: ys)) : h.next n = ys.headD head := by
  have hr' : IsRing h head ((xs ++ [n]) ++ ys) := by simpa using hr
  have hc := hr'.cut.2.2.1
  simpa using hc

theorem IsRing.prev_mid (hr : IsRing h head (xs ++ n :: ys)) : h.prev n = xs.getLastD head :=
  hr.cut.2.2.2

/-- The last node of a part does not occur before. -/
theorem getLastD_not_mem_dropLast (hn : (head :: xs).Nodup) :
    xs.getLastD head ∉ (head :: xs).dropLast := by
  have hsplit : (head :: xs).dropLast ++ [xs.getLastD head] = head :: xs := by
    rcases eq_nil_or_concat xs with rfl | ⟨zs, z, rfl⟩
    · rfl
    · have hdrop : (head :: (zs ++ [z])).dropLast = head :: zs := by
        rw [← cons_append, dropLast_concat]
      rw [concat_eq_append, hdrop]
      simp
  rw [← hsplit, nodup_append] at hn
  intro hmem
  exact hn.2.2 _ hmem _ (by simp) rfl

theorem headD_mem (head : N) (ys : List N) : ys.headD head ∈ ys ++ [head] := by
  cases ys <;> simp

theorem headD_not_mem_tail (hn : (head :: ys).Nodup) :
    ys.headD head ∉ (ys ++ [head]).tail := by
  cases ys with
  | nil => simp
  | cons y ys =>
    simp only [nodup_cons, mem_cons, not_or] at hn
    simp [Ne.symm hn.1.1, hn.2.1]

/-- The part before a cut stays linked if only its last node points elsewhere. -/
theorem isChain_before (hc : List.IsChain h.Link (head :: xs)) (hn : (head :: xs).Nodup)
    (hnext : ∀ u ∈ head :: xs, u ≠ xs.getLastD head → h'.next u = h.next u)
    (hprev : ∀ v ∈ xs, h'.prev v = h.prev v) : List.IsChain h'.Link (head :: xs) := by
  refine isChain_mono _ hc (fun u hu v hv huv => ?_)
  have hne : u ≠ xs.getLastD head := fun he => getLastD_not_mem_dropLast hn (he ▸ hu)
  obtain ⟨h1, h2⟩ := huv
  exact ⟨(hnext u (dropLast_subset _ hu) hne).trans h1, (hprev v hv).trans h2⟩

/-- The part behind a cut stays linked if only its first node points elsewhere. -/
theorem isChain_behind (hc : List.IsChain h.Link (ys ++ [head])) (hn : (head :: ys).Nodup)
    (hnext : ∀ u ∈ ys, h'.next u = h.next u)
    (hprev : ∀ v ∈ ys ++ [head], v ≠ ys.headD head → h'.prev v = h.prev v) :
    List.IsChain h'.Link (ys ++ [head]) := by
  refine isChain_mono _ hc (fun u hu v hv huv => ?_)
  have hne : v ≠ ys.headD head := fun he => headD_not_mem_tail hn (he ▸ hv)
  rw [dropLast_concat] at hu
  obtain ⟨h1, h2⟩ := huv
  exact ⟨(hnext u hu).trans h1, (hprev v (mem_of_mem_tail hv) hne).trans h2⟩

section Operations

variable [DecidableEq N]

def initListHead (h : Links N) (n : N) : Links N :=
  ⟨Function.update h.next n n, Function.update h.prev n n⟩

/-- `__list_add`, with its four writes in order. -/
def rawAdd (h : Links N) (new prev next : N) : Links N where
  prev := Function.update (Function.update h.prev next new) new prev
  next := Function.update (Function.update h.next new next) prev new

def listAdd (h : Links N) (new head : N) : Links N := rawAdd h new head (h.next head)

def listAddTail (h : Links N) (new head : N) : Links N := rawAdd h new (h.prev head) head

def rawDel (h : Links N) (prev next : N) : Links N :=
  ⟨Function.update h.next prev next, Function.update h.prev next prev⟩

def listDel (nil : N) (h : Links N) (n : N) : Links N :=
  let h := rawDel h (h.prev n) (h.next n)
  ⟨Function.update h.next n nil, Function.update h.prev n nil⟩

def listDelInit (h : Links N) (n : N) : Links N := initListHead (rawDel h (h.prev n) (h.next n)) n

def listEmpty (h : Links N) (head : N) : Bool := h.next head == head

/-- The loop of `list_for_each_entry` with an early exit: the first entry from `pos`
on that satisfies `p`, or `none` when the loop reaches the head. -/
def findFrom (h : Links N) (head : N) (p : N → Bool) : Nat → N → Option N
  | 0, _ => none
  | fuel + 1, pos =>
    if pos = head then none else if p pos then some pos else findFrom h head p fuel (h.next pos)

variable {next prev : N}

theorem rawAdd_next_of_ne (h : Links N) (hp : n ≠ prev) (hn : n ≠ new) :
    (rawAdd h new prev next).next n = h.next n := by
  simp [rawAdd, hp, hn]

theorem rawAdd_prev_of_ne (h : Links N) (hp : n ≠ next) (hn : n ≠ new) :
    (rawAdd h new prev next).prev n = h.prev n := by
  simp [rawAdd, hp, hn]

theorem rawAdd_link (h : Links N) (hp : prev ≠ new) (hn : next ≠ new) :
    (rawAdd h new prev next).Link prev new ∧ (rawAdd h new prev next).Link new next := by
  simp [Links.Link, rawAdd, hn, Ne.symm hp]

/-- Inserting between two parts of a ring. -/
theorem IsRing.rawAdd
    (hr : IsRing h head (xs ++ ys)) (hnew : new ∉ head :: (xs ++ ys)) :
    IsRing (rawAdd h new (xs.getLastD head) (ys.headD head)) head (xs ++ new :: ys) := by
  obtain ⟨hx, hy, -⟩ := hr.cut
  have hnx : (head :: xs).Nodup := hr.nodup.sublist (by simp)
  have hny : (head :: ys).Nodup := hr.nodup.sublist (by simp)
  have hdisj : ∀ u ∈ xs, u ∉ ys := fun u hu hu' =>
    (nodup_append.mp (nodup_cons.mp hr.nodup).2).2.2 u hu u hu' rfl
  have hlast : xs.getLastD head ∈ head :: xs := getLastD_mem_cons
  have hfirst := headD_mem head ys
  have hhead := (nodup_cons.mp hr.nodup).1
  simp only [mem_cons, mem_append, not_or, not_mem_nil, or_false] at hlast hfirst hnew hhead
  have hlastn : xs.getLastD head ≠ new := by
    intro he
    rw [he] at hlast
    tauto
  have hfirstn : ys.headD head ≠ new := by
    intro he
    rw [he] at hfirst
    tauto
  refine IsRing.glue ?_ (isChain_before hx hnx ?_ ?_) ?_ ?_
  · have hperm : (head :: (xs ++ new :: ys)).Perm (new :: head :: (xs ++ ys)) :=
      (perm_middle.cons head).trans (List.Perm.swap new head _)
    rw [hperm.nodup_iff, nodup_cons]
    exact ⟨by simp only [mem_cons, mem_append, not_or]; exact hnew, hr.nodup⟩
  · intro u hu hne
    have hun : u ≠ new := by
      rintro rfl
      simp only [mem_cons] at hu
      tauto
    exact rawAdd_next_of_ne h hne hun
  · intro v hv
    have hvn : v ≠ new := by
      rintro rfl
      tauto
    have hvf : v ≠ ys.headD head := by
      rintro rfl
      rcases hfirst with hf | hf
      · exact hdisj _ hv hf
      · rw [hf] at hv
        exact hhead.1 hv
    exact rawAdd_prev_of_ne h hvf hvn
  · rw [cons_append, isChain_cons]
    refine ⟨fun y hy => ?_, isChain_behind hy hny (fun u hu => ?_) (fun v hv hne => ?_)⟩
    · have hyf : y = ys.headD head := by cases ys <;> simpa using hy.symm
      rw [hyf]
      exact (rawAdd_link h hlastn hfirstn).2
    · refine rawAdd_next_of_ne h ?_ (by rintro rfl; tauto)
      rintro rfl
      rcases hlast with hl | hl
      · rw [hl] at hu
        exact hhead.2 hu
      · exact hdisj _ hl hu
    · refine rawAdd_prev_of_ne h hne ?_
      rintro rfl
      simp only [mem_append, mem_singleton] at hv
      tauto
  · exact (rawAdd_link h hlastn hfirstn).1

/-- Taking a node out of a ring. -/
theorem IsRing.rawDel
    (hr : IsRing h head (xs ++ e :: ys)) :
    IsRing (rawDel h (h.prev e) (h.next e)) head (xs ++ ys) := by
  rw [hr.prev_mid, hr.next_mid]
  obtain ⟨hx, hy, -⟩ := hr.cut
  have hsub : (head :: (xs ++ ys)).Sublist (head :: (xs ++ e :: ys)) :=
    ((List.Sublist.refl xs).append (sublist_cons_self e ys)).cons_cons head
  have hn := hr.nodup.sublist hsub
  have hnx : (head :: xs).Nodup := hn.sublist (by simp)
  have hny : (head :: ys).Nodup := hn.sublist (by simp)
  have hdisj : ∀ u ∈ xs, u ∉ ys := fun u hu hu' =>
    (nodup_append.mp (nodup_cons.mp hn).2).2.2 u hu u hu' rfl
  have hlast : xs.getLastD head ∈ head :: xs := getLastD_mem_cons
  have hfirst := headD_mem head ys
  have hhead := (nodup_cons.mp hn).1
  simp only [mem_cons, mem_append, not_or, not_mem_nil, or_false] at hlast hfirst hhead
  have hnext : ∀ u, u ≠ xs.getLastD head →
      (Ring.rawDel h (xs.getLastD head) (ys.headD head)).next u = h.next u :=
    fun u hu => Function.update_of_ne hu _ _
  have hprev : ∀ v, v ≠ ys.headD head →
      (Ring.rawDel h (xs.getLastD head) (ys.headD head)).prev v = h.prev v :=
    fun v hv => Function.update_of_ne hv _ _
  rw [cons_append, isChain_cons] at hy
  refine IsRing.glue hn (isChain_before hx hnx (fun u _ hne => hnext u hne) (fun v hv => hprev v ?_))
    (isChain_behind hy.2 hny (fun u hu => hnext u ?_) (fun v _ hne => hprev v hne)) ?_
  · rintro rfl
    rcases hfirst with hf | hf
    · exact hdisj _ hv hf
    · rw [hf] at hv
      exact hhead.1 hv
  · rintro rfl
    rcases hlast with hl | hl
    · rw [hl] at hu
      exact hhead.2 hu
    · exact hdisj _ hl hu
  · exact ⟨Function.update_self _ _ _, Function.update_self _ _ _⟩

/-! ## What each operation does to its ring, and to the others -/

def AgreeOff (ns : List N) (h h' : Links N) : Prop :=
  ∀ n, n ∉ ns → h'.next n = h.next n ∧ h'.prev n = h.prev n

variable {ns : List N}

omit [DecidableEq N] in
theorem IsRing.other (hr : IsRing h head xs) (ha : AgreeOff ns h h') (hd : ∀ n ∈ head :: xs, n ∉ ns) :
    IsRing h' head xs :=
  hr.congr (fun n hn => ha n (hd n hn))

omit [DecidableEq N] in
theorem AgreeOff.trans {h'' : Links N} (ha : AgreeOff ns h h') (hb : AgreeOff ns h' h'') :
    AgreeOff ns h h'' := fun n hn =>
  ⟨(hb n hn).1.trans (ha n hn).1, (hb n hn).2.trans (ha n hn).2⟩

theorem initListHead_agreeOff (h : Links N) (n : N) (hn : n ∈ ns) :
    AgreeOff ns h (initListHead h n) := by
  intro m hm
  have hne : m ≠ n := by
    rintro rfl
    exact hm hn
  simp [initListHead, hne]

theorem rawAdd_agreeOff (h : Links N) (h1 : new ∈ ns) (h2 : prev ∈ ns) (h3 : next ∈ ns) :
    AgreeOff ns h (rawAdd h new prev next) := by
  intro m hm
  have hne : m ≠ new ∧ m ≠ prev ∧ m ≠ next := by
    refine ⟨?_, ?_, ?_⟩ <;> rintro rfl <;> contradiction
  exact ⟨rawAdd_next_of_ne h hne.2.1 hne.1, rawAdd_prev_of_ne h hne.2.2 hne.1⟩

theorem rawDel_agreeOff (h : Links N) (h1 : prev ∈ ns) (h2 : next ∈ ns) :
    AgreeOff ns h (rawDel h prev next) := by
  intro m hm
  have hne : m ≠ prev ∧ m ≠ next := by
    refine ⟨?_, ?_⟩ <;> rintro rfl <;> contradiction
  simp [rawDel, hne]

omit [DecidableEq N] in
theorem headD_mem_cons (head : N) (ys : List N) : ys.headD head ∈ head :: ys := by
  cases ys <;> simp

theorem listEmpty_isRing (hr : IsRing h head xs) :
    listEmpty h head = xs.isEmpty := by
  rw [listEmpty, hr.next_head]
  cases xs with
  | nil => simp
  | cons x xs =>
    have hne : x ≠ head := by
      rintro rfl
      exact (nodup_cons.mp hr.nodup).1 (by simp)
    simpa using hne

theorem listAdd_isRing (hr : IsRing h head xs)
    (hnew : new ∉ head :: xs) :
    IsRing (listAdd h new head) head (new :: xs) ∧
      AgreeOff (new :: head :: xs) h (listAdd h new head) := by
  have hr' : IsRing h head ([] ++ xs) := hr
  have hadd := hr'.rawAdd hnew
  rw [listAdd, hr.next_head]
  have hfirst := headD_mem_cons head xs
  exact ⟨hadd, rawAdd_agreeOff h (by simp) (by simp) (mem_cons_of_mem _ hfirst)⟩

theorem listAddTail_isRing (hr : IsRing h head xs)
    (hnew : new ∉ head :: xs) :
    IsRing (listAddTail h new head) head (xs ++ [new]) ∧
      AgreeOff (new :: head :: xs) h (listAddTail h new head) := by
  have hr' : IsRing h head (xs ++ []) := by rw [append_nil]; exact hr
  have hadd := hr'.rawAdd (by rw [append_nil]; exact hnew)
  have hlast : xs.getLastD head ∈ head :: xs := getLastD_mem_cons
  rw [listAddTail, hr.prev_head]
  exact ⟨hadd, rawAdd_agreeOff h (by simp) (mem_cons_of_mem _ hlast) (by simp)⟩

/-- `__list_add` in front of an entry. -/
theorem insertBefore_isRing {y : N} (hr : IsRing h head (xs ++ y :: ys))
    (hnew : new ∉ head :: (xs ++ y :: ys)) :
    IsRing (rawAdd h new (h.prev y) y) head (xs ++ new :: y :: ys) ∧
      AgreeOff (new :: head :: (xs ++ y :: ys)) h (rawAdd h new (h.prev y) y) := by
  have hadd := hr.rawAdd hnew
  have hlast : xs.getLastD head ∈ head :: xs := getLastD_mem_cons
  rw [hr.prev_mid]
  refine ⟨hadd, rawAdd_agreeOff h (by simp) ?_ (by simp)⟩
  simp only [mem_cons, mem_append] at hlast ⊢
  tauto

theorem del_agreeOff
    (hr : IsRing h head (xs ++ e :: ys)) :
    AgreeOff (head :: (xs ++ e :: ys)) h (rawDel h (h.prev e) (h.next e)) := by
  have hlast : xs.getLastD head ∈ head :: xs := getLastD_mem_cons
  have hfirst := headD_mem_cons head ys
  rw [hr.prev_mid, hr.next_mid]
  refine rawDel_agreeOff h ?_ ?_
  · simp only [mem_cons, mem_append] at hlast ⊢
    tauto
  · simp only [mem_cons, mem_append] at hfirst ⊢
    tauto

omit [DecidableEq N] in
theorem mid_not_mem (hn : (head :: (xs ++ e :: ys)).Nodup) :
    e ∉ head :: (xs ++ ys) := by
  have hperm : (head :: (xs ++ e :: ys)).Perm (e :: head :: (xs ++ ys)) :=
    (perm_middle.cons head).trans (List.Perm.swap e head _)
  rw [hperm.nodup_iff] at hn
  exact (nodup_cons.mp hn).1

theorem listDelInit_isRing
    (hr : IsRing h head (xs ++ e :: ys)) :
    IsRing (listDelInit h e) head (xs ++ ys) ∧
      AgreeOff (head :: (xs ++ e :: ys)) h (listDelInit h e) := by
  refine ⟨hr.rawDel.other (initListHead_agreeOff _ e (mem_singleton_self e)) ?_,
    (del_agreeOff hr).trans (initListHead_agreeOff _ e (by simp))⟩
  intro n hn hmem
  rw [mem_singleton] at hmem
  exact mid_not_mem hr.nodup (hmem ▸ hn)

/-- `list_del` followed by `INIT_LIST_HEAD` is `list_del_init`. -/
theorem initListHead_listDel (nil : N) (h : Links N) (n : N) :
    initListHead (listDel nil h n) n = listDelInit h n := by
  simp [initListHead, listDel, listDelInit]

/-- The loop finds the first entry that satisfies the test. -/
theorem findFrom_isRing (p : N → Bool) (ys : List N) (hr : IsRing h head (xs ++ ys)) (fuel : Nat)
    (hf : ys.length < fuel) :
    findFrom h head p fuel (ys.headD head) = ys.find? p := by
  induction ys generalizing xs fuel with
  | nil =>
    cases fuel with
    | zero => simp at hf
    | succ fuel => simp [findFrom]
  | cons y ys ih =>
    cases fuel with
    | zero => simp at hf
    | succ fuel =>
      have hne : y ≠ head := by
        rintro rfl
        exact (nodup_cons.mp hr.nodup).1 (by simp)
      have hr' : IsRing h head ((xs ++ [y]) ++ ys) := by simpa using hr
      have hrec := ih hr' fuel (by simpa using hf)
      rw [← hr.next_mid] at hrec
      simp only [findFrom, headD_cons, hne, if_false, find?_cons, hrec]
      cases p y <;> rfl

end Operations

end Ring
