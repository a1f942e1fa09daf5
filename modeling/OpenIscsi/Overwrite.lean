import OpenIscsi.IfaceStore
import OpenIscsi.LockBalance

/-! # Updating a record

What is left of a record when the call that should have updated it returns an error. The
functions undo nothing, so the record is what it was when the call went wrong. -/

namespace Overwrite

open CString RecordFile FileSystem Interaction Interaction.Prog IdbmStore LockBalance
open IdbmRecord (Field str num)
open LockBalance (Lock Counted scans)
open SendTargets (DiscoveryType)

abbrev Files := Path → Option (List UInt8)

def effect (files : Files) : (c : FileSystem.Call) → c.Answer → Files
  | .unlink p, true => Function.update files p none
  | .create p, true => Function.update files p (some [])
  | .print p text, _ => Function.update files p ((files p).map (· ++ text))
  | _, _ => files

/-- The failures at which a function gives up. To look at a file, to read it, and to clean up a
directory may fail without an error. -/
def stops : (c : FileSystem.Call) → c.Answer → Bool
  | .mkdir _, false | .unlink _, false | .create _, false => true
  | .symlink _ _, .failed => true
  | _, _ => false

/-- The answers agree with the files, where they do not report a failure. There is no directory
in the place `old` of a portal of the old style. -/
def possible (old : Path) (files : Files) : (c : FileSystem.Call) → c.Answer → Bool
  | .stat p, some .file => (files p).isSome
  | .stat p, some _ => (files p).isNone && p != old
  | .read p, some text => text == (files p).getD []
  | _, _ => true

structure Store where
  lock : Lock
  files : Files
  failed : Option Files := none

/-- What a call does, given what it does to the lock. Any file call can fail at any time, and a
lock call can fail if the lock is not held. -/
def note (old : Path) (s : Store) (lock : Lock) : (c : IdbmStore.Call) → c.Answer → Option Store
  | .file c, r =>
    if possible old s.files c r then
      some { lock, files := effect s.files c r, failed := if stops c r then some s.files else s.failed }
    else none
  | .lock, (r : Bool) => some { s with lock, failed := if r then s.failed else some s.files }
  | .unlock, _ => some { s with lock }

def moves (old : Path) (s : Store) (c : IdbmStore.Call) (r : c.Answer) : Option Store :=
  (LockBalance.moves s.lock c r).bind fun lock => note old s lock c r

/-- A reader that finds the files as they are. -/
def answer (files : Files) : (c : IdbmStore.Call) → Unit → c.Answer × Unit
  | .file (.stat p), s => ((files p).map fun _ => .file, s)
  | .file (.read p), s => (files p, s)
  | .file (.mkdir _), s | .file (.unlink _), s | .file (.rmdir _), s | .file (.create _), s =>
    (true, s)
  | .file (.print _ _), s => ((), s)
  | .file (.symlink _ _), s => (.made, s)
  | .file (.entries _), s => (some [], s)
  | .file (.scandir _), s => (.ok [], s)
  | .lock, s => (true, s)
  | .unlock, s => ((), s)

/-- The record that a reading function finds in the files. -/
def found (files : Files) (reader : Idbm (Except Int (Field → Val))) : Option (Field → Val) :=
  (reader.run (answer files) ()).1.toOption

/-! ### Giving up -/

variable (k : Key) (p : Path) {c : FileSystem.Call} (conf : Path)

section Rules

variable {old : Path} {α β : Type}

/-- The operation has the lock, and nothing has gone wrong. -/
def Held (s : Store) : Prop := 0 < s.lock.refs ∧ s.failed = none

/-- Either all went well, or the files are those of the call that failed. -/
def Stopped (ok : Prop) (t : Store) : Prop :=
  (ok ∧ t.failed = none) ∨ (¬ ok ∧ t.failed = some t.files)

/-- The program gives up at the first failure, and says so in what it returns. -/
def Stops (old : Path) (p : Idbm α) (ok : α → Prop) : Prop :=
  ∀ s, Held s → p.Ends (moves old) (fun a t => Stopped (ok a) t) s

variable {s t : Store}

theorem lock_part {c : IdbmStore.Call} {r : c.Answer} (h : moves old s c r = some t) :
    LockBalance.moves s.lock c r = some t.lock := by
  obtain ⟨lock, hlock, hnote⟩ := Option.bind_eq_some_iff.1 h
  rw [hlock]
  cases c with
  | file c =>
    rw [note] at hnote
    split at hnote
    · rw [← Option.some.inj hnote]
    · cases hnote
  | lock => rw [← Option.some.inj hnote]
  | unlock => rw [← Option.some.inj hnote]

/-- The lock is held after a program that counts its references. -/
theorem ends_held {p : Idbm α} {Q : α → Store → Prop} (hc : Counted scans p)
    (h : p.Ends (moves old) Q s) (hs : 0 < s.lock.refs) :
    p.Ends (moves old) (fun a t => Q a t ∧ 0 < t.lock.refs) s := by
  refine ends_and h (ends_mono (ends_part Store.lock (fun _ _ _ _ => lock_part) (hc s.lock)) ?_)
  rintro a t ⟨n, -, hrefs⟩
  omega

theorem stops_pure (a : α) {ok : α → Prop} (h : ok a) : Stops old (pure a : Idbm α) ok :=
  fun _ hs => .inl ⟨h, hs.2⟩

variable {f : α → Idbm β} {okf : β → Prop}

/-- Go on if all went well, and return an error if not. -/
theorem Stops.andThen {p : Idbm α} {okp : α → Prop} (hp : Stops old p okp) (hc : Counted scans p)
    (hok : ∀ a, okp a → Stops old (f a) okf) (hfail : ∀ a, ¬ okp a → ∃ b, f a = pure b ∧ ¬ okf b) :
    Stops old (p >>= f) okf := by
  intro s hs
  refine ends_then (ends_held hc (hp s hs) hs.1) ?_
  rintro a t ⟨⟨hoka, hnone⟩ | ⟨hnot, hsome⟩, hrefs⟩
  · exact hok a hoka t ⟨hrefs, hnone⟩
  · obtain ⟨b, hb, hnotb⟩ := hfail a hnot
    rw [hb]
    exact .inr ⟨hnotb, hsome⟩

/-- Go on whatever a program that cannot go wrong has returned. -/
theorem Stops.next {p : Idbm α} (hp : Stops old p fun _ => True) (hc : Counted scans p)
    (hf : ∀ a, Stops old (f a) okf) :
    Stops old (p >>= f) okf :=
  hp.andThen hc (fun a _ => hf a) fun _ h => absurd trivial h

/-- Go on after a program that returns a Boolean. -/
theorem Stops.whenTrue {p : Idbm Bool} {q : Idbm β} {e : β} (hp : Stops old p (· = true))
    (hc : Counted scans p) (hq : Stops old q okf) (he : ¬ okf e) :
    Stops old (p >>= fun b => if b = true then q else pure e) okf := by
  refine hp.andThen hc ?_ ?_
  · rintro b rfl
    exact hq
  · intro b hb
    exact ⟨e, if_neg hb, he⟩

/-- What a file call does. -/
theorem ends_onFile {Q : c.Answer → Store → Prop}
    (h : ∀ r t, possible old s.files c r = true → t.lock.refs = s.lock.refs → t.files =
      effect s.files c r → t.failed = (if stops c r then some s.files else s.failed) → Q r t) :
    (onFile c).Ends (moves old) Q s := by
  intro r t ht
  obtain ⟨lock, hlock, hnote⟩ := Option.bind_eq_some_iff.1 ht
  cases hlock
  rw [note] at hnote
  split at hnote
  · rename_i hpossible
    obtain rfl := Option.some.inj hnote
    exact h r _ hpossible rfl rfl rfl
  · cases hnote

theorem effect_of_stops {files : Files} {r : c.Answer} (h : stops c r = true) :
    effect files c r = files := by
  cases c with
  | unlink p =>
    cases r with
    | true => cases h
    | false => rfl
  | create p =>
    cases r with
    | true => cases h
    | false => rfl
  | print p text => cases h
  | _ => rfl

theorem stops_file (c : FileSystem.Call) {ok : c.Answer → Prop}
    (h : ∀ r, ok r ↔ stops c r = false) : Stops old (onFile c) ok := by
  intro s hs
  refine ends_onFile fun r t _ _ hfiles hfailed => ?_
  cases hr : stops c r with
  | false =>
    rw [hr, if_neg Bool.false_ne_true] at hfailed
    exact .inl ⟨(h r).2 hr, hfailed.trans hs.2⟩
  | true =>
    rw [hr, if_pos rfl] at hfailed
    refine .inr ⟨fun hok => ?_, ?_⟩
    · rw [(h r).1 hok] at hr
      cases hr
    · rw [hfailed, hfiles, effect_of_stops hr]

/-- These calls answer whether they have succeeded. -/
theorem stops_mkdir : Stops old (mkdir p) (· = true) :=
  stops_file _ fun r => by cases r <;> simp [stops]

theorem stops_unlink : Stops old (unlink p) (· = true) :=
  stops_file _ fun r => by cases r <;> simp [stops]

theorem stops_create : Stops old (create p) (· = true) :=
  stops_file _ fun r => by cases r <;> simp [stops]

/-- A call whose failure does not matter. -/
theorem stops_look (c : FileSystem.Call) (h : ∀ r, stops c r = false) :
    Stops old (onFile c) fun _ => True :=
  stops_file c fun r => iff_of_true trivial (h r)

theorem ends_unlock {Q : Unit → Store → Prop}
    (h : ∀ t, t.files = s.files → t.failed = s.failed → Q () t) :
    idbmUnlock.Ends (moves old) Q s := by
  intro r t ht
  obtain ⟨lock, hlock, hnote⟩ := Option.bind_eq_some_iff.1 ht
  obtain rfl := Option.some.inj hnote
  exact h _ rfl rfl

/-- Give the lock back and return. -/
theorem ends_unlock_return {a : α} {P : α → Prop} (h : Stopped (P a) s) :
    (idbmUnlock >>= fun _ => (pure a : Idbm α)).Ends (moves old) (fun a t => Stopped (P a) t) s := by
  refine ends_then (ends_unlock (Q := fun _ t => Stopped (P a) t) fun t hfiles hfailed => ?_)
    fun _ _ h => h
  rw [Stopped, hfiles, hfailed]
  exact h

/-- A lock call while the lock is held succeeds. -/
theorem ends_lock (hs : 0 < s.lock.refs) {Q : Bool → Store → Prop}
    (h : ∀ t, 0 < t.lock.refs → t.files = s.files → t.failed = s.failed → Q true t) :
    idbmLock.Ends (moves old) Q s := by
  intro r t ht
  obtain ⟨lock, hlock, hnote⟩ := Option.bind_eq_some_iff.1 ht
  cases r with
  | false =>
    rw [LockBalance.moves, if_pos hs] at hlock
    cases hlock
  | true =>
    rw [LockBalance.moves, if_pos hs] at hlock
    obtain rfl := Option.some.inj hlock
    obtain rfl := Option.some.inj hnote
    exact h _ (Nat.succ_pos _) rfl rfl

/-- The first lock call may fail. -/
theorem ends_first_lock (hs : s.failed = none) {Q : Bool → Store → Prop}
    (hok : ∀ t, Held t → t.files = s.files → Q true t)
    (hfail : ∀ t, t.failed = some t.files → Q false t) : idbmLock.Ends (moves old) Q s := by
  intro r t ht
  obtain ⟨lock, hlock, hnote⟩ := Option.bind_eq_some_iff.1 ht
  obtain rfl := Option.some.inj hnote
  cases r with
  | false => exact hfail _ rfl
  | true =>
    refine hok _ ⟨?_, hs⟩ rfl
    rw [LockBalance.moves] at hlock
    split at hlock
    · rw [← Option.some.inj hlock]
      exact Nat.succ_pos _
    · rw [← Option.some.inj hlock]
      exact Nat.one_pos

theorem stops_locked {err : α} {body : Idbm α} {ok : α → Prop} (h : Stops old body ok) :
    Stops old (locked err body) ok := by
  intro s hs
  refine ends_then (ends_lock hs.1 (Q := fun r t => r = true ∧ Held t) ?_) ?_
  · exact fun t hrefs _ hfailed => ⟨rfl, hrefs, hfailed.trans hs.2⟩
  · rintro r t ⟨rfl, ht⟩
    exact ends_then (h t ht) fun a u hu => ends_unlock_return hu

end Rules

/-! ### Writing a record -/

section Write

variable {old : Path} {rec : Field → Val}

theorem stops_stat : Stops old (stat p) fun _ => True := stops_look _ fun _ => rfl

theorem stops_write (text : List UInt8) : Stops old (write p text) (· = true) := by
  refine Stops.whenTrue (stops_create p) (counted_file rfl) ?_ Bool.false_ne_true
  exact Stops.next (stops_look (.print p text) fun _ => rfl) (counted_file rfl)
    fun _ => stops_pure true rfl

theorem stops_ensureDir : Stops old (ensureDir p) (· = true) := by
  refine Stops.next (stops_stat p) (counted_file rfl) fun kind => ?_
  cases kind with
  | none => exact stops_mkdir p
  | some _ => exact stops_pure true rfl

theorem idbm_ne_zero : iscsiErrIdbm ≠ 0 := by decide

theorem stops_openConf : Stops old (openConf p rec) (· = 0) :=
  Stops.whenTrue (stops_write p _) (counted_write p _) (stops_pure 0 rfl) idbm_ne_zero

theorem stops_mkdirPortal : Stops old (mkdirPortal rec) (· = 0) :=
  Stops.whenTrue (stops_ensureDir _) (counted_ensureDir _) (stops_openConf _)
    idbm_ne_zero

/-- There is no directory in the place of the portal, so the record can be written. -/
theorem stops_storeRec (h : (keyOf rec).oldPortal = old) : Stops old (storeRec rec) (· = 0) := by
  have hunknown : Stops old (if num rec .tpgt = portalGroupTagUnknown then
      openConf (keyOf rec).oldPortal rec else mkdirPortal rec) (· = 0) := by
    split
    · exact stops_openConf _
    · exact stops_mkdirPortal
  have hconvert : Stops old (if num rec .tpgt = portalGroupTagUnknown then
      openConf (keyOf rec).oldPortal rec
      else (unlink (keyOf rec).oldPortal >>= fun ok =>
        if ok = true then mkdirPortal rec else pure iscsiErrIdbm)) (· = 0) := by
    split
    · exact stops_openConf _
    · exact Stops.whenTrue (stops_unlink _) (counted_file rfl) stops_mkdirPortal
        idbm_ne_zero
  intro s hs
  have hstat : (stat (keyOf rec).oldPortal).Ends (moves old)
      (fun kind t => Held t ∧ kind ≠ some .dir) s := by
    refine ends_onFile fun kind t hpossible hrefs _ hfailed => ?_
    refine ⟨⟨hrefs ▸ hs.1, hfailed.trans hs.2⟩, ?_⟩
    rintro rfl
    simp [possible, h] at hpossible
  refine ends_then hstat ?_
  · rintro kind t ⟨ht, hdir⟩
    cases kind with
    | none => exact hunknown t ht
    | some kind =>
      cases kind with
      | dir => exact absurd rfl hdir
      | file => exact hconvert t ht
      | other => exact hconvert t ht

theorem stops_idbmRecWrite (h : (keyOf rec).oldPortal = old) :
    Stops old (idbmRecWrite rec true) (· = 0) := by
  refine Stops.whenTrue (stops_ensureDir _) (counted_ensureDir _) ?_ idbm_ne_zero
  exact Stops.whenTrue (stops_ensureDir _) (counted_ensureDir _) (stops_storeRec h)
    idbm_ne_zero

/-- The kinds of discovery that have links. -/
def Linkable (type : DiscoveryType) : Prop :=
  type = .sendtargets ∨ type = .isns ∨ type = .static ∨ type = .fw

instance (type : DiscoveryType) : Decidable (Linkable type) :=
  inferInstanceAs (Decidable (_ ∨ _))

theorem stops_linkUnder (dir : Path) (k : Key) : Stops old (linkUnder dir k) (·.1 = 0) :=
  Stops.whenTrue (stops_ensureDir dir) (counted_ensureDir dir) (stops_pure _ rfl)
    idbm_ne_zero

/-- The link for iSNS is somewhere below its directory, and the error is that of before. -/
theorem ends_isnsLink (rc : Int) (s : Store) :
    (isnsLink rec rc).Ends (moves old)
      (fun a t => a.1 = rc ∧ (∃ rest, a.2 = isnsConfigDir ++ rest) ∧
        t.files = s.files ∧ t.failed = s.failed) s := by
  refine ends_then (ends_onFile (Q := fun _ t => t.files = s.files ∧ t.failed = s.failed) ?_) ?_
  · exact fun _ t _ _ hfiles hfailed => ⟨hfiles, hfailed⟩
  · rintro kind t ⟨hfiles, hfailed⟩
    cases kind with
    | some _ => exact ⟨rfl, ⟨_, rfl⟩, hfiles, hfailed⟩
    | none =>
      refine ends_then (ends_onFile (Q := fun _ u => u.files = s.files ∧ u.failed = s.failed) ?_) ?_
      · exact fun _ u _ _ hfiles' hfailed' => ⟨hfiles'.trans hfiles, hfailed'.trans hfailed⟩
      · rintro kind u hu
        have hserver : ∃ rest, (keyOf rec).link
            (sourceDir isnsConfigDir (str rec .discAddress) (num rec .discPort)) =
              isnsConfigDir ++ rest :=
          ⟨_, by rw [Key.link, sourceDir, List.append_assoc]⟩
        cases kind with
        | none => exact ⟨rfl, ⟨_, rfl⟩, hu⟩
        | some kind =>
          cases kind with
          | dir => exact ⟨rfl, hserver, hu⟩
          | file => exact ⟨rfl, ⟨_, rfl⟩, hu⟩
          | other => exact ⟨rfl, ⟨_, rfl⟩, hu⟩

theorem stops_setupDiscToNodeLink {type : DiscoveryType} (htype : discType rec = some type)
    (h : Linkable type) : Stops old (setupDiscToNodeLink rec) (·.1 = 0) := by
  rw [setupDiscToNodeLink, htype]
  rcases h with rfl | rfl | rfl | rfl
  · exact stops_pure _ rfl
  · intro s hs
    refine ends_then (stops_ensureDir _ s hs) ?_
    rintro b t (⟨rfl, hnone⟩ | ⟨hb, hsome⟩)
    · refine ends_mono (ends_isnsLink 0 t) ?_
      rintro a u ⟨ha, -, -, hfailed⟩
      exact .inl ⟨ha, hfailed.trans hnone⟩
    · rw [if_neg hb]
      refine ends_mono (ends_isnsLink iscsiErrIdbm t) ?_
      rintro a u ⟨ha, -, hfiles, hfailed⟩
      refine .inr ⟨?_, ?_⟩
      · exact fun hzero => idbm_ne_zero (ha.symm.trans hzero)
      · rw [hfailed, hsome, hfiles]
  · exact stops_linkUnder _ _
  · exact stops_linkUnder _ _

theorem stops_linkNode {type : DiscoveryType} (htype : discType rec = some type)
    (h : Linkable type) : Stops old (linkNode rec) (· = 0) := by
  refine (stops_setupDiscToNodeLink htype h).andThen counted_setupDiscToNodeLink ?_ ?_
  · rintro ⟨rc, portal⟩ rfl
    dsimp only
    rw [if_neg (not_not.2 rfl)]
    have hlink : Stops old (symlink (keyOf rec).portalDir portal) (· ≠ .failed) :=
      stops_file _ fun r => by cases r <;> simp [stops]
    refine hlink.andThen (counted_file rfl) ?_ ?_
    · intro r hr
      cases r with
      | failed => exact absurd rfl hr
      | made => exact stops_pure 0 rfl
      | taken => exact stops_pure 0 rfl
    · intro r hr
      obtain rfl := not_not.1 hr
      exact ⟨iscsiErrIdbm, rfl, idbm_ne_zero⟩
  · rintro ⟨rc, portal⟩ hrc
    exact ⟨rc, if_pos hrc, hrc⟩

end Write

/-! ### Deleting a record -/

section Delete

variable {old : Path} {rec : Field → Val} {α β : Type}

/-- A path that starts like the node directory, as those of all node records do. -/
def NodePath (p : Path) : Prop := p.take 12 = nodeConfigDir.take 12

instance (p : Path) : Decidable (NodePath p) := inferInstanceAs (Decidable (_ = _))

theorem nodePath_append {dir rest : Path} (h : 12 ≤ dir.length) :
    NodePath (dir ++ rest) ↔ NodePath dir := by
  rw [NodePath, NodePath, List.take_append_of_le_length h]

def SameNodes (s t : Store) : Prop := ∀ p, NodePath p → t.files p = s.files p

theorem SameNodes.trans {u : Store} (hst : SameNodes s t) (htu : SameNodes t u) : SameNodes s u :=
  fun p hp => (htu p hp).trans (hst p hp)

/-- The program leaves the node records alone. -/
def Keeps (old : Path) (p : Idbm α) : Prop :=
  ∀ s, p.Ends (moves old) (fun _ t => SameNodes s t) s

theorem keeps_pure (a : α) : Keeps old (pure a : Idbm α) := fun _ _ _ => rfl

theorem keeps_bind {p : Idbm α} (hp : Keeps old p) (hf : ∀ a, Keeps old (f a)) :
    Keeps old (p >>= f) := by
  intro s
  refine ends_then (hp s) fun a t hst => ?_
  exact ends_mono (hf a t) fun _ _ htu => hst.trans htu

theorem keeps_file
    (h : ∀ files r p, NodePath p → effect files c r p = files p) : Keeps old (onFile c) :=
  fun _ => ends_onFile fun r _ _ _ hfiles _ p hp => (congrFun hfiles p).trans (h _ r p hp)

theorem keeps_locked {err : α} {body : Idbm α} (h : Keeps old body) : Keeps old (locked err body) := by
  refine keeps_bind (fun s => ?_) fun ok => ?_
  · intro r t ht
    obtain ⟨lock, hlock, hnote⟩ := Option.bind_eq_some_iff.1 ht
    obtain rfl := Option.some.inj hnote
    exact fun _ _ => rfl
  · cases ok with
    | false => exact keeps_pure err
    | true =>
      refine keeps_bind h fun a => keeps_bind (fun s => ?_) fun _ => keeps_pure a
      exact ends_unlock fun t hfiles _ p _ => congrFun hfiles p

theorem keeps_ensureDir : Keeps old (ensureDir p) := by
  refine keeps_bind (keeps_file fun _ _ _ _ => rfl) fun kind => ?_
  cases kind with
  | none => exact keeps_file fun _ _ _ _ => rfl
  | some _ => exact keeps_pure true

theorem keeps_linkUnder (dir : Path) (k : Key) : Keeps old (linkUnder dir k) := by
  refine keeps_bind (keeps_ensureDir dir) fun ok => ?_
  cases ok <;> exact keeps_pure _

theorem keeps_isnsLink (rc : Int) : Keeps old (isnsLink rec rc) :=
  fun s => ends_mono (ends_isnsLink rc s) fun _ _ h p _ => congrFun h.2.2.1 p

theorem keeps_setupDiscToNodeLink : Keeps old (setupDiscToNodeLink rec) := by
  unfold setupDiscToNodeLink
  cases discType rec with
  | none => exact keeps_pure _
  | some type =>
    cases type with
    | sendtargets => exact keeps_pure _
    | isns =>
      refine keeps_bind (keeps_ensureDir _) fun ok => ?_
      cases ok <;> exact keeps_isnsLink _
    | offloadSendtargets => exact keeps_pure _
    | slp => exact keeps_pure _
    | static => exact keeps_linkUnder _ _
    | fw => exact keeps_linkUnder _ _

theorem keeps_recReadFile : Keeps old (recReadFile conf) := by
  refine keeps_bind (keeps_file fun _ _ _ _ => rfl) fun text => ?_
  cases text <;> exact keeps_pure _

theorem stops_recReadFile : Stops old (recReadFile conf) fun _ => True := by
  refine Stops.next (stops_look (.read conf) fun _ => rfl) (counted_file rfl) fun r => ?_
  cases r <;> exact stops_pure _ trivial

/-- No link is in the place of a node record. -/
theorem ends_setup_path (s : Store) : (setupDiscToNodeLink rec).Ends (moves old)
    (fun a _ => a.1 = 0 → ¬ NodePath a.2) s := by
  have hlink : ∀ {dir : Path} (k : Key) (rest : Path), 12 ≤ dir.length → ¬ NodePath dir →
      ¬ NodePath (k.link (dir ++ rest)) := by
    intro dir k rest hlen hdir h
    rw [Key.link, List.append_assoc, nodePath_append hlen] at h
    exact hdir h
  have hunder : ∀ (dir : Path), 12 ≤ dir.length → ¬ NodePath dir →
      (linkUnder dir (keyOf rec)).Ends (moves old) (fun a _ => a.1 = 0 → ¬ NodePath a.2) s := by
    intro dir hlen hdir
    have hpath : ¬ NodePath ((keyOf rec).link dir) := by
      simpa using hlink (keyOf rec) [] hlen hdir
    refine ends_then (keeps_ensureDir dir s) fun ok t _ => ?_
    cases ok <;> exact fun _ => hpath
  unfold setupDiscToNodeLink
  cases discType rec with
  | none => exact fun h => absurd h (by decide)
  | some type =>
    cases type with
    | sendtargets => exact fun _ => hlink _ _ (by decide) (by decide)
    | isns =>
      refine ends_then (keeps_ensureDir isnsConfigDir s) fun ok t _ => ?_
      have hisns : ∀ rc, (isnsLink rec rc).Ends (moves old)
          (fun a _ => a.1 = 0 → ¬ NodePath a.2) t := by
        refine fun rc => ends_mono (ends_isnsLink rc t) ?_
        rintro a u ⟨-, ⟨rest, hrest⟩, -⟩ -
        rw [hrest, nodePath_append (by decide)]
        decide
      cases ok <;> exact hisns _
    | offloadSendtargets => exact fun h => absurd h (by decide)
    | slp => exact fun h => absurd h (by decide)
    | static => exact hunder _ (by decide) (by decide)
    | fw => exact hunder _ (by decide) (by decide)

/-- Without an error, nothing has failed. -/
theorem failed_none {rc : Int} (h : Stopped (rc = 0) t ∨ rc ≠ 0 ∧ t.failed = none) (hrc : rc = 0) :
    t.failed = none := by
  rcases h with (⟨-, hnone⟩ | ⟨hnot, -⟩) | ⟨hnot, -⟩
  · exact hnone
  · exact absurd hrc hnot
  · exact absurd hrc hnot

/-- Only a record with links of an unknown kind is refused. -/
theorem ends_setupDiscToNodeLink (hs : Held s) :
    (setupDiscToNodeLink rec).Ends (moves old)
      (fun a t => Stopped (a.1 = 0) t ∨ a.1 ≠ 0 ∧ t.failed = none) s := by
  by_cases h : ∃ type, discType rec = some type ∧ Linkable type
  · obtain ⟨type, htype, hlink⟩ := h
    exact ends_mono (stops_setupDiscToNodeLink htype hlink s hs) fun _ _ => .inl
  · have hinval : setupDiscToNodeLink rec = pure (iscsiErrInval, []) := by
      rw [setupDiscToNodeLink]
      cases htype : discType rec with
      | none => rfl
      | some type =>
        have hnot : ¬ Linkable type := fun hlink => h ⟨type, htype, hlink⟩
        revert hnot
        cases type <;> simp [Linkable]
    rw [hinval]
    exact .inr ⟨by decide, hs.2⟩

theorem stops_rmLink (portal : Path) : Stops old (rmLink portal) (· = 0) := by
  refine Stops.next (stops_stat portal) (counted_file rfl) fun kind => ?_
  cases kind with
  | none => exact stops_pure 0 rfl
  | some _ =>
    exact Stops.whenTrue (stops_unlink portal) (counted_file rfl) (stops_pure 0 rfl)
      idbm_ne_zero

theorem keeps_rmLink {portal : Path} (h : ¬ NodePath portal) : Keeps old (rmLink portal) := by
  refine keeps_bind (keeps_file fun _ _ _ _ => rfl) fun kind => ?_
  cases kind with
  | none => exact keeps_pure _
  | some _ =>
    refine keeps_bind (keeps_file fun files r p hp => ?_) fun ok => ?_
    · cases r with
      | false => rfl
      | true =>
        have hne : p ≠ portal := by
          rintro rfl
          exact h hp
        exact Function.update_of_ne hne _ _
    · cases ok <;> exact keeps_pure _

theorem keeps_idbmRemoveDiscToNodeLink : Keeps old (idbmRemoveDiscToNodeLink k) := by
  refine keeps_bind (keeps_locked (keeps_recReadFile _)) fun read => ?_
  cases read with
  | error _ => exact keeps_pure _
  | ok tmprec =>
    intro s
    refine ends_then (ends_and (keeps_setupDiscToNodeLink s) (ends_setup_path s)) ?_
    rintro ⟨rc, portal⟩ t ⟨hst, hpath⟩
    dsimp only at hpath ⊢
    split
    · exact hst
    · rename_i hrc
      refine ends_mono (keeps_locked (keeps_rmLink (hpath (not_not.1 hrc))) t) fun _ u htu => ?_
      exact hst.trans htu

theorem ends_idbmRemoveDiscToNodeLink (hs : Held s) (k : Key) :
    (idbmRemoveDiscToNodeLink k).Ends (moves old)
      (fun rc t => Stopped (rc = 0) t ∨ rc ≠ 0 ∧ t.failed = none) s := by
  have hread : (recReadFileLocked k.recFile false).Ends (moves old) (fun _ t => Held t) s := by
    refine ends_mono (ends_held (counted_recReadFileLocked _ _)
      (stops_locked (stops_recReadFile k.recFile) s hs) hs.1) ?_
    rintro a t ⟨⟨-, hnone⟩ | ⟨hnot, -⟩, hrefs⟩
    · exact ⟨hrefs, hnone⟩
    · exact absurd trivial hnot
  refine ends_then hread fun read t ht => ?_
  cases read with
  | error _ => exact .inl (.inl ⟨rfl, ht.2⟩)
  | ok tmprec =>
    refine ends_then (ends_held counted_setupDiscToNodeLink
      (ends_setupDiscToNodeLink ht) ht.1) ?_
    rintro ⟨rc, portal⟩ u ⟨hu, hrefs⟩
    dsimp only at hu ⊢
    by_cases hrc : rc = 0
    · rw [if_neg (not_not.2 hrc)]
      exact ends_mono (stops_locked (stops_rmLink portal) u ⟨hrefs, failed_none hu hrc⟩)
        fun _ _ => .inl
    · rw [if_pos hrc]
      exact hu

/-- The directories are cleaned up without an error. -/
theorem ends_rmDirs (hs : s.failed = none) (k : Key) :
    (rmDirs k).Ends (moves old) (fun rc t => Stopped (rc = 0) t) s := by
  have hdone : ∀ t : Store, t.failed = none → Stopped ((0 : Int) = 0) t := fun t ht => .inl ⟨rfl, ht⟩
  have htarget : ∀ t : Store, t.failed = none →
      (rmTargetDir k).Ends (moves old) (fun rc t => Stopped (rc = 0) t) t := by
    intro t ht
    refine ends_then (ends_onFile fun _ u _ _ _ hfailed => hfailed.trans ht) fun _ u hu => ?_
    exact ends_unlock_return (hdone u hu)
  refine ends_then (ends_onFile fun _ t _ _ _ hfailed => hfailed.trans hs) fun kind t ht => ?_
  cases kind with
  | none => exact htarget t ht
  | some _ =>
    refine ends_then (ends_onFile fun _ u _ _ _ hfailed => hfailed.trans ht) fun names u hu => ?_
    cases names with
    | error _ => exact hdone u hu
    | ok names =>
      dsimp only
      split
      · refine ends_then (ends_onFile fun _ v _ _ _ hfailed => hfailed.trans hu) fun ok v hv => ?_
        cases ok with
        | true => exact htarget v hv
        | false => exact ends_unlock_return (hdone v hv)
      · exact htarget u hu

theorem ends_rmConf (hs : Held s) (k : Key) (conf : Path) :
    (rmConf k conf).Ends (moves old) (fun rc t => Stopped (rc = 0) t) s := by
  refine ends_then (stops_unlink conf s hs) ?_
  rintro ok t (⟨rfl, hnone⟩ | ⟨hnot, hsome⟩)
  · exact ends_rmDirs hnone k
  · rw [if_neg hnot]
    exact ends_unlock_return (.inr ⟨idbm_ne_zero, hsome⟩)

/-- To look at a file changes nothing. -/
theorem ends_stat (hs : Held s) (p : Path) :
    (stat p).Ends (moves old) (fun _ t => Held t ∧ t.files = s.files) s :=
  ends_onFile fun _ _ _ hrefs hfiles hfailed => ⟨⟨hrefs ▸ hs.1, hfailed.trans hs.2⟩, hfiles⟩

/-- The result is an error, and the node records are as before. -/
def Refused (rc : Int) (s t : Store) : Prop := rc ≠ 0 ∧ t.failed = none ∧ SameNodes s t

/-- A record that is not found is not deleted. -/
theorem ends_idbmDeleteNode (hs : Held s) (k : Key) :
    (idbmDeleteNode k).Ends (moves old)
      (fun rc t => Stopped (rc = 0) t ∨ Refused rc s t) s := by
  refine ends_then (ends_and (ends_held (counted_idbmRemoveDiscToNodeLink k)
    (ends_idbmRemoveDiscToNodeLink hs k) hs.1) (keeps_idbmRemoveDiscToNodeLink k s)) ?_
  rintro rc t ⟨⟨ht, hrefs⟩, hst⟩
  by_cases hrc : rc = 0
  · rw [if_neg (not_not.2 hrc)]
    refine ends_then (ends_lock hrefs (Q := fun ok u => ok = true ∧ Held u ∧ u.files = t.files)
      fun u hu hfiles hfailed => ⟨rfl, ⟨hu, hfailed.trans (failed_none ht hrc)⟩, hfiles⟩) ?_
    rintro ok u ⟨rfl, hu, htu⟩
    refine ends_then (ends_stat hu k.oldPortal) ?_
    rintro kind v ⟨hv, huv⟩
    cases kind with
    | some _ => exact ends_mono (ends_rmConf hv k _) fun _ _ => Or.inl
    | none =>
      refine ends_then (ends_stat hv k.recFile) ?_
      rintro kind w ⟨hw, hvw⟩
      cases kind with
      | some _ => exact ends_mono (ends_rmConf hw k _) fun _ _ => Or.inl
      | none =>
        have hsw : w.files = t.files := hvw.trans (huv.trans htu)
        refine ends_then (ends_unlock (Q := fun _ x => Refused iscsiErrIdbm s x) ?_)
          fun _ _ h => Or.inr h
        intro x hfiles hfailed
        refine ⟨idbm_ne_zero, hfailed.trans hw.2, fun p hp => ?_⟩
        rw [hfiles, hsw]
        exact hst p hp
  · rw [if_pos hrc]
    rcases ht with hstopped | ⟨-, hnone⟩
    · exact .inl hstopped
    · exact .inr ⟨hrc, hnone, hst⟩

end Delete

/-! ### Updates -/

section Update

variable {old : Path} {newrec : Field → Val} {d : Drec}

theorem keyOf_onboot : keyOf (onboot newrec) = keyOf newrec := rfl

theorem discType_withSource : discType (withSource newrec d) = some d.type := by
  cases h : d.type <;> simp [discType, withSource, num, h, discCode, discTypes]

theorem stops_addRec (h : (keyOf newrec).oldPortal = old) (hd : Linkable d.type) :
    Stops old (addRec newrec (some d)) (· = 0) := by
  refine Stops.andThen (stops_idbmRecWrite h) (counted_idbmRecWrite true) ?_ ?_
  · rintro rc rfl
    split
    · exact stops_pure 0 rfl
    · exact stops_linkNode discType_withSource hd
  · exact fun rc hrc => ⟨rc, if_pos (.inl hrc), hrc⟩

/-- How an update ends: well, at a failure, or with an error that leaves the records alone. -/
def Ended (rc : Option Int) (s t : Store) : Prop :=
  Stopped (rc = some 0) t ∨ rc ≠ some 0 ∧ t.failed = none ∧ SameNodes s t

theorem ended_some {rc : Int} (h : Stopped (rc = 0) t ∨ Refused rc s t) : Ended (some rc) s t := by
  have hrc : rc = 0 ↔ some rc = some 0 := Option.some_inj.symm
  rw [Ended, ← hrc]
  rwa [Ne, ← hrc]

theorem ends_addRec (h : (keyOf newrec).oldPortal = old) (hd : Linkable d.type) (ht : Held t) :
    (addRec newrec (some d) >>= fun rc => (pure (some rc) : Idbm _)).Ends
      (moves old) (fun rc u => Ended rc s u) t :=
  ends_then (stops_addRec h hd t ht) fun _ _ hu => ended_some (.inl hu)

theorem ends_idbmRecRead (hs : Held s) (k : Key) :
    (idbmRecRead k true).Ends (moves old) (fun _ t => Held t ∧ t.files = s.files) s := by
  have hread : ∀ {conf : Path} {t : Store}, Held t → t.files = s.files →
      (recReadFile conf).Ends (moves old) (fun _ u => Held u ∧ u.files = s.files) t := by
    intro conf t ht hfiles
    refine ends_then (ends_onFile (Q := fun _ u => Held u ∧ u.files = s.files) ?_) ?_
    · exact fun _ u _ hrefs hfiles' hfailed =>
        ⟨⟨hrefs ▸ ht.1, hfailed.trans ht.2⟩, hfiles'.trans hfiles⟩
    · intro text u hu
      cases text <;> exact hu
  refine ends_then (ends_stat hs k.oldPortal) ?_
  rintro kind t ⟨ht, hfiles⟩
  cases kind with
  | some _ => exact hread ht hfiles
  | none =>
    dsimp only
    split
    · exact ⟨ht, hfiles⟩
    · refine ends_then (ends_stat ht k.recFile) ?_
      rintro kind u ⟨hu, hfiles'⟩
      cases kind with
      | some _ => exact hread hu (hfiles'.trans hfiles)
      | none => exact ⟨hu, hfiles'.trans hfiles⟩

theorem ends_idbmAddNode (hd : Linkable d.type) (hs : s.failed = none) :
    (idbmAddNode newrec (some d) true).Ends (moves (keyOf newrec).oldPortal)
      (fun rc t => Ended rc s t) s := by
  have hbody : ∀ t, Held t → t.files = s.files →
      (addNodeLocked newrec (some d) true).Ends (moves (keyOf newrec).oldPortal)
        (fun rc u => Ended rc s u) t := by
    intro t ht hst
    refine ends_then (ends_idbmRecRead ht _) ?_
    rintro read u ⟨hu, htu⟩
    cases read with
    | error _ => exact ends_addRec rfl hd hu
    | ok rec =>
      dsimp only
      rw [if_neg (by decide : ¬ (!true) = true)]
      refine ends_then (ends_held (counted_idbmDeleteNode _)
        (ends_idbmDeleteNode hu _) hu.1) ?_
      rintro rc v ⟨hv, hrefs⟩
      by_cases hrc : rc = 0
      · rw [if_neg (not_not.2 hrc)]
        have hnone : v.failed = none :=
          failed_none (hv.imp id fun ⟨hne, hnone, _⟩ => ⟨hne, hnone⟩) hrc
        refine ends_addRec ?_ hd ⟨hrefs, hnone⟩
        split
        · exact congrArg Key.oldPortal keyOf_onboot
        · rfl
      · rw [if_pos hrc]
        refine ended_some (hv.imp id fun ⟨hne, hnone, hsame⟩ => ⟨hne, hnone, fun p hp => ?_⟩)
        rw [hsame p hp, htu, hst]
  refine ends_then (ends_first_lock hs (Q := fun ok t => if ok = true then Held t ∧ t.files = s.files
    else t.failed = some t.files) (fun t ht hfiles => ⟨ht, hfiles⟩) fun t ht => ht) ?_
  intro ok t ht
  cases ok with
  | false => exact .inl (.inr ⟨by decide, ht⟩)
  | true =>
    refine ends_then (hbody t ht.1 ht.2) fun rc u hu => ?_
    refine ends_then (ends_unlock (Q := fun _ v => Ended rc s v) ?_) fun _ _ h => h
    intro v hfiles hfailed
    rwa [Ended, Stopped, SameNodes, hfiles, hfailed]

theorem ends_ifaceConfWrite {iface : Field → Val} (hs : s.failed = none) :
    (IfaceStore.ifaceConfWrite iface).Ends (moves old) (fun rc t =>
      Stopped (rc = 0) t ∨ rc ≠ 0 ∧ t.failed = none ∧ t.files = s.files) s := by
  unfold IfaceStore.ifaceConfWrite
  split
  · exact .inr ⟨by decide, hs, rfl⟩
  · have hcreate : ∀ p, (create p).Ends (moves old)
        (fun ok t => if ok = true then t.failed = none else t.failed = some t.files) s := by
      intro p
      refine ends_onFile fun ok t _ _ hfiles hfailed => ?_
      cases ok with
      | true => exact hfailed.trans hs
      | false =>
        rw [if_neg Bool.false_ne_true, hfailed, hfiles]
        rfl
    refine ends_then (hcreate _) fun ok t ht => ?_
    cases ok with
    | false => exact .inl (.inr ⟨idbm_ne_zero, ht⟩)
    | true =>
      refine ends_then (ends_first_lock ht (Q := fun ok u => if ok = true then Held u
        else u.failed = some u.files) (fun u hu _ => hu) fun u hu => hu) ?_
      intro ok u hu
      cases ok with
      | false => exact .inl (.inr ⟨idbm_ne_zero, hu⟩)
      | true =>
        refine ends_then (ends_onFile (Q := fun _ v => v.failed = none) ?_) fun _ v hv => ?_
        · exact fun _ v _ _ _ hfailed => hfailed.trans hu.2
        · have hdone : Stopped ((0 : Int) = 0) v := .inl ⟨rfl, hv⟩
          exact ends_mono (ends_unlock_return (P := (· = 0)) hdone) fun _ _ => Or.inl

theorem ends_ifaceConfUpdate {params : List (List UInt8 × List UInt8)} {iface : Field → Val}
    (hs : s.failed = none) :
    (IfaceStore.ifaceConfUpdate params iface).Ends (moves old) (fun rc t =>
      Stopped (rc = 0) t ∨ rc ≠ 0 ∧ t.failed = none ∧ t.files = s.files) s := by
  have hinval : (pure iscsiErrInval : Idbm Int).Ends (moves old) (fun rc t =>
      Stopped (rc = 0) t ∨ rc ≠ 0 ∧ t.failed = none ∧ t.files = s.files) s :=
    .inr ⟨by decide, hs, rfl⟩
  unfold IfaceStore.ifaceConfUpdate
  split
  · exact hinval
  · dsimp only
    by_cases hverify : params.all (IfaceStore.idbmVerifyParam
        (IdbmRecord.idbmRecinfoIface (IdbmRecord.ifaceGetIptype iface)) ·.1) = true
    · rw [if_pos hverify]
      cases IfaceStore.updateParams _ params iface with
      | none => exact hinval
      | some iface => exact ends_ifaceConfWrite hs
    · rw [if_neg hverify]
      exact hinval

end Update

/-- An update of a record that exists. -/
inductive Update where
  | addNode (newrec : Field → Val) (d : Drec)
  | confWrite (iface : Field → Val)
  | confUpdate (params : List (List UInt8 × List UInt8)) (iface : Field → Val)

namespace Update

def prog : Update → Idbm (Option Int)
  | addNode newrec d => idbmAddNode newrec (some d) true
  | confWrite iface => IfaceStore.ifaceConfWrite iface >>= fun rc => pure (some rc)
  | confUpdate params iface => IfaceStore.ifaceConfUpdate params iface >>= fun rc => pure (some rc)

def reader : Update → Idbm (Except Int (Field → Val))
  | addNode newrec _ => idbmRecRead (keyOf newrec) false
  | confWrite iface | confUpdate _ iface => IfaceStore.ifaceConfRead (str iface .ifaceName)

def oldPortal : Update → Path
  | addNode newrec _ => (keyOf newrec).oldPortal
  | confWrite _ | confUpdate _ _ => []

/-- What the callers promise: they discover in one of the ways that have links. -/
def Promised : Update → Prop
  | addNode _ d => Linkable d.type
  | confWrite _ | confUpdate _ _ => True

end Update

section Readers

variable (files : Files)

@[simp] theorem run_stat :
    (stat p).run (answer files) () = ((files p).map fun _ => .file, ()) := rfl

@[simp] theorem run_lock : idbmLock.run (answer files) () = (true, ()) := rfl

@[simp] theorem run_unlock : idbmUnlock.run (answer files) () = ((), ()) := rfl

@[simp] theorem run_locked {α : Type} (err : α) (body : Idbm α) :
    (locked err body).run (answer files) () = body.run (answer files) () := by
  simp [locked]

theorem run_recReadFile : (recReadFile conf).run (answer files) () =
    (((files conf).map IdbmRecord.idbmRecRead).elim (.error iscsiErrIdbm) .ok, ()) := by
  have hread : (IdbmStore.read conf).run (answer files) () = (files conf, ()) := rfl
  rw [recReadFile, run_bind, hread]
  cases files conf <;> rfl

/-- A node record is read from one of two files. -/
theorem found_idbmRecRead : found files (idbmRecRead k false) =
    ((files k.oldPortal).map IdbmRecord.idbmRecRead).or
      (if k.iface = [] then none else (files k.recFile).map IdbmRecord.idbmRecRead) := by
  have hfile : ∀ conf text, files conf = some text →
      ((recReadFileLocked conf false).run (answer files) ()).1.toOption =
        some (IdbmRecord.idbmRecRead text) := by
    intro conf text hconf
    rw [recReadFileLocked, if_neg Bool.false_ne_true, run_locked, run_recReadFile, hconf]
    rfl
  rw [found, idbmRecRead, run_bind, run_stat]
  cases hold : files k.oldPortal with
  | some text => exact hfile _ text hold
  | none =>
    dsimp only [Option.map_none, Option.none_or]
    split
    · rfl
    · rw [run_bind, run_stat]
      cases hrec : files k.recFile with
      | some text => exact hfile _ text hrec
      | none => rfl

end Readers

theorem nodePath_oldPortal : NodePath k.oldPortal := by
  rw [Key.oldPortal, Key.targetDir, List.append_assoc, nodePath_append (by decide)]
  rfl

theorem nodePath_recFile : NodePath k.recFile := by
  rw [Key.recFile, Key.portalDir, Key.targetDir, List.append_assoc, List.append_assoc,
    nodePath_append (by decide)]
  rfl

theorem found_sameNodes (h : SameNodes s t) (k : Key) :
    found t.files (idbmRecRead k false) = found s.files (idbmRecRead k false) := by
  rw [found_idbmRecRead, found_idbmRecRead, h _ (nodePath_oldPortal k), h _ (nodePath_recFile k)]

/-- How any update ends, as far as its record goes. -/
theorem Update.ends (u : Update) (hu : u.Promised) (hs : s.failed = none) :
    u.prog.Ends (moves u.oldPortal) (fun rc t => Stopped (rc = some 0) t ∨
      rc ≠ some 0 ∧ t.failed = none ∧ found t.files u.reader = found s.files u.reader) s := by
  have hiface : ∀ {p : Idbm Int} {reader : Idbm (Except Int (Field → Val))} {old : Path},
      p.Ends (moves old) (fun rc t =>
        Stopped (rc = 0) t ∨ rc ≠ 0 ∧ t.failed = none ∧ t.files = s.files) s →
      (p >>= fun rc => (pure (some rc) : Idbm _)).Ends (moves old) (fun rc t =>
        Stopped (rc = some 0) t ∨
          rc ≠ some 0 ∧ t.failed = none ∧ found t.files reader = found s.files reader) s := by
    intro p reader old hp
    refine ends_then hp ?_
    rintro rc t (hstopped | ⟨hrc, hnone, hfiles⟩)
    · exact .inl (by rwa [Option.some_inj])
    · exact .inr ⟨fun h => hrc (Option.some.inj h), hnone, by rw [hfiles]⟩
  cases u with
  | addNode newrec d =>
    refine ends_mono (ends_idbmAddNode hu hs) fun rc t ht => ?_
    exact ht.imp id fun ⟨hrc, hnone, hsame⟩ => ⟨hrc, hnone, found_sameNodes hsame _⟩
  | confWrite iface => exact hiface (ends_ifaceConfWrite hs)
  | confUpdate params iface => exact hiface (ends_ifaceConfUpdate hs)

/-- The lock is not given. -/
def refused : (c : IdbmStore.Call) → Store → c.Answer
  | .lock, _ => false
  | c, s => (answer s.files c ()).1

/-- The network interface that is configured in the record. -/
def netdev (files : Files) : Option Val :=
  (found files (IfaceStore.ifaceConfRead (ascii "ether"))).map (· .ifaceNetdev)

end Overwrite
