import OpenIscsi.SendTargetsPdus

/-!
# Bad targets in a SendTargets response

A target whose name is too long, or one of whose addresses does not resolve, makes
`add_target_record` fail. `process_sendtargets_response` then drops all it has
buffered, and with it the targets that are already there behind the bad one.
-/

namespace BadTargets

open CString Tokens SendTargets SendTargetsRecord SendTargetsPdus

def AllShown (env : Env) (drec : DiscoveryRec) (ts : List Target) (recs : List NodeRec) : Prop :=
  ∀ t ∈ ts, Accepted env drec t → ∀ r ∈ portals drec t, r ∈ recs

structure Cut (strings : List (List UInt8)) (pdus : List Pdu) (last : Pdu) : Prop where
  before : ∀ pdu ∈ pdus, Text pdu ∧ pdu.final = false
  final : Text last ∧ last.final = true
  whole : (pdus.map Pdu.data).flatten ++ last.data = wire strings

/-- However the text is cut into PDUs, no bad target hides another one. -/
def NoneHidden (env : Env) (drec : DiscoveryRec) (d : Discovery) (strings : List (List UInt8)) :
    Prop :=
  ∀ pdus last, Cut strings pdus last →
    AllShown env drec (targets (strings.filter (fun s => s ≠ [])))
      (Runs.run (processRecvdPdu env drec) d (pdus ++ [last])).recs

/-- Behind the first bad target stand only bad ones, and targets whose records were
already there when the bad one failed. -/
def NothingBehind (env : Env) (drec : DiscoveryRec) (recs0 : List NodeRec) (ts : List Target) :
    Prop :=
  ∀ good bad later, ts = good ++ bad :: later → (∀ t ∈ good, Accepted env drec t) →
    ¬ Accepted env drec bad →
    AllShown env drec later (recs0 ++ good.flatMap (portals drec) ++ (added env drec bad).1)

section

variable {env : Env} {drec : DiscoveryRec} {recs0 recs : List NodeRec} {ts : List Target}

/-- There is one first bad target. -/
theorem first_bad_unique {good good' later later' : List Target} {bad bad' : Target}
    (hgood : ∀ t ∈ good, Accepted env drec t) (hbad : ¬ Accepted env drec bad)
    (hgood' : ∀ t ∈ good', Accepted env drec t) (hbad' : ¬ Accepted env drec bad')
    (h : good ++ bad :: later = good' ++ bad' :: later') :
    good = good' ∧ bad = bad' ∧ later = later' := by
  induction good generalizing good' with
  | nil =>
    cases good' with
    | nil =>
      obtain ⟨rfl, rfl⟩ := List.cons.inj h
      exact ⟨rfl, rfl, rfl⟩
    | cons t good' =>
      obtain ⟨rfl, -⟩ := List.cons.inj h
      exact absurd (hgood' bad (by simp)) hbad
  | cons t good ih =>
    cases good' with
    | nil =>
      obtain ⟨rfl, -⟩ := List.cons.inj h
      exact absurd (hgood t (by simp)) hbad'
    | cons t' good' =>
      obtain ⟨rfl, hrest⟩ := List.cons.inj h
      obtain ⟨rfl, rfl, rfl⟩ := ih (fun u hu => hgood u (by simp [hu]))
        (fun u hu => hgood' u (by simp [hu])) hrest
      exact ⟨rfl, rfl, rfl⟩

/-- What a text leaves in the list, when everything behind its first bad target is lost. -/
theorem allShown_of_ended (hended : Ended env drec recs0 ts recs)
    (hnone : NothingBehind env drec recs0 ts) : AllShown env drec ts recs := by
  intro t ht hacc r hr
  rcases hended with ⟨-, rfl⟩ | ⟨good, bad, later, rfl, hgood, hbad, rfl⟩
  · exact List.mem_append.mpr (.inr (List.mem_flatMap.mpr ⟨t, ht, hr⟩))
  · rcases List.mem_append.mp ht with h | h
    · have hin : r ∈ good.flatMap (portals drec) := List.mem_flatMap.mpr ⟨t, h, hr⟩
      simp [hin]
    · rcases List.mem_cons.mp h with rfl | h
      · exact absurd hacc hbad
      · exact hnone good bad later rfl hgood hbad t h hacc r hr

theorem nothingBehind_of_ended (hended : Ended env drec recs0 ts recs)
    (hall : AllShown env drec ts recs) : NothingBehind env drec recs0 ts := by
  intro good bad later hts hgood hbad t ht hacc r hr
  have hmem : t ∈ ts := by
    rw [hts]
    simp [ht]
  rcases hended with ⟨hok, -⟩ | ⟨good', bad', later', hts', hgood', hbad', hrecs⟩
  · exact absurd (hok bad (by rw [hts]; simp)) hbad
  · obtain ⟨rfl, rfl, rfl⟩ := first_bad_unique hgood hbad hgood' hbad' (hts.symm.trans hts')
    rw [← hrecs]
    exact hall t hmem hacc r hr

end

/-- No bad target hides another one if and only if nothing new stands behind the first
bad target. -/
theorem none_hidden_iff (env : Env) (drec : DiscoveryRec) (hm : ∀ n, env.calloc n = true)
    (strings : List (List UInt8)) (hstrings : ∀ s ∈ strings, NulFree s)
    (d : Discovery) (hd : d.sendtargets.dataLength = 0) :
    NoneHidden env drec d strings ↔
      NothingBehind env drec d.recs (targets (strings.filter (fun s => s ≠ []))) := by
  have hfit : Fits d.sendtargets := by
    rw [Fits, hd]
    exact Nat.zero_le _
  have hempty : data d.sendtargets = [] := by rw [data, hd, List.take_zero]
  constructor
  · intro h
    -- all in one PDU
    obtain ⟨whole, hwhole⟩ : ∃ whole : Pdu,
        whole = ⟨iscsiOpTextRsp, iscsiFlagCmdFinal, 0, wire strings, true, true⟩ := ⟨_, rfl⟩
    have hcut : Cut strings [] whole := by
      refine ⟨by simp, ?_, ?_⟩
      · rw [hwhole]
        have hflag : iscsiFlagCmdFinal ≠ 0 := by decide
        exact ⟨⟨rfl, rfl⟩, by simp [Pdu.final, hflag]⟩
      · rw [hwhole]
        rfl
    obtain ⟨s, hfit', hdata, -, hrecs⟩ := processRecvdPdu_text env drec hfit hcut.final.1
    have hall : data s = wire strings := by
      rw [hdata, hempty, hwhole]
      rfl
    have hended : Ended env drec d.recs (targets (tokens 0 (data s)))
        (processSendtargetsResponse env drec s true d.recs).2 :=
      process_final hm hfit' d.recs (by rw [hall]; exact wire_closed strings)
    have hshown := h [] whole hcut
    rw [hcut.final.2] at hrecs
    rw [List.nil_append, Runs.run_cons, Runs.run_nil, hrecs] at hshown
    rw [hall, tokens_wire hstrings] at hended
    exact nothingBehind_of_ended hended hshown
  · intro h pdus last hcut
    obtain ⟨recs, hgrows, hended, -⟩ := run_recs hm pdus last d hfit hcut.before hcut.final
      (by rw [hempty, hcut.whole]; rfl) (wire_closed strings)
    rw [tokens_wire hstrings] at hended
    have hall := allShown_of_ended hended h
    intro t ht hacc r hr
    exact hgrows.subset (hall t ht hacc r hr)

/-- A resolver that does not know the host `gone`. -/
def oneGone : Env := ⟨fun address _ => address ≠ ascii "gone", fun _ => true⟩

def twoTargets : List (List UInt8) :=
  [ascii "TargetName=a", ascii "TargetAddress=10.0.0.2:3260,1", ascii "TargetName=b",
    ascii "TargetAddress=10.0.0.3:3260,1"]

/-- Two good targets. -/
theorem none_hidden_two : NoneHidden oneGone sampleDrec {} twoTargets := by
  refine (none_hidden_iff oneGone sampleDrec (fun _ => rfl) twoTargets (by decide +kernel) {} rfl).mpr ?_
  have hall : ∀ t ∈ targets (twoTargets.filter (fun s => s ≠ [])), Accepted oneGone sampleDrec t := by
    decide +kernel
  intro good bad later hts hgood hbad
  exact absurd (hall bad (by rw [hts]; simp)) hbad

def goneFirst : List (List UInt8) :=
  [ascii "TargetName=a", ascii "TargetAddress=gone:3260,1", ascii "TargetName=b",
    ascii "TargetAddress=10.0.0.3:3260,1"]

/-- A host that does not resolve hides the next target, although that one resolves. -/
theorem gone_host_hides : ¬ NoneHidden oneGone sampleDrec {} goneFirst := by
  intro h
  have hshown := h [] ⟨iscsiOpTextRsp, iscsiFlagCmdFinal, 0, wire goneFirst, true, true⟩
    ⟨by simp, ⟨⟨rfl, rfl⟩, rfl⟩, rfl⟩ ⟨ascii "b", [ascii "TargetAddress=10.0.0.3:3260,1"]⟩
    (by decide +kernel) (by decide +kernel)
  revert hshown
  decide +kernel

end BadTargets
