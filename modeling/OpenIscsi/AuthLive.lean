import OpenIscsi.AuthSoundness

/-!
# Single calls on an initiator

The login code stops in the middle of a message when a key is refused, so here
the calls are taken one by one, in any order. What every call keeps of an
initiator is enough to see that a transit bit always closes its exchange.
-/

namespace AuthLive

open CString AuthText AuthKeys AuthClient AuthApi AuthRun AuthFrame AuthExchange AuthStages
open AuthSoundness

/-- What every call keeps of an initiator. -/
structure Live (c : IscsiAcl) : Prop where
  nodeType : c.nodeType = .initiator
  verdict : c.rmtAuthStatus ≠ .cont
  phase : c.phase = .authenticate ∨ c.phase = .done ∨ c.phase = .error ∨
    ((c.phase = .configure ∨ c.phase = .negotiate) ∧ c.authMethodValidNegRole = .originator)

variable {c : IscsiAcl} (D : Digest) (env : Env) {d : IscsiAcl} (session : Session)

theorem Ready.live (h : Ready c) : Live c := by
  refine ⟨h.nodeType, by simp [h.unsettled], ?_⟩
  rcases h.phase with ⟨hp, hrole⟩ | hp
  · exact .inr (.inr (.inr ⟨.inl hp, hrole⟩))
  · exact .inr (.inr (.inl hp))

/-- A call that only moves the phase within the negotiation, or to an error. -/
theorem Live.held (h : Live c) (hh : held d = held c)
    (hp : d.phase = c.phase ∨ d.phase = .error ∨ (c.phase = .configure ∧ d.phase = .negotiate)) :
    Live d := by
  have hnode : d.nodeType = c.nodeType := congrArg (fun f => f.setup.nodeType) hh
  have hv : d.rmtAuthStatus = c.rmtAuthStatus := congrArg Held.rmtAuthStatus hh
  have hrole : d.authMethodValidNegRole = c.authMethodValidNegRole :=
    congrArg Held.authMethodValidNegRole hh
  refine ⟨hnode.trans h.nodeType, hv ▸ h.verdict, ?_⟩
  rcases hp with hp | hp | ⟨hc, hp⟩
  · rw [hp, hrole]
    exact h.phase
  · exact .inr (.inr (.inl hp))
  · rcases h.phase with h' | h' | h' | ⟨-, h'⟩
    · rw [hc] at h'; cases h'
    · rw [hc] at h'; cases h'
    · rw [hc] at h'; cases h'
    · exact .inr (.inr (.inr ⟨.inr hp, hrole.trans h'⟩))

theorem Live.recvBegin (h : Live c) : Live (aclRecvBegin c).1 := by
  refine h.held (aclRecvBegin_held c) ?_
  unfold aclRecvBegin
  split
  · exact .inl rfl
  · split
    · exact .inl rfl
    · split
      · exact .inr (.inl rfl)
      · split
        · exact .inr (.inl rfl)
        · dsimp only
          split
          · rename_i hp
            exact .inr (.inr ⟨hp, by rw [aclNextPhase, hp]⟩)
          · exact .inl rfl

theorem Live.recvTransitBit (h : Live c) (value : Bool) :
    Live (aclRecvTransitBit c value).1 := by
  refine h.held (aclRecvTransitBit_held c value) ?_
  unfold aclRecvTransitBit
  split
  · exact .inl rfl
  · split
    · exact .inr (.inl rfl)
    · exact .inl rfl

theorem Live.recvKeyValue (h : Live c) (n : Int) (raw : Option (List UInt8)) :
    Live (aclRecvKeyValue c n raw).1 := by
  refine h.held (aclRecvKeyValue_held c n raw) ?_
  rcases aclRecvKeyValue_phase c n raw with hp | hp
  · exact .inl hp
  · exact .inr (.inl hp)

theorem Live.sent (h : Live c) (hs : Sent c d) : Live d := by
  cases hs with
  | refused hh hp => exact h.held hh (.inr (.inl hp))
  | read hh hp _ => exact h.held hh (.inl hp)

theorem Live.getDbgStatus (h : Live c) : Live (aclGetDbgStatus c).1 := by
  unfold aclGetDbgStatus
  split
  · exact h
  · split
    · exact h.held rfl (.inr (.inl rfl))
    · exact h

/-! ## The end of a message -/

/-- What the two sides keep in whatever states they are. -/
structure Kept (c d : IscsiAcl) : Prop where
  nodeType : d.nodeType = c.nodeType
  transit : d.recvKeyBlock.transitBit = c.recvKeyBlock.transitBit
  sent : d.transitBitSentFlag = c.transitBitSentFlag
  phase : d.phase = c.phase ∨ d.phase = .error
  verdict : d.rmtAuthStatus = c.rmtAuthStatus ∨ d.rmtAuthStatus ≠ .cont

theorem Kept.of_localFrame (h : localFrame d = localFrame c) : Kept c d :=
  ⟨congrArg (fun f => f.shared.setup.nodeType) h, congrArg (fun f => f.shared.recvTransit) h,
    congrArg (fun f => f.shared.transitBitSentFlag) h, .inl (congrArg (fun f => f.shared.phase) h), .inl (congrArg LocalFrame.rmtAuthStatus h)⟩

theorem Kept.of_rmtFrame (h : rmtFrame d = rmtFrame c)
    (hv : d.rmtAuthStatus = c.rmtAuthStatus ∨ d.rmtAuthStatus ≠ .cont) : Kept c d :=
  ⟨congrArg (fun f => f.shared.setup.nodeType) h, congrArg (fun f => f.shared.recvTransit) h,
    congrArg (fun f => f.shared.transitBitSentFlag) h, .inl (congrArg (fun f => f.shared.phase) h), hv⟩

theorem aclLocalAuth_kept (c : IscsiAcl) : Kept c (aclLocalAuth D env c) := by
  by_cases hu : c.localState = .unset
  · simp only [aclLocalAuth, hu]
    exact ⟨rfl, rfl, rfl, .inr rfl, .inl rfl⟩
  · by_cases he : c.localState = .error
    · simp only [aclLocalAuth, he]
      exact ⟨rfl, rfl, rfl, .inr rfl, .inl rfl⟩
    · exact .of_localFrame (aclLocalAuth_localFrame D env c hu he)

theorem rmtSendChallenge_verdict (c : IscsiAcl) :
    (rmtSendChallenge env c).rmtAuthStatus = c.rmtAuthStatus ∨
      (rmtSendChallenge env c).rmtAuthStatus ≠ .cont := by
  unfold rmtSendChallenge
  split
  · exact .inr (by simp)
  · split
    · exact .inl rfl
    · dsimp only
      split <;> exact .inl rfl

theorem rmtRecvRsp_verdict_kept (c : IscsiAcl) :
    (rmtRecvRsp D env session c).rmtAuthStatus = c.rmtAuthStatus ∨
      (rmtRecvRsp D env session c).rmtAuthStatus ≠ .cont := by
  unfold rmtRecvRsp
  dsimp only
  split
  · exact .inl rfl
  · exact .inl rfl
  · split
    · exact .inl rfl
    · split
      · exact .inl rfl
      · right
        rcases recordVerdict_status _ _ with h | ⟨-, h⟩ <;> rw [h] <;> decide

theorem aclRmtAuth_kept (c : IscsiAcl) :
    Kept c (aclRmtAuth D env session c) := by
  cases hs : c.rmtState with
  | unset =>
    simp only [aclRmtAuth, hs]
    exact ⟨rfl, rfl, rfl, .inr rfl, .inl rfl⟩
  | error =>
    simp only [aclRmtAuth, hs]
    exact ⟨rfl, rfl, rfl, .inr rfl, .inl rfl⟩
  | sendAlg =>
    simp only [aclRmtAuth, hs]
    split
    · exact ⟨rfl, rfl, rfl, .inl rfl, .inl rfl⟩
    · exact .of_rmtFrame (rmtSendChallenge_rmtFrame env c) (rmtSendChallenge_verdict env c)
  | sendChallenge =>
    simp only [aclRmtAuth, hs]
    exact .of_rmtFrame (rmtSendChallenge_rmtFrame env c) (rmtSendChallenge_verdict env c)
  | recvRsp =>
    simp only [aclRmtAuth, hs]
    exact .of_rmtFrame (rmtRecvRsp_rmtFrame D env session c)
      (rmtRecvRsp_verdict_kept D env session c)
  | done =>
    simp only [aclRmtAuth, hs]
    exact ⟨rfl, rfl, rfl, .inl rfl, .inl rfl⟩

theorem Kept.trans {e : IscsiAcl} (h : Kept c d) (h' : Kept d e) : Kept c e := by
  refine ⟨h'.nodeType.trans h.nodeType, h'.transit.trans h.transit, h'.sent.trans h.sent, ?_, ?_⟩
  · rcases h'.phase with hp | hp
    · rw [hp]
      exact h.phase
    · exact .inr hp
  · rcases h'.verdict with hv | hv
    · rw [hv]
      exact h.verdict
    · exact .inr hv

theorem bothSides_kept (c : IscsiAcl) :
    Kept c (bothSides D env session c) := by
  have hlocal := aclLocalAuth_kept D env c
  unfold bothSides
  dsimp only
  split
  · exact hlocal.trans (aclRmtAuth_kept D env session _)
  · exact hlocal

/-- The client stays live, and a transit bit that was read does not continue. -/
def Shuts (transit : Bool) (out : IscsiAcl × AuthStatus) : Prop :=
  Live out.1 ∧ (transit = true → out.2 ≠ .cont)

theorem Ends.shuts {out : IscsiAcl × AuthStatus} (h : Ends c out)
    (hnode : c.nodeType = .initiator) (hv : c.rmtAuthStatus ≠ .cont) (transit : Bool) :
    Shuts transit out := by
  have hnode' : out.1.nodeType = c.nodeType := congrArg Setup.nodeType h.closes.setup
  refine ⟨⟨hnode'.trans hnode, ?_, ?_⟩, fun _ => ?_⟩
  · rcases h.closes.verdict with hv' | hv'
    · rw [hv']
      exact hv
    · simp [hv']
  · rcases h.closes.phase with hp | hp
    · exact .inr (.inl hp)
    · exact .inr (.inr (.inl hp))
  · rcases h.status with hs | hs | hs
    · simp [hs]
    · simp [hs]
    · rw [hs]
      exact hv

theorem handShake_shuts (d : IscsiAcl) (hnode : d.nodeType = .initiator)
    (hv : d.rmtAuthStatus ≠ .cont)
    (hp : d.phase = .authenticate ∨ d.phase = .done ∨ d.phase = .error) :
    Shuts d.recvKeyBlock.transitBit (aclRcvEndStatus (aclHandShake d)) := by
  have hc : d.phase ≠ .configure := by rcases hp with h | h | h <;> simp [h]
  have hn : d.phase ≠ .negotiate := by rcases hp with h | h | h <;> simp [h]
  rcases handShake_rcvEndStatus d hc with hend | ⟨hnot, -, hcont⟩
  · exact Ends.shuts hend hnode hv _
  · refine ⟨Live.held ⟨hnode, hv, ?_⟩ hcont.held (.inl hcont.phase), fun ht => ?_⟩
    · rcases hp with h | h | h
      · exact .inl h
      · exact .inr (.inl h)
      · exact .inr (.inr (.inl h))
    · exact absurd ⟨hnode, ht, hn⟩ hnot

theorem recvEndAuthenticate_shuts (c : IscsiAcl)
    (hnode : c.nodeType = .initiator) (hv : c.rmtAuthStatus ≠ .cont)
    (hp : c.phase = .authenticate) :
    Shuts c.recvKeyBlock.transitBit
      (aclRcvEndStatus (aclHandShake (recvEndAuthenticate D env session c))) := by
  have h := bothSides_kept D env session c
  have hnode' : (bothSides D env session c).nodeType = .initiator := h.nodeType.trans hnode
  unfold recvEndAuthenticate
  rcases closeFailed_cases (bothSides D env session c) with ⟨hset, hd, hfail⟩ | ⟨heq, -, -⟩
  · rcases handShake_rcvEndStatus (closeFailed (bothSides D env session c)) (by simp [hd]) with
      hend | ⟨-, hnd, -⟩
    · exact Ends.shuts hend ((congrArg Setup.nodeType hset).trans hnode') (by simp [hfail]) _
    · exact absurd hd hnd
  · rw [heq, ← h.transit]
    refine handShake_shuts _ hnode' ?_ ?_
    · rcases h.verdict with hv' | hv'
      · rw [hv']
        exact hv
      · exact hv'
    · rcases h.phase with hp' | hp'
      · exact .inl (hp'.trans hp)
      · exact .inr (.inr hp')

/-- An originator that was answered is past the negotiation before its handshake. -/
theorem recvEndNegotiate_shuts (c : IscsiAcl)
    (hnode : c.nodeType = .initiator) (hv : c.rmtAuthStatus ≠ .cont) (hp : c.phase = .negotiate)
    (hrole : c.authMethodValidNegRole = .originator) :
    Shuts c.recvKeyBlock.transitBit
      (recvEndFinish D env session (recvEndNegotiate c).1 (recvEndNegotiate c).2) := by
  have hstart : ∀ d : IscsiAcl, shared d = { shared c with phase := .authenticate } →
      d.rmtAuthStatus ≠ .cont → Shuts c.recvKeyBlock.transitBit
        (recvEndFinish D env session d (recvEndNegotiate c).2) := by
    intro d hf hvd
    have hpd : d.phase = .authenticate := congrArg Shared.phase hf
    have hnd : d.nodeType = .initiator := (congrArg (fun f => f.setup.nodeType) hf).trans hnode
    have htd : d.recvKeyBlock.transitBit = c.recvKeyBlock.transitBit :=
      congrArg Shared.recvTransit hf
    rw [recvEndFinish, hpd, ← htd]
    exact recvEndAuthenticate_shuts D env session d hnd hvd hpd
  cases recvEndNegotiate_opened c hrole hp with
  | closed hs hp hf =>
    exact Ends.shuts (recvEndFinish_closed D env session c _ ⟨hs, .inl hp, .inr hf⟩ _) hnode hv _
  | chap hf hv' _ _ => exact hstart _ hf (hv' ▸ hv)
  | settled hf hv' _ _ =>
    refine hstart _ hf ?_
    rcases hv' with h | ⟨h, -⟩ <;> simp [h]

/-- `acl_recv_end` keeps an initiator live and never continues on a transit bit. -/
theorem Live.recvEnd (h : Live c) (D : Digest) (env : Env) (session : Session) :
    Shuts c.recvKeyBlock.transitBit (aclRecvEnd D env session c) := by
  by_cases hs : c.signature = aclSignature
  case neg =>
    rw [aclRecvEnd, if_pos hs]
    exact ⟨h, fun _ => by simp⟩
  by_cases he : c.phase = .error
  · rw [aclRecvEnd, if_neg (not_not.mpr hs), if_pos he]
    exact ⟨h, fun _ => by simp⟩
  by_cases hin : c.recvInProgressFlag = true
  case neg =>
    have heq : aclRecvEnd D env session c = outOfTurn c := by simp [aclRecvEnd, hs, he, hin]
    rw [heq]
    exact Ends.shuts (outOfTurn_ends c) h.nodeType h.verdict _
  rcases h.phase with hp | hp | hp | ⟨hp, hrole⟩
  · rcases aclRecvEnd_authenticate D env session c hs hp hin with hend | heq
    · exact Ends.shuts hend h.nodeType h.verdict _
    · rw [heq]
      exact recvEndAuthenticate_shuts D env session (counted c) h.nodeType h.verdict hp
  · refine Ends.shuts (c := c) ?_ h.nodeType h.verdict _
    rcases aclRecvEnd_limits D env session c hs he hin with hlim | hend
    · have heq : aclRecvEnd D env session c = recvEndFinish D env session (counted c) false := by
        simp [aclRecvEnd, hs, hin, hlim, counted, hp]
      rw [heq]
      exact recvEndFinish_closed D env session c (counted c) ⟨rfl, .inl hp, .inl rfl⟩ false
    · exact hend
  · exact absurd hp he
  · rcases hp with hp | hp
    · refine Ends.shuts (c := c) ?_ h.nodeType h.verdict _
      rcases aclRecvEnd_limits D env session c hs he hin with hlim | hend
      · have heq : aclRecvEnd D env session c = outOfTurn (counted c) := by
          simp [aclRecvEnd, hs, hin, hlim, counted, hp]
        rw [heq]
        exact ⟨⟨rfl, .inr rfl, .inl rfl⟩, .inl rfl⟩
      · exact hend
    · rcases aclRecvEnd_negotiate D env session c hs hp hin with hend | heq
      · exact Ends.shuts hend h.nodeType h.verdict _
      · rw [heq]
        exact recvEndNegotiate_shuts D env session (counted c) h.nodeType h.verdict hp hrole

/-! ## A pass needs the transit bits of both sides -/

/-- The verdict on a client in the authentication phase is given only after the handshake. -/
theorem handShake_pass (d : IscsiAcl) (hnode : d.nodeType = .initiator)
    (hp : d.phase = .authenticate) (hpass : (aclRcvEndStatus (aclHandShake d)).2 = .pass) :
    d.transitBitSentFlag = true := by
  by_contra hsent
  have hsent' : d.transitBitSentFlag = false := by simpa using hsent
  cases ht : d.recvKeyBlock.transitBit with
  | true =>
    have heq : aclHandShake d = failDone d .tBitSetIllegal := by
      simp [aclHandShake, hp, hnode, ht, hsent']
    rw [heq] at hpass
    have hend := aclRcvEndStatus_done (failDone d .tBitSetIllegal) rfl
    rcases hend.status with h | h | h <;> (rw [h] at hpass; cases hpass)
  | false =>
    have heq : ∃ t, aclHandShake d = withTransit d t := by
      by_cases hr : d.rmtState = .recvRsp ∨ d.rmtState = .done
      · exact ⟨true, by simp [aclHandShake, hp, hnode, ht, hr, withTransit]⟩
      · exact ⟨d.sendKeyBlock.transitBit, by
          rw [withTransit_self]
          simp [aclHandShake, hp, hnode, ht, hr]⟩
    obtain ⟨t, heq⟩ := heq
    rw [heq] at hpass
    have hd : (withTransit d t).phase ≠ .done := by simp [withTransit, hp]
    have he : (withTransit d t).phase ≠ .error := by simp [withTransit, hp]
    have hv : rcvEndVerdict (withTransit d t) = (withTransit d t, .cont) := by
      rw [rcvEndVerdict, if_neg hd]
    rcases rcvEndBlocks_cases (withTransit d t) .cont with ⟨hb, -⟩ | ⟨dbg, hb⟩ <;>
      simp [aclRcvEndStatus, he, hv, hb] at hpass

/-- A client closed with a bad verdict does not pass any more. -/
theorem closed_not_pass (c : IscsiAcl) (hp : c.phase = .done ∨ c.phase = .error)
    (hv : c.rmtAuthStatus ≠ .pass) : (aclRcvEndStatus (aclHandShake c)).2 ≠ .pass := by
  intro hpass
  rcases handShake_rcvEndStatus c (by rcases hp with h | h <;> simp [h]) with hend | ⟨-, hd, hcont⟩
  · rcases hend.status with h | h | h
    · rw [h] at hpass
      cases hpass
    · rw [h] at hpass
      cases hpass
    · exact hv (h.symm.trans hpass)
  · rw [hcont.status] at hpass
    cases hpass

/-- The handshake does not mend the error phase. -/
theorem aclHandShake_error (c : IscsiAcl) (hp : c.phase = .error) :
    (aclHandShake c).phase = .error ∨ ∃ dbg, aclHandShake c = failDone c dbg := by
  have hnext : ∀ d : IscsiAcl, d.phase = .error → (aclNextPhase d).phase = .error := by
    intro d hd
    rw [aclNextPhase, hd]
  unfold aclHandShake
  rw [if_neg (by simp [hp])]
  split
  · exact .inr ⟨_, rfl⟩
  rw [if_neg (by simp [hp])]
  split
  · split
    · split
      · split
        · exact .inr ⟨_, rfl⟩
        · exact .inl (hnext c hp)
      · exact .inl hp
    · split
      · exact .inl (hnext c hp)
      · split
        · exact .inl (hnext _ hp)
        · exact .inl hp
  · split
    · exact .inr ⟨_, rfl⟩
    · exact .inl hp

theorem error_not_pass (c : IscsiAcl) (hp : c.phase = .error) :
    (aclRcvEndStatus (aclHandShake c)).2 ≠ .pass := by
  rcases aclHandShake_error c hp with he | ⟨dbg, heq⟩
  · rw [aclRcvEndStatus, if_pos he]
    simp
  · intro hpass
    rw [heq] at hpass
    rcases (aclRcvEndStatus_done (failDone c dbg) rfl).status with h | h | h <;>
      (rw [h] at hpass; cases hpass)

theorem recvEndAuthenticate_pass (c : IscsiAcl)
    (hnode : c.nodeType = .initiator) (hp : c.phase = .authenticate)
    (hpass : (aclRcvEndStatus (aclHandShake (recvEndAuthenticate D env session c))).2 = .pass) :
    c.transitBitSentFlag = true := by
  have hk := bothSides_kept D env session c
  unfold recvEndAuthenticate at hpass
  rcases closeFailed_cases (bothSides D env session c) with ⟨-, hd, hfail⟩ | ⟨heq, -, -⟩
  · exact absurd hpass (closed_not_pass _ (.inl hd) (by simp [hfail]))
  · rw [heq] at hpass
    rcases hk.phase with hp' | hp'
    · rw [← hk.sent]
      exact handShake_pass _ (hk.nodeType.trans hnode) (hp'.trans hp) hpass
    · -- in the error phase the handshake is of no use
      exact absurd hpass (error_not_pass _ hp')

/-- A message read in turn passes only an initiator that has sent its transit bit. -/
theorem Live.recvEnd_pass (h : Live c) (D : Digest) (env : Env) (session : Session)
    (hp : c.phase = .negotiate ∨ c.phase = .authenticate ∨ c.phase = .error)
    (hpass : (aclRecvEnd D env session c).2 = .pass) : c.transitBitSentFlag = true := by
  by_cases hs : c.signature = aclSignature
  case neg =>
    rw [aclRecvEnd, if_pos hs] at hpass
    cases hpass
  have he : c.phase ≠ .error := by
    intro he
    rw [aclRecvEnd, if_neg (not_not.mpr hs), if_pos he] at hpass
    cases hpass
  by_cases hin : c.recvInProgressFlag = true
  case neg =>
    simp [aclRecvEnd, hs, he, hin, outOfTurn] at hpass
  rcases recvEndLimits_cases c with hlim | ⟨dbg, hlim⟩
  case inr =>
    rw [aclRecvEnd_limit D env session c hs he hin hlim] at hpass
    exact absurd hpass
      (closed_not_pass (counted (failDone c dbg)) (.inl rfl) (by simp [counted, failDone]))
  rcases hp with hp | hp | hp
  · have hrole : c.authMethodValidNegRole = .originator := by
      rcases h.phase with h' | h' | h' | ⟨-, h'⟩
      · rw [hp] at h'; cases h'
      · rw [hp] at h'; cases h'
      · rw [hp] at h'; cases h'
      · exact h'
    have heq : aclRecvEnd D env session c = recvEndFinish D env session
        (recvEndNegotiate (counted c)).1 (recvEndNegotiate (counted c)).2 := by
      simp [aclRecvEnd, hs, hp, hin, hlim, counted]
    rw [heq] at hpass
    have hstart : ∀ d : IscsiAcl, shared d = { shared (counted c) with phase := .authenticate } →
        (recvEndFinish D env session d (recvEndNegotiate (counted c)).2).2 = .pass →
        c.transitBitSentFlag = true := by
      intro d hf hd
      have hpd : d.phase = .authenticate := congrArg Shared.phase hf
      have hnd : d.nodeType = .initiator :=
        (congrArg (fun f => f.setup.nodeType) hf).trans h.nodeType
      have hsd : d.transitBitSentFlag = c.transitBitSentFlag :=
        congrArg Shared.transitBitSentFlag hf
      rw [recvEndFinish, hpd] at hd
      rw [← hsd]
      exact recvEndAuthenticate_pass D env session d hnd hpd hd
    cases recvEndNegotiate_opened (counted c) hrole hp with
    | closed _ hpd hvd =>
      rw [recvEndFinish, hpd] at hpass
      exact absurd hpass (closed_not_pass _ (.inl hpd) (by simp [hvd]))
    | chap hf _ _ _ => exact hstart _ hf hpass
    | settled hf _ _ _ => exact hstart _ hf hpass
  · have heq : aclRecvEnd D env session c =
        aclRcvEndStatus (aclHandShake (recvEndAuthenticate D env session (counted c))) := by
      simp [aclRecvEnd, hs, hp, hin, hlim, counted, recvEndFinish]
    rw [heq] at hpass
    exact recvEndAuthenticate_pass D env session (counted c) h.nodeType hp hpass
  · exact absurd hp he

end AuthLive
