import OpenIscsi.Login

/-!
# What the text keys of a response can change

Keys never touch the stages of the connection. In the security stage they leave
the values that are offered later alone as well, and only the client sees the
keys of the authentication.
-/

namespace LoginFrame

open CString AuthText AuthKeys AuthClient AuthApi LoginKeys Login

structure Stage where
  type : SessionType
  currentStage : Int
  nextStage : Int
  partialResponse : Bool

def stage (s : LoginSession) : Stage := ⟨s.type, s.currentStage, s.nextStage, s.partialResponse⟩

/-- The stage and the values that decide where a discovery session may go. -/
structure SecurityFrame where
  stage : Stage
  hdrdgstEn : DigestMode
  datadgstEn : DigestMode
  maxRecvDlength : Nat

def securityFrame (s : LoginSession) : SecurityFrame :=
  ⟨stage s, s.hdrdgstEn, s.datadgstEn, s.maxRecvDlength⟩

variable (env : RspEnv) (s : LoginSession)

theorem iscsiUpdateAddress_frame (s' : LoginSession) (value : List UInt8)
    (h : iscsiUpdateAddress env s value = some s') :
    securityFrame s' = securityFrame s ∧ s'.authClient = s.authClient := by
  unfold iscsiUpdateAddress at h
  dsimp only at h
  split at h
  · cases h
  · split at h
    · cases h
      exact ⟨rfl, rfl⟩
    · cases h

theorem normalOnly_frame (k : IrrelevantKey) (set : LoginSession → LoginSession)
    (hset : stage (set s) = stage s ∧ (set s).authClient = s.authClient) :
    stage (normalOnly s k set) = stage s ∧ (normalOnly s k set).authClient = s.authClient := by
  unfold normalOnly
  split
  · exact hset
  · exact ⟨rfl, rfl⟩

/-- No operational key touches the stage or the client. -/
theorem applyOpKey_frame (s' : LoginSession) (value : List UInt8) (k : OpKey)
    (h : applyOpKey env s value k = .ok s') :
    stage s' = stage s ∧ s'.authClient = s.authClient := by
  cases k with
  | targetAddress =>
    simp only [applyOpKey] at h
    split at h
    · rename_i s'' hs
      cases h
      obtain ⟨hf, hc⟩ := iscsiUpdateAddress_frame env s _ value hs
      exact ⟨congrArg SecurityFrame.stage hf, hc⟩
    · cases h
  | initialR2T => cases h; exact normalOnly_frame s _ _ ⟨rfl, rfl⟩
  | immediateData => cases h; exact normalOnly_frame s _ _ ⟨rfl, rfl⟩
  | firstBurstLength => cases h; exact normalOnly_frame s _ _ ⟨rfl, rfl⟩
  | maxBurstLength => cases h; exact normalOnly_frame s _ _ ⟨rfl, rfl⟩
  | dataPduInOrder => cases h; exact normalOnly_frame s _ _ ⟨rfl, rfl⟩
  | dataSequenceInOrder => cases h; exact normalOnly_frame s _ _ ⟨rfl, rfl⟩
  | maxOutstandingR2T => cases h; exact normalOnly_frame s _ _ ⟨rfl, rfl⟩
  | maxConnections =>
    simp only [applyOpKey] at h
    split at h
    · cases h
    · cases h; exact normalOnly_frame s _ _ ⟨rfl, rfl⟩
  | maxRecvDataSegmentLength =>
    simp only [applyOpKey] at h
    split at h
    · split at h <;> (cases h; exact ⟨rfl, rfl⟩)
    · cases h; exact ⟨rfl, rfl⟩
  | _ =>
    simp only [applyOpKey] at h
    first
      | (cases h; exact ⟨rfl, rfl⟩)
      | (split at h <;> first | (cases h; exact ⟨rfl, rfl⟩) | cases h)

theorem getOpParamsTextKeys_frame (text : List UInt8) :
    stage (getOpParamsTextKeys env s text).1 = stage s ∧
      (getOpParamsTextKeys env s text).1.authClient = s.authClient := by
  unfold getOpParamsTextKeys
  split
  · exact ⟨rfl, rfl⟩
  · split
    · rename_i s' hs
      exact applyOpKey_frame env s s' _ _ hs
    · exact ⟨rfl, rfl⟩

/-- What a round of the security stage does to the client: nothing, or one key. -/
def KeyRead (c d : IscsiAcl) : Prop := d = c ∨ ∃ n raw, d = (aclRecvKeyValue c n raw).1

theorem getSecurityTextKeys_frame (client : IscsiAcl) (hc : s.authClient = some client)
    (text : List UInt8) :
    securityFrame (getSecurityTextKeys env s client text).1 = securityFrame s ∧
      ∃ d, (getSecurityTextKeys env s client text).1.authClient = some d ∧ KeyRead client d := by
  unfold getSecurityTextKeys
  split
  · exact ⟨rfl, client, hc, .inl rfl⟩
  · split
    · split
      · rename_i s' hs
        obtain ⟨hf, hd⟩ := iscsiUpdateAddress_frame env s s' _ hs
        exact ⟨hf, client, hd.trans hc, .inl rfl⟩
      · exact ⟨rfl, client, hc, .inl rfl⟩
    · split
      · exact ⟨rfl, client, hc, .inl rfl⟩
      · unfold getAuthKeyType
        split
        · exact ⟨rfl, client, hc, .inl rfl⟩
        · dsimp only
          split
          · exact ⟨rfl, _, rfl, .inr ⟨_, _, rfl⟩⟩
          · exact ⟨rfl, _, rfl, .inr ⟨_, _, rfl⟩⟩

/-- A property that one round of the scan keeps is kept by the scan. -/
theorem scanText_invariant (P : LoginSession → Prop)
    (keep : ∀ s text, P s → P (stageKeys env s text).1) (fuel : Nat) (s : LoginSession)
    (text : List UInt8) (h : P s) : P (scanText env fuel s text).1 := by
  induction fuel generalizing s text with
  | zero => exact h
  | succ fuel ih =>
    unfold scanText
    split
    · exact h
    · rename_i b rest _
      have hround := keep s (b :: rest) h
      split
      · rename_i s' e hk
        rw [hk] at hround
        exact hround
      · rename_i s' text' hk
        rw [hk] at hround
        exact ih s' text' hround

/-- A response is accepted when no part of its handling objects. -/
theorem process_accepted {D : Digest} {env : RspEnv} {maxDataLength : Nat} {s : LoginSession}
    {r : LoginRsp} (hok : (iscsiProcessLoginResponse D env maxDataLength s r).status = .ok) :
    let k := scanText env (r.text.length + 1) (rspBegin s r).1 r.text
    (rspBegin s r).2 = .ok ∧ k.2 = .ok ∧ (rspVerdict D env k.1).status = .ok ∧
      (iscsiProcessLoginResponse D env maxDataLength s r).session =
        rspRecord (rspVerdict D env k.1).session r := by
  unfold iscsiProcessLoginResponse at hok ⊢
  dsimp only at hok ⊢
  split_ifs at hok ⊢ with hlen hcheck hbegin hkeys hverdict
  · exact absurd hok hcheck
  · exact absurd hok hbegin
  · exact absurd hok hkeys
  · exact absurd hok hverdict
  · exact ⟨not_not.mp hbegin, not_not.mp hkeys, not_not.mp hverdict, rfl⟩

end LoginFrame
