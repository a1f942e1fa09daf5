import OpenIscsi.AuthMessages

/-!
# Configured clients

What `acl_init` and a list of accepted `acl_set_*` calls leave behind. A call
that is refused puts the client into the error phase for good, so the phase
alone tells that every call was accepted.
-/

namespace AuthConfigured

open CString AuthText AuthKeys AuthClient AuthApi AuthRun AuthWire AuthMessages

def methodInputs (c : IscsiAcl) : NodeType × List Int × NegRole × Bool × Bool :=
  (c.nodeType, c.authMethodList, c.authMethodNegRole, c.authRmt, c.passwdPresent)

/-- What it writes, apart from the scratch buffer. -/
def methodOutputs (c : IscsiAcl) : List Int × NegRole × KeyBlock :=
  (c.authMethodValidList, c.authMethodValidNegRole, c.sendKeyBlock)

def initRole : NodeType → NegRole
  | .initiator => .originator
  | .target => .responder

/-- A client whose `acl_set_*` calls were all accepted. -/
structure Configured (node : NodeType) (c : IscsiAcl) : Prop where
  signature : c.signature = aclSignature
  nodeType : c.nodeType = node
  phase : c.phase = .configure
  idle : c.recvInProgressFlag = false
  count : c.recvEndCount = 0
  server : c.authServerErrorFlag = false
  methods : c.authMethodList = [authMethodChap, authOptionNone]
  negRole : c.authMethodNegRole = initRole node
  name : NulFree c.username ∧ c.username.length < authStrMaxLen
  algs : (∀ o ∈ c.chapAlgList, algOption o) ∧ c.chapAlgList.length ≤ authChapAlgMaxCount
  valid : ∃ d, methodInputs d = methodInputs c ∧
    methodOutputs c = methodOutputs (aclSetAuthMethodValid d)

theorem aclSetAuthMethodKey_others (c : IscsiAcl) (options : List Int) :
    ∃ b s, aclSetAuthMethodKey c options = { c with sendKeyBlock := b, scratchKeyValue := s } := by
  unfold aclSetAuthMethodKey
  split
  · exact ⟨_, _, rfl⟩
  · split
    · exact ⟨_, _, rfl⟩
    · exact ⟨_, _, rfl⟩

/-- Recomputing the methods writes their outputs and the scratch buffer only. -/
theorem aclSetAuthMethodValid_others (c : IscsiAcl) :
    ∃ l r b s, aclSetAuthMethodValid c = { c with
      authMethodValidList := l
      authMethodValidNegRole := r
      sendKeyBlock := b
      scratchKeyValue := s } := by
  unfold aclSetAuthMethodValid
  dsimp only
  split
  · obtain ⟨b, s, h⟩ := aclSetAuthMethodKey_others _ _
    rw [h]
    split
    · split <;> exact ⟨_, _, _, _, rfl⟩
    · exact ⟨_, _, _, _, rfl⟩
  · obtain ⟨b, s, h⟩ := aclSetAuthMethodKey_others _ _
    rw [h]
    split
    · split <;> exact ⟨_, _, _, _, rfl⟩
    · exact ⟨_, _, _, _, rfl⟩

/-- A client stays configured when its methods are recomputed. -/
theorem Configured.recompute {node : NodeType} {c d : IscsiAcl} (h : Configured node c)
    (rmt present : Bool) (data : List UInt8)
    (hd : d = { c with authRmt := rmt, passwdPresent := present, passwdData := data }) :
    Configured node (aclSetAuthMethodValid d) := by
  obtain ⟨l, r, b, s, heq⟩ := aclSetAuthMethodValid_others d
  have hin : methodInputs d = methodInputs (aclSetAuthMethodValid d) := by rw [heq]; rfl
  refine ⟨?_, ?_, ?_, ?_, ?_, ?_, ?_, ?_, ?_, ?_, d, hin, rfl⟩ <;> rw [heq, hd]
  · exact h.signature
  · exact h.nodeType
  · exact h.phase
  · exact h.idle
  · exact h.count
  · exact h.server
  · exact h.methods
  · exact h.negRole
  · exact h.name
  · exact h.algs

theorem aclChkChapAlgOptn_option (o : Int) (h : aclChkChapAlgOptn o = false) : algOption o := by
  simp only [aclChkChapAlgOptn, authOptionNone, authChapAlgSha3256, authChapAlgSha256,
    authChapAlgSha1, authChapAlgMd5, Bool.not_eq_false', Bool.or_eq_true, beq_iff_eq] at h
  unfold algOption
  tauto

theorem aclSetOptionList_some {c : IscsiAcl} {options l : List Int} {maxCount : Nat}
    {chkOption : Int → Bool} {chkList : List Int → Bool}
    (h : aclSetOptionList c options maxCount chkOption chkList = some l) :
    l = options ∧ options.length ≤ maxCount ∧ ∀ o ∈ options, chkOption o = false := by
  unfold aclSetOptionList at h
  split at h
  · cases h
  · split at h
    · cases h
    · rename_i hguard
      split at h
      · cases h
      · rename_i hany
        split at h
        · cases h
        · split at h
          · cases h
          · cases h
            refine ⟨rfl, by simp only [not_or, not_lt] at hguard; exact hguard.2, fun o ho => ?_⟩
            by_contra hbad
            exact hany (List.any_eq_true.mpr ⟨o, ho, by simpa using hbad⟩)

/-- A set call leaves a configured client configured, or is refused for good. -/
theorem SetCall.apply_configured {node : NodeType} {c : IscsiAcl} (call : SetCall)
    (h : Configured node c) :
    Configured node (call.apply c).1 ∨ (call.apply c).1.phase = .error := by
  have hs := h.signature
  have hp := h.phase
  cases call with
  | userName name =>
    unfold SetCall.apply aclSetUserName
    dsimp only
    rw [if_neg (not_not.mpr hs), if_neg (not_not.mpr hp)]
    split
    · rename_i name _ _
      left
      have hfree := cstr_nulFree name
      refine ⟨h.signature, h.nodeType, h.phase, h.idle, h.count, h.server, h.methods, h.negRole,
        ⟨fun b hb => hfree b (List.mem_of_mem_take hb), ?_⟩, h.algs, h.valid⟩
      have hstr : authStrMaxLen = 256 := rfl
      simp only [strlcpy, List.length_take]
      omega
    · exact .inr rfl
  | passwd data =>
    rw [SetCall.apply, aclSetPasswd, if_neg (not_not.mpr hs)]
    split
    · exact .inr rfl
    · exact .inl (h.recompute c.authRmt true data rfl)
  | chapAlgList options =>
    simp only [SetCall.apply, aclSetChapAlgList]
    cases hl : aclSetOptionList c options authChapAlgMaxCount aclChkChapAlgOptn aclChkChapAlgList with
    | none =>
      right
      simp [refuseOptions, hs, outOfTurn]
    | some l =>
      left
      obtain ⟨rfl, hmax, hall⟩ := aclSetOptionList_some hl
      exact ⟨h.signature, h.nodeType, h.phase, h.idle, h.count, h.server, h.methods, h.negRole,
        h.name, ⟨fun o ho => aclChkChapAlgOptn_option o (hall o ho), hmax⟩, h.valid⟩
  | authRmt value =>
    rw [SetCall.apply, aclSetAuthRmt, if_neg (not_not.mpr hs), if_neg (not_not.mpr hp)]
    exact .inl (h.recompute value c.passwdPresent c.passwdData rfl)
  | ipSec value =>
    rw [SetCall.apply, aclSetIpSec, if_neg (not_not.mpr hs), if_neg (not_not.mpr hp)]
    exact .inl ⟨h.signature, h.nodeType, h.phase, h.idle, h.count, h.server, h.methods, h.negRole,
      h.name, h.algs, h.valid⟩

/-- A client in the error phase stays there. -/
theorem SetCall.apply_error (c : IscsiAcl) (call : SetCall) (h : c.phase = .error) :
    (call.apply c).1.phase = .error := by
  cases call with
  | chapAlgList options =>
    simp only [SetCall.apply, aclSetChapAlgList, aclSetOptionList, h, refuseOptions]
    by_cases hs : c.signature = aclSignature
    · simp [hs, outOfTurn]
    · simp [hs, h]
  | _ =>
    by_cases hs : c.signature = aclSignature <;>
      simp [SetCall.apply, aclSetUserName, aclSetPasswd, aclSetAuthRmt, aclSetIpSec, hs, h, outOfTurn]

theorem aclInit_configured (node : NodeType) : Configured node (aclInit node).1 := by
  -- the client `acl_init` hands to `acl_set_auth_method_list`, with the list stored
  obtain ⟨d, hd⟩ : ∃ d : IscsiAcl, d = {
      signature := aclSignature
      nodeType := node
      authRmt := true
      phase := .configure
      negotiatedAuthMethod := authOptionNotPresent
      negotiatedChapAlg := authOptionNotPresent
      authMethodNegRole := initRole node
      authMethodList := [authMethodChap, authOptionNone] } := ⟨_, rfl⟩
  have hinit : (aclInit node).1 = aclSetAuthMethodValid d := by
    rw [hd]
    cases node <;> rfl
  obtain ⟨l, r, b, s, heq⟩ := aclSetAuthMethodValid_others d
  have hin : methodInputs d = methodInputs (aclSetAuthMethodValid d) := by rw [heq]; rfl
  rw [hinit]
  refine ⟨?_, ?_, ?_, ?_, ?_, ?_, ?_, ?_, ?_, ?_, d, hin, rfl⟩ <;> rw [heq, hd]
  · simp [NulFree, authStrMaxLen]
  · simp

/-- After any list of set calls the client is configured, unless one was refused. -/
theorem configured_configured (node : NodeType) (calls : List SetCall)
    (h : (configured node calls).phase = .configure) : Configured node (configured node calls) := by
  have hrun := Runs.run_invariant (fun c (call : SetCall) => (call.apply c).1)
    (fun c => Configured node c ∨ c.phase = .error)
    (fun c call hc => by
      rcases hc with hc | hc
      · exact SetCall.apply_configured call hc
      · exact .inr (SetCall.apply_error c call hc))
    (aclInit node).1 (.inl (aclInit_configured node)) calls
  rcases hrun with hc | hc
  · exact hc
  · have herr : (configured node calls).phase = .error := hc
    rw [h] at herr
    cases herr

/-! ## The opening offer -/

theorem joinOptions_methodChoices (rmt : Bool) (scratch : List UInt8) :
    joinOptions aclAuthmethodOptnToText 0 (methodChoices rmt) scratch = methodOffer rmt := by
  cases rmt <;> rfl

theorem Configured.opening {c : IscsiAcl} (h : Configured .initiator c)
    (hpw : c.passwdPresent = true) :
    c.authMethodValidNegRole = .originator ∧ c.authMethodValidList = methodChoices c.authRmt ∧
      Filled c.sendKeyBlock (withKey noKeys .authMethod (methodOffer c.authRmt)) 16 ∧
      c.sendKeyBlock.transitBit = !c.authRmt := by
  obtain ⟨d, hin, hout⟩ := h.valid
  simp only [methodInputs, Prod.mk.injEq, h.nodeType, h.methods, h.negRole, hpw] at hin
  obtain ⟨h1, h2, h3, h4, h5⟩ := hin
  have hlist : d.authMethodList.filter (methodKept d) = methodChoices c.authRmt := by
    rw [h2]
    cases hr : c.authRmt with
    | true => simp [methodKept, h1, h4, hr, methodChoices, List.filter]; rfl
    | false => simp [methodKept, h1, h4, h5, hr, methodChoices]
  have hne : methodChoices c.authRmt ≠ [] ∧ methodChoices c.authRmt ≠ [authOptionNotPresent] := by
    cases c.authRmt <;> decide
  have hvalid : methodOutputs (aclSetAuthMethodValid d) = (methodChoices c.authRmt, .originator,
      aclSetKeyValue { aclInitKeyBlk with transitBit := !c.authRmt } .authMethod
        (some (methodOffer c.authRmt))) := by
    unfold aclSetAuthMethodValid
    simp only [h1, h3, h4, hlist]
    cases hr : c.authRmt with
    | true =>
      rw [hr] at hne
      simp only [if_true, aclSetAuthMethodKey, hne.1, hne.2, if_false, joinOptions_methodChoices]
      rfl
    | false =>
      rw [hr] at hne
      simp only [Bool.false_eq_true, if_false, initRole, aclSetAuthMethodKey, hne.1, hne.2,
        joinOptions_methodChoices]
      rfl
  rw [hvalid] at hout
  simp only [methodOutputs, Prod.mk.injEq] at hout
  obtain ⟨ho1, ho2, ho3⟩ := hout
  refine ⟨ho2, ho1, ?_, ?_⟩
  · rw [ho3]
    exact Filled.single _ .authMethod _ (methodOffer_short c.authRmt)
  · rw [ho3, aclSetKeyValue_transitBit]

theorem Configured.awaiting {c : IscsiAcl} (h : Configured .target c) (hrmt : c.authRmt = true) :
    c.authMethodValidNegRole = .responder ∧ c.authMethodValidList = [authMethodChap] := by
  obtain ⟨d, hin, hout⟩ := h.valid
  simp only [methodInputs, Prod.mk.injEq, h.nodeType, h.methods, hrmt] at hin
  obtain ⟨h1, h2, -, h4, -⟩ := hin
  have hlist : d.authMethodList.filter (methodKept d) = [authMethodChap] := by
    rw [h2]
    simp [methodKept, h1, h4, List.filter]
    rfl
  have hvalid : (methodOutputs (aclSetAuthMethodValid d)).1 = [authMethodChap] ∧
      (methodOutputs (aclSetAuthMethodValid d)).2.1 = .responder := by
    unfold aclSetAuthMethodValid
    simp only [h1, hlist]
    exact ⟨rfl, rfl⟩
  rw [← hout] at hvalid
  exact ⟨hvalid.2, hvalid.1⟩

end AuthConfigured
