import OpenIscsi.AuthStages

/-!
# CHAP soundness of an initiator

A run that ends in a pass contains the proof of the peer: a challenge drawn and
offered by this client, and in the very next message the name and the response
of the session's incoming credentials.
-/

namespace AuthSoundness

open CString AuthText AuthKeys AuthClient AuthApi AuthRun AuthFrame AuthExchange AuthStages

/-! ## The configured initiator -/

/-- What the set calls keep of an initiator. -/
structure Ready (c : IscsiAcl) : Prop where
  signature : c.signature = aclSignature
  nodeType : c.nodeType = .initiator
  unsettled : c.rmtAuthStatus = .noError
  negRole : c.authMethodNegRole = .originator
  phase : (c.phase = .configure ∧ c.authMethodValidNegRole = .originator) ∨ c.phase = .error

theorem Ready.outOfTurn {c : IscsiAcl} (h : Ready c) : Ready (outOfTurn c).1 :=
  ⟨h.signature, h.nodeType, h.unsettled, h.negRole, .inr rfl⟩

theorem aclSetAuthMethodKey_ready (c : IscsiAcl) (options : List Int) (h : Ready c) :
    Ready (aclSetAuthMethodKey c options) := by
  unfold aclSetAuthMethodKey
  split
  · exact ⟨h.signature, h.nodeType, h.unsettled, h.negRole, h.phase⟩
  · split
    · exact ⟨h.signature, h.nodeType, h.unsettled, h.negRole, h.phase⟩
    · exact ⟨h.signature, h.nodeType, h.unsettled, h.negRole, h.phase⟩

theorem aclSetAuthMethodValid_ready (c : IscsiAcl) (hs : c.signature = aclSignature)
    (hn : c.nodeType = .initiator) (hu : c.rmtAuthStatus = .noError)
    (hr : c.authMethodNegRole = .originator) (hp : c.phase = .configure) :
    Ready (aclSetAuthMethodValid c) := by
  unfold aclSetAuthMethodValid
  rw [hn]
  dsimp only
  cases hrmt : c.authRmt with
  | true =>
    simp only [if_true]
    exact aclSetAuthMethodKey_ready _ _ ⟨hs, rfl, hu, hr, .inl ⟨hp, rfl⟩⟩
  | false =>
    simp only [Bool.false_eq_true, if_false, hr]
    exact aclSetAuthMethodKey_ready _ _ ⟨hs, rfl, hu, rfl, .inl ⟨hp, rfl⟩⟩

/-- Every set call keeps an initiator ready, accepted or not. -/
theorem SetCall.apply_ready (c : IscsiAcl) (call : SetCall) (h : Ready c) :
    Ready (call.apply c).1 := by
  cases call with
  | userName name =>
    simp only [SetCall.apply, aclSetUserName]
    split
    · exact h
    · split
      · exact h.outOfTurn
      · split
        · exact ⟨h.signature, h.nodeType, h.unsettled, h.negRole, h.phase⟩
        · exact h.outOfTurn
  | passwd data =>
    simp only [SetCall.apply, aclSetPasswd]
    split
    · exact h
    · split
      · exact h.outOfTurn
      · rename_i hp
        have hconf : c.phase = .configure := not_not.mp fun hne => hp (.inl hne)
        exact aclSetAuthMethodValid_ready _ h.signature h.nodeType h.unsettled h.negRole hconf
  | chapAlgList options =>
    simp only [SetCall.apply, aclSetChapAlgList]
    split
    · unfold refuseOptions
      split
      · exact h
      · exact h.outOfTurn
    · exact ⟨h.signature, h.nodeType, h.unsettled, h.negRole, h.phase⟩
  | authRmt value =>
    simp only [SetCall.apply, aclSetAuthRmt]
    split
    · exact h
    · split
      · exact h.outOfTurn
      · rename_i hp
        exact aclSetAuthMethodValid_ready _ h.signature h.nodeType h.unsettled h.negRole
          (not_not.mp hp)
  | ipSec value =>
    simp only [SetCall.apply, aclSetIpSec]
    split
    · exact h
    · split
      · exact h.outOfTurn
      · exact ⟨h.signature, h.nodeType, h.unsettled, h.negRole, h.phase⟩

theorem aclInit_ready : Ready (aclInit .initiator).1 := by
  constructor <;> decide

theorem configured_ready (calls : List SetCall) : Ready (configured .initiator calls) :=
  Runs.run_invariant (fun c (call : SetCall) => (call.apply c).1) Ready
    (fun c call h => SetCall.apply_ready c call h) _ aclInit_ready calls

/-! ## The evidence of a run -/

def Offers (c : IscsiAcl) (id : UInt8) (challenge : List UInt8) : Prop :=
  (aclSendKeyVal c KeyType.chapIdentifier.code authStrMaxLen).2.2 = some (decimal id.toNat) ∧
    (aclSendKeyVal c KeyType.chapChallenge.code authStrMaxLen).2.2 =
      some (aclDataToText challenge authStrMaxLen).2

theorem Offering.offers (c : IscsiAcl) (hs : c.signature = aclSignature)
    (hp : c.phase = .authenticate) (ho : Offering c) (hne : c.sendChapChallenge ≠ [])
    (hlen : c.sendChapChallenge.length ≤ 32) :
    Offers c c.sendChapIdentifier c.sendChapChallenge := by
  have hsend : Phase.canSend c.phase = true := by rw [hp]; rfl
  constructor
  · have hdig : (Nat.toDigits 10 c.sendChapIdentifier.toNat).length ≤ 3 :=
      Nat.toDigits_length 10 _ 3 (by decide)
        (Nat.lt_trans c.sendChapIdentifier.toNat_lt (by decide))
    have hshort : (cstr (decimal c.sendChapIdentifier.toNat)).length < authStrMaxLen := by
      rw [cstr_of_nulFree _ (decimal_nulFree _), decimal, List.length_map]
      exact Nat.lt_of_le_of_lt hdig (by decide)
    have hcopy := strlcpy_fits _ _ hshort
    rw [cstr_of_nulFree _ (decimal_nulFree _)] at hcopy hshort
    simp only [aclSendKeyVal, hs, hsend, keyTypeOfInt_code, aclGetKeyVal, ho.1, hcopy]
    rw [if_neg (by simp), if_neg (by simp), if_neg (by simp), if_neg (by omega)]
  · have hok := aclDataToText_fits c.sendChapChallenge authStrMaxLen hne (by
      have : authStrMaxLen = 256 := rfl
      omega)
    simp [aclSendKeyVal, hs, hsend, aclGetKeyVal, ho.2, hok]

variable {events : List Event} {m : Message} {c d : IscsiAcl}

theorem algChosen_of_held (h : held d = held c) (ha : AlgChosen c) : AlgChosen d := by
  have halg : d.negotiatedChapAlg = c.negotiatedChapAlg := congrArg Held.negotiatedChapAlg h
  have hlen : d.chapChallengeLen = c.chapChallengeLen := congrArg Held.chapChallengeLen h
  have hlist : d.chapAlgList = c.chapAlgList := congrArg (fun f => f.setup.chapAlgList) h
  rw [AlgChosen, halg, hlen, hlist]
  exact ha

theorem drawn_of_held {env : Env} (h : held d = held c) (hd : Drawn env c) : Drawn env d := by
  have hid : d.sendChapIdentifier = c.sendChapIdentifier := congrArg Held.sendChapIdentifier h
  have hch : d.sendChapChallenge = c.sendChapChallenge := congrArg Held.sendChapChallenge h
  have hlen : d.chapChallengeLen = c.chapChallengeLen := congrArg Held.chapChallengeLen h
  rw [Drawn, hid, hch, hlen]
  exact hd

theorem offering_of_held (h : held d = held c) (hv : d.sendKeyBlock.keyVal = c.sendKeyBlock.keyVal)
    (ho : Offering c) : Offering d := by
  rw [Offering, hv, show d.sendChapIdentifier = _ from congrArg Held.sendChapIdentifier h]
  exact ho

section Evidence

variable (D : Digest) (session : Session) (start : IscsiAcl)

/-- The challenge in use was drawn during the last message and has been on
offer in every state since. -/
def Challenged (events : List Event) (c : IscsiAcl) : Prop :=
  ∃ before m sends, events = before ++ Event.message m :: sends ∧
    (∀ e ∈ sends, e.isSend = true) ∧ Drawn m.env c ∧
    ∀ s, s <+: sends →
      Offers (run D session start (before ++ Event.message m :: s)) c.sendChapIdentifier
        c.sendChapChallenge

structure Responds (m : Message) (a : ChapAlg) (id : UInt8) (challenge : List UInt8) : Prop where
  name : ∃ raw, (KeyType.chapUsername.code, some raw) ∈ m.keys ∧ cstr raw = cstr session.usernameIn
  response : ∃ raw, (KeyType.chapRsp.code, some raw) ∈ m.keys ∧
    aclTextToData (some raw) authStrMaxLen = some (D.hash a (id :: session.passwordIn ++ challenge))

/-- The peer proved itself within the run: a challenge was drawn, offered and
answered by the next message. -/
def Authenticated (events : List Event) : Prop :=
  cstr session.usernameIn ≠ [] ∧ session.passwordIn ≠ [] ∧
  ∃ before m sends m' after a id challenge,
    events = before ++ Event.message m :: (sends ++ Event.message m' :: after) ∧
    (∀ e ∈ sends, e.isSend = true) ∧
    m.env.randId = some id ∧
    (∃ bytes, m.env.randChallenge = some bytes ∧ challenge = (List.range a.rspLen).map bytes) ∧
    (∀ s, s <+: sends → Offers (run D session start (before ++ Event.message m :: s)) id challenge) ∧
    a.code ∈ start.chapAlgList ∧ Responds D session m' a id challenge

theorem Authenticated.mono (h : Authenticated D session start events)
    (e : Event) : Authenticated D session start (events ++ [e]) := by
  obtain ⟨hu, hp, before, m, sends, m', after, a, id, challenge, rfl, hrest⟩ := h
  exact ⟨hu, hp, before, m, sends, m', after ++ [e], a, id, challenge, by simp, hrest⟩

/-- Where an initiator stands after a run. -/
inductive Stage (events : List Event) (c : IscsiAcl) : Prop
  | opening (hp : c.phase = .configure ∨ c.phase = .negotiate)
      (hrole : c.authMethodValidNegRole = .originator)
  | algSent (hp : c.phase = .authenticate) (hl : c.localState = .recvAlg)
      (hr : c.rmtState = .sendChallenge)
  | challenged (hp : c.phase = .authenticate) (hl : c.localState = .done)
      (hr : c.rmtState = .recvRsp) (ha : AlgChosen c) (ho : Offering c)
      (hc : Challenged D session start events c)
  | settled (hp : c.phase = .authenticate) (hl : c.localState = .done) (hr : c.rmtState = .done)
  | closed (hp : c.phase = .done ∨ c.phase = .error)

structure Sound (events : List Event) (c : IscsiAcl) : Prop where
  setup : setup c = setup start
  stage : Stage D session start events c
  verdict : c.rmtAuthStatus = .pass → Authenticated D session start events

end Evidence

theorem chapAlg_code (n : Int) (a : ChapAlg) (h : chapAlgOfCode n = some a) : n = a.code := by
  unfold chapAlgOfCode at h
  split at h
  · cases h; assumption
  · split at h
    · cases h; assumption
    · split at h
      · cases h; assumption
      · split at h
        · cases h; assumption
        · cases h

/-- An answered challenge is evidence for the run that ends with the message. -/
theorem Challenged.authenticated (D : Digest) (session : Session) (start : IscsiAcl)
    (events : List Event) (c r : IscsiAcl) (m : Message) (hset : setup c = setup start)
    (hc : Challenged D session start events c) (ha : AlgChosen c) (hheld : held r = held c)
    (hkeys : KeysFrom m.keys r.recvKeyBlock) (hans : Answered D session r) :
    Authenticated D session start (events ++ [Event.message m]) := by
  obtain ⟨before, m₀, sends, rfl, hsends, ⟨hid, bytes, hbytes, hchal⟩, hoff⟩ := hc
  obtain ⟨a, hcode, hmem, hlen⟩ := ha
  obtain ⟨a', text, hcode', htext, hdata⟩ := hans.response
  have halg : r.negotiatedChapAlg = c.negotiatedChapAlg := congrArg Held.negotiatedChapAlg hheld
  have hident : r.sendChapIdentifier = c.sendChapIdentifier :=
    congrArg Held.sendChapIdentifier hheld
  have hchal' : r.sendChapChallenge = c.sendChapChallenge := congrArg Held.sendChapChallenge hheld
  rw [halg, hcode] at hcode'
  cases hcode'
  rw [hident, hchal'] at hdata
  have hlist : c.chapAlgList = start.chapAlgList := congrArg Setup.chapAlgList hset
  refine ⟨hans.username, hans.password, before, m₀, sends, m, [], a, c.sendChapIdentifier,
    c.sendChapChallenge, by simp, hsends, hid, ⟨bytes, hbytes, hlen ▸ hchal⟩, hoff, ?_, ?_, ?_⟩
  · rw [← chapAlg_code _ _ hcode, ← hlist]
    exact hmem
  · obtain ⟨-, n, raw, hm, hn, hraw⟩ := hkeys.origin _ _ (by decide) hans.name
    exact ⟨raw, code_of_keyTypeOfInt n _ hn ▸ hm, hraw⟩
  · obtain ⟨-, n, raw, hm, hn, hraw⟩ := hkeys.origin _ _ (by decide) htext
    refine ⟨raw, code_of_keyTypeOfInt n _ hn ▸ hm, ?_⟩
    rw [← hdata, ← hraw, aclTextToData_cstr]

/-! ## One message -/

section Step

variable (D : Digest) (session : Session) (start : IscsiAcl)

/-- The client and the status after a message are both backed by the run. -/
def Backed (events : List Event) (out : IscsiAcl × AuthStatus) : Prop :=
  Sound D session start events out.1 ∧ (out.2 = .pass → Authenticated D session start events)

theorem Ends.backed {D : Digest} {session : Session} {start : IscsiAcl} {e : IscsiAcl}
    {out : IscsiAcl × AuthStatus} (h : Ends e out) (hset : setup e = setup start)
    (hv : e.rmtAuthStatus = .pass → Authenticated D session start events) :
    Backed D session start events out := by
  refine ⟨⟨h.closes.setup.trans hset, .closed h.closes.phase, ?_⟩, ?_⟩
  · intro hpass
    rcases h.closes.verdict with hv' | hv'
    · exact hv (hv'.symm.trans hpass)
    · rw [hv'] at hpass
      cases hpass
  · intro hpass
    rcases h.status with hs | hs | hs
    · rw [hs] at hpass
      cases hpass
    · rw [hs] at hpass
      cases hpass
    · exact hv (hs.symm.trans hpass)

/-- The stages a client can be in between its two sides and the handshake. -/
inductive Worked (env : Env) (e : IscsiAcl) : Prop
  | algSent (hl : e.localState = .recvAlg) (hr : e.rmtState = .sendChallenge)
  | challenged (hl : e.localState = .done) (hr : e.rmtState = .recvRsp) (ha : AlgChosen e)
      (hd : Drawn env e) (ho : e.sendKeyBlock.clean = true → Offering e)
  | settled (hl : e.localState = .done) (hr : e.rmtState = .done)

theorem drawn_length (env : Env) (c : IscsiAcl) (ha : AlgChosen c) (hd : Drawn env c) :
    c.sendChapChallenge ≠ [] ∧ c.sendChapChallenge.length ≤ 32 := by
  obtain ⟨a, -, -, hlen⟩ := ha
  obtain ⟨-, bytes, -, hchal⟩ := hd
  have hl : c.sendChapChallenge.length = a.rspLen := by rw [hchal, List.length_map,
    List.length_range, hlen]
  have hpos : 0 < a.rspLen ∧ a.rspLen ≤ 32 := by cases a <;> decide
  refine ⟨fun hnil => ?_, by omega⟩
  rw [hnil] at hl
  simp only [List.length_nil] at hl
  omega

/-- A client that goes on after its challenge has it on offer. -/
theorem Continues.stage {e : IscsiAcl}
    {out : IscsiAcl × AuthStatus} (h : Continues e out) (hp : e.phase = .authenticate)
    (hw : Worked m.env e) (hs : e.signature = aclSignature)
    (hrun : run D session start (events ++ [Event.message m]) = out.1) :
    Stage D session start (events ++ [Event.message m]) out.1 := by
  have hp' : out.1.phase = .authenticate := h.phase.trans hp
  have hlocal : out.1.localState = e.localState := congrArg Held.localState h.held
  have hrmt : out.1.rmtState = e.rmtState := congrArg Held.rmtState h.held
  cases hw with
  | algSent hl hr => exact .algSent hp' (hlocal.trans hl) (hrmt.trans hr)
  | settled hl hr => exact .settled hp' (hlocal.trans hl) (hrmt.trans hr)
  | challenged hl hr ha hd ho =>
    have hsig : out.1.signature = aclSignature :=
      (congrArg (fun f => f.setup.signature) h.held).trans hs
    have ha' := algChosen_of_held h.held ha
    have hd' := drawn_of_held h.held hd
    have ho' := offering_of_held h.held h.sendVal (ho h.clean)
    obtain ⟨hne, hle⟩ := drawn_length m.env out.1 ha' hd'
    refine .challenged hp' (hlocal.trans hl) (hrmt.trans hr) ha' ho'
      ⟨events, m, [], rfl, by simp, hd', fun s hs' => ?_⟩
    rw [List.prefix_nil.mp hs', hrun]
    exact Offering.offers out.1 hsig hp' ho' hne hle

/-- The end of the call on a client whose two sides have worked. -/
theorem Worked.backed {e : IscsiAcl} (hw : Worked m.env e)
    (hset : setup e = setup start) (hs : start.signature = aclSignature)
    (hp : e.phase = .authenticate)
    (hv : e.rmtAuthStatus = .pass → Authenticated D session start (events ++ [Event.message m]))
    (hrun : run D session start (events ++ [Event.message m]) =
      (aclRcvEndStatus (aclHandShake e)).1) :
    Backed D session start (events ++ [Event.message m]) (aclRcvEndStatus (aclHandShake e)) := by
  rcases handShake_rcvEndStatus e (by simp [hp]) with hend | ⟨-, -, hcont⟩
  · exact Ends.backed hend hset hv
  · have hsig : e.signature = aclSignature := (congrArg Setup.signature hset).trans hs
    have hstatus : (aclRcvEndStatus (aclHandShake e)).1.rmtAuthStatus = e.rmtAuthStatus :=
      congrArg Held.rmtAuthStatus hcont.held
    refine ⟨⟨?_, ?_, ?_⟩, ?_⟩
    · exact (congrArg Held.setup hcont.held).trans hset
    · exact Continues.stage D session start hcont hp hw hsig hrun
    · intro hpass
      exact hv (hstatus.symm.trans hpass)
    · intro hpass
      rw [hcont.status] at hpass
      cases hpass

/-- The rest of the call on a client whose two sides are to work. -/
def AuthBacked (events : List Event) (m : Message) (d : IscsiAcl) : Prop :=
  run D session start (events ++ [Event.message m]) =
      (aclRcvEndStatus (aclHandShake (recvEndAuthenticate D m.env session d))).1 →
    Backed D session start (events ++ [Event.message m])
      (aclRcvEndStatus (aclHandShake (recvEndAuthenticate D m.env session d)))

/-- A client in the authentication phase, ready for its two sides. -/
structure Facing (events : List Event) (m : Message) (d : IscsiAcl) : Prop where
  setup : setup d = setup start
  nodeType : d.nodeType = .initiator
  authRmt : d.authRmt = true
  phase : d.phase = .authenticate
  verdict : d.rmtAuthStatus = .pass → Authenticated D session start (events ++ [Event.message m])

section Sides

variable (hs : start.signature = aclSignature) (hd : Facing D session start events m d)

include hs hd

/-- The two sides ran: a failure closes the exchange, otherwise the stage decides. -/
theorem recvEndAuthenticate_backed (hsh : shared (bothSides D m.env session d) = shared d)
    (hwork : (bothSides D m.env session d).localState ≠ .error →
      (bothSides D m.env session d).rmtState ≠ .error →
      Worked m.env (bothSides D m.env session d) ∧
        ((bothSides D m.env session d).rmtAuthStatus = .pass →
          Authenticated D session start (events ++ [Event.message m]))) :
    AuthBacked D session start events m d := by
  have hset := (congrArg Shared.setup hsh).trans hd.setup
  unfold AuthBacked recvEndAuthenticate
  intro hrun
  rcases closeFailed_cases (bothSides D m.env session d) with ⟨hset', hp, hfail⟩ | ⟨heq, hl, hr⟩
  · rcases handShake_rcvEndStatus (closeFailed (bothSides D m.env session d)) (by simp [hp]) with
      hend | ⟨-, hnd, -⟩
    · exact Ends.backed hend (hset'.trans hset) (fun hpass => by rw [hfail] at hpass; cases hpass)
    · exact absurd hp hnd
  · obtain ⟨hw, hv⟩ := hwork hl hr
    rw [heq] at hrun ⊢
    exact Worked.backed D session start hw hset hs ((congrArg Shared.phase hsh).trans hd.phase) hv
      hrun

theorem start_backed (hl : d.localState = .sendAlg) (hr : d.rmtState = .sendAlg) :
    AuthBacked D session start events m d := by
  obtain ⟨hsh, hv, hl', hr'⟩ := bothSides_start D m.env session d hd.nodeType hl hr
  refine recvEndAuthenticate_backed D session start hs hd hsh (fun _ _ => ⟨.algSent hl' hr', ?_⟩)
  rw [hv]
  exact hd.verdict

theorem algSent_backed (hl : d.localState = .recvAlg) (hr : d.rmtState = .sendChallenge) :
    AuthBacked D session start events m d := by
  obtain ⟨hsh, hcases⟩ := bothSides_challenge D m.env session d hd.nodeType hl hr
  refine recvEndAuthenticate_backed D session start hs hd hsh (fun hnl hnr => ?_)
  rcases hcases with herr | ⟨hl', ha, hch⟩
  · exact absurd herr hnl
  · cases hch with
    | failed h => exact absurd h hnr
    | skipped h => exact absurd hd.authRmt (by simp [h])
    | sent hs' hv hdrawn ho =>
      exact ⟨.challenged hl' hs' ha hdrawn ho, fun hpass => hd.verdict (hv.symm.trans hpass)⟩

theorem settled_backed (hl : d.localState = .done) (hr : d.rmtState = .done) :
    AuthBacked D session start events m d := by
  have heq := bothSides_settled D m.env session d hl hr
  refine recvEndAuthenticate_backed D session start hs hd (congrArg shared heq) (fun _ _ => ?_)
  rw [heq]
  exact ⟨.settled hl hr, hd.verdict⟩

/-- The stage in which a pass can come about: the response answers the challenge. -/
theorem challenged_backed (hl : d.localState = .done) (hr : d.rmtState = .recvRsp)
    (ha : AlgChosen d) (hshort : ShortKeys d)
    (hans : Answered D session d → Authenticated D session start (events ++ [Event.message m])) :
    AuthBacked D session start events m d := by
  obtain ⟨hf, hcases⟩ := bothSides_response D m.env session d hl hr ha hshort
  refine recvEndAuthenticate_backed D session start hs hd (congrArg RmtFrame.shared hf)
    (fun _ hnr => ?_)
  rcases hcases with herr | ⟨hr', hverdict⟩
  · exact absurd herr hnr
  · refine ⟨.settled ((congrArg RmtFrame.localState hf).trans hl) hr', fun hpass => ?_⟩
    rcases hverdict with hfail | ⟨-, hanswered⟩
    · rw [hfail] at hpass
      cases hpass
    · exact hans hanswered

end Sides

/-- One message keeps the invariant, and its status is backed. -/
theorem recvMessage_backed (m : Message) (hready : Ready start)
    (hrmt : start.authRmt = true) (h : Sound D session start events (run D session start events)) :
    Backed D session start (events ++ [Event.message m])
      (recvMessage D session (run D session start events) m) := by
  have hrun : run D session start (events ++ [Event.message m]) =
      (recvMessage D session (run D session start events) m).1 :=
    Runs.run_snoc (Event.apply D session) start events (Event.message m)
  generalize run D session start events = c at h hrun ⊢
  have hsig : c.signature = aclSignature := (congrArg Setup.signature h.setup).trans hready.signature
  have hheld := received_held c m
  unfold recvMessage at hrun ⊢
  have hset : setup (received c m) = setup start := (congrArg Held.setup hheld).trans h.setup
  have hverdict : (received c m).rmtAuthStatus = .pass →
      Authenticated D session start (events ++ [Event.message m]) := fun hpass =>
    Authenticated.mono D session start
      (h.verdict ((congrArg Held.rmtAuthStatus hheld).symm.trans hpass)) _
  rcases received_inTurn c m hsig with hturn | herr
  case inr =>
    have heq : aclRecvEnd D m.env session (received c m) = (received c m, .error) := by
      simp [aclRecvEnd, herr]
    rw [heq]
    exact Ends.backed ⟨⟨rfl, .inr herr, .inl rfl⟩, .inl rfl⟩ hset hverdict
  generalize received c m = r at *
  have hrsig : r.signature = aclSignature :=
    (congrArg Setup.signature hset).trans hready.signature
  have hlocal : r.localState = c.localState := congrArg Held.localState hheld
  have hrstate : r.rmtState = c.rmtState := congrArg Held.rmtState hheld
  have facing : ∀ d : IscsiAcl, setup d = setup start → d.phase = .authenticate →
      (d.rmtAuthStatus = .pass → Authenticated D session start (events ++ [Event.message m])) →
      Facing D session start events m d := fun d hd hp hv =>
    ⟨hd, (congrArg Setup.nodeType hd).trans hready.nodeType,
      (congrArg Setup.authRmt hd).trans hrmt, hp, hv⟩
  -- the two phases a message can be read in
  by_cases hauth : c.phase = .authenticate
  · have hp : r.phase = .authenticate := by
      rcases hturn.phase with ⟨-, hc⟩ | ⟨hp, -⟩
      · rcases hc with hc | hc <;> (rw [hauth] at hc; cases hc)
      · exact hp
    rcases aclRecvEnd_authenticate D m.env session r hrsig hp hturn.inProgress with hend | heq
    · exact Ends.backed hend hset hverdict
    rw [heq] at hrun ⊢
    have hf : Facing D session start events m (counted r) := facing _ hset hp hverdict
    cases h.stage with
    | opening hp' => rcases hp' with hp' | hp' <;> (rw [hauth] at hp'; cases hp')
    | closed hp' => rcases hp' with hp' | hp' <;> (rw [hauth] at hp'; cases hp')
    | algSent _ hl hr =>
      exact algSent_backed D session start hready.signature hf (hlocal.trans hl) (hrstate.trans hr) hrun
    | settled _ hl hr =>
      exact settled_backed D session start hready.signature hf (hlocal.trans hl) (hrstate.trans hr) hrun
    | challenged _ hl hr ha _ hc =>
      have ha' : AlgChosen (counted r) := algChosen_of_held hheld ha
      have hshort : ShortKeys (counted r) := by
        intro k v hk hv
        obtain ⟨hlen, -, raw, -, -, rfl⟩ := hturn.keys.origin k v hk hv
        exact ⟨cstr_nulFree raw, hlen⟩
      exact challenged_backed D session start hready.signature hf (hlocal.trans hl)
        (hrstate.trans hr) ha' hshort
        (fun hans => Challenged.authenticated D session start events c (counted r) m h.setup hc ha
          hheld hturn.keys hans) hrun
  · have hneg : r.phase = .negotiate := by
      rcases hturn.phase with ⟨hp, -⟩ | ⟨-, hc⟩
      · exact hp
      · exact absurd hc hauth
    have hrole : r.authMethodValidNegRole = .originator := by
      have hr : r.authMethodValidNegRole = c.authMethodValidNegRole :=
        congrArg Held.authMethodValidNegRole hheld
      cases h.stage with
      | opening _ hrole => exact hr.trans hrole
      | algSent hp => exact absurd hp hauth
      | challenged hp => exact absurd hp hauth
      | settled hp => exact absurd hp hauth
      | closed hp =>
        rcases hturn.phase with ⟨-, hc⟩ | ⟨-, hc⟩
        · rcases hp with hp | hp <;> rcases hc with hc | hc <;> (rw [hp] at hc; cases hc)
        · exact absurd hc hauth
    rcases aclRecvEnd_negotiate D m.env session r hrsig hneg hturn.inProgress with hend | heq
    · exact Ends.backed hend hset hverdict
    rw [heq] at hrun ⊢
    cases recvEndNegotiate_opened (counted r) hrole hneg with
    | closed hs hp hv =>
      exact Ends.backed (recvEndFinish_closed D m.env session (counted r) _ ⟨hs, .inl hp, .inr hv⟩ _)
        hset hverdict
    | chap hf hv hl hr =>
      have hp : (recvEndNegotiate (counted r)).1.phase = .authenticate := congrArg Shared.phase hf
      rw [recvEndFinish, hp] at hrun ⊢
      refine start_backed D session start hready.signature (facing _ ?_ hp ?_) hl hr hrun
      · exact (congrArg Shared.setup hf).trans hset
      · intro hpass
        exact hverdict (hv.symm.trans hpass)
    | settled hf hv hl hr =>
      have hp : (recvEndNegotiate (counted r)).1.phase = .authenticate := congrArg Shared.phase hf
      rw [recvEndFinish, hp] at hrun ⊢
      refine settled_backed D session start hready.signature (facing _ ?_ hp ?_) hl hr hrun
      · exact (congrArg Shared.setup hf).trans hset
      · intro hpass
        rcases hv with hv | ⟨-, hno⟩
        · rw [hv] at hpass
          cases hpass
        · have hyes : r.authRmt = true := (congrArg Setup.authRmt hset).trans hrmt
          exact absurd hyes (by simpa [counted] using hno)

/-! ## Sending -/

inductive Sent (c d : IscsiAcl) : Prop
  | refused (hh : held d = held c) (hp : d.phase = .error)
  | read (hh : held d = held c) (hp : d.phase = c.phase)
      (hv : d.sendKeyBlock.keyVal = c.sendKeyBlock.keyVal)

theorem aclSendTransitBit_sent (c : IscsiAcl) : Sent c (aclSendTransitBit c).1 := by
  unfold aclSendTransitBit
  split
  · exact .read rfl rfl rfl
  · split
    · exact .refused rfl rfl
    · exact .read rfl rfl rfl

theorem aclSendKeyVal_sent (c : IscsiAcl) (keyType : Int) (maxLength : Nat) :
    Sent c (aclSendKeyVal c keyType maxLength).1 := by
  unfold aclSendKeyVal aclGetKeyVal
  split
  · exact .read rfl rfl rfl
  · split
    · exact .refused rfl rfl
    · split
      · exact .refused rfl rfl
      · dsimp only
        split
        · exact .read rfl rfl (markProcessed_keyVal_eq _ _)
        · split
          · split
            · exact .refused rfl rfl
            · exact .read rfl rfl (markProcessed_keyVal_eq _ _)
          · split
            · exact .refused rfl rfl
            · exact .read rfl rfl (markProcessed_keyVal_eq _ _)

theorem Event.apply_sent (c : IscsiAcl) (e : Event) (he : e.isSend = true) :
    Sent c (Event.apply D session c e) := by
  cases e with
  | message m => cases he
  | sendTransitBit => exact aclSendTransitBit_sent c
  | sendKeyVal keyType maxLength => exact aclSendKeyVal_sent c keyType maxLength

/-- A challenge on offer stays on offer while keys are sent. -/
theorem Challenged.send {c : IscsiAcl} {e : Event} (he : e.isSend = true)
    (hc : Challenged D session start events c) (hh : held d = held c)
    (hoff : Offers d d.sendChapIdentifier d.sendChapChallenge)
    (hrun : run D session start (events ++ [e]) = d) :
    Challenged D session start (events ++ [e]) d := by
  obtain ⟨before, m, sends, rfl, hsends, hd, hold⟩ := hc
  have hid : d.sendChapIdentifier = c.sendChapIdentifier := congrArg Held.sendChapIdentifier hh
  have hch : d.sendChapChallenge = c.sendChapChallenge := congrArg Held.sendChapChallenge hh
  refine ⟨before, m, sends ++ [e], by simp, ?_, drawn_of_held hh hd, fun s hs => ?_⟩
  · intro x hx
    rcases List.mem_append.mp hx with hx | hx
    · exact hsends x hx
    · rw [List.mem_singleton.mp hx]
      exact he
  · rcases List.prefix_concat_iff.mp hs with rfl | hs
    · have hall : before ++ Event.message m :: (sends ++ [e]) =
          before ++ Event.message m :: sends ++ [e] := by simp
      rw [hall, hrun]
      exact hoff
    · rw [hid, hch]
      exact hold s hs

theorem send_sound (e : Event) (he : e.isSend = true) (hready : Ready start)
    (h : Sound D session start events (run D session start events)) :
    Sound D session start (events ++ [e]) (Event.apply D session (run D session start events) e) := by
  have hrun : run D session start (events ++ [e]) =
      Event.apply D session (run D session start events) e :=
    Runs.run_snoc (Event.apply D session) start events e
  have hsent := Event.apply_sent D session (run D session start events) e he
  generalize Event.apply D session (run D session start events) e = d at hrun hsent ⊢
  generalize run D session start events = c at h hsent
  have hheld : held d = held c := by cases hsent <;> assumption
  have hset : setup d = setup start := (congrArg Held.setup hheld).trans h.setup
  refine ⟨hset, ?_, fun hpass => Authenticated.mono D session start
    (h.verdict ((congrArg Held.rmtAuthStatus hheld).symm.trans hpass)) e⟩
  have hl : d.localState = c.localState := congrArg Held.localState hheld
  have hr : d.rmtState = c.rmtState := congrArg Held.rmtState hheld
  cases hsent with
  | refused _ hp => exact .closed (.inr hp)
  | read _ hp hv =>
    cases h.stage with
    | opening hp' hrole =>
      exact .opening (by rw [hp]; exact hp')
        ((congrArg Held.authMethodValidNegRole hheld).trans hrole)
    | algSent hp' hl' hr' => exact .algSent (hp.trans hp') (hl.trans hl') (hr.trans hr')
    | settled hp' hl' hr' => exact .settled (hp.trans hp') (hl.trans hl') (hr.trans hr')
    | closed hp' => exact .closed (by rw [hp]; exact hp')
    | challenged hp' hl' hr' ha ho hc =>
      have ha' := algChosen_of_held hheld ha
      have ho' := offering_of_held hheld hv ho
      have hlen : d.sendChapChallenge ≠ [] ∧ d.sendChapChallenge.length ≤ 32 := by
        obtain ⟨-, m, -, -, -, hd, -⟩ := hc
        exact drawn_length m.env d ha' (drawn_of_held hheld hd)
      have hoff := Offering.offers d ((congrArg Setup.signature hset).trans hready.signature)
        (hp.trans hp') ho' hlen.1 hlen.2
      exact .challenged (hp.trans hp') (hl.trans hl') (hr.trans hr') ha' ho'
        (Challenged.send D session start he hc hheld hoff hrun)

end Step

/-! ## Every run -/

theorem Ready.sound (D : Digest) (session : Session) {start : IscsiAcl} (h : Ready start) :
    Sound D session start [] start := by
  refine ⟨rfl, ?_, fun hpass => ?_⟩
  · rcases h.phase with ⟨hp, hrole⟩ | hp
    · exact .opening (.inl hp) hrole
    · exact .closed (.inr hp)
  · rw [h.unsettled] at hpass
    cases hpass

theorem run_sound (D : Digest) (session : Session) (start : IscsiAcl) (hready : Ready start)
    (hrmt : start.authRmt = true) (events : List Event) :
    Sound D session start events (run D session start events) := by
  refine Runs.run_induct (Event.apply D session) start (Sound D session start)
    (hready.sound D session) (fun es e hs => ?_) events
  cases e with
  | message m => exact (recvMessage_backed D session start m hready hrmt hs).1
  | sendTransitBit => exact send_sound D session start _ rfl hready hs
  | sendKeyVal keyType maxLength => exact send_sound D session start _ rfl hready hs

/-- A pass of an initiator that authenticates its target is backed by the run:
the peer answered, in one message, a challenge this client drew and offered. -/
theorem pass_authenticated (D : Digest) (session : Session) (calls : List SetCall)
    (events : List Event) (m : Message)
    (hrmt : (configured .initiator calls).authRmt = true)
    (hpass : (recvMessage D session (run D session (configured .initiator calls) events) m).2 =
      .pass) :
    Authenticated D session (configured .initiator calls) (events ++ [Event.message m]) := by
  have hready := configured_ready calls
  have hsound := run_sound D session _ hready hrmt events
  exact (recvMessage_backed D session _ m hready hrmt hsound).2 hpass

def secretByteDigest : Digest where
  hash a m := List.replicate a.rspLen (m.getD 1 0)
  hash_length _ _ := List.length_replicate

def sampleCalls : List SetCall :=
  [.userName (some (ascii "initiator")), .passwd (ascii "initiator-secret"), .chapAlgList [5]]

def sampleSession : Session := ⟨ascii "target", ascii "target-secret"⟩

def sampleEvents : List Event :=
  [.message ⟨false, [(0, some (ascii "CHAP"))], ⟨true, true, true, none, none⟩⟩,
    .message ⟨false, [(1, some (ascii "5")), (4, some (ascii "7")), (5, some (ascii "0x1122"))],
      ⟨true, true, true, some 9, some (fun i => UInt8.ofNat (i + 1))⟩⟩,
    .sendTransitBit, .sendKeyVal 4 256, .sendKeyVal 5 256]

def sampleReply : Message :=
  ⟨true, [(2, some (ascii "target")), (3, some (ascii "0x74747474747474747474747474747474"))],
    ⟨true, true, true, none, none⟩⟩

theorem pass_authenticated_sample :
    (configured .initiator sampleCalls).authRmt = true ∧
      (recvMessage secretByteDigest sampleSession
        (run secretByteDigest sampleSession (configured .initiator sampleCalls) sampleEvents)
        sampleReply).2 = .pass ∧
      Authenticated secretByteDigest sampleSession (configured .initiator sampleCalls)
        (sampleEvents ++ [Event.message sampleReply]) :=
  ⟨by decide, by decide +kernel, pass_authenticated _ _ _ _ _ (by decide) (by decide +kernel)⟩

end AuthSoundness
