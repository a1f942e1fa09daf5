import OpenIscsi.AuthConfigured
import OpenIscsi.AuthPath
import OpenIscsi.AuthSoundness

/-!
# Two clients in lockstep

An initiator and a target exchange messages in turn: what one side hands out is
what the other reads. Each section below follows the two clients through one
message of an undisturbed exchange, and the last one joins the six messages.
-/

namespace AuthLockstep

open CString AuthText AuthKeys AuthClient AuthApi AuthRun AuthFrame AuthExchange AuthStages
open AuthSoundness AuthWire AuthMessages AuthConfigured AuthPath

/-- Both clients and what their `acl_recv_end` calls have returned so far. -/
structure Lockstep where
  initiator : IscsiAcl
  target : IscsiAcl
  statuses : List AuthStatus

/-- One exchange: the target reads the initiator's message, and the initiator the reply.
The crypto library behaves as the first component says for the target, as the second
for the initiator. -/
def exchange (D : Digest) (sessionI sessionT : Session) (maxLength : Nat) (s : Lockstep)
    (env : Env × Env) : Lockstep :=
  let request := sendAll maxLength s.initiator
  let t := recvMessage D sessionT s.target ⟨request.transit, request.keys, env.1⟩
  let reply := sendAll maxLength t.1
  let i := recvMessage D sessionI request.client ⟨reply.transit, reply.keys, env.2⟩
  ⟨i.1, reply.client, s.statuses ++ [t.2, i.2]⟩

def lockstep (D : Digest) (sessionI sessionT : Session) (maxLength : Nat) (initiator target : IscsiAcl)
    (envs : List (Env × Env)) : Lockstep :=
  Runs.run (exchange D sessionI sessionT maxLength) ⟨initiator, target, []⟩ envs

/-! ## Between two messages -/

/-- What is known of a client between two messages of the authentication phase. -/
structure Waiting (base c : IscsiAcl) (l : LocalState) (r : RmtState) (n : Nat) : Prop where
  setup : setup c = setup base
  idle : c.recvInProgressFlag = false
  phase : c.phase = .authenticate
  localState : c.localState = l
  rmtState : c.rmtState = r
  count : c.recvEndCount = n
  server : c.authServerErrorFlag = false

variable {base : IscsiAcl}

theorem Waiting.sent {c : IscsiAcl} {l : LocalState} {r : RmtState} {n : Nat}
    (h : Waiting base c l r n) (b : KeyBlock) : Waiting base { c with sendKeyBlock := b } l r n :=
  ⟨h.setup, h.idle, h.phase, h.localState, h.rmtState, h.count, h.server⟩

structure Arrived (d c : IscsiAcl) (f : KeyType → Option (List UInt8)) (t : Bool)
    (text : List UInt8) : Prop where
  reading : Reading c f
  unread : ∀ k, (c.recvKeyBlock.key k).processed = false
  transit : c.recvKeyBlock.transitBit = t
  fresh : c.sendKeyBlock = aclInitKeyBlk
  phase : c.phase = readPhase d.phase
  sentFlag : c.transitBitSentFlag = d.sendKeyBlock.transitBit
  challenge : f .chapChallenge ≠ none →
    c.recvChapChallenge = aclTextToData (some text) authLargeBinaryMaxLen
  held : held c = held d
  count : c.recvEndCount = d.recvEndCount
  server : c.authServerErrorFlag = d.authServerErrorFlag

variable {d : IscsiAcl} {f : KeyType → Option (List UInt8)}

theorem Arrived.setup {c : IscsiAcl} {t : Bool} {text : List UInt8} (h : Arrived d c f t text) :
    setup c = setup d :=
  congrArg Held.setup h.held

theorem received_arrived (d : IscsiAcl) (t : Bool) (hf : Sendable f) (text : List UInt8) (env : Env)
    (hs : d.signature = aclSignature)
    (hp : d.phase = .configure ∨ d.phase = .negotiate ∨ d.phase = .authenticate)
    (hin : d.recvInProgressFlag = false) (hcount : d.recvEndCount ≤ authRecvEndMaxCount) :
    ∃ c, received d ⟨t, keysOf keyTypes (wire text f), env⟩ = c ∧ Arrived d c f t text := by
  obtain ⟨b, hb, hunread, hbit, hrecv⟩ := received_taken d t _ env hs hp hin (hf.acceptable text)
  rw [stored_wire hf.empty] at hb
  refine ⟨_, hrecv, ⟨hs, rfl, hcount, hb⟩, hunread, hbit, rfl, rfl, rfl, fun hne => ?_, rfl, rfl, rfl⟩
  cases hc : f .chapChallenge with
  | none => exact absurd hc hne
  | some v => simp [taken, wire, hc]

/-- A client of the authentication phase that has read a message. -/
structure Busy (base c : IscsiAcl) (node : NodeType) (l : LocalState) (r : RmtState) (n : Nat) :
    Prop where
  setup : setup c = setup base
  nodeType : c.nodeType = node
  phase : c.phase = .authenticate
  localState : c.localState = l
  rmtState : c.rmtState = r
  count : c.recvEndCount = n
  server : c.authServerErrorFlag = false

theorem Waiting.arrived {node : NodeType} {l : LocalState} {r : RmtState} {n : Nat}
    (hd : Waiting base d l r n) (hb : Configured node base) (hn : n ≤ authRecvEndMaxCount)
    (t : Bool) (hf : Sendable f) (text : List UInt8) (env : Env) :
    ∃ c, received d ⟨t, keysOf keyTypes (wire text f), env⟩ = c ∧ Arrived d c f t text ∧
      Busy base c node l r n := by
  obtain ⟨c, hrecv, h⟩ := received_arrived d t hf text env
    ((congrArg Setup.signature hd.setup).trans hb.signature) (.inr (.inr hd.phase)) hd.idle
    (by rw [hd.count]; exact hn)
  have hset := h.setup.trans hd.setup
  refine ⟨c, hrecv, h, hset, (congrArg Setup.nodeType hset).trans hb.nodeType, ?_,
    (congrArg Held.localState h.held).trans hd.localState,
    (congrArg Held.rmtState h.held).trans hd.rmtState, h.count.trans hd.count,
    h.server.trans hd.server⟩
  rw [h.phase, hd.phase]
  rfl

/-- A message of one key is read once this key is. -/
theorem allRead_single {b : KeyBlock} {key : KeyType} {v : List UInt8}
    (h : Holds b (withKey noKeys key v)) : (b.markProcessed key).unexpectedKey = false := by
  refine (h.mark key).allRead (fun k hk => ?_)
  by_cases hkm : k = key
  · simp [hkm]
  · simp [withKey, noKeys, hkm] at hk

/-! ## The first exchange -/

/-- The target takes the offered CHAP and waits for the algorithms. -/
theorem target_opens (D : Digest) (session : Session) (env : Env) (hd : Configured .target d)
    (hrmt : d.authRmt = true) (rmt t : Bool) (text : List UInt8) :
    ∃ d', recvMessage D session d ⟨t, keysOf keyTypes
        (wire text (withKey noKeys .authMethod (methodOffer rmt))), env⟩ = (d', .cont) ∧
      Waiting d d' .sendAlg .sendAlg 1 ∧ d'.sendKeyBlock.transitBit = false ∧
      Filled d'.sendKeyBlock (withKey noKeys .authMethod aclChapOptionName) 16 := by
  obtain ⟨hrole, hvalid⟩ := hd.awaiting hrmt
  obtain ⟨c, hrecv, h⟩ := received_arrived d t
    (sendable_single .authMethod (methodOffer_short rmt) (by decide)) text env hd.signature (.inl hd.phase) hd.idle (by rw [hd.count]; decide)
  have hp : c.phase = .negotiate := by rw [h.phase, hd.phase]; rfl
  have hnode : c.nodeType = .target := (congrArg Setup.nodeType h.setup).trans hd.nodeType
  have hneg := recvEndNegotiate_target (counted c) rmt hnode
    ((congrArg Held.authMethodValidNegRole h.held).trans hrole)
    ((congrArg Setup.authMethodValidList h.setup).trans hvalid) (h.reading.holds.val _)
  have hsend : Filled (aclSetKeyValue c.sendKeyBlock .authMethod (some aclChapOptionName))
      (withKey noKeys .authMethod aclChapOptionName) 16 := by
    rw [h.fresh]
    exact Filled.single false _ _ (methodOffer_short true)
  have hallRead := allRead_single h.reading.holds
  rw [recvMessage, hrecv, h.reading.recvEnd_negotiate hp, hneg, recvEndFinish]
  dsimp only [counted]
  rw [hp]
  dsimp only
  rw [if_pos rfl, aclNextPhase_chap _ rfl rfl,
    aclHandShake_early _ rfl (.inl rfl) (fun hi => by rw [hnode] at hi; cases hi),
    Proper.status_cont ⟨hsend.holds.clean, hallRead⟩ rfl]
  refine ⟨_, rfl, ⟨h.setup, rfl, rfl, rfl, rfl, ?_, ?_⟩, ?_, hsend⟩
  · rw [h.count, hd.count]
  · exact h.server.trans hd.server
  · rw [aclSetKeyValue_transitBit, h.fresh]
    rfl

/-- An initiator that has handed out its opening offer. -/
structure Offered (base d : IscsiAcl) : Prop where
  setup : setup d = setup base
  phase : d.phase = .configure
  idle : d.recvInProgressFlag = false
  count : d.recvEndCount = 0
  server : d.authServerErrorFlag = false
  role : d.authMethodValidNegRole = .originator

/-- The initiator offers its algorithms. -/
theorem initiator_offers (D : Digest) (session : Session) (env : Env)
    (hb : Configured .initiator base) (hd : Offered base d) (hpw : base.passwdPresent = true)
    (hne : base.chapAlgList ≠ []) (text : List UInt8) :
    ∃ d', recvMessage D session d ⟨false, keysOf keyTypes
        (wire text (withKey noKeys .authMethod aclChapOptionName)), env⟩ = (d', .cont) ∧
      Waiting base d' .recvAlg .sendChallenge 1 ∧ d'.sendKeyBlock.transitBit = false ∧
      Filled d'.sendKeyBlock (withKey noKeys .chapAlg (algText base.chapAlgList)) 16 := by
  have hsig : d.signature = aclSignature := (congrArg Setup.signature hd.setup).trans hb.signature
  obtain ⟨c, hrecv, h⟩ := received_arrived d false
    (sendable_single (v := aclChapOptionName) .authMethod (methodOffer_short true) (by decide)) text env
    hsig (.inl hd.phase) hd.idle (by rw [hd.count]; decide)
  have hset := h.setup.trans hd.setup
  have hp : c.phase = .negotiate := by rw [h.phase, hd.phase]; rfl
  have hnode : c.nodeType = .initiator := (congrArg Setup.nodeType hset).trans hb.nodeType
  have halgs : c.chapAlgList = base.chapAlgList := congrArg Setup.chapAlgList hset
  have hneg := recvEndNegotiate_initiator (counted c) true base.authRmt
    ((congrArg Held.authMethodValidNegRole h.held).trans hd.role) hp
    ((congrArg Setup.authMethodValidList hset).trans (hb.opening hpw).2.1) (h.reading.holds.val _)
  have hsend : Filled (aclSetKeyValue c.sendKeyBlock .chapAlg (some (algText base.chapAlgList)))
      (withKey noKeys .chapAlg (algText base.chapAlgList)) 16 := by
    rw [h.fresh]
    exact Filled.single false _ _ (algText_short base.chapAlgList hb.algs.1 hb.algs.2)
  have hallRead := allRead_single h.reading.holds
  rw [recvMessage, hrecv, h.reading.recvEnd_negotiate hp, hneg, recvEndFinish]
  dsimp only [counted]
  rw [recvEndAuthenticate, bothSides_offers D env session _ (by exact hnode) rfl rfl
    (by rw [halgs]; exact hne) (by rw [halgs]; exact hb.algs.1) (by rw [halgs]; exact hb.algs.2),
    closeFailed_ok (l := .recvAlg) (r := .sendChallenge) _ rfl rfl (by decide) (by decide),
    aclHandShake_early _ rfl (.inr rfl) (fun _ => by exact h.transit),
    Proper.status_cont ⟨?_, hallRead⟩ rfl]
  · refine ⟨_, rfl, ⟨hset, rfl, rfl, rfl, rfl, ?_, ?_⟩, ?_, ?_⟩
    · rw [h.count, hd.count]
    · exact h.server.trans hd.server
    · rw [aclSetKeyValue_transitBit, h.fresh]
      rfl
    · rw [halgs]
      exact hsend
  · rw [halgs]
    exact hsend.holds.clean

/-! ## The second exchange -/

/-- The challenge a side has drawn. -/
structure Drew (c : IscsiAcl) (id : UInt8) (challenge : List UInt8) : Prop where
  identifier : c.sendChapIdentifier = id
  challenge : c.sendChapChallenge = challenge

/-- The target confirms a digest and challenges the initiator. -/
theorem target_challenges (D : Digest) (session : Session) (env : Env)
    (hb : Configured .target base) (hrmt : base.authRmt = true)
    (hd : Waiting base d .sendAlg .sendAlg 1) (offered : List Int) (a : ChapAlg)
    (hfind : offered.find? (fun o => o ∈ base.chapAlgList) = some a.code)
    (ho : ∀ o ∈ offered, algOption o) (hlen : offered.length ≤ authChapAlgMaxCount) (id : UInt8)
    (bytes : Nat → UInt8) (hid : env.randId = some id) (hbytes : env.randChallenge = some bytes)
    (text : List UInt8) :
    ∃ d', recvMessage D session d ⟨false, keysOf keyTypes
        (wire text (withKey noKeys .chapAlg (algText offered))), env⟩ = (d', .cont) ∧
      Waiting base d' .recvChallenge .recvRsp 2 ∧ d'.sendKeyBlock.transitBit = false ∧
      Filled d'.sendKeyBlock (challengeKeys a id) 32 ∧ Agreed d' a ∧
      Drew d' id (challengeOf a bytes) := by
  obtain ⟨c, hrecv, h, hc⟩ := hd.arrived hb (by decide) false
    (sendable_single .chapAlg (algText_short offered ho hlen) (by decide)) text env
  have hp := hc.phase
  have halgs : c.chapAlgList = base.chapAlgList := congrArg Setup.chapAlgList hc.setup
  obtain ⟨s, hboth⟩ := bothSides_challenges D env session (counted c) offered a id bytes
    hc.nodeType hc.localState hc.rmtState
    ((congrArg Setup.authRmt hc.setup).trans hrmt) (h.reading.holds.val _)
    (by rw [← halgs] at hfind; exact hfind) ho
    (fun o hmem => hb.algs.1 o (by rw [← halgs]; exact hmem)) hid hbytes
  have hsend : Filled (aclSetKeyValue (aclSetKeyValue
      (aclSetKeyValue c.sendKeyBlock .chapAlg (some (algText [a.code]))) .chapIdentifier
        (some (decimal id.toNat))) .chapChallenge (some [])) (challengeKeys a id) 32 := by
    rw [h.fresh]
    have hch := (Filled.single false .chapAlg _ (algText_code_short a)).challenge id rfl rfl
      (by omega)
    exact ⟨hch.holds, hch.length.trans (by omega)⟩
  have hallRead := allRead_single h.reading.holds
  have hend := (h.reading.recvEnd_status (l := .recvChallenge) (r := .recvRsp) hp D env session hboth
    rfl rfl (by decide) (by decide) (aclHandShake_challenging _ hp rfl hc.nodeType h.transit)).trans
    (Proper.status_cont ⟨hsend.holds.clean, hallRead⟩ hp)
  rw [recvMessage, hrecv, hend]
  refine ⟨_, rfl, ⟨hc.setup, rfl, hp, rfl, rfl, congrArg (· + 1) hc.count, hc.server⟩, ?_, hsend,
    ⟨rfl, rfl⟩, ⟨rfl, rfl⟩⟩
  rw [aclSetKeyValue_transitBit, aclSetKeyValue_transitBit, aclSetKeyValue_transitBit]
  exact congrArg KeyBlock.transitBit h.fresh

/-- The initiator answers the challenge, and may challenge the target. -/
theorem initiator_answers (D : Digest) (session : Session) (env : Env)
    (hb : Configured .initiator base) (hd : Waiting base d .recvAlg .sendChallenge 1) (a : ChapAlg)
    (hmem : a.code ∈ base.chapAlgList) (hpw : base.passwdPresent = true)
    (hsecret : 12 ≤ base.passwdData.length ∧ base.passwdData.length < authStrMaxLen)
    (hinit : env.rspInit = true) (id idI : UInt8) (challenge : List UInt8) (bytes : Nat → UInt8)
    (hid : env.randId = some idI) (hbytes : env.randChallenge = some bytes) (text : List UInt8)
    (htext : aclTextToData (some text) authLargeBinaryMaxLen = some challenge) :
    ∃ d', recvMessage D session d ⟨false, keysOf keyTypes (wire text (challengeKeys a id)), env⟩ =
        (d', .cont) ∧
      Waiting base d' .done (answeredState base.authRmt) 2 ∧ d'.sendKeyBlock.transitBit = true ∧
      Filled d'.sendKeyBlock (replyKeys base.authRmt (responseText D a id base.passwdData challenge)
        base.username idI) 330 ∧
      Agreed d' a ∧ (base.authRmt = true → Drew d' idI (challengeOf a bytes)) ∧
      (base.authRmt = false → d'.rmtAuthStatus = .pass) := by
  obtain ⟨c, hrecv, h, hc⟩ := hd.arrived hb (by decide) false (challengeKeys_sendable a id) text env
  have hset := hc.setup
  have hp := hc.phase
  have halgs : c.chapAlgList = base.chapAlgList := congrArg Setup.chapAlgList hset
  have hname : c.username = base.username := congrArg Setup.username hset
  have hdata : c.passwdData = base.passwdData := congrArg Setup.passwdData hset
  have hauth : c.authRmt = base.authRmt := congrArg Setup.authRmt hset
  have hch : c.recvChapChallenge = some challenge := (h.challenge nofun).trans htext
  have hlocal := aclLocalAuth_answers D env (counted c) a id challenge hc.nodeType hc.localState
    (h.reading.holds.val) hch
    (by rw [← halgs] at hmem; exact hmem) (fun o ho => hb.algs.1 o (by rw [← halgs]; exact ho))
    ((congrArg Setup.passwdPresent hset).trans hpw) (by rw [← hdata] at hsecret; exact hsecret) hinit
  have hanswer : Filled (aclSetKeyValue (aclSetKeyValue c.sendKeyBlock .chapRsp
      (some (responseText D a id c.passwdData challenge))) .chapUsername (some c.username))
      (answerKeys (responseText D a id c.passwdData challenge) c.username) 325 := by
    rw [h.fresh]
    exact Filled.answer _ _ (responseText_short D a id _ _) (by rw [hname]; exact hb.name)
  obtain ⟨b, i, ch, st, s, dbg, hrmt, hfill, hdrew, hpass⟩ := aclRmtAuth_replies D env session
    (aclLocalAuth D env (counted c)) a idI bytes (by rw [hlocal]; exact hc.rmtState) (by rw [hlocal])
    hid hbytes (responseText D a id c.passwdData challenge) (by rw [hlocal]; exact hanswer)
  have hboth := bothSides_rmt (l := .done) D env session rfl (by rw [hlocal]) (by decide)
  rw [hrmt, hlocal] at hboth
  rw [hlocal] at hfill hdrew hpass
  have hallRead := (((h.reading.holds.mark .chapAlg).mark .chapIdentifier).mark
    .chapChallenge).allRead (fun k hk => by
      cases k with
      | chapAlg => simp
      | chapIdentifier => simp
      | chapChallenge => simp
      | _ => simp [challengeKeys, withChallenge, withKey, noKeys] at hk)
  have hend := (h.reading.recvEnd_status (l := .done) (r := answeredState c.authRmt) hp D env session
    hboth rfl rfl (by decide) (by cases c.authRmt <;> decide)
    (aclHandShake_asks _ hp (by cases c.authRmt <;> simp [answeredState]) hc.nodeType
      h.transit)).trans (Proper.status_cont ⟨(hfill.transit true).holds.clean, hallRead⟩ hp)
  dsimp only [counted] at hfill hdrew hpass
  rw [hauth, hname, hdata] at hfill
  rw [recvMessage, hrecv, hend]
  exact ⟨_, rfl, ⟨hset, rfl, hp, rfl, congrArg answeredState hauth, congrArg (· + 1) hc.count,
    hc.server⟩, rfl, hfill.transit true, ⟨rfl, rfl⟩,
    fun ha => ⟨(hdrew (hauth.trans ha)).1, (hdrew (hauth.trans ha)).2⟩,
    fun ha => hpass (hauth.trans ha)⟩

/-! ## The third exchange -/

/-- The target accepts the initiator. -/
theorem target_accepts (D : Digest) (session : Session) (env : Env) (hb : Configured .target base)
    (hd : Waiting base d .recvChallenge .recvRsp 2) (a : ChapAlg) (hagreed : Agreed d a)
    (id idI : UInt8) (challenge challengeI : List UInt8) (hdrew : Drew d id challenge) (rmt : Bool)
    (name secret : List UInt8) (hname : NulFree name ∧ name.length < authStrMaxLen)
    (hexp : Expects session name secret)
    (hown : base.passwdPresent = true → response D a id base.passwdData challenge ≠
      response D a id secret challenge)
    (hinit : env.verifyInit = true) (text : List UInt8)
    (htext : rmt = true → aclTextToData (some text) authLargeBinaryMaxLen = some challengeI)
    (hcan : rmt = true → challengeI ≠ challenge ∧ base.passwdPresent = true ∧
      (12 ≤ base.passwdData.length ∧ base.passwdData.length < authStrMaxLen) ∧ env.rspInit = true) :
    ∃ d', recvMessage D session d ⟨true, keysOf keyTypes
        (wire text (replyKeys rmt (responseText D a id secret challenge) name idI)), env⟩ =
        (d', .pass) ∧
      d'.signature = aclSignature ∧ d'.phase = .done ∧ d'.sendKeyBlock.transitBit = true ∧
      Filled d'.sendKeyBlock
        (finalKeys rmt (responseText D a idI base.passwdData challengeI) base.username) 325 := by
  obtain ⟨c, hrecv, h, hc⟩ := hd.arrived hb (by decide) true (replyKeys_sendable rmt _ name idI
    (responseText_short D a id secret challenge) hname) text env
  have hset := hc.setup
  have hp := hc.phase
  have huser : c.username = base.username := congrArg Setup.username hset
  have hdata : c.passwdData = base.passwdData := congrArg Setup.passwdData hset
  have hpresent : c.passwdPresent = base.passwdPresent := congrArg Setup.passwdPresent hset
  have hid : c.sendChapIdentifier = id :=
    (congrArg Held.sendChapIdentifier h.held).trans hdrew.identifier
  have hchal : c.sendChapChallenge = challenge :=
    (congrArg Held.sendChapChallenge h.held).trans hdrew.challenge
  have halg : Agreed (counted c) a := ⟨(congrArg Held.negotiatedChapAlg h.held).trans hagreed.alg,
    (congrArg Held.chapChallengeLen h.held).trans hagreed.len⟩
  obtain ⟨b, s, hlocal, hfill⟩ := aclLocalAuth_replied D env (counted c) a idI challengeI rmt
    (responseText D a id secret challenge) name hc.nodeType hc.localState h.fresh
    h.reading.holds.val halg
    (by simpa only [counted, huser] using hb.name)
    (fun hr => (h.challenge (by rw [hr]; exact Option.some_ne_none _)).trans (htext hr))
    (fun hr => by
      obtain ⟨h1, h2, h3, h4⟩ := hcan hr
      exact ⟨fun he => h1 (he.trans hchal), hpresent.trans h2, by rw [← hdata] at h3; exact h3, h4⟩)
  have hholds := (h.reading.holds.mark .chapIdentifier).mark .chapChallenge
  have hboth := (bothSides_rmt (l := .done) D env session hlocal rfl (by decide)).trans
    (aclRmtAuth_accepts D env session _ a name secret hc.rmtState
      (by dsimp only [counted]; rw [hid, hchal, hholds.val]; cases rmt <;> rfl)
      (by dsimp only [counted]; rw [hholds.val]; cases rmt <;> rfl) hname hexp halg.alg halg.len
      (by dsimp only [counted]; rw [hid, hchal, hpresent, hdata]; exact hown) hc.server hinit)
  have hallRead := ((hholds.mark .chapRsp).mark .chapUsername).allRead (fun k hk => by
    cases k with
    | authMethod => cases rmt <;> simp [replyKeys, answerKeys, withChallenge, withKey, noKeys] at hk
    | chapAlg => cases rmt <;> simp [replyKeys, answerKeys, withChallenge, withKey, noKeys] at hk
    | _ => simp)
  have hend := (h.reading.recvEnd_status (l := .done) (r := .done) hp D env session hboth rfl rfl
    (by decide) (by decide)
    (aclHandShake_grants _ hp rfl rfl hc.nodeType h.transit)).trans (Proper.status_pass
    ⟨(hfill.transit true).holds.clean, hallRead⟩ rfl rfl (fun _ => rfl))
  rw [recvMessage, hrecv, hend]
  refine ⟨_, rfl, (congrArg Setup.signature hset).trans hb.signature, rfl, rfl, ?_⟩
  rw [← hdata, ← huser]
  exact hfill.transit true

/-- The initiator accepts the target, or had nothing to check. -/
theorem initiator_accepts (D : Digest) (session : Session) (env : Env)
    (hb : Configured .initiator base) (hd : Waiting base d .done (answeredState base.authRmt) 2)
    (hbit : d.sendKeyBlock.transitBit = true) (a : ChapAlg) (hagreed : Agreed d a) (id : UInt8)
    (challenge : List UInt8) (name secret : List UInt8)
    (hname : NulFree name ∧ name.length < authStrMaxLen)
    (hdrew : base.authRmt = true → Drew d id challenge)
    (hexp : base.authRmt = true → Expects session name secret)
    (hown : base.authRmt = true → response D a id base.passwdData challenge ≠
      response D a id secret challenge)
    (hinit : env.verifyInit = true) (hpass : base.authRmt = false → d.rmtAuthStatus = .pass)
    (text : List UInt8) :
    ∃ d', recvMessage D session d ⟨true, keysOf keyTypes
      (wire text (finalKeys base.authRmt (responseText D a id secret challenge) name)), env⟩ =
      (d', .pass) := by
  obtain ⟨c, hrecv, h, hc⟩ := hd.arrived hb (by decide) true (finalKeys_sendable base.authRmt _ name
    (responseText_short D a id secret challenge) hname) text env
  have hp := hc.phase
  have hauth : c.authRmt = base.authRmt := congrArg Setup.authRmt hc.setup
  have hl := hc.localState
  have hr := hc.rmtState
  have hsent : c.transitBitSentFlag = true := h.sentFlag.trans hbit
  rw [recvMessage, hrecv]
  have hholds := h.reading.holds
  have hclean : c.sendKeyBlock.clean = true := by rw [h.fresh]; rfl
  cases hrmt : base.authRmt with
  | false =>
    rw [hrmt] at hr hholds
    have hallRead : c.recvKeyBlock.unexpectedKey = false :=
      hholds.allRead (fun k hk => absurd rfl hk)
    have hend := (h.reading.recvEnd_status (l := .done) (r := .done) hp D env session
      (bothSides_settled D env session (counted c) hl hr) hl hr (by decide) (by decide)
      (aclHandShake_granted _ hp hr hc.nodeType h.transit hsent)).trans
      (Proper.status_pass ⟨hclean, hallRead⟩ rfl
        ((congrArg Held.rmtAuthStatus h.held).trans (hpass hrmt))
        (fun ha => by rw [show c.authRmt = true from ha, hrmt] at hauth; cases hauth))
    exact ⟨_, hend⟩
  | true =>
    rw [hrmt] at hr hholds
    have hid : c.sendChapIdentifier = id :=
      (congrArg Held.sendChapIdentifier h.held).trans (hdrew hrmt).identifier
    have hchal : c.sendChapChallenge = challenge :=
      (congrArg Held.sendChapChallenge h.held).trans (hdrew hrmt).challenge
    have hdata : c.passwdData = base.passwdData := congrArg Setup.passwdData hc.setup
    have hlocal : aclLocalAuth D env (counted c) = counted c := by
      have hl' : (counted c).localState = .done := hl
      simp only [aclLocalAuth, hl']
    have hboth := (bothSides_rmt D env session hlocal hl (by decide)).trans
      (aclRmtAuth_accepts D env session _ a name secret hr
        (by dsimp only [counted]; rw [hid, hchal]; exact hholds.val _) (hholds.val _) hname
        (hexp hrmt) ((congrArg Held.negotiatedChapAlg h.held).trans hagreed.alg)
        ((congrArg Held.chapChallengeLen h.held).trans hagreed.len)
        (fun _ => by dsimp only [counted]; rw [hid, hchal, hdata]; exact hown hrmt) hc.server hinit)
    have hallRead := ((hholds.mark .chapRsp).mark .chapUsername).allRead (fun k hk => by
      cases k with
      | chapRsp => simp
      | chapUsername => simp
      | _ => simp [finalKeys, answerKeys, withKey, noKeys] at hk)
    have hend := (h.reading.recvEnd_status (l := .done) (r := .done) hp D env session hboth hl rfl
      (by decide) (by decide)
      (aclHandShake_granted _ hp rfl hc.nodeType h.transit hsent)).trans
      (Proper.status_pass ⟨hclean, hallRead⟩ rfl rfl (fun _ => rfl))
    exact ⟨_, hend⟩

/-! ## The whole exchange -/

section Exchange

variable (D : Digest) (sessionI sessionT : Session) {maxLength : Nat}

/-- Both sides are in phase, and the initiator is about to offer its algorithms. -/
structure AfterFirst (i t : IscsiAcl) (s : Lockstep) : Prop where
  initiator : Waiting i s.initiator .recvAlg .sendChallenge 1
  bit : s.initiator.sendKeyBlock.transitBit = false
  keys : Filled s.initiator.sendKeyBlock (withKey noKeys .chapAlg (algText i.chapAlgList)) 16
  target : Waiting t s.target .sendAlg .sendAlg 1

variable {i t : IscsiAcl}

theorem exchange_first (hmax : authStrMaxLen ≤ maxLength) (hi : Configured .initiator i)
    (ht : Configured .target t) (hpw : i.passwdPresent = true) (hne : i.chapAlgList ≠ [])
    (hrmt : t.authRmt = true) (st : List AuthStatus) (env : Env × Env) :
    ∃ s, exchange D sessionI sessionT maxLength ⟨i, t, st⟩ env = s ∧ AfterFirst i t s ∧
      s.statuses = st ++ [.cont, .cont] := by
  obtain ⟨hrole, -, hfill, -⟩ := hi.opening hpw
  obtain ⟨b, text, -, hsend, -⟩ := sendAll_sendable hmax hi.signature (by rw [hi.phase]; rfl)
    (sendable_single .authMethod (methodOffer_short i.authRmt) (by decide)) hfill.holds nofun
  obtain ⟨t', hrecv, hwait, hbit, hreply⟩ := target_opens D sessionT env.1 ht hrmt i.authRmt
    i.sendKeyBlock.transitBit text
  obtain ⟨b', text', -, hsend', -⟩ := sendAll_sendable hmax
    ((congrArg Setup.signature hwait.setup).trans ht.signature) (by rw [hwait.phase]; rfl)
    (sendable_single (v := aclChapOptionName) .authMethod (methodOffer_short true) (by decide))
    hreply.holds nofun
  rw [hbit] at hsend'
  obtain ⟨i', hrecv', hwait', hbit', hkeys'⟩ := initiator_offers D sessionI env.2 (d := { i with
    sendKeyBlock := b }) hi ⟨rfl, hi.phase, hi.idle, hi.count, hi.server, hrole⟩ hpw hne text'
  refine ⟨⟨i', { t' with sendKeyBlock := b' }, st ++ [.cont, .cont]⟩, ?_,
    ⟨hwait', hbit', hkeys', hwait.sent b'⟩, rfl⟩
  simp only [exchange, hsend, hrecv, hsend', hrecv']

/-- Both sides agree on a digest, and the initiator's answer is on its way. -/
structure AfterSecond (i t : IscsiAcl) (a : ChapAlg) (idT idI : UInt8) (bytesT bytesI : Nat → UInt8)
    (s : Lockstep) : Prop where
  initiator : Waiting i s.initiator .done (answeredState i.authRmt) 2
  bit : s.initiator.sendKeyBlock.transitBit = true
  keys : Filled s.initiator.sendKeyBlock (replyKeys i.authRmt
    (responseText D a idT i.passwdData (challengeOf a bytesT)) i.username idI) 330
  agreedI : Agreed s.initiator a
  drewI : i.authRmt = true → Drew s.initiator idI (challengeOf a bytesI)
  settled : i.authRmt = false → s.initiator.rmtAuthStatus = .pass
  target : Waiting t s.target .recvChallenge .recvRsp 2
  agreedT : Agreed s.target a
  drewT : Drew s.target idT (challengeOf a bytesT)

theorem exchange_second (hmax : authStrMaxLen ≤ maxLength) (hi : Configured .initiator i)
    (ht : Configured .target t) (hpw : i.passwdPresent = true)
    (hsecret : 12 ≤ i.passwdData.length ∧ i.passwdData.length < authStrMaxLen)
    (hrmt : t.authRmt = true) (a : ChapAlg)
    (hfind : i.chapAlgList.find? (fun o => o ∈ t.chapAlgList) = some a.code) {s : Lockstep}
    (h : AfterFirst i t s) (env : Env × Env) (hinit : env.2.rspInit = true) (idT idI : UInt8)
    (bytesT bytesI : Nat → UInt8) (hidT : env.1.randId = some idT)
    (hbytesT : env.1.randChallenge = some bytesT) (hidI : env.2.randId = some idI)
    (hbytesI : env.2.randChallenge = some bytesI) :
    ∃ s', exchange D sessionI sessionT maxLength s env = s' ∧
      AfterSecond D i t a idT idI bytesT bytesI s' ∧ s'.statuses = s.statuses ++ [.cont, .cont] := by
  obtain ⟨ci, ct, st⟩ := s
  have hsigI := (congrArg Setup.signature h.initiator.setup).trans hi.signature
  obtain ⟨b, text, -, hsend, -⟩ := sendAll_sendable hmax hsigI (by rw [h.initiator.phase]; rfl)
    (sendable_single .chapAlg (algText_short _ hi.algs.1 hi.algs.2) (by decide)) h.keys.holds nofun
  rw [h.bit] at hsend
  obtain ⟨t', hrecv, hwait, hbit, hkeys, hagreed, hdrew⟩ := target_challenges D sessionT env.1 ht hrmt
    h.target i.chapAlgList a hfind hi.algs.1 hi.algs.2 idT bytesT hidT hbytesT text
  obtain ⟨b', text', -, hsend', htext⟩ := sendAll_sendable hmax
    ((congrArg Setup.signature hwait.setup).trans ht.signature) (by rw [hwait.phase]; rfl)
    (challengeKeys_sendable a idT) hkeys.holds
    (fun _ => by rw [hdrew.challenge]; exact challengeOf_bounds a bytesT)
  rw [hbit] at hsend'
  rw [hdrew.challenge] at htext
  obtain ⟨i', hrecv', hwait', hbit', hkeys', hagreed', hdrew', hpass'⟩ := initiator_answers D sessionI
    env.2 hi (h.initiator.sent b) a (List.mem_of_find?_eq_some hfind) hpw hsecret hinit idT idI
    (challengeOf a bytesT) bytesI hidI hbytesI text' (htext nofun)
  refine ⟨⟨i', { t' with sendKeyBlock := b' }, st ++ [.cont, .cont]⟩, ?_,
    ⟨hwait', hbit', hkeys', hagreed', hdrew', hpass', hwait.sent b', ⟨hagreed.alg, hagreed.len⟩,
      ⟨hdrew.identifier, hdrew.challenge⟩⟩, rfl⟩
  simp only [exchange, hsend, hrecv, hsend', hrecv']

/-- Two configured clients that expect each other; `a` is the first algorithm of the initiator
that the target also has. -/
structure Matched (i t : IscsiAcl) (a : ChapAlg) : Prop where
  accepted : i.phase = .configure ∧ t.phase = .configure
  checks : t.authRmt = true
  alg : i.chapAlgList.find? (fun o => o ∈ t.chapAlgList) = some a.code
  secretI : i.passwdPresent = true ∧ 12 ≤ i.passwdData.length ∧ i.passwdData.length < authStrMaxLen
  expectsI : Expects sessionT i.username i.passwdData
  secretT : i.authRmt = true →
    t.passwdPresent = true ∧ 12 ≤ t.passwdData.length ∧ t.passwdData.length < authStrMaxLen
  expectsT : i.authRmt = true → Expects sessionI t.username t.passwdData

/-- The challenges drawn are usable: no secret of a checking side answers its own challenge like
the peer's, and the two challenges of a mutual check differ. -/
structure Apart (i t : IscsiAcl) (a : ChapAlg) (idT idI : UInt8) (challengeT challengeI : List UInt8) :
    Prop where
  responseT : t.passwdPresent = true →
    response D a idT t.passwdData challengeT ≠ response D a idT i.passwdData challengeT
  responseI : i.authRmt = true →
    response D a idI i.passwdData challengeI ≠ response D a idI t.passwdData challengeI
  challenges : i.authRmt = true → challengeI ≠ challengeT

/-- The digest initialisations of a call succeed. -/
def Env.inits (env : Env) : Prop := env.rspInit = true ∧ env.verifyInit = true

theorem exchange_third (hmax : authStrMaxLen ≤ maxLength) (hi : Configured .initiator i)
    (ht : Configured .target t) (a : ChapAlg) (hm : Matched sessionI sessionT i t a) {s : Lockstep}
    {idT idI : UInt8} {bytesT bytesI : Nat → UInt8}
    (h : AfterSecond D i t a idT idI bytesT bytesI s)
    (hapart : Apart D i t a idT idI (challengeOf a bytesT) (challengeOf a bytesI)) (env : Env × Env)
    (hinit : Env.inits env.1 ∧ Env.inits env.2) :
    (exchange D sessionI sessionT maxLength s env).statuses = s.statuses ++ [.pass, .pass] := by
  obtain ⟨ci, ct, st⟩ := s
  have hsigI := (congrArg Setup.signature h.initiator.setup).trans hi.signature
  have hanswer := responseText_short D a idT i.passwdData (challengeOf a bytesT)
  obtain ⟨b, text, hbit, hsend, htext⟩ := sendAll_sendable hmax hsigI
    (by rw [h.initiator.phase]; rfl) (replyKeys_sendable i.authRmt _ _ idI hanswer hi.name)
    h.keys.holds (fun hne => by
      cases hr : i.authRmt with
      | true => rw [(h.drewI hr).challenge]; exact challengeOf_bounds a bytesI
      | false =>
        rw [hr] at hne
        exact absurd rfl hne)
  rw [h.bit] at hsend hbit
  obtain ⟨t', hrecv, hsig', hphase', hbit', hkeys'⟩ := target_accepts D sessionT env.1 ht h.target a
    h.agreedT idT idI (challengeOf a bytesT) (challengeOf a bytesI) h.drewT i.authRmt i.username
    i.passwdData hi.name hm.expectsI hapart.responseT hinit.1.2 text
    (fun hr => by rw [htext (by rw [hr]; nofun), (h.drewI hr).challenge])
    (fun hr => ⟨hapart.challenges hr, (hm.secretT hr).1, (hm.secretT hr).2, hinit.1.1⟩)
  have hreply := responseText_short D a idI t.passwdData (challengeOf a bytesI)
  obtain ⟨b', text', -, hsend', -⟩ := sendAll_sendable hmax hsig' (by rw [hphase']; rfl)
    (finalKeys_sendable i.authRmt _ _ hreply ht.name) hkeys'.holds
    (fun hne => by cases hr : i.authRmt <;> rw [hr] at hne <;> exact absurd rfl hne)
  rw [hbit'] at hsend'
  obtain ⟨i', hrecv'⟩ := initiator_accepts D sessionI env.2 hi (h.initiator.sent b) hbit a
    ⟨h.agreedI.alg, h.agreedI.len⟩ idI (challengeOf a bytesI) t.username t.passwdData ht.name
    (fun hr => ⟨(h.drewI hr).identifier, (h.drewI hr).challenge⟩) hm.expectsT hapart.responseI
    hinit.2.2 h.settled text'
  simp only [exchange, hsend, hrecv, hsend', hrecv']

/-- Three exchanges between clients that expect each other end with success on both sides. -/
theorem lockstep_passes (callsI callsT : List SetCall) (a : ChapAlg)
    (hmax : authStrMaxLen ≤ maxLength)
    (hm : Matched sessionI sessionT (configured .initiator callsI) (configured .target callsT) a)
    (env1 env2 env3 : Env × Env) (hinit2 : Env.inits env2.2)
    (hinit3 : Env.inits env3.1 ∧ Env.inits env3.2) (idT idI : UInt8) (bytesT bytesI : Nat → UInt8)
    (hT : env2.1.randId = some idT ∧ env2.1.randChallenge = some bytesT)
    (hI : env2.2.randId = some idI ∧ env2.2.randChallenge = some bytesI)
    (hapart : Apart D (configured .initiator callsI) (configured .target callsT) a idT idI
      (challengeOf a bytesT) (challengeOf a bytesI)) :
    (lockstep D sessionI sessionT maxLength (configured .initiator callsI) (configured .target callsT)
      [env1, env2, env3]).statuses = [.cont, .cont, .cont, .cont, .pass, .pass] := by
  have hi := configured_configured .initiator callsI hm.accepted.1
  have ht := configured_configured .target callsT hm.accepted.2
  have hne : (configured .initiator callsI).chapAlgList ≠ [] := fun hnil => by
    have halg := hm.alg
    rw [hnil] at halg
    cases halg
  obtain ⟨s1, hs1, h1, hst1⟩ := exchange_first D sessionI sessionT hmax hi ht hm.secretI.1 hne hm.checks
    [] env1
  obtain ⟨s2, hs2, h2, hst2⟩ := exchange_second D sessionI sessionT hmax hi ht hm.secretI.1 hm.secretI.2
    hm.checks a hm.alg h1 env2 hinit2.1 idT idI bytesT bytesI hT.1 hT.2 hI.1 hI.2
  have h3 := exchange_third D sessionI sessionT hmax hi ht a hm h2 hapart env3 hinit3
  simp only [lockstep, Runs.run_cons, Runs.run_nil, hs1, hs2, h3, hst2, hst1]
  rfl

end Exchange

/-- A mutual configuration of the initiator with the given algorithms and secret. -/
def initiatorCalls (algs : List Int) (secret : List UInt8) : List SetCall :=
  [.userName (some (ascii "initiator")), .passwd secret, .chapAlgList algs]

def targetCalls (algs : List Int) : List SetCall :=
  [.userName (some (ascii "target")), .passwd (ascii "target-secret"), .chapAlgList algs]

/-- A crypto library without failures that repeats one random byte. -/
def repeatingEnv (id byte : UInt8) : Env := ⟨true, true, true, some id, some (fun _ => byte)⟩

/-- Three exchanges of a mutual configuration in which each side expects the other. -/
def mutualRun (algsI algsT : List Int) (secret : List UInt8) (byteT byteI : UInt8) : Lockstep :=
  lockstep secretByteDigest sampleSession ⟨ascii "initiator", secret⟩ authStrMaxLen
    (configured .initiator (initiatorCalls algsI secret)) (configured .target (targetCalls algsT))
    (List.replicate 3 (repeatingEnv 1 byteT, repeatingEnv 2 byteI))

theorem lockstep_passes_mutual :
    (mutualRun [8, 5, 7] [7, 5] (ascii "initiator-secret") 3 4).statuses =
      [.cont, .cont, .cont, .cont, .pass, .pass] :=
  lockstep_passes secretByteDigest sampleSession ⟨ascii "initiator", ascii "initiator-secret"⟩
    (initiatorCalls [8, 5, 7] (ascii "initiator-secret")) (targetCalls [7, 5]) .md5 (le_refl _)
    ⟨by decide +kernel, by decide +kernel, by decide +kernel, by decide +kernel,
      ⟨by decide +kernel, by decide +kernel, by decide +kernel, by decide +kernel⟩,
      fun _ => by decide +kernel,
      fun _ => ⟨by decide +kernel, by decide +kernel, by decide +kernel, by decide +kernel⟩⟩
    (repeatingEnv 1 3, repeatingEnv 2 4) (repeatingEnv 1 3, repeatingEnv 2 4)
    (repeatingEnv 1 3, repeatingEnv 2 4) ⟨rfl, rfl⟩ ⟨⟨rfl, rfl⟩, ⟨rfl, rfl⟩⟩ 1 2 (fun _ => 3) (fun _ => 4)
    ⟨rfl, rfl⟩ ⟨rfl, rfl⟩
    ⟨fun _ => by decide +kernel, fun _ => by decide +kernel, fun _ => by decide +kernel⟩

/-- Three ways in which clients that expect each other still fail: both lists name the option
None before the digest they share, a secret starts with a NUL, or both sides draw the same
challenge. -/
theorem lockstep_fails :
    (mutualRun [1, 5] [1, 5] (ascii "initiator-secret") 3 4).statuses =
        [.cont, .cont, .fail, .fail, .error, .error] ∧
      (mutualRun [5] [5] (0 :: ascii "initiator-secret") 3 4).statuses =
        [.cont, .cont, .cont, .cont, .fail, .fail] ∧
      (mutualRun [5] [5] (ascii "initiator-secret") 3 3).statuses =
        [.cont, .cont, .cont, .cont, .fail, .fail] := by
  decide +kernel

end AuthLockstep
