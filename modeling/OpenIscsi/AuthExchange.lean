import OpenIscsi.AuthFrame

/-!
# One message of an exchange

Reading a message, up to the call of `acl_recv_end`, only moves the phase and
fills the received key block. After the two sides have worked, the handshake
and the verdict either go on with the client as it is or close the exchange.
-/

namespace AuthExchange

open CString AuthText AuthKeys AuthClient AuthApi AuthRun AuthFrame

/-- The fields that reading a message never writes. -/
structure Held where
  setup : Setup
  authMethodValidNegRole : NegRole
  localState : LocalState
  rmtState : RmtState
  rmtAuthStatus : AuthStatus
  authRspFlag : Bool
  negotiatedChapAlg : Int
  chapChallengeLen : Nat
  sendChapIdentifier : UInt8
  sendChapChallenge : List UInt8

def held (c : IscsiAcl) : Held where
  setup := setup c
  authMethodValidNegRole := c.authMethodValidNegRole
  localState := c.localState
  rmtState := c.rmtState
  rmtAuthStatus := c.rmtAuthStatus
  authRspFlag := c.authRspFlag
  negotiatedChapAlg := c.negotiatedChapAlg
  chapChallengeLen := c.chapChallengeLen
  sendChapIdentifier := c.sendChapIdentifier
  sendChapChallenge := c.sendChapChallenge

/-! ## Reading -/

variable (c : IscsiAcl) (n : Int) (keys : List (Int × Option (List UInt8)))
  (raw : Option (List UInt8))

theorem aclRecvBegin_held : held (aclRecvBegin c).1 = held c := by
  unfold aclRecvBegin
  split
  · rfl
  · split
    · rfl
    · split
      · rfl
      · split
        · rfl
        · dsimp only
          split
          case isTrue hp => rw [aclNextPhase, hp]; rfl
          case isFalse => rfl

theorem aclRecvTransitBit_held (value : Bool) :
    held (aclRecvTransitBit c value).1 = held c := by
  unfold aclRecvTransitBit
  split
  · rfl
  · split <;> rfl

theorem aclRecvKeyValue_held (keyType : Int) (v : Option (List UInt8)) :
    held (aclRecvKeyValue c keyType v).1 = held c := by
  unfold aclRecvKeyValue
  split
  · rfl
  · split
    · rfl
    · split <;> rfl

theorem recvKeys_held :
    held (recvKeys c keys) = held c := by
  induction keys generalizing c with
  | nil => rfl
  | cons kv keys ih =>
    have h := ih (aclRecvKeyValue c kv.1 kv.2).1
    rw [aclRecvKeyValue_held] at h
    exact h

theorem received_held (m : Message) : held (received c m) = held c := by
  rw [received, recvKeys_held, aclRecvTransitBit_held, aclRecvBegin_held]

/-- The phases in which keys are read. -/
def reading (c : IscsiAcl) : Prop := c.phase = .negotiate ∨ c.phase = .authenticate

structure Begun (c b : IscsiAcl) : Prop where
  phase : (b.phase = .negotiate ∧ (c.phase = .configure ∨ c.phase = .negotiate)) ∨
    (b.phase = .authenticate ∧ c.phase = .authenticate)
  recv : b.recvKeyBlock = aclInitKeyBlk
  send : b.sendKeyBlock = aclInitKeyBlk
  sent : b.transitBitSentFlag = c.sendKeyBlock.transitBit
  inProgress : b.recvInProgressFlag = true

theorem aclRecvBegin_begun (hs : c.signature = aclSignature) :
    Begun c (aclRecvBegin c).1 ∨ ¬ reading (aclRecvBegin c).1 := by
  unfold aclRecvBegin
  rw [if_neg (not_not.mpr hs)]
  cases hp : c.phase with
  | error => right; simp [reading, hp]
  | done => right; simp [reading, outOfTurn]
  | unset =>
    right
    cases hr : c.recvInProgressFlag with
    | true => simp [reading, outOfTurn]
    | false => simp [reading]
  | configure =>
    cases hr : c.recvInProgressFlag with
    | true => right; simp [reading, outOfTurn]
    | false => left; constructor <;> simp [aclNextPhase, hp]
  | negotiate =>
    cases hr : c.recvInProgressFlag with
    | true => right; simp [reading, outOfTurn]
    | false => left; constructor <;> simp [hp]
  | authenticate =>
    cases hr : c.recvInProgressFlag with
    | true => right; simp [reading, outOfTurn]
    | false => left; constructor <;> simp [hp]

/-- Every string of the block is the value of a key of the list; CHAP_C is kept
empty and says nothing. -/
structure KeysFrom (keys : List (Int × Option (List UInt8))) (b : KeyBlock) : Prop where
  wf : b.WF
  origin : ∀ k v, k ≠ .chapChallenge → b.keyVal k = some v →
    v.length < authStrMaxLen ∧ ∃ n raw, (n, some raw) ∈ keys ∧ keyTypeOfInt n = some k ∧ cstr raw = v

theorem KeysFrom.mono {keys : List (Int × Option (List UInt8))} {b : KeyBlock} (h : KeysFrom keys b)
    (kv : Int × Option (List UInt8)) : KeysFrom (keys ++ [kv]) b := by
  refine ⟨h.wf, fun k v hk hv => ?_⟩
  obtain ⟨hlen, n, raw, hm, hn, hr⟩ := h.origin k v hk hv
  exact ⟨hlen, n, raw, List.mem_append_left _ hm, hn, hr⟩

/-- One more value: it is stored as it came, or the stored values stay. -/
theorem KeysFrom.set {keys : List (Int × Option (List UInt8))} {b : KeyBlock} (h : KeysFrom keys b)
    (n : Int) (k : KeyType) (hn : keyTypeOfInt n = some k) (raw : Option (List UInt8)) :
    KeysFrom (keys ++ [(n, raw)]) (aclSetKeyValue b k raw) := by
  refine ⟨aclSetKeyValue_wf b k raw h.wf, fun k' v hk hv => ?_⟩
  rw [aclSetKeyValue_keyVal b k raw k' (h.wf.terminated k')] at hv
  split at hv
  case isTrue hc =>
    obtain ⟨rfl, -, hfit⟩ := hc
    cases raw with
    | none => simp at hv
    | some r =>
      have hv' : cstr r = v := by simpa using hv
      simp only [Option.any_some, decide_eq_true_eq] at hfit
      exact ⟨hv' ▸ hfit.1, n, r, by simp, hn, hv'⟩
  case isFalse =>
    exact (h.mono _).origin k' v hk hv

theorem KeysFrom.setChallenge {keys : List (Int × Option (List UInt8))} {b : KeyBlock}
    (h : KeysFrom keys b) (n : Int) (raw : Option (List UInt8)) :
    KeysFrom (keys ++ [(n, raw)]) (aclSetKeyValue b .chapChallenge (some [])) := by
  refine ⟨aclSetKeyValue_wf b _ _ h.wf, fun k v hk hv => ?_⟩
  rw [aclSetKeyValue_keyVal_of_ne b _ k _ (h.wf.terminated k) hk] at hv
  exact (h.mono _).origin k v hk hv

theorem aclRecvKeyValue_keysFrom
    (h : KeysFrom keys c.recvKeyBlock) (n : Int) (raw : Option (List UInt8)) :
    KeysFrom (keys ++ [(n, raw)]) (aclRecvKeyValue c n raw).1.recvKeyBlock := by
  unfold aclRecvKeyValue
  split
  · exact h.mono _
  · split
    · exact h.mono _
    · split
      · exact h.mono _
      · exact h.setChallenge n raw
      case h_3 hk => exact h.set n _ hk raw

theorem recvKeys_keysFrom (seen keys : List (Int × Option (List UInt8)))
    (h : KeysFrom seen c.recvKeyBlock) : KeysFrom (seen ++ keys) (recvKeys c keys).recvKeyBlock := by
  induction keys generalizing c seen with
  | nil => simpa [recvKeys] using h
  | cons kv keys ih =>
    have hstep := aclRecvKeyValue_keysFrom c seen h kv.1 kv.2
    have hrest := ih _ _ hstep
    rw [List.append_assoc] at hrest
    exact hrest

/-- A call with a key leaves the phase or ends in the error phase. -/
theorem aclRecvKeyValue_phase :
    (aclRecvKeyValue c n raw).1.phase = c.phase ∨ (aclRecvKeyValue c n raw).1.phase = .error := by
  unfold aclRecvKeyValue
  split
  · exact .inl rfl
  · split
    · exact .inr rfl
    · split
      · exact .inr rfl
      · exact .inl rfl
      · exact .inl rfl

theorem recvKeys_phase :
    (recvKeys c keys).phase = c.phase ∨ (recvKeys c keys).phase = .error := by
  induction keys generalizing c with
  | nil => exact .inl rfl
  | cons kv keys ih =>
    have hrest := ih (aclRecvKeyValue c kv.1 kv.2).1
    rcases hrest with h | h
    · rcases aclRecvKeyValue_phase c kv.1 kv.2 with h' | h'
      · exact .inl (h.trans h')
      · exact .inr (h.trans h')
    · exact .inr h

/-- What the key calls leave alone beyond `held`. -/
def turn (c : IscsiAcl) : Bool × KeyBlock × Bool × Bool :=
  (c.recvKeyBlock.transitBit, c.sendKeyBlock, c.transitBitSentFlag, c.recvInProgressFlag)

theorem aclRecvKeyValue_turn :
    turn (aclRecvKeyValue c n raw).1 = turn c := by
  unfold aclRecvKeyValue
  split
  · rfl
  · split
    · rfl
    · split
      · rfl
      · simp [turn]
      · simp [turn]

theorem recvKeys_turn :
    turn (recvKeys c keys) = turn c := by
  induction keys generalizing c with
  | nil => rfl
  | cons kv keys ih =>
    have h := ih (aclRecvKeyValue c kv.1 kv.2).1
    rw [aclRecvKeyValue_turn] at h
    exact h

structure InTurn (c : IscsiAcl) (m : Message) (r : IscsiAcl) : Prop where
  phase : (r.phase = .negotiate ∧ (c.phase = .configure ∨ c.phase = .negotiate)) ∨
    (r.phase = .authenticate ∧ c.phase = .authenticate)
  keys : KeysFrom m.keys r.recvKeyBlock
  transit : r.recvKeyBlock.transitBit = m.transit
  send : r.sendKeyBlock = aclInitKeyBlk
  sent : r.transitBitSentFlag = c.sendKeyBlock.transitBit
  inProgress : r.recvInProgressFlag = true

/-- A message read from a client in turn, or the error phase. -/
theorem received_inTurn (m : Message) (hs : c.signature = aclSignature) :
    InTurn c m (received c m) ∨ (received c m).phase = .error := by
  have hsb : (aclRecvBegin c).1.signature = aclSignature :=
    (congrArg (fun h => h.setup.signature) (aclRecvBegin_held c)).trans hs
  generalize hb : (aclRecvBegin c).1 = b at hsb
  have hbegun := aclRecvBegin_begun c hs
  rw [hb] at hbegun
  rw [received, hb]
  have hphase := recvKeys_phase (aclRecvTransitBit b m.transit).1 m.keys
  rcases hbegun with hbegun | hnot
  · have hread : ¬ (b.phase ≠ .negotiate ∧ b.phase ≠ .authenticate) := by
      rcases hbegun.phase with h | h <;> simp [h.1]
    have ht : (aclRecvTransitBit b m.transit).1 =
        { b with recvKeyBlock := { b.recvKeyBlock with transitBit := m.transit } } := by
      rw [aclRecvTransitBit, if_neg (not_not.mpr hsb), if_neg hread]
    have hkeys := recvKeys_keysFrom (aclRecvTransitBit b m.transit).1 [] m.keys (by
      rw [ht, hbegun.recv]
      exact ⟨⟨aclInitKeyBlk_wf.set_of_present, aclInitKeyBlk_wf.terminated⟩,
        fun k v _ h => by simp [KeyBlock.keyVal, aclInitKeyBlk] at h⟩)
    have hturn := recvKeys_turn (aclRecvTransitBit b m.transit).1 m.keys
    rcases hphase with hphase | hphase
    · left
      have hturn' : turn (recvKeys (aclRecvTransitBit b m.transit).1 m.keys) =
          (m.transit, aclInitKeyBlk, c.sendKeyBlock.transitBit, true) := by
        rw [hturn, ht]
        simp [turn, hbegun.send, hbegun.sent, hbegun.inProgress]
      simp only [turn, Prod.mk.injEq] at hturn'
      obtain ⟨h1, h2, h3, h4⟩ := hturn'
      refine ⟨?_, hkeys, h1, h2, h3, h4⟩
      rw [hphase, ht]
      exact hbegun.phase
    · exact .inr hphase
  · right
    have herr : (aclRecvTransitBit b m.transit).1.phase = .error := by
      rw [aclRecvTransitBit, if_neg (not_not.mpr hsb), if_pos (by simpa [reading] using hnot)]
      rfl
    rcases hphase with hphase | hphase
    · exact hphase.trans herr
    · exact hphase

/-! ## The handshake and the verdict -/

/-- The exchange is over in `d`, without a verdict better than in `c`. -/
structure Closes (c d : IscsiAcl) : Prop where
  setup : setup d = setup c
  phase : d.phase = .done ∨ d.phase = .error
  verdict : d.rmtAuthStatus = c.rmtAuthStatus ∨ d.rmtAuthStatus = .fail

theorem Closes.trans {c d e : IscsiAcl} (hcd : Closes c d) (hde : Closes d e) : Closes c e := by
  refine ⟨hde.setup.trans hcd.setup, hde.phase, ?_⟩
  rcases hde.verdict with h | h
  · rw [h]
    exact hcd.verdict
  · exact .inr h

theorem failDone_closes (dbg : DbgStatus) : Closes c (failDone c dbg) :=
  ⟨rfl, .inl rfl, .inr rfl⟩

/-- `acl_next_phase` past the negotiation. -/
theorem aclNextPhase_closes (hc : c.phase ≠ .configure) (hn : c.phase ≠ .negotiate) :
    Closes c (aclNextPhase c) := by
  unfold aclNextPhase
  split
  case h_1 h => exact absurd h hc
  case h_2 h => exact absurd h hn
  case h_3 => exact ⟨rfl, .inl rfl, .inl rfl⟩
  case h_4 => exact ⟨rfl, .inr rfl, .inl rfl⟩

def withTransit (c : IscsiAcl) (t : Bool) : IscsiAcl :=
  { c with sendKeyBlock := { c.sendKeyBlock with transitBit := t } }

theorem withTransit_self : withTransit c c.sendKeyBlock.transitBit = c := rfl

def transitRead (c : IscsiAcl) : Prop :=
  c.nodeType = .initiator ∧ c.recvKeyBlock.transitBit = true ∧ c.phase ≠ .negotiate

/-- The handshake closes the exchange or only decides on the transit bit, and
an initiator's exchange is always closed by a transit bit of the target. -/
theorem aclHandShake_cases (hc : c.phase ≠ .configure) :
    Closes c (aclHandShake c) ∨
      (¬ transitRead c ∧ c.phase ≠ .done ∧ ∃ t, aclHandShake c = withTransit c t) := by
  unfold aclHandShake
  by_cases hd : c.phase = .done
  · rw [if_pos hd]
    exact .inl ⟨rfl, .inl hd, .inl rfl⟩
  rw [if_neg hd]
  split
  · exact .inl (failDone_closes c _)
  by_cases hneg : c.phase = .negotiate
  · rw [if_pos hneg]
    have hnot : ¬ transitRead c := fun h => h.2.2 hneg
    split
    · exact .inr ⟨hnot, hd, true, rfl⟩
    · exact .inr ⟨hnot, hd, c.sendKeyBlock.transitBit, rfl⟩
  · rw [if_neg hneg]
    split
    · split
      · split
        · split
          · exact .inl (failDone_closes c _)
          · exact .inl (aclNextPhase_closes c hc hneg)
        · rename_i ht
          exact .inr ⟨fun h => ht h.2.1, hd, true, rfl⟩
      · rename_i hnode
        have hnot : ¬ transitRead c := fun h => by simp [h.1] at hnode
        split
        · exact .inl (aclNextPhase_closes c hc hneg)
        · split
          · have h := aclNextPhase_closes (withTransit c true) hc hneg
            exact .inl ⟨h.setup, h.phase, h.verdict⟩
          · exact .inr ⟨hnot, hd, c.sendKeyBlock.transitBit, rfl⟩
    · split
      · exact .inl (failDone_closes c _)
      · rename_i ht
        exact .inr ⟨fun h => ht ⟨h.1, h.2.1⟩, hd, c.sendKeyBlock.transitBit, rfl⟩

/-- The call ends the exchange with a status of its own or the recorded verdict. -/
structure Ends (c : IscsiAcl) (r : IscsiAcl × AuthStatus) : Prop where
  closes : Closes c r.1
  status : r.2 = .error ∨ r.2 = .fail ∨ r.2 = c.rmtAuthStatus

/-- The call asks for the next message, with the keys it set to be sent. -/
structure Continues (c : IscsiAcl) (r : IscsiAcl × AuthStatus) : Prop where
  held : held r.1 = held c
  phase : r.1.phase = c.phase
  sendVal : r.1.sendKeyBlock.keyVal = c.sendKeyBlock.keyVal
  clean : c.sendKeyBlock.clean = true
  status : r.2 = .cont

theorem suppressSend_closes (h : c.phase = .done ∨ c.phase = .error) :
    Closes c (suppressSend c) := by
  unfold suppressSend
  dsimp only
  split
  · exact ⟨rfl, h, .inl rfl⟩
  · split
    · split <;> exact ⟨rfl, h, .inl rfl⟩
    · split <;> exact ⟨rfl, h, .inl rfl⟩

theorem rcvEndBlocks_cases (status : AuthStatus) :
    (rcvEndBlocks c status = (c, status) ∧ (status = .cont → c.sendKeyBlock.clean = true)) ∨
      ∃ dbg, rcvEndBlocks c status = (failDone c dbg, .fail) := by
  unfold rcvEndBlocks
  split
  · split
    · exact .inr ⟨_, rfl⟩
    · split
      · exact .inr ⟨_, rfl⟩
      · split
        · exact .inr ⟨_, rfl⟩
        · split
          · exact .inr ⟨_, rfl⟩
          · exact .inl ⟨rfl, fun _ => by simp_all [KeyBlock.clean]⟩
  · rename_i h
    exact .inl ⟨rfl, fun hc => absurd (.inl hc) h⟩

/-- `acl_rcv_end_status` in a client that is not done. -/
theorem aclRcvEndStatus_cont (hd : c.phase ≠ .done) (he : c.phase ≠ .error) :
    Ends c (aclRcvEndStatus c) ∨ Continues c (aclRcvEndStatus c) := by
  have hv : rcvEndVerdict c = (c, .cont) := by rw [rcvEndVerdict, if_neg hd]
  rcases rcvEndBlocks_cases c .cont with ⟨hb, hclean⟩ | ⟨dbg, hb⟩
  · right
    have heq : aclRcvEndStatus c = ({ c with recvInProgressFlag := false }, .cont) := by
      simp [aclRcvEndStatus, he, hv, hb]
    rw [heq]
    exact ⟨rfl, rfl, rfl, hclean rfl, rfl⟩
  · left
    have heq : aclRcvEndStatus c =
        ({ suppressSend (failDone c dbg) with recvInProgressFlag := false }, .fail) := by
      simp [aclRcvEndStatus, he, hv, hb]
    have hs := (failDone_closes c dbg).trans (suppressSend_closes (failDone c dbg) (.inl rfl))
    rw [heq]
    exact ⟨⟨hs.setup, hs.phase, hs.verdict⟩, .inr (.inl rfl)⟩

/-- `acl_rcv_end_status` in a client that is done: a pass is given only for a
recorded pass. -/
theorem aclRcvEndStatus_done (hd : c.phase = .done) :
    Ends c (aclRcvEndStatus c) := by
  have hv : ∃ v : IscsiAcl, rcvEndVerdict c = (v, v.rmtAuthStatus) ∧ Closes c v := by
    rw [rcvEndVerdict, if_pos hd]
    split
    · exact ⟨_, rfl, rfl, .inl hd, .inr rfl⟩
    · exact ⟨_, rfl, rfl, .inl hd, .inl rfl⟩
  obtain ⟨v, hv, hclose⟩ := hv
  have he : c.phase ≠ .error := by simp [hd]
  have hb : ∃ w : IscsiAcl × AuthStatus, rcvEndBlocks v v.rmtAuthStatus = w ∧ Closes v w.1 ∧
      (w.2 = .fail ∨ w.2 = v.rmtAuthStatus) := by
    rcases rcvEndBlocks_cases v v.rmtAuthStatus with ⟨hb, -⟩ | ⟨dbg, hb⟩
    · exact ⟨_, hb, ⟨rfl, hclose.phase, .inl rfl⟩, .inr rfl⟩
    · exact ⟨_, hb, failDone_closes v dbg, .inl rfl⟩
  obtain ⟨w, hb, hcw, hstatus⟩ := hb
  have heq : aclRcvEndStatus c =
      ({ (if w.2 ≠ .pass ∧ w.2 ≠ .cont then suppressSend w.1 else w.1) with
          recvInProgressFlag := false }, w.2) := by
    simp [aclRcvEndStatus, he, hv, hb]
  have hsup : Closes w.1 (if w.2 ≠ .pass ∧ w.2 ≠ .cont then suppressSend w.1 else w.1) := by
    split
    · exact suppressSend_closes w.1 hcw.phase
    · exact ⟨rfl, hcw.phase, .inl rfl⟩
  have hall := (hclose.trans hcw).trans hsup
  rw [heq]
  refine ⟨⟨hall.setup, hall.phase, hall.verdict⟩, .inr ?_⟩
  rcases hstatus with h | h
  · exact .inl h
  · rcases hclose.verdict with h' | h'
    · exact .inr (h.trans h')
    · exact .inl (h.trans h')

/-- The end of `acl_recv_end`: handshake, then verdict. -/
theorem handShake_rcvEndStatus (hc : c.phase ≠ .configure) :
    Ends c (aclRcvEndStatus (aclHandShake c)) ∨
      (¬ transitRead c ∧ c.phase ≠ .done ∧ Continues c (aclRcvEndStatus (aclHandShake c))) := by
  rcases aclHandShake_cases c hc with hclose | ⟨hnot, hd, t, ht⟩
  · left
    rcases hclose.phase with hd | he
    · have hend := aclRcvEndStatus_done _ hd
      refine ⟨hclose.trans hend.closes, ?_⟩
      rcases hend.status with h | h | h
      · exact .inl h
      · exact .inr (.inl h)
      · rcases hclose.verdict with h' | h'
        · exact .inr (.inr (h.trans h'))
        · exact .inr (.inl (h.trans h'))
    · rw [aclRcvEndStatus, if_pos he]
      exact ⟨hclose, .inl rfl⟩
  · rw [ht]
    by_cases he : c.phase = .error
    · left
      have he' : (withTransit c t).phase = .error := he
      rw [aclRcvEndStatus, if_pos he']
      exact ⟨⟨rfl, .inr he, .inl rfl⟩, .inl rfl⟩
    · rcases aclRcvEndStatus_cont (withTransit c t) hd he with h | h
      · exact .inl ⟨⟨h.closes.setup, h.closes.phase, h.closes.verdict⟩, h.status⟩
      · exact .inr ⟨hnot, hd, h.held, h.phase, h.sendVal, h.clean, h.status⟩

end AuthExchange
