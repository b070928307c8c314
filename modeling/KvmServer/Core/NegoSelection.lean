import KvmServer.Core.Nego
import KvmServer.Lib.Session

/-! # The protocol a negotiation ends in

A negotiation ends in the protocol that the last answer settles on.  The client only looks three of
the six protocols up, and keeps the protocol of an answer it has refused. -/

namespace KvmServer.Core
open Lib Winpr

def knownProtocols : List Nat :=
  [PROTOCOL_RDP, PROTOCOL_SSL, PROTOCOL_HYBRID, PROTOCOL_RDSTLS, PROTOCOL_HYBRID_EX, PROTOCOL_RDSAAD]

structure Wanted (nego : RdpNego) (requested protocol : Nat) : Prop where
  known : protocol ∈ knownProtocols
  enabled : nego.enabled protocol = true
  contained : protocol &&& requested = protocol

def negoRequested : NegoState → Nat
  | .aad => PROTOCOL_RDSAAD
  | .rdstls => PROTOCOL_RDSTLS ||| PROTOCOL_SSL
  | .ext => PROTOCOL_HYBRID ||| PROTOCOL_SSL ||| PROTOCOL_HYBRID_EX
  | .nla => PROTOCOL_HYBRID ||| PROTOCOL_SSL
  | .tls => PROTOCOL_SSL
  | _ => PROTOCOL_RDP

/-- The protocol that an answer names in a response. -/
def negoNamed (bytes : List UInt8) : Option Nat :=
  match negoReadConfirm bytes with
  | none => none
  | some (li, body) =>
    if li ≤ 6 then none
    else
      match body with
      | [] => none
      | type :: body => if type.toNat = TYPE_RDP_NEG_RSP then (negReadData body).map fun data =>
          data.1.value else none

/-- The answer is a confirm without negotiation data. -/
def negoPlain (bytes : List UInt8) : Bool := (negoReadConfirm bytes).any fun confirm => confirm.1 ≤ 6

variable (nego : RdpNego)

/-- The client does not look the protocol up, or finds it enabled. -/
def PassesLookup (protocol : Nat) : Prop :=
  protocol ∈ [PROTOCOL_RDP, PROTOCOL_SSL, PROTOCOL_HYBRID, PROTOCOL_RDSAAD] →
    nego.enabled protocol = true

/-- An answer that passes the look-up names one of the protocols that the attempt requests; and one
without negotiation data does not follow a response that was refused. -/
def RoundRegular (round : NegoRound) : Prop :=
  nego.state ≠ .final → ∀ bytes, round.answer = some bytes →
    (negoPlain bytes = true → nego.selectedProtocol = PROTOCOL_RDP) ∧
    ∀ protocol, negoNamed bytes = some protocol → PassesLookup nego protocol →
      protocol ∈ knownProtocols ∧ protocol &&& negoRequested nego.state = protocol

/-! ## One answer -/

def Narrows (nego nego' : RdpNego) : Prop :=
    ∀ protocol, nego'.enabled protocol = true → nego.enabled protocol = true

theorem Narrows.refl : Narrows nego nego := fun _ on => on

theorem disableAllExcept_narrows (what : Nat) : Narrows nego (negoDisableAllExcept nego what) := by
  intro _ on
  simp only [negoDisableAllExcept] at on
  split at on
  · exact on
  · cases on

theorem applyFailure_narrows (failureCode : Nat) : Narrows nego (negoApplyFailure nego failureCode) := by
  unfold negoApplyFailure
  iterate 2
    split
    · exact disableAllExcept_narrows nego _
  split
  · exact .refl nego
  split
  · exact disableAllExcept_narrows nego _
  · exact .refl nego

theorem applyFailure_requested (failureCode : Nat) :
    (negoApplyFailure nego failureCode).requestedProtocols = nego.requestedProtocols := by
  unfold negoApplyFailure
  split
  · rfl
  split
  · rfl
  split
  · rfl
  split <;> rfl

/-- How an answer may end the negotiation: without negotiation data, in the protocol that was selected
before, or by naming one that passes the look-up. -/
def Settles (nego nego' : RdpNego) (plain : Prop) (named : Option Nat) : Prop :=
  plain ∧ nego'.selectedProtocol = nego.selectedProtocol ∧ nego.enabled PROTOCOL_RDP = true ∨
    named = some nego'.selectedProtocol ∧ PassesLookup nego nego'.selectedProtocol

structure Answered (nego nego' : RdpNego) (plain : Prop) (named : Option Nat) : Prop where
  narrows : Narrows nego nego'
  requested : nego'.requestedProtocols = nego.requestedProtocols
  settles : nego'.state = .final → Settles nego nego' plain named

variable {nego : RdpNego} {plain : Prop} {named : Option Nat}

theorem Answered.failed {nego' : RdpNego} (narrows : Narrows nego nego')
    (request : nego'.requestedProtocols = nego.requestedProtocols) :
    Answered nego (negoSetState nego' .fail) plain named :=
  ⟨narrows, request, fun final => by cases final⟩

theorem Answered.unread (unsettled : nego.state ≠ .final) : Answered nego nego plain named :=
  ⟨.refl nego, rfl, fun final => absurd final unsettled⟩

theorem negoFinish_fst (nego : RdpNego) (rest : Option (List UInt8)) :
    (negoFinish nego rest).1 = nego := by
  cases rest <;> rfl

/-- A response is refused, or its protocol passes the look-up. -/
theorem checkSelected_cases (nego : RdpNego) :
    negoCheckSelected nego = nego ∧ PassesLookup nego nego.selectedProtocol ∨
      negoCheckSelected nego = negoSetState nego .fail := by
  unfold negoCheckSelected
  split
  · split
    · exact .inr rfl
    · next other passed =>
      refine .inl ⟨rfl, fun looked => ?_⟩
      by_contra disabled
      simp only [List.mem_cons, List.not_mem_nil, or_false] at looked
      obtain rdp | ssl | hybrid | aad := looked
      · exact other rdp
      · exact passed (.inr (.inr ⟨ssl, ssl ▸ disabled⟩))
      · exact passed (.inr (.inl ⟨hybrid, hybrid ▸ disabled⟩))
      · exact passed (.inl ⟨aad, aad ▸ disabled⟩)
  · next rdp =>
    split
    · exact .inr rfl
    · next enabled =>
      refine .inl ⟨rfl, fun _ => ?_⟩
      rw [not_not.mp rdp]
      exact not_not.mp enabled

theorem failure_answered (unsettled : nego.state ≠ .final) (bytes : List UInt8) :
    Answered nego (negoProcessNegotiationFailure nego bytes).1 plain none := by
  unfold negoProcessNegotiationFailure
  cases negReadData bytes with
  | none => exact .unread unsettled
  | some _ =>
    dsimp only
    iterate 2
      split
      · exact .unread unsettled
    · exact .failed (applyFailure_narrows nego _) (applyFailure_requested nego _)

theorem negoReadNegData_response (nego : RdpNego) (body : List UInt8) {type : UInt8}
    (response : type.toNat = TYPE_RDP_NEG_RSP) :
    Answered nego (negoReadNegData nego (type :: body)).1 plain
    ((negReadData body).map fun data => data.1.value) := by
  simp only [negoReadNegData, if_pos response, negoProcessNegotiationResponse]
  cases negReadData body with
  | none => exact .failed (.refl nego) rfl
  | some pair =>
    by_cases len : pair.1.length ≠ 8
    · simp only [if_pos len]
      exact ⟨.refl nego, rfl, fun final => by cases final⟩
    simp only [if_neg len, negoFinish_fst]
    cases checkSelected_cases
      (negoSetState { nego with flags := pair.1.flags, selectedProtocol := pair.1.value } .final) with
    | inl kept =>
      rw [kept.1]
      exact ⟨.refl nego, rfl, fun _ => .inr ⟨rfl, kept.2⟩⟩
    | inr refused =>
      rw [refused]
      exact ⟨.refl nego, rfl, fun final => by cases final⟩

theorem negoConfirm_answered (unsettled : nego.state ≠ .final) (li : Nat) (body : List UInt8) :
    Answered nego (negoConfirm nego li body).1 (li ≤ 6) (if li ≤ 6 then none else
          match body with
          | [] => none
          | type :: body =>
            if type.toNat = TYPE_RDP_NEG_RSP then (negReadData body).map fun data =>
            data.1.value else none) := by
  unfold negoConfirm
  by_cases carries : li > 6
  · rw [if_pos carries, if_neg (show ¬li ≤ 6 by omega)]
    cases body with
    | nil => exact .unread unsettled
    | cons type body =>
      by_cases response : type.toNat = TYPE_RDP_NEG_RSP
      · simp only [if_pos response]
        exact negoReadNegData_response nego body response
      simp only [if_neg response, negoReadNegData]
      by_cases failure : type.toNat = TYPE_RDP_NEG_FAILURE
      · rw [if_pos failure, negoFinish_fst]
        exact failure_answered unsettled body
      rw [if_neg failure]
      exact .unread unsettled
  have short : li ≤ 6 := by omega
  rw [if_neg carries]
  split
  · split
    · rw [negoFinish_fst]
      exact .failed (.refl nego) rfl
    · next enabled =>
      rw [negoFinish_fst]
      exact ⟨.refl nego, rfl, fun _ => .inl ⟨short, rfl, not_not.mp enabled⟩⟩
  rw [negoFinish_fst]
  exact .failed (.refl nego) rfl

theorem negoRecv_answered (unsettled : nego.state ≠ .final) (bytes : List UInt8) :
    Answered nego (negoRecv nego bytes).1 (negoPlain bytes = true) (negoNamed bytes) := by
  unfold negoRecv negoNamed negoPlain
  cases negoReadConfirm bytes with
  | none => exact .unread unsettled
  | some confirm =>
    simpa using negoConfirm_answered unsettled confirm.1 confirm.2

/-! ## One round -/

structure Tried (nego nego' : RdpNego) (requested : Nat) (round : NegoRound) : Prop where
  narrows : Narrows nego nego'
  settles :
    nego'.state = .final → nego'.requestedProtocols = requested ∧ ∃ bytes, round.answer = some bytes ∧
    Settles nego nego' (negoPlain bytes = true) (negoNamed bytes)

theorem negoTryNext_keeps (states : List NegoState) (nego : RdpNego) :
    (negoTryNext states nego).enabled = nego.enabled ∧
      (negoTryNext states nego).requestedProtocols = nego.requestedProtocols ∧
      (negoTryNext states nego).selectedProtocol = nego.selectedProtocol := by
  unfold negoTryNext
  split <;> exact ⟨rfl, rfl, rfl⟩

variable {states : List NegoState}

theorem negoFallback_ne_final (nego : RdpNego) (attempts : NegoState.final ∉ states) :
    negoFallback nego states ≠ .final := by
  induction states with
  | nil => exact nofun
  | cons _ states ih =>
    rw [List.mem_cons, not_or] at attempts
    rw [negoFallback]
    split
    · exact fun same => attempts.1 same.symm
    · exact ih attempts.2

theorem negoTryNext_final (attempts : NegoState.final ∉ states)
    (final : (negoTryNext states nego).state = .final) : nego.state = .final := by
  unfold negoTryNext at final
  split at final
  · exact absurd final (negoFallback_ne_final nego attempts)
  rename_i done
  exact Decidable.not_not.mp done

section
variable (open_ : nego.state ≠ .final)
include open_

theorem negoAttempt_tried (request : Nat) {next : RdpNego → RdpNego}
    (keeps : ∀ nego, (next nego).enabled = nego.enabled ∧
      (next nego).requestedProtocols = nego.requestedProtocols ∧
      (next nego).selectedProtocol = nego.selectedProtocol)
    (final : ∀ nego, (next nego).state = .final → nego.state = .final) (round : NegoRound) :
    Tried nego (negoAttempt request next nego round) request round := by
  unfold negoAttempt
  iterate 2
    split
    · exact ⟨.refl nego, fun done => by cases done⟩
  cases given : round.answer with
  | none => exact ⟨.refl nego, fun done => by cases done⟩
  | some bs =>
    have answered := @negoRecv_answered { nego with requestedProtocols := request } open_ bs
    simp only [negoRecvResponse]
    cases recv : negoRecv { nego with requestedProtocols := request } bs with
    | mk nego' ok =>
      rw [recv] at answered
      cases ok with
      | false => exact ⟨answered.narrows, fun done => by cases done⟩
      | true =>
        obtain ⟨on, sameReq, sameSel⟩ := keeps nego'
        refine ⟨fun protocol yes => answered.narrows protocol (by rw [← on]; exact yes),
          fun done => ⟨?_, ?_⟩⟩
        · rw [sameReq]
          exact answered.requested
        refine ⟨bs, given, ?_⟩
        rw [Settles, sameSel]
        exact answered.settles (final nego' done)

theorem negoSend_tried (round : NegoRound) :
    Tried nego (negoSend nego round) (negoRequested nego.state) round := by
  unfold negoSend
  cases st : nego.state with
  | aad | rdstls | ext | nla | tls =>
    exact negoAttempt_tried open_ _ (negoTryNext_keeps _) (fun _ => negoTryNext_final (by decide)) round
  | rdp => exact negoAttempt_tried open_ _ (fun _ => ⟨rfl, rfl, rfl⟩) (fun _ final => final) round
  | initial => exact ⟨.refl nego, fun final => absurd final open_⟩
  | fail => exact ⟨.refl nego, fun final => absurd final open_⟩
  | final => exact absurd st open_

def negoStep (nego : RdpNego) (round : NegoRound) : RdpNego × Unit := (negoSend nego round, ())

end

/-! ## The attempts -/

def NegoState.strength : NegoState → Nat
  | .aad => 6
  | .rdstls => 5
  | .ext => 4
  | .nla => 3
  | .tls => 2
  | .rdp => 1
  | _ => 0

def RdpNego.Ended (nego : RdpNego) : Prop := nego.state = .fail ∨ nego.state = .final

def RdpNego.Weakens (nego : RdpNego) (strength : Nat) : Prop :=
  nego.Ended ∨ nego.enabled (negoStateProtocol nego.state) = true ∧
    0 < nego.state.strength ∧ nego.state.strength < strength

variable {nego' : RdpNego}

theorem negoReadNegData_ended {body : List UInt8}
    (read : negoReadNegData nego body = (nego', true)) : nego'.Ended := by
  cases body with
  | nil => cases read
  | cons _ body =>
    grind [negoReadNegData, negoProcessNegotiationResponse, negoProcessNegotiationFailure,
      negoFinish, negoCheckSelected, negoSetState, RdpNego.Ended]

theorem negoRecv_ended {bs : List UInt8} (recv : negoRecv nego bs = (nego', true)) : nego'.Ended := by
  grind [negoRecv, negoConfirm, negoFinish, negoSetState, RdpNego.Ended, negoReadNegData_ended]

variable {strength : Nat}

theorem negoFallback_weakens (nego : RdpNego)
    (weaker : ∀ st ∈ states, 0 < st.strength ∧ st.strength < strength) :
    (negoSetState nego (negoFallback nego states)).Weakens strength := by
  induction states with
  | nil => exact .inl (.inl rfl)
  | cons st states ih =>
    rw [negoFallback]
    split
    next on => exact .inr ⟨on, weaker st List.mem_cons_self⟩
    · exact ih fun st mem => weaker st (List.mem_cons_of_mem _ mem)

theorem negoAttempt_weakens {next : RdpNego → RdpNego} (step : ∀ nego : RdpNego, nego.Ended →
    (next nego).Weakens strength) (request : Nat) (nego : RdpNego)
    (round : NegoRound) : (negoAttempt request next nego round).Weakens strength := by
  unfold negoAttempt
  iterate 2
    split
    · exact .inl (.inl rfl)
  cases round.answer with
  | none => exact .inl (.inl rfl)
  | some _ =>
    simp only [negoRecvResponse]
    split
    · exact .inl (.inl rfl)
    next recv => exact step _ (negoRecv_ended recv)

/-- What follows an attempt is weaker, or it is over. -/
theorem negoSend_weakens (nego : RdpNego) (some : 0 < nego.state.strength) (round : NegoRound) :
    (negoSend nego round).Weakens nego.state.strength := by
  have tries :
    ∀ {states strength} (_ : ∀ st ∈ states, 0 < st.strength ∧ st.strength < strength) (nego : RdpNego),
      nego.Ended → (negoTryNext states nego).Weakens strength := by
    intro states strength weaker nego _
    rw [negoTryNext]
    split
    · exact negoFallback_weakens nego weaker
    next final => exact .inl (.inr (not_not.mp final))
  unfold negoSend
  cases st : nego.state with
  | aad | rdstls | ext | nla | tls => exact negoAttempt_weakens (tries (by decide)) _ nego round
  | rdp => exact negoAttempt_weakens (fun _ fin => .inl fin) _ nego round
  | initial | fail | final =>
    rw [st] at some
    cases some

theorem negoSend_ended (fin : nego.Ended) (round : NegoRound) : negoSend nego round = nego := by
  obtain fail | final := fin
  · rw [negoSend, fail]
  · rw [negoSend, final]

theorem foldl_negoSend_ended (fin : nego.Ended) (rounds : List NegoRound) :
    rounds.foldl negoSend nego = nego := by
  induction rounds with
  | nil => rfl
  | cons _ rounds ih => rw [List.foldl_cons, negoSend_ended fin, ih]

theorem negoLoop_eq (open_ : nego.state ≠ .final) (rounds : List NegoRound) : negoLoop nego rounds =
      if (rounds.foldl negoSend nego).state = .final then some (rounds.foldl negoSend nego)
      else none := by
  induction rounds generalizing nego with
  | nil => exact (if_neg open_).symm
  | cons _ rounds ih =>
    rw [negoLoop, List.foldl_cons]
    split
    next fail => rw [foldl_negoSend_ended (.inl fail), fail]; rfl
    split
    next final => rw [foldl_negoSend_ended (.inr final), if_pos final]
    next goes => exact ih goes

def RoundWeakens (nego : RdpNego) (round : NegoRound) : Prop :=
  nego.Weakens 7 ∧ (negoSend nego round).Weakens nego.state.strength

theorem negoRounds_weaken (weakens : nego.Weakens (strength + 1)) (six : strength ≤ 6)
    (rounds : List NegoRound) :
    StepsMeet negoStep RoundWeakens nego rounds ∧
    (rounds.length < strength ∨ (rounds.foldl negoSend nego).Ended) := by
  induction rounds generalizing nego strength with
  | nil =>
    refine ⟨trivial, weakens.symm.imp_left fun attempt => ?_⟩
    rw [List.length_nil]
    omega
  | cons round rounds ih =>
    rw [List.foldl_cons]
    obtain fin | ⟨on, some, _⟩ := weakens
    · -- nothing is sent any more
      have idle := negoSend_ended fin round
      have rest := ih (.inl fin) six
      exact ⟨⟨⟨.inl fin, .inl (by rw [idle]; exact fin)⟩, by rw [negoStep, idle]; exact rest.1⟩,
        .inr (by rw [idle, foldl_negoSend_ended fin]; exact fin)⟩
    -- the strength of the attempt bounds the rounds that are left
    have next := negoSend_weakens nego some round
    obtain ⟨left, same⟩ := Nat.exists_eq_add_one.mpr some
    obtain ⟨meets, fin⟩ := ih (same ▸ next) (by omega)
    exact ⟨⟨⟨.inr ⟨on, some, by omega⟩, next⟩, meets⟩,
      fin.imp_left fun short => by rw [List.length_cons]; omega⟩

/-- Every attempt is for an enabled protocol, and the next one for a weaker one; after six answers
it is over, and the loop returns what is final. -/
theorem nego_attempts_weaken (nego : RdpNego) (rounds : List NegoRound) :
    StepsMeet negoStep RoundWeakens (negoStart nego) rounds ∧
      (rounds.length < 6 ∨ (rounds.foldl negoSend (negoStart nego)).Ended) ∧
      negoLoop (negoStart nego) rounds = if (rounds.foldl negoSend (negoStart nego)).state = .final then
        some (rounds.foldl negoSend (negoStart nego)) else none := by
  have st : (negoStart nego).Weakens 7 := negoFallback_weakens nego (by decide)
  obtain ⟨meets, fin⟩ := negoRounds_weaken st (Nat.le_refl 6) rounds
  exact ⟨meets, fin, negoLoop_eq (negoFallback_ne_final nego (by decide)) rounds⟩

/-! ## The selected protocol -/

/-- The two protocols that are not looked up are only requested by attempts that are made for them. -/
theorem wanted_of_named (enabled : nego.enabled (negoStateProtocol nego.state) = true)
    {protocol : Nat} (known : protocol ∈ knownProtocols)
    (contained : protocol &&& negoRequested nego.state = protocol)
    (passes : PassesLookup nego protocol) :
    Wanted nego (negoRequested nego.state) protocol := by
  refine ⟨known, ?_, contained⟩
  by_cases looked : protocol ∈ [PROTOCOL_RDP, PROTOCOL_SSL, PROTOCOL_HYBRID, PROTOCOL_RDSAAD]
  · exact passes looked
  have unlooked : protocol = PROTOCOL_RDSTLS ∨ protocol = PROTOCOL_HYBRID_EX := by
    simp only [knownProtocols, List.mem_cons, List.not_mem_nil, or_false] at known looked
    tauto
  obtain rfl | rfl := unlooked
  · cases state : nego.state with
    | rdstls =>
      rw [state] at enabled
      exact enabled
    | initial | aad | ext | nla | tls | rdp | fail | final =>
      rw [state] at contained
      exact absurd contained (by decide)
  · cases state : nego.state with
    | ext =>
      rw [state] at enabled
      exact enabled
    | initial | aad | rdstls | nla | tls | rdp | fail | final =>
      rw [state] at contained
      exact absurd contained (by decide)

/-- The rounds end in a wanted protocol, by induction on them. -/
theorem negoLoop_wanted {result : RdpNego} {rounds : List NegoRound} (attempt : 0 < nego.state.strength)
    (enabled : nego.enabled (negoStateProtocol nego.state) = true)
    (meets : StepsMeet negoStep RoundRegular nego rounds) (done : negoLoop nego rounds = some result) :
    Wanted nego result.requestedProtocols result.selectedProtocol := by
  induction rounds generalizing nego with
  | nil => cases done
  | cons round rounds ih =>
    obtain ⟨regular, later⟩ := meets
    have unsettled : nego.state ≠ .final := by
      intro final
      rw [final] at attempt
      cases attempt
    have tried := negoSend_tried unsettled round
    rw [negoLoop] at done
    by_cases failed : (negoSend nego round).state = .fail
    · rw [if_pos failed] at done
      cases done
    rw [if_neg failed] at done
    by_cases final : (negoSend nego round).state = .final
    · -- the answer of this round decides
      rw [if_pos final] at done
      cases done
      obtain ⟨requested, bytes, given, settled⟩ := tried.settles final
      obtain ⟨fresh, contained⟩ := regular unsettled bytes given
      rw [requested]
      obtain ⟨plain, same, rdp⟩ | ⟨named, passes⟩ := settled
      · rw [same, fresh plain]
        exact ⟨by decide, rdp, Nat.zero_and _⟩
      · obtain ⟨known, inside⟩ := contained _ named passes
        exact wanted_of_named enabled known inside passes
    rw [if_neg final] at done
    obtain ended | ⟨enabled', attempt', -⟩ := negoSend_weakens nego attempt round
    · exact absurd ended (not_or.mpr ⟨failed, final⟩)
    have rest := ih attempt' enabled' later done
    exact ⟨rest.known, tried.narrows _ rest.enabled, rest.contained⟩

/-- If every answer that the client takes names a protocol of the request, and none without negotiation
data follows a refused one, the negotiation ends in a protocol that was enabled and requested. -/
theorem nego_ends_in_wanted {nego result : RdpNego} (new : nego.state = .initial)
    (negotiates : nego.negotiateSecurityLayer = true) {tcp preconnection : Bool}
    {rounds : List NegoRound} (meets : StepsMeet negoStep RoundRegular (negoStart nego) rounds)
    (done : negoConnect nego tcp preconnection rounds = some result) :
    Wanted nego result.requestedProtocols result.selectedProtocol := by
  have layer : (negoStart nego).negotiateSecurityLayer = true := negotiates
  have start : (negoStart nego).Weakens 7 := negoFallback_weakens nego (by decide)
  simp only [negoConnect, if_pos new, layer, not_true_eq_false, if_false] at done
  split at done
  · cases done
  rename_i _ started
  split at started
  · cases started
  next running =>
    iterate 2
      split at started
      · cases started
    cases started
    rw [layer] at done
    obtain failed | ⟨enabled, attempt, -⟩ := start
    · obtain failed | final := failed
      · exact absurd failed running
      · exact absurd final (negoFallback_ne_final nego (by decide))
    · have wanted := negoLoop_wanted attempt enabled meets done
      exact ⟨wanted.known, wanted.enabled, wanted.contained⟩

def confirmResponse (protocol : Nat) : List UInt8 :=
  [3, 0, 0, 19, 14, 0xD0, 0, 0, 0, 0, 0, 2, 0, 8, 0] ++ leBytes 4 protocol

def confirmPlain : List UInt8 := [3, 0, 0, 11, 6, 0xD0, 0, 0, 0, 0, 0]

def negoNew (protocols : List Nat) : RdpNego where
  state := .initial
  enabled := fun x => decide (x ∈ protocols)
  flags := 0
  selectedProtocol := 0
  requestedProtocols := 0
  sendNegoData := false
  negotiateSecurityLayer := true
  sendPreconnectionPdu := false

def answeredBy (bytes : List UInt8) : NegoRound := ⟨true, true, some bytes⟩

/-- The server first names NLA, and then TLS. -/
def nlaThenTls : List NegoRound :=
  [answeredBy (confirmResponse PROTOCOL_HYBRID), answeredBy (confirmResponse PROTOCOL_SSL)]

/-- A client with AAD and TLS refuses NLA and ends in TLS; one with TLS only refuses NLA too. -/
theorem nego_ends_in_wanted_tls :
    (∃ result, negoConnect (negoNew [PROTOCOL_RDSAAD, PROTOCOL_SSL]) true true nlaThenTls = some result ∧
      Wanted (negoNew [PROTOCOL_RDSAAD, PROTOCOL_SSL]) result.requestedProtocols
      result.selectedProtocol) ∧
    StepsMeet negoStep RoundRegular (negoStart (negoNew [PROTOCOL_SSL]))
    [answeredBy (confirmResponse PROTOCOL_HYBRID)] := by
  have refused {nego : RdpNego} (disabled : nego.enabled PROTOCOL_HYBRID = false) :
      RoundRegular nego (answeredBy (confirmResponse PROTOCOL_HYBRID)) := by
    intro _ bytes given
    cases given
    refine ⟨fun plain => (by cases plain), fun protocol named passes => ?_⟩
    have nla : protocol = PROTOCOL_HYBRID := (Option.some.inj named).symm
    rw [nla] at passes
    rw [passes (by decide)] at disabled
    cases disabled
  have tls : RoundRegular (negoStep (negoStart (negoNew [PROTOCOL_RDSAAD, PROTOCOL_SSL]))
      (answeredBy (confirmResponse PROTOCOL_HYBRID))).1 (answeredBy (confirmResponse PROTOCOL_SSL)) := by
    intro _ bytes given
    cases given
    refine ⟨fun plain => (by cases plain), fun protocol named _ => ?_⟩
    have tls : protocol = PROTOCOL_SSL := (Option.some.inj named).symm
    rw [tls]
    exact ⟨by decide, by decide⟩
  have meets :
      StepsMeet negoStep RoundRegular (negoStart (negoNew [PROTOCOL_RDSAAD, PROTOCOL_SSL])) nlaThenTls :=
    ⟨refused rfl, tls, trivial⟩
  have done : ∃ result,
      negoConnect (negoNew [PROTOCOL_RDSAAD, PROTOCOL_SSL]) true true nlaThenTls = some result :=
    ⟨_, rfl⟩
  obtain ⟨result, done⟩ := done
  exact ⟨⟨result, done, nego_ends_in_wanted rfl rfl meets done⟩, refused rfl, trivial⟩

/-- A client with TLS ends in extended NLA; one with AAD and NLA gets NLA while it asks for AAD;
and one with AAD and RDP keeps the NLA it has refused. -/
theorem nego_ends_in_unwanted :
    ((negoConnect (negoNew [PROTOCOL_SSL]) true true
      [answeredBy (confirmResponse PROTOCOL_HYBRID_EX)]).map
        fun nego => (nego.state, nego.selectedProtocol)) = some (.final, PROTOCOL_HYBRID_EX) ∧
    ((negoConnect (negoNew [PROTOCOL_RDSAAD, PROTOCOL_HYBRID]) true true
        [answeredBy (confirmResponse PROTOCOL_HYBRID)]).map
        fun nego => (nego.state, nego.requestedProtocols, nego.selectedProtocol)) =
      some (.final, PROTOCOL_RDSAAD, PROTOCOL_HYBRID) ∧
    ((negoConnect (negoNew [PROTOCOL_RDSAAD, PROTOCOL_RDP]) true true
        [answeredBy (confirmResponse PROTOCOL_HYBRID), answeredBy confirmPlain]).map
        fun nego => (nego.state, nego.selectedProtocol)) = some (.final, PROTOCOL_HYBRID) := by
  decide

end KvmServer.Core
