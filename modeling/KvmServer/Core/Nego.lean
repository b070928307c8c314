import KvmServer.Core.RdpHeader

/-! # Protocol security negotiation, the client (`core/nego.c`)

The client tries its protocols one after the other.  A round sends a request and waits for a
connection confirm, which may carry a response or a failure.  What the transport does is given
round by round. -/

namespace KvmServer.Core
open Lib Winpr

def PROTOCOL_RDP : Nat := 0x00000000
def PROTOCOL_SSL : Nat := 0x00000001
def PROTOCOL_HYBRID : Nat := 0x00000002
def PROTOCOL_RDSTLS : Nat := 0x00000004
def PROTOCOL_HYBRID_EX : Nat := 0x00000008
def PROTOCOL_RDSAAD : Nat := 0x00000010

def SSL_REQUIRED_BY_SERVER : Nat := 0x00000001
def SSL_NOT_ALLOWED_BY_SERVER : Nat := 0x00000002
def SSL_CERT_NOT_ON_SERVER : Nat := 0x00000003
def HYBRID_REQUIRED_BY_SERVER : Nat := 0x00000005

def TYPE_RDP_NEG_REQ : Nat := 0x1
def TYPE_RDP_NEG_RSP : Nat := 0x2
def TYPE_RDP_NEG_FAILURE : Nat := 0x3

def X224_TPDU_CONNECTION_REQUEST : Nat := 0xE0
def X224_TPDU_CONNECTION_CONFIRM : Nat := 0xD0

inductive NegoState where
  | initial
  | rdstls
  | aad
  | ext
  | nla
  | tls
  | rdp
  | fail
  | final
deriving DecidableEq, Repr

structure RdpNego where
  state : NegoState
  enabled : Nat → Bool
  (flags selectedProtocol requestedProtocols : Nat)
  (sendNegoData negotiateSecurityLayer sendPreconnectionPdu : Bool)

variable (nego : RdpNego)

def negoSetState (state : NegoState) : RdpNego := { nego with state := state }

/-! ## The connection confirm -/

/-- The length indicator and what follows.  The difference is a `size_t`. -/
def tpduReadConnectionConfirm (tpktlength : Nat) (bytes : List UInt8) : Option (Nat × List UInt8) :=
  match tpduReadHeader tpktlength bytes with
  | none => none
  | some (code, rest) =>
    if code ≠ X224_TPDU_CONNECTION_CONFIRM then none
    else
      let li := (bytes.headD 0).toNat
      let bytesRead := bytes.length - rest.length - 1
      if rest.length < (li + 2 ^ 64 - bytesRead) % 2 ^ 64 then none else some (li, rest)

/-- `flags`, `length` and the 32-bit value of `RDP_NEG_RSP` and `RDP_NEG_FAILURE`. -/
structure NegData where
  (flags length value : Nat)

variable (bytes : List UInt8)

def negReadData : Option (NegData × List UInt8) :=
  if bytes.length < 7 then none
  else some (⟨leValue (bytes.take 1), leValue ((bytes.drop 1).take 2),
    leValue ((bytes.drop 3).take 4)⟩, bytes.drop 7)

def negoProcessNegotiationResponse : RdpNego × Option (List UInt8) :=
  match negReadData bytes with
  | none => (negoSetState nego .fail, none)
  | some (data, rest) =>
    let nego := { nego with flags := data.flags }
    if data.length ≠ 8 then (negoSetState nego .fail, none)
    else (negoSetState { nego with selectedProtocol := data.value } .final, some rest)

def negoDisableAllExcept (what : Nat) : RdpNego :=
  { nego with enabled := fun x => if x = what then nego.enabled x else false }

def negoApplyFailure (failureCode : Nat) : RdpNego :=
  if failureCode = SSL_REQUIRED_BY_SERVER then negoDisableAllExcept nego PROTOCOL_SSL
  else if failureCode = SSL_NOT_ALLOWED_BY_SERVER then
    { negoDisableAllExcept nego PROTOCOL_RDP with sendNegoData := true }
  else if failureCode = SSL_CERT_NOT_ON_SERVER then { nego with sendNegoData := true }
  else if failureCode = HYBRID_REQUIRED_BY_SERVER then negoDisableAllExcept nego PROTOCOL_HYBRID
  else nego

def negoProcessNegotiationFailure : RdpNego × Option (List UInt8) :=
  match negReadData bytes with
  | none => (nego, none)
  | some (data, rest) =>
    if data.flags ≠ 0 then (nego, none)
    else if data.length ≠ 8 then (nego, none)
    else (negoSetState (negoApplyFailure nego data.value) .fail, some rest)

def negoCheckSelected : RdpNego :=
  if nego.selectedProtocol ≠ 0 then
    if (nego.selectedProtocol = PROTOCOL_RDSAAD ∧ ¬nego.enabled PROTOCOL_RDSAAD) ∨
        (nego.selectedProtocol = PROTOCOL_HYBRID ∧ ¬nego.enabled PROTOCOL_HYBRID) ∨
        (nego.selectedProtocol = PROTOCOL_SSL ∧ ¬nego.enabled PROTOCOL_SSL) then negoSetState nego .fail
    else nego
  else if ¬nego.enabled PROTOCOL_RDP then negoSetState nego .fail
  else nego

/-- `tpkt_ensure_stream_consumed`: nothing may be left. -/
def negoFinish (rest : Option (List UInt8)) : RdpNego × Bool :=
  match rest with
  | none => (nego, false)
  | some rest => (nego, rest.isEmpty)

def negoReadNegData : RdpNego × Bool :=
  match bytes with
  | [] => (nego, false)
  | type :: bytes =>
    if type.toNat = TYPE_RDP_NEG_RSP then
      match negoProcessNegotiationResponse nego bytes with
      | (nego, none) => (nego, false)
      | (nego, some rest) => negoFinish (negoCheckSelected nego) (some rest)
    else if type.toNat = TYPE_RDP_NEG_FAILURE then
      let (nego, rest) := negoProcessNegotiationFailure nego bytes
      negoFinish nego rest
    else (nego, false)

def negoConfirm (li : Nat) (bytes : List UInt8) : RdpNego × Bool :=
  if li > 6 then negoReadNegData nego bytes
  else if li = 6 then
    if ¬nego.enabled PROTOCOL_RDP then negoFinish (negoSetState nego .fail) (some bytes)
    else negoFinish (negoSetState nego .final) (some bytes)
  else negoFinish (negoSetState nego .fail) (some bytes)

def negoReadConfirm : Option (Nat × List UInt8) :=
  match tpktReadHeader bytes with
  | none => none
  | some (length, bytes) => tpduReadConnectionConfirm length bytes

def negoRecv : RdpNego × Bool :=
  match negoReadConfirm bytes with
  | none => (nego, false)
  | some (li, bytes) => negoConfirm nego li bytes

/-! ## Attempts -/

/-- What the transport does in a round: it connects, sends the request and reads an answer. -/
structure NegoRound where
  (connected sent : Bool)
  answer : Option (List UInt8)

def negoStateProtocol : NegoState → Nat
  | .aad => PROTOCOL_RDSAAD
  | .rdstls => PROTOCOL_RDSTLS
  | .ext => PROTOCOL_HYBRID_EX
  | .nla => PROTOCOL_HYBRID
  | .tls => PROTOCOL_SSL
  | _ => PROTOCOL_RDP

def negoFallback (nego : RdpNego) : List NegoState → NegoState
  | [] => .fail
  | state :: states => if nego.enabled (negoStateProtocol state) then state else negoFallback nego states

def negoRecvResponse (answer : Option (List UInt8)) : RdpNego × Bool :=
  match answer with
  | none => (nego, false)
  | some bytes => negoRecv nego bytes

def negoAttempt (requested : Nat) (next : RdpNego → RdpNego) (nego : RdpNego) (round : NegoRound) :
    RdpNego :=
  let nego := { nego with requestedProtocols := requested }
  if ¬round.connected then negoSetState nego .fail
  else if ¬round.sent then negoSetState nego .fail
  else
    match negoRecvResponse nego round.answer with
    | (nego, false) => negoSetState nego .fail
    | (nego, true) => next nego

def negoTryNext (states : List NegoState) (nego : RdpNego) : RdpNego :=
  if nego.state ≠ .final then negoSetState nego (negoFallback nego states) else nego

def negoAttemptRdstls : RdpNego → NegoRound → RdpNego :=
  negoAttempt (PROTOCOL_RDSTLS ||| PROTOCOL_SSL) (negoTryNext [.ext, .nla, .tls, .rdp])

def negoAttemptRdsaad : RdpNego → NegoRound → RdpNego :=
  negoAttempt PROTOCOL_RDSAAD (negoTryNext [.ext, .nla, .tls, .rdp])

def negoAttemptExt : RdpNego → NegoRound → RdpNego :=
  negoAttempt (PROTOCOL_HYBRID ||| PROTOCOL_SSL ||| PROTOCOL_HYBRID_EX) (negoTryNext [.nla, .tls, .rdp])

def negoAttemptNla : RdpNego → NegoRound → RdpNego :=
  negoAttempt (PROTOCOL_HYBRID ||| PROTOCOL_SSL) (negoTryNext [.tls, .rdp])

def negoAttemptTls : RdpNego → NegoRound → RdpNego := negoAttempt PROTOCOL_SSL (negoTryNext [.rdp])

def negoAttemptRdp : RdpNego → NegoRound → RdpNego := negoAttempt PROTOCOL_RDP id

def negoSend (round : NegoRound) : RdpNego :=
  match nego.state with
  | .aad => negoAttemptRdsaad nego round
  | .rdstls => negoAttemptRdstls nego round
  | .ext => negoAttemptExt nego round
  | .nla => negoAttemptNla nego round
  | .tls => negoAttemptTls nego round
  | .rdp => negoAttemptRdp nego round
  | _ => nego

/-- The loop of `nego_connect`; `none` is a failed negotiation.  Without a further round the
transport is gone. -/
def negoLoop : RdpNego → List NegoRound → Option RdpNego
  | _, [] => none
  | nego, round :: rounds =>
    let nego := negoSend nego round
    if nego.state = .fail then none
    else if nego.state = .final then some nego
    else negoLoop nego rounds

/-- Without negotiation only the highest enabled protocol is left, and it is taken. -/
def negoSelectDirect : RdpNego :=
  let protocol := negoStateProtocol nego.state
  { nego with
    enabled := fun x =>
      if x = protocol then true
      else if nego.state = .ext ∧ x = PROTOCOL_HYBRID then true
      else if x ∈ [PROTOCOL_RDSAAD, PROTOCOL_HYBRID, PROTOCOL_SSL, PROTOCOL_RDP,
        PROTOCOL_HYBRID_EX, PROTOCOL_RDSTLS]
        then false
      else nego.enabled x
    selectedProtocol := protocol }

def negoStart : RdpNego :=
  negoSetState nego (negoFallback nego [.aad, .rdstls, .ext, .nla, .tls, .rdp])

/-- `nego_connect` up to the end of the negotiation.  `tcp` and `preconnection` tell whether the
connection and the preconnection PDU went through. -/
def negoConnect (tcp preconnection : Bool) (rounds : List NegoRound) : Option RdpNego :=
  let start :=
    if nego.state = .initial then
      let nego := negoStart nego
      if nego.state = .fail then none
      else
        let nego := if ¬nego.negotiateSecurityLayer then negoSelectDirect nego else nego
        if ¬tcp then none
        else if nego.sendPreconnectionPdu ∧ ¬preconnection then none
        else some nego
    else some nego
  match start with
  | none => none
  | some nego =>
    if ¬nego.negotiateSecurityLayer then some (negoSetState nego .final) else negoLoop nego rounds

end KvmServer.Core
