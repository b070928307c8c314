import KvmServer.Core.Nego

/-! # The negotiation request (`core/nego.c`)

A connection request carries a routing token or a cookie, closed by CR LF, and the protocols the
client asks for.  The server looks for the token or the cookie by its first characters and scans
for its end. -/

namespace KvmServer.Core
open Lib Winpr List

def RESTRICTED_ADMIN_MODE_REQUIRED : Nat := 0x01
def REDIRECTED_AUTHENTICATION_MODE_REQUIRED : Nat := 0x02
def CORRELATION_INFO_PRESENT : Nat := 0x08
def TYPE_RDP_CORRELATION_INFO : Nat := 0x06
def TPDU_CONNECTION_REQUEST_LENGTH : Nat := 11

def ascii (text : String) : List UInt8 := text.toList.map fun c => UInt8.ofNat c.toNat

def cookieStart : List UInt8 := ascii "Cookie: mstshash="

def CR : UInt8 := 0x0D
def LF : UInt8 := 0x0A

/-! ## Sending -/

structure NegoClient where
  (routingToken cookie : Option (List UInt8))
  (cookieMaxLength requestedProtocols : Nat)
  (sendNegoData restrictedAdminModeRequired remoteCredsGuardRequired : Bool)

/-- A token that ends in CR LF already is sent as it is. -/
def negoWriteToken (token : List UInt8) : List UInt8 :=
  if token.length > 2 ∧ token.drop (token.length - 2) = [CR, LF] then token else token ++ [CR, LF]

def negoWriteCookie (cookie : List UInt8) (cookieMaxLength : Nat) : List UInt8 :=
  cookieStart ++ cookie.take cookieMaxLength ++ [CR, LF]

variable (nego : NegoClient)

def negoWriteTokenOrCookie : List UInt8 :=
  match nego.routingToken with
  | some token => negoWriteToken token
  | none =>
    match nego.cookie with
    | some cookie => negoWriteCookie cookie nego.cookieMaxLength
    | none => []

def negoRequestFlags : Nat :=
  (if nego.restrictedAdminModeRequired then RESTRICTED_ADMIN_MODE_REQUIRED else 0) |||
    (if nego.remoteCredsGuardRequired then REDIRECTED_AUTHENTICATION_MODE_REQUIRED else 0)

def negoWriteNegData : List UInt8 :=
  if nego.requestedProtocols > PROTOCOL_RDP ∨ nego.sendNegoData then
    UInt8.ofNat TYPE_RDP_NEG_REQ :: UInt8.ofNat (negoRequestFlags nego) ::
      (leBytes 2 8 ++ leBytes 4 nego.requestedProtocols)
  else []

/-- The bytes handed to the transport.  The stream has 512 bytes and the length indicator one. -/
def negoSendNegotiationRequest : Except Stop (List UInt8) :=
  let body := negoWriteTokenOrCookie nego ++ negoWriteNegData nego
  let length := TPDU_CONNECTION_REQUEST_LENGTH + body.length
  if length > 512 then .error .assertion
  else if length - 5 > 0xFF then .error .assertion
  else
    .ok (tpktBytes length ++
      (UInt8.ofNat (length - 5) :: UInt8.ofNat X224_TPDU_CONNECTION_REQUEST :: [0, 0, 0, 0, 0] ++ body))

/-! ## Receiving -/

structure NegoServer where
  (routingToken cookie : Option (List UInt8))
  requestedProtocols : Nat
  (restrictedAdminModeSupported remoteCredsGuardSupported remoteCredsGuardActive final : Bool)

/-- `while (Stream_GetRemainingLength(s) >= 2)`: the bytes before the first CR LF, and those behind
it. -/
def scanCrLf : List UInt8 → Option (List UInt8 × List UInt8)
  | a :: b :: bytes =>
    if a = CR ∧ b = LF then some ([], bytes)
    else (scanCrLf (b :: bytes)).map fun found => (a :: found.1, found.2)
  | _ => none

variable (nego : NegoServer)

/-- `str` is everything before CR LF, the start of a cookie included. -/
def negoStoreTokenOrCookie (isToken : Bool) (str : List UInt8) : Option NegoServer :=
  if 0 ∈ str then none
  else if isToken then
    if str.length = 0 then none else some { nego with routingToken := some str }
  else some { nego with cookie := some str }

def negoScanTokenOrCookie (isToken : Bool) (start bytes : List UInt8) :
    Option (NegoServer × List UInt8) :=
  match scanCrLf bytes with
  | none => none
  | some (text, rest) => (negoStoreTokenOrCookie nego isToken (start ++ text)).map fun nego =>
      (nego, rest)

variable (bytes : List UInt8)

/-- Bytes that start in no known way are left for the negotiation data. -/
def negoReadRequestTokenOrCookie : Option (NegoServer × List UInt8) :=
  if bytes.length < 15 then some (nego, bytes)
  else if bytes.take 17 ≠ cookieStart then
    if bytes.take 13 ≠ ascii "Cookie: msts=" ∧ bytes.take 4 ≠ ascii "tsv:" ∧
        bytes.take 6 ≠ ascii "mth://" then
      some (nego, bytes)
    else negoScanTokenOrCookie nego true [] bytes
  else if bytes.length < 19 then some (nego, bytes)
  else negoScanTokenOrCookie nego false (bytes.take 17) (bytes.drop 17)

def negoProcessCorrelationInfo : Option (List UInt8) :=
  if bytes.length < 36 then none
  else
    let correlationId := (bytes.drop 4).take 16
    if leValue (bytes.take 1) ≠ TYPE_RDP_CORRELATION_INFO then none
    else if leValue ((bytes.drop 1).take 1) ≠ 0 then none
    else if leValue ((bytes.drop 2).take 2) ≠ 36 then none
    else if correlationId.headD 0 = 0 ∨ correlationId.headD 0 = 0xF4 then none
    else if CR ∈ correlationId then none
    else some (bytes.drop 36)

def negoAcceptModes (flags : Nat) : Option NegoServer :=
  if flags &&& RESTRICTED_ADMIN_MODE_REQUIRED ≠ 0 ∧ ¬nego.restrictedAdminModeSupported then none
  else if flags &&& REDIRECTED_AUTHENTICATION_MODE_REQUIRED ≠ 0 then
    if nego.remoteCredsGuardSupported then some { nego with remoteCredsGuardActive := true }
    else if flags &&& RESTRICTED_ADMIN_MODE_REQUIRED ≠ 0 then some nego
    else none
  else some nego

def negoProcessNegotiationRequest : Option (NegoServer × List UInt8) :=
  match negReadData bytes with
  | none => none
  | some (data, rest) =>
    -- flags other than the three
    if data.flags &&& 0xF4 ≠ 0 then none
    else
      match negoAcceptModes nego data.flags with
      | none => none
      | some nego =>
        if data.length ≠ 8 then none
        else
          let nego := { nego with requestedProtocols := data.value, final := true }
          if data.flags &&& CORRELATION_INFO_PRESENT ≠ 0 then
            (negoProcessCorrelationInfo rest).map fun rest => (nego, rest)
          else some (nego, rest)

def negoReadRequestData : Option (NegoServer × List UInt8) :=
  if bytes.length ≥ 8 then
    match bytes with
    | [] => none
    | type :: bytes =>
        if type.toNat ≠ TYPE_RDP_NEG_REQ then none else negoProcessNegotiationRequest nego bytes
  else some (nego, bytes)

def tpduReadConnectionRequest (tpktlength : Nat) (bytes : List UInt8) : Option (Nat × List UInt8) :=
  match tpduReadHeader tpktlength bytes with
  | none => none
  | some (code, rest) =>
    if code ≠ X224_TPDU_CONNECTION_REQUEST then none else some ((bytes.headD 0).toNat, rest)

def negoReadRequestBody (li : Nat) (bytes : List UInt8) : Option NegoServer :=
  if li ≠ bytes.length + 6 then none
  else
    match negoReadRequestTokenOrCookie nego bytes with
    | none => none
    | some (nego, bytes) =>
      match negoReadRequestData nego bytes with
      | none => none
      | some (nego, rest) => if rest.isEmpty then some nego else none

def negoReadRequest : Option NegoServer :=
  match tpktReadHeader bytes with
  | none => none
  | some (length, bytes) =>
    match tpduReadConnectionRequest length bytes with
    | none => none
    | some (li, bytes) => negoReadRequestBody nego li bytes

/-! ## Round trip -/

def Unbroken (text : List UInt8) : Prop := ¬[CR, LF] <:+: text

variable {text : List UInt8} {server : NegoServer}

theorem Unbroken.tail {a : UInt8} (unbroken : Unbroken (a :: text)) : Unbroken text :=
  fun inside => unbroken (inside.trans (suffix_cons a text).isInfix)

theorem scanCrLf_append (unbroken : Unbroken text) (rest : List UInt8) :
    scanCrLf (text ++ CR :: LF :: rest) = some (text, rest) := by
  induction text with
  | nil => rw [nil_append, scanCrLf, if_pos ⟨rfl, rfl⟩]
  | cons a text ih =>
    have later := ih unbroken.tail
    cases text with
    | nil =>
      -- the next byte is the CR that was added
      rw [cons_append, nil_append, scanCrLf, if_neg (fun both => absurd both.2 (by decide))]
      rw [nil_append] at later
      rfl
    | cons b text =>
      have apart : ¬(a = CR ∧ b = LF) := by
        rintro ⟨rfl, rfl⟩
        exact unbroken ⟨[], text, rfl⟩
      rw [cons_append, cons_append, scanCrLf, if_neg apart]
      rw [cons_append] at later
      rw [later]
      rfl

variable {token : List UInt8} {client : NegoClient}

theorem negoWriteToken_eq (unbroken : Unbroken token) : negoWriteToken token = token ++ [CR, LF] := by
  rw [negoWriteToken, if_neg]
  rintro ⟨-, fin⟩
  apply unbroken
  rw [← fin]
  exact (drop_suffix _ _).isInfix

inductive NegoIdentity where
  | token (text : List UInt8)
  | cookie (text : List UInt8)

def NegoClient.identity (nego : NegoClient) : Option NegoIdentity :=
  match nego.routingToken with
  | some token => some (.token token)
  | none => nego.cookie.map .cookie

def Recognised (token : List UInt8) : Prop :=
  ascii "Cookie: msts=" <+: token ∨ ascii "tsv:" <+: token ∨ ascii "mth://" <+: token

def NegoIdentity.Allowed (cookieMaxLength : Nat) : NegoIdentity → Prop
  | .token text => Recognised text ∧ 13 ≤ text.length ∧ 0 ∉ text ∧ Unbroken text
  | .cookie text => 1 ≤ text.length ∧ text.length ≤ cookieMaxLength ∧ 0 ∉ text ∧ Unbroken text

def NegoIdentity.Stored : NegoIdentity → Prop
  | .token text => nego.routingToken = some text
  | .cookie text => nego.cookie = some (cookieStart ++ text)

theorem take_of_isPrefix {start : List UInt8} (known : start <+: token) (rest : List UInt8) :
    (token ++ rest).take start.length = start := by
  obtain ⟨_, rfl⟩ := known
  rw [append_assoc, take_left]

theorem Recognised.not_cookie (known : Recognised token) (rest : List UInt8) :
    (token ++ rest).take 17 ≠ cookieStart := by
  intro same
  have lt : ∀ n, n ≤ 17 → (token ++ rest).take n = cookieStart.take n := by
    intro n le
    rw [← same, take_take, min_eq_left le]
  obtain cookie | tsv | mth := known
  · have fst := lt 13 (by decide)
    rw [show (token ++ rest).take 13 = ascii "Cookie: msts=" from take_of_isPrefix cookie rest] at fst
    exact absurd fst (by decide)
  · have fst := lt 4 (by decide)
    rw [show (token ++ rest).take 4 = ascii "tsv:" from take_of_isPrefix tsv rest] at fst
    exact absurd fst (by decide)
  have fst := lt 6 (by decide)
  rw [show (token ++ rest).take 6 = ascii "mth://" from take_of_isPrefix mth rest] at fst
  exact absurd fst (by decide)

theorem Recognised.not_unknown (known : Recognised token) (rest : List UInt8) :
    ¬((token ++ rest).take 13 ≠ ascii "Cookie: msts=" ∧ (token ++ rest).take 4 ≠ ascii "tsv:" ∧
      (token ++ rest).take 6 ≠ ascii "mth://") := by
  rintro ⟨notCookie, notTsv, notMth⟩
  obtain cookie | tsv | mth := known
  · exact notCookie (take_of_isPrefix cookie rest)
  · exact notTsv (take_of_isPrefix tsv rest)
  · exact notMth (take_of_isPrefix mth rest)

theorem tokenOrCookie_token (known : Recognised token)
    (len : 13 ≤ token.length) (text : 0 ∉ token) (unbroken : Unbroken token)
    (nego : NegoServer) (rest : List UInt8) :
    negoReadRequestTokenOrCookie nego (token ++ CR :: LF :: rest) =
    some ({ nego with routingToken := some token }, rest) := by
  have long : ¬(token ++ CR :: LF :: rest).length < 15 := by
    rw [length_append, length_cons, length_cons]
    omega
  have pos : ¬token.length = 0 := by omega
  rw [negoReadRequestTokenOrCookie, if_neg long, if_pos (known.not_cookie _),
    if_neg (known.not_unknown _), negoScanTokenOrCookie, scanCrLf_append unbroken]
  simp only [negoStoreTokenOrCookie, nil_append, if_neg text, if_neg pos, if_true, Option.map_some]

theorem tokenOrCookie_cookie {cookie : List UInt8} (some_ : 1 ≤ cookie.length) (text : 0 ∉ cookie)
    (unbroken : Unbroken cookie) (nego : NegoServer) (rest : List UInt8) :
    negoReadRequestTokenOrCookie nego (cookieStart ++ (cookie ++ CR :: LF :: rest)) =
      some ({ nego with cookie := some (cookieStart ++ cookie) }, rest) := by
  have start : cookieStart.length = 17 := by decide
  have len : (cookieStart ++ (cookie ++ CR :: LF :: rest)).length = 17 +
      (cookie.length + (rest.length + 2)) := by
    rw [length_append, length_append, length_cons, length_cons, start]
  have plain : 0 ∉ cookieStart ++ cookie := by
    rw [mem_append, not_or]
    exact ⟨by decide, text⟩
  rw [negoReadRequestTokenOrCookie, if_neg (by omega), take_left' start, if_neg (fun diff => diff rfl),
    if_neg (by omega), drop_left' start, negoScanTokenOrCookie, scanCrLf_append unbroken]
  simp only [negoStoreTokenOrCookie, if_neg plain, Bool.false_eq_true, if_false, Option.map_some]

def ModesSupported (client : NegoClient) (server : NegoServer) : Prop :=
  (client.restrictedAdminModeRequired = true → server.restrictedAdminModeSupported = true) ∧
    (client.remoteCredsGuardRequired = true →
      server.remoteCredsGuardSupported = true ∨ client.restrictedAdminModeRequired = true)

theorem acceptModes_of_supported (supported : ModesSupported client server) :
    ∃ active, negoAcceptModes server (negoRequestFlags client) =
    some { server with remoteCredsGuardActive := active } := by
  obtain ⟨admin, guard⟩ := supported
  have unchanged :
    some server = some { server with remoteCredsGuardActive := server.remoteCredsGuardActive } := rfl
  cases required : client.restrictedAdminModeRequired with
  | false =>
    cases guarded : client.remoteCredsGuardRequired with
    | false =>
      have flags : negoRequestFlags client = 0 := by simp [negoRequestFlags, required, guarded]
      rw [flags]
      exact ⟨_, unchanged⟩
    | true =>
      have flags : negoRequestFlags client = 2 := by
        simp [negoRequestFlags, required, guarded, REDIRECTED_AUTHENTICATION_MODE_REQUIRED]
      have able : server.remoteCredsGuardSupported = true :=
        (guard guarded).resolve_right (by simp [required])
      rw [flags]
      exact ⟨true, if_pos able⟩
  | true =>
    have possible : ¬(negoRequestFlags client &&& RESTRICTED_ADMIN_MODE_REQUIRED ≠ 0 ∧
        ¬server.restrictedAdminModeSupported = true) := fun rejected => rejected.2 (admin required)
    rw [negoAcceptModes, if_neg possible]
    cases guarded : client.remoteCredsGuardRequired with
    | false =>
      have flags : negoRequestFlags client = 1 := by
        simp [negoRequestFlags, required, guarded, RESTRICTED_ADMIN_MODE_REQUIRED]
      rw [flags]
      exact ⟨_, unchanged⟩
    | true =>
      have flags : negoRequestFlags client = 3 := by
        simp [negoRequestFlags, required, guarded, RESTRICTED_ADMIN_MODE_REQUIRED,
          REDIRECTED_AUTHENTICATION_MODE_REQUIRED]
      rw [flags]
      -- without the other mode the server falls back to restricted admin
      by_cases able : server.remoteCredsGuardSupported = true
      · exact ⟨true, if_pos able⟩
      · exact ⟨_, (if_neg able).trans unchanged⟩

theorem requestFlags_cases (client : NegoClient) :
    negoRequestFlags client = 0 ∨ negoRequestFlags client = 1 ∨ negoRequestFlags client = 2 ∨
    negoRequestFlags client = 3 := by
  unfold negoRequestFlags
  cases client.restrictedAdminModeRequired <;> cases client.remoteCredsGuardRequired <;> decide

theorem negReadData_bytes {flags value : Nat} (lt : flags < 2 ^ 8) (fits : value < 2 ^ 32) :
    negReadData (UInt8.ofNat flags :: (leBytes 2 8 ++ leBytes 4 value)) =
    some (⟨flags, 8, value⟩, []) := by
  have byte : leValue [UInt8.ofNat flags] = flags := leValue_leBytes_of_lt (n := 1) lt
  have word : leValue (leBytes 4 value) = value := leValue_leBytes_of_lt fits
  change some (NegData.mk (leValue [UInt8.ofNat flags]) (leValue (leBytes 2 8))
    (leValue (leBytes 4 value)), []) = _
  rw [byte, word]
  rfl

theorem readRequestData_bytes (asks : client.requestedProtocols ≠ 0)
    (fits : client.requestedProtocols < 2 ^ 32) (supported : ModesSupported client server) :
    ∃ active, negoReadRequestData server (negoWriteNegData client) = some ({ server with
        remoteCredsGuardActive := active
        requestedProtocols := client.requestedProtocols
        final := true }, []) := by
  obtain ⟨active, modes⟩ := acceptModes_of_supported supported
  have flags := requestFlags_cases client
  have data := @negReadData_bytes (negoRequestFlags client) client.requestedProtocols (by omega) fits
  have resv : ¬(negoRequestFlags client &&& 0xF4 ≠ 0) := by
    obtain zero | one | two | three := flags
    · rw [zero]; decide
    · rw [one]; decide
    · rw [two]; decide
    · rw [three]; decide
  have plain : ¬(negoRequestFlags client &&& CORRELATION_INFO_PRESENT ≠ 0) := by
    obtain zero | one | two | three := flags
    · rw [zero]; decide
    · rw [one]; decide
    · rw [two]; decide
    · rw [three]; decide
  have written :
    negoWriteNegData client = UInt8.ofNat TYPE_RDP_NEG_REQ :: UInt8.ofNat (negoRequestFlags client) ::
      (leBytes 2 8 ++ leBytes 4 client.requestedProtocols) := if_pos (.inl (Nat.pos_of_ne_zero asks))
  have process : negoProcessNegotiationRequest server
      (UInt8.ofNat (negoRequestFlags client) :: (leBytes 2 8 ++ leBytes 4 client.requestedProtocols)) =
      some ({ server with
        remoteCredsGuardActive := active
        requestedProtocols := client.requestedProtocols
        final := true }, []) := by
    rw [negoProcessNegotiationRequest, data]
    simp only [if_neg resv, modes, ne_eq, not_true_eq_false, if_false, if_neg plain]
  refine ⟨active, ?_⟩
  rw [written, negoReadRequestData, if_pos (by simp)]
  exact process

theorem negoReadRequest_bytes {body : List UInt8}
    (le : TPDU_CONNECTION_REQUEST_LENGTH + body.length - 5 ≤ 0xFF) (nego : NegoServer) :
    negoReadRequest nego (tpktBytes (TPDU_CONNECTION_REQUEST_LENGTH + body.length) ++
      (UInt8.ofNat (TPDU_CONNECTION_REQUEST_LENGTH + body.length - 5) ::
        UInt8.ofNat X224_TPDU_CONNECTION_REQUEST :: [0, 0, 0, 0, 0] ++ body)) =
      negoReadRequestBody nego (body.length + 6) body := by
  unfold TPDU_CONNECTION_REQUEST_LENGTH at le ⊢
  have indicator : (UInt8.ofNat (11 + body.length - 5)).toNat = body.length + 6 := by
    rw [UInt8.toNat_ofNat']
    omega
  have confirm : tpduReadConnectionRequest (11 + body.length)
      (UInt8.ofNat (11 + body.length - 5) :: UInt8.ofNat X224_TPDU_CONNECTION_REQUEST ::
        [0, 0, 0, 0, 0] ++ body) =
      some (body.length + 6, body) := by
    rw [tpduReadConnectionRequest, tpduReadHeader, if_neg (by simp)]
    simp only [cons_append, streamReadBE_cons, indicator]
    rw [if_neg (by omega), if_neg (by decide), if_neg (by simp)]
    simp [X224_TPDU_CONNECTION_REQUEST, indicator]
  rw [negoReadRequest, tpktReadHeader_bytes (by omega) (by omega) (by simp; omega)]
  simp only [confirm]

theorem tokenOrCookie_identity {identity : NegoIdentity}
    (known : client.identity = some identity) (always : identity.Allowed client.cookieMaxLength)
    (server : NegoServer) (rest : List UInt8) :
    ∃ server', negoReadRequestTokenOrCookie server
    (negoWriteTokenOrCookie client ++ rest) = some (server', rest) ∧ identity.Stored server' ∧
      server'.restrictedAdminModeSupported = server.restrictedAdminModeSupported ∧
      server'.remoteCredsGuardSupported = server.remoteCredsGuardSupported := by
  cases sent : client.routingToken with
  | some token =>
    have tokIdentity : NegoIdentity.token token = identity := by
      simpa [NegoClient.identity, sent] using known
    subst tokIdentity
    obtain ⟨recognised, long, text, unbroken⟩ := always
    refine ⟨{ server with routingToken := some token }, ?_, rfl, rfl, rfl⟩
    simp only [negoWriteTokenOrCookie, sent]
    rw [negoWriteToken_eq unbroken, append_assoc]
    exact tokenOrCookie_token recognised long text unbroken server rest
  | none =>
    cases cookies : client.cookie with
    | none => simp [NegoClient.identity, sent, cookies] at known
    | some cookie =>
      have cookieIdentity : NegoIdentity.cookie cookie = identity := by
        simpa [NegoClient.identity, sent, cookies] using known
      subst cookieIdentity
      obtain ⟨ne, short, text, unbroken⟩ := always
      refine ⟨{ server with cookie := some (cookieStart ++ cookie) }, ?_, rfl, rfl, rfl⟩
      simp only [negoWriteTokenOrCookie, sent, cookies, negoWriteCookie]
      rw [take_of_length_le short, append_assoc, append_assoc]
      exact tokenOrCookie_cookie ne text unbroken server rest

/-- A request arrives: the server that supports the modes the client insists on has the protocols,
and the token or the cookie. -/
theorem nego_request_roundtrip {client : NegoClient} {server : NegoServer} {identity : NegoIdentity}
    (known : client.identity = some identity) (allowed : identity.Allowed client.cookieMaxLength)
    (asks : client.requestedProtocols ≠ 0) (fits : client.requestedProtocols < 2 ^ 32)
    (supported : ModesSupported client server)
    (small : 6 + (negoWriteTokenOrCookie client).length + 8 ≤ 0xFF) :
    ∃ bytes server', negoSendNegotiationRequest client = .ok bytes ∧
    negoReadRequest server bytes = some server' ∧
      server'.requestedProtocols = client.requestedProtocols ∧ identity.Stored server' := by
  obtain ⟨named, taken, put, admin, guard⟩ :=
    tokenOrCookie_identity known allowed server (negoWriteNegData client)
  have able : ModesSupported client named := by
    rw [ModesSupported, admin, guard]
    exact supported
  obtain ⟨_, data⟩ := readRequestData_bytes asks fits able
  have dataLen : (negoWriteNegData client).length = 8 := by
    rw [negoWriteNegData, if_pos (.inl (Nat.pos_of_ne_zero asks))]
    rfl
  have indicator : TPDU_CONNECTION_REQUEST_LENGTH +
      (negoWriteTokenOrCookie client ++ negoWriteNegData client).length - 5 ≤ 0xFF := by
    rw [List.length_append, dataLen, TPDU_CONNECTION_REQUEST_LENGTH]
    omega
  have recv := negoReadRequest_bytes indicator server
  rw [negoReadRequestBody, if_neg (by simp), taken] at recv
  simp only [data, List.isEmpty_nil, if_true] at recv
  refine ⟨_, _, ?_, recv, rfl, ?_⟩
  · rw [negoSendNegotiationRequest, if_neg (by omega), if_neg (by omega)]
  · cases identity with
    | token text => exact put
    | cookie text => exact put

def negoTokenClient : NegoClient where
  routingToken := some (ascii "tsv://MS Terminal")
  cookie := none
  cookieMaxLength := 9
  requestedProtocols := 3
  sendNegoData := true
  restrictedAdminModeRequired := true
  remoteCredsGuardRequired := false

def negoAdminServer : NegoServer where
  routingToken := none
  cookie := none
  requestedProtocols := 0
  restrictedAdminModeSupported := true
  remoteCredsGuardSupported := false
  remoteCredsGuardActive := false
  final := false

/-- A routing token reaches the server with the protocols that were asked for. -/
theorem nego_request_roundtrip_token : ∃ bytes server',
    negoSendNegotiationRequest negoTokenClient = .ok bytes ∧
      negoReadRequest negoAdminServer bytes = some server' ∧ server'.requestedProtocols = 3 ∧
      (NegoIdentity.token (ascii "tsv://MS Terminal")).Stored server' := by
  apply @nego_request_roundtrip negoTokenClient negoAdminServer (.token (ascii "tsv://MS Terminal")) rfl
  · exact ⟨.inr (.inl (by decide)), by decide, by decide, by unfold Unbroken; decide⟩
  · decide
  · decide
  · exact ⟨fun _ => rfl, fun required => Bool.noConfusion required⟩
  · decide

/-- A cookie comes back with its start in front of it, and a server without restricted admin mode
refuses the client that insists on it. -/
theorem nego_request_not_returned : (∃ bytes server', negoSendNegotiationRequest { negoTokenClient with
        routingToken := none, cookie := some (ascii "user") } = .ok bytes ∧
      negoReadRequest negoAdminServer bytes = some server' ∧
      server'.cookie = some (ascii "Cookie: mstshash=user")) ∧
    (∃ bytes, negoSendNegotiationRequest negoTokenClient = .ok bytes ∧
      negoReadRequest { negoAdminServer with restrictedAdminModeSupported := false } bytes = none) :=
  ⟨⟨_, _, rfl, rfl, rfl⟩, ⟨_, rfl, rfl⟩⟩

/-! ## Staying inside of the stream -/

/-- `Stream_Write`, `Stream_Write_UINT8` and `Stream_Seek` assert that there is room. -/
def streamPut (data : List UInt8) (s : WStream) : Except Stop WStream :=
  if fits : (s.written ++ data).length ≤ s.capacity then .ok ⟨s.written ++ data, s.capacity, fits⟩
    else .error .assertion

def negoStream : WStream := ⟨[], 512, by decide⟩

def negoWriteHeader (length : Nat) : Except Stop WStream := do
  let s ← tpktWriteHeader length negoStream
  tpduWriteHeader ((length - 5) % 2 ^ 16) X224_TPDU_CONNECTION_REQUEST s

/-- `nego_send_negotiation_request` write by write; the header comes last, over what was skipped. -/
def negoBuildRequest (nego : NegoClient) : Except Stop (List UInt8) := do
  let s ← streamPut (replicate TPDU_CONNECTION_REQUEST_LENGTH 0) negoStream
  let s ← streamPut (negoWriteTokenOrCookie nego) s
  let s ← streamPut (negoWriteNegData nego) s
  if s.written.length > 0xFFFF then .error .refused
  else do
    let header ← negoWriteHeader s.written.length
    .ok (header.written ++ s.written.drop TPDU_CONNECTION_REQUEST_LENGTH)

theorem negoWriteHeader_map {len : Nat} (le : len ≤ 512) (body : List UInt8) :
    (negoWriteHeader len >>= fun header => .ok (header.written ++ body)) =
    if len - 5 > 0xFF then .error .assertion else .ok (tpktBytes len ++
        (UInt8.ofNat (len - 5) :: UInt8.ofNat X224_TPDU_CONNECTION_REQUEST ::
          [0, 0, 0, 0, 0] ++ body)) := by
  have fits : len < 2 ^ (8 * 2) ∧ len < 65536 ∧ len ≤ 65535 := by omega
  -- the cast to 16 bits keeps the length, the one to a byte is asserted
  have low : (len - 5) % 2 ^ 16 = len - 5 := Nat.mod_eq_of_lt (by omega)
  have other : ¬X224_TPDU_CONNECTION_REQUEST = X224_TPDU_DATA := by decide
  rw [negoWriteHeader, low]
  by_cases big : len - 5 > 0xFF
  all_goals
    have byte : (len - 5 ≤ 0xFF ↔ ¬len - 5 > 0xFF) ∧ (len - 5 < 2 ^ (8 * 1) ↔ ¬len - 5 > 0xFF) ∧
        (len - 5 < 256 ↔ ¬len - 5 > 0xFF) := by omega
    simp [tpktWriteHeader, tpduWriteHeader, streamCheckCapacity, streamGetRemainingCapacity,
      negoStream, streamWriteBE,
      winprAssert, ok_bind, beBytes_length, fits, big, byte, other, tpktBytes]
    rfl

theorem streamPut_bind {β : Type} (data : List UInt8) (s : WStream) (f : WStream → Except Stop β) :
    (streamPut data s >>= f) =
      if fits : (s.written ++ data).length ≤ s.capacity then f ⟨s.written ++ data, s.capacity, fits⟩
      else .error .assertion := by
  rw [streamPut]
  split <;> rfl

theorem negoBuildRequest_eq (nego : NegoClient) :
    negoBuildRequest nego = negoSendNegotiationRequest nego := by
  have total : (replicate TPDU_CONNECTION_REQUEST_LENGTH 0 ++ negoWriteTokenOrCookie nego ++
      negoWriteNegData nego).length =
      TPDU_CONNECTION_REQUEST_LENGTH +
        (negoWriteTokenOrCookie nego ++ negoWriteNegData nego).length := by
    rw [append_assoc, length_append, length_replicate]
  -- the skipped header fits; the token, the cookie and the data may not
  rw [negoBuildRequest, streamPut_bind, dif_pos (by decide), streamPut_bind, negoSendNegotiationRequest]
  simp only [streamPut_bind, negoStream, nil_append, total]
  split
  · split
    next all =>
      rw [if_neg (by omega), if_neg (by omega), append_assoc, drop_left' (length_replicate ..)]
      exact negoWriteHeader_map all _
    next more => rw [if_pos (not_le.mp more)]
  next more =>
    rw [if_pos]
    rw [length_append] at more ⊢
    rw [length_replicate] at more
    omega

/-- No assertion fails exactly if the length fits the length indicator. -/
theorem nego_request_safe_iff (nego : NegoClient) :
    (∀ stop, negoBuildRequest nego = .error stop → stop = .refused) ↔
      TPDU_CONNECTION_REQUEST_LENGTH +
      (negoWriteTokenOrCookie nego ++ negoWriteNegData nego).length ≤ 260 := by
  rw [negoBuildRequest_eq, negoSendNegotiationRequest]
  constructor
  · intro rejected
    by_contra large
    split at rejected
    · cases rejected _ rfl
    rw [if_pos (by omega)] at rejected
    cases rejected _ rfl
  intro _ stop stopped
  rw [if_neg (by omega), if_neg (by omega)] at stopped
  cases stopped

set_option maxRecDepth 4000 in
/-- A routing token of 248 bytes. -/
theorem nego_request_not_safe :
    negoBuildRequest ⟨some (replicate 248 0x41), none, 0, 0, false, false, false⟩ =
    .error .assertion := by
  rw [negoBuildRequest_eq]
  rfl

/-! ## Staying inside of the packet -/

/-- `memcmp` inspects as many bytes as `text` has; `none`: they are not all there. -/
def memcmpEqual (bytes text : List UInt8) : Option Bool :=
  if bytes.length < text.length then none else some (bytes.take text.length = text)

/-- `nego_read_request_token_or_cookie` with what it inspects; `none`: bytes behind the end of the
packet. -/
def negoInspectTokenOrCookie : Option (Option (NegoServer × List UInt8)) :=
  if bytes.length < 15 then some (some (nego, bytes))
  else do
    if ← memcmpEqual bytes cookieStart then
      if bytes.length < 19 then some (some (nego, bytes))
      else some (negoScanTokenOrCookie nego false (bytes.take 17) (bytes.drop 17))
    else if ← memcmpEqual bytes
      (ascii "Cookie: msts=") then some (negoScanTokenOrCookie nego true [] bytes)
    else if ← memcmpEqual bytes (ascii "tsv:") then some (negoScanTokenOrCookie nego true [] bytes)
    else if ← memcmpEqual bytes (ascii "mth://") then some (negoScanTokenOrCookie nego true [] bytes)
    else some (some (nego, bytes))

theorem inspectTokenOrCookie_eq : negoInspectTokenOrCookie nego bytes =
      if bytes.length < 15 ∨
      17 ≤ bytes.length then some (negoReadRequestTokenOrCookie nego bytes) else none := by
  unfold negoInspectTokenOrCookie negoReadRequestTokenOrCookie
  by_cases short : bytes.length < 15
  · simp [short]
  by_cases long : 17 ≤ bytes.length
  · have inside : ∀ text : List UInt8, text.length ≤ 17 →
        memcmpEqual bytes text = some (decide (bytes.take text.length = text)) :=
          fun text lt => if_neg (by omega)
    have cookie : cookieStart.length = 17 := by decide
    have msts : (ascii "Cookie: msts=").length = 13 := by decide
    have tsv : (ascii "tsv:").length = 4 := by decide
    have mth : (ascii "mth://").length = 6 := by decide
    grind
  · have beyond : memcmpEqual bytes cookieStart = none := if_pos (by simp [cookieStart, ascii]; omega)
    simp [short, long, beyond]

theorem scanCrLf_spec {bytes text rest : List UInt8} (got : scanCrLf bytes = some (text, rest)) :
    bytes = text ++ CR :: LF :: rest ∧ Unbroken text := by
  induction bytes generalizing text with
  | nil => cases got
  | cons a bytes ih =>
    cases bytes with
    | nil => cases got
    | cons b bytes =>
      rw [scanCrLf] at got
      split at got
      next ends =>
        cases got
        rw [ends.1, ends.2]
        exact ⟨rfl, fun inside => absurd (infix_nil.mp inside) (by simp)⟩
      next goes =>
        obtain ⟨⟨later, _⟩, scanned, same⟩ := Option.map_eq_some_iff.mp got
        cases same
        obtain ⟨split, unbroken⟩ := ih scanned
        refine ⟨by rw [cons_append, ← split], fun inside => ?_⟩
        obtain fst | later := infix_cons_iff.mp inside
        · obtain ⟨_, starts⟩ := fst
          cases starts
          exact goes ⟨rfl, (cons.inj split).1⟩
        · exact unbroken later

/-- Only bytes of the packet are inspected, and what is left is all of it or begins behind the first
CR LF. -/
def Confined : Prop :=
  ∃ result, negoInspectTokenOrCookie nego bytes = some result ∧
    ∀ nego' rest, result = some (nego', rest) →
    nego' = nego ∧ rest = bytes ∨ ∃ text, bytes = text ++ CR :: LF :: rest ∧ Unbroken text

variable {nego nego' : NegoServer} {isTok : Bool} {st bytes rest : List UInt8}

theorem scanTokenOrCookie_spec (got : negoScanTokenOrCookie nego isTok st bytes = some (nego', rest)) :
    ∃ text, bytes = text ++ CR :: LF :: rest ∧ Unbroken text := by
  unfold negoScanTokenOrCookie at got
  split at got
  · cases got
  next text _ scanned =>
    obtain ⟨_, -, same⟩ := Option.map_eq_some_iff.mp got
    cases same
    exact ⟨text, scanCrLf_spec scanned⟩

theorem tokenOrCookie_spec (read : negoReadRequestTokenOrCookie nego bytes = some (nego', rest)) :
    nego' = nego ∧ rest = bytes ∨ ∃ text, bytes = text ++ CR :: LF :: rest ∧ Unbroken text := by
  unfold negoReadRequestTokenOrCookie at read
  split at read
  · cases read
    exact .inl ⟨rfl, rfl⟩
  split at read
  · split at read
    · cases read
      exact .inl ⟨rfl, rfl⟩
    · exact .inr (scanTokenOrCookie_spec read)
  next cookie =>
    split at read
    · cases read
      exact .inl ⟨rfl, rfl⟩
    obtain ⟨text, past, unbroken⟩ := scanTokenOrCookie_spec read
    refine .inr ⟨cookieStart ++ text, ?_, ?_⟩
    · rw [append_assoc, ← past, ← not_not.mp cookie, take_append_drop]
    intro inside
    simp [cookieStart, ascii, infix_cons_iff, CR] at inside
    exact unbroken inside

/-- The packet is not left exactly if 17 bytes are there for the longest comparison or fewer than
15, for none. -/
theorem nego_request_confined_iff (nego : NegoServer) (bytes : List UInt8) :
    Confined nego bytes ↔ bytes.length < 15 ∨ 17 ≤ bytes.length := by
  rw [Confined, inspectTokenOrCookie_eq]
  constructor
  · rintro ⟨_, inspected, -⟩
    by_contra outside
    rw [if_neg outside] at inspected
    cases inspected
  intro inside
  exact ⟨_, if_pos inside, fun _ _ => tokenOrCookie_spec⟩

/-- Fifteen bytes behind which the comparison goes on. -/
theorem nego_request_not_confined :
    ¬Confined ⟨none, none, 0, false, false, false, false⟩ (ascii "Cookie: mstshas") := by
  rintro ⟨_, inspected, -⟩
  exact absurd inspected (by simp [negoInspectTokenOrCookie, memcmpEqual, ascii, cookieStart])

end KvmServer.Core
