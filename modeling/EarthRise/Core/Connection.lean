import EarthRise.Core.Handshake

/-!
# Connections

The handshake, the secure channel and the message framing tied into one driver
for each end.

A datagram starts with its kind. Clear datagrams carry a message type and a
handshake body, encrypted ones a sealed payload of messages. The channel is built
once, when the handshake is complete and the keys are there; from then on clear
datagrams are still dispatched, and a handler that fails still disconnects.

A message is sealed and sent once. There is a channel called reliable and ordered,
which is a byte of the message; nothing numbers the messages, acknowledges them or
keeps them to be sent again. What is sent again is the handshake and the login.

## Main definitions

* `ClientConnection`, `ServerConnection`: The two ends.
* `ClientConnection.onDatagram`, `ServerConnection.onDatagram`: Receiving.
* `ClientConnection.sendFleetCommand`, `ServerConnection.sealApp`: Sending.
-/

namespace EarthRise

namespace Net

/-- A clear datagram. -/
def makeHandshakeDatagram (type : MsgType) (body : Bytes) : Bytes :=
  kindClearHandshake :: type.toByte :: body

/-- What a step of a connection hands to its owner: the messages received and the
    datagrams to send. -/
structure Output where
  app : List DecodedMessage
  send : List Bytes
  deriving DecidableEq

namespace Output

def nothing : Output := ⟨[], []⟩

def append (a b : Output) : Output := ⟨a.app ++ b.app, a.send ++ b.send⟩

end Output

/-- A channel with its keys, nothing sent and nothing received. -/
def openChannel {Key : Type} (sendDir : Direction) (token : UInt64) (sendKey recvKey : Key) :
    SecureChannel Key :=
  { sendDir := sendDir
    recvDir := if sendDir = .clientToServer then .serverToClient else .clientToServer
    token := token, sendKey := sendKey, recvKey := recvKey, hasKeys := true
    sendCounter := 0, replay := ReplayWindow.reset }

/-- The messages of an encrypted datagram, and the channel after it. There are none
    when it does not open or is not well framed. -/
def receive {Key : Type} (C : ICrypto Key) (ch : SecureChannel Key) (rest : Bytes) :
    List DecodedMessage × SecureChannel Key :=
  let r := ch.openDatagram C rest
  match r.1.2 with
  | none => ([], r.2)
  | some payload => ((readMessages payload).getD [], r.2)

/-- Seal one message into an encrypted datagram. -/
def sealMessage {Key : Type} (C : ICrypto Key) (ch : SecureChannel Key) (channel : Channel)
    (type : MsgType) (body : Bytes) : Option (Bytes × SecureChannel Key) :=
  (ch.sealDatagram C (writeMessage channel type body)).map fun r => (kindEncrypted :: r.1, r.2)

/-- A length and the text. -/
def putStr (s : Bytes) : Bytes := putU16 s.length ++ s

/-- A credential frame: opcode, name, password. -/
def encodeAuthRequest (opcode : UInt8) (user pass : Bytes) : Bytes :=
  opcode :: (putStr user ++ putStr pass)

structure LoginResponseBody where
  success : UInt8
  reason : UInt8
  sessionToken : UInt64
  playerNetworkId : UInt32

def LoginResponseBody.encode (r : LoginResponseBody) : Bytes :=
  r.success :: r.reason :: (putU64 r.sessionToken ++ putU32 r.playerNetworkId)

def decodeLoginResponse (b : Bytes) : Option LoginResponseBody :=
  match b with
  | success :: reason :: rest =>
      if rest.length < 8 + 4 then none
      else some ⟨success, reason, getU64 rest 0, getU32 rest 8⟩
  | _ => none

/-- The name of a login request, empty if the body does not decode. -/
def loginRequestName (b : Bytes) : Bytes :=
  if b.length < 2 then []
  else if b.length < 2 + getU16 b 0 then []
  else (b.drop 2).take (getU16 b 0)

/-! ## The client -/

structure ClientConnection (Key : Type) where
  client : HandshakeClient Key
  channel : Option (SecureChannel Key)
  state : ConnState
  token : UInt64
  sessionToken : UInt64
  playerNetId : UInt32
  loginName : Bytes
  password : Bytes
  realAuth : Bool
  triedRegister : Bool
  authOpcode : UInt8
  lastAuthResult : UInt8
  lastHandshakeDatagram : Bytes

namespace ClientConnection

variable {Key : Type} (C : CryptoProvider Key)

/-- A connection about to send its hello, with a name alone or with credentials. -/
def start (pinnedPub : EcPubKey) (clientTime : UInt64) (loginName : Bytes)
    (password : Option Bytes) : ClientConnection Key :=
  { client := HandshakeClient.start pinnedPub clientTime
    channel := none, state := .handshaking, token := 0, sessionToken := 0, playerNetId := 0
    loginName := loginName, password := password.getD [], realAuth := password.isSome
    triedRegister := false, authOpcode := authOpcodeLogin, lastAuthResult := 0xFF
    lastHandshakeDatagram := makeHandshakeDatagram .clientHello (encodeClientHello protocolId) }

/-- Seal a message on the channel, if there is one. -/
def sealOn (c : ClientConnection Key) (ch : Channel) (type : MsgType) (body : Bytes) :
    Option (Bytes × ClientConnection Key) :=
  match c.channel with
  | none => none
  | some channel =>
      (sealMessage C.toICrypto channel ch type body).map fun r =>
        (r.1, { c with channel := some r.2 })

def sendAuth (c : ClientConnection Key) : Option (Bytes × ClientConnection Key) :=
  c.sealOn C .reliableOrdered .command (encodeAuthRequest c.authOpcode c.loginName c.password)

/-- The login request: credentials, or a bare name. -/
def sendLogin (c : ClientConnection Key) : Option (Bytes × ClientConnection Key) :=
  if c.realAuth then c.sendAuth C
  else
    let name := if c.loginName = [] then "bot".toUTF8.toList else c.loginName
    c.sealOn C .reliableOrdered .loginRequest (putStr name)

/-- A datagram that may not have been produced, as output. -/
def emit (c : ClientConnection Key) (r : Option (Bytes × ClientConnection Key)) :
    Output × ClientConnection Key :=
  match r with
  | none => (.nothing, c)
  | some (d, c) => (⟨[], [d]⟩, c)

/-- The server's answer to a credential frame; only the first one that settles the
    login counts. -/
def onAuthResult (c : ClientConnection Key) (body : Bytes) : Output × ClientConnection Key :=
  if body.length < 1 + 1 + 4 + 8 then (.nothing, c)
  else if c.state ≠ .authenticating then (.nothing, c)
  else
    let res := body.getD 1 0
    let c := { c with lastAuthResult := res }
    if res = authResultOk then
      (.nothing, { c with playerNetId := getU32 body 2, sessionToken := getU64 body 6
                          state := .connected })
    else if res = authResultInvalidCredentials ∧ c.triedRegister = false ∧
        c.authOpcode = authOpcodeLogin then
      let c := { c with triedRegister := true, authOpcode := authOpcodeRegister }
      c.emit (c.sendAuth C)
    else if res = authResultInvalidCredentials ∧ c.authOpcode = authOpcodeRegister then
      (.nothing, c)
    else (.nothing, { c with state := .disconnected })

def handleAppMessage (c : ClientConnection Key) (m : DecodedMessage) :
    Output × ClientConnection Key :=
  if m.type = .command ∧ m.body.head? = some authOpcodeResult then c.onAuthResult C m.body
  else if m.type = .loginResponse then
    match decodeLoginResponse m.body with
    | some r =>
        if r.success ≠ 0 then
          (.nothing, { c with sessionToken := r.sessionToken, playerNetId := r.playerNetworkId
                              state := .connected })
        else (.nothing, { c with state := .disconnected })
    | none => (.nothing, { c with state := .disconnected })
  else (⟨[m], []⟩, c)

def handleAll : ClientConnection Key → List DecodedMessage → Output × ClientConnection Key
  | c, [] => (.nothing, c)
  | c, m :: ms =>
      let r := c.handleAppMessage C m
      let rs := handleAll r.2 ms
      (r.1.append rs.1, rs.2)

/-- The end of the handshake builds the channel, once, and sends the login. -/
def buildChannel (c : ClientConnection Key) : Output × ClientConnection Key :=
  match c.channel, c.client.keys with
  | none, some keys =>
      if c.client.complete = false then (.nothing, c)
      else
        let c := { c with
          token := c.client.token
          channel := some (openChannel .clientToServer c.client.token keys.1 keys.2)
          state := .authenticating }
        c.emit (c.sendLogin C)
  | _, _ => (.nothing, c)

/-- A clear message. -/
def onClear (fresh : EcdhKeyPair) (c : ClientConnection Key) (type : MsgType) (body : Bytes) :
    Output × ClientConnection Key :=
  let r := c.client.onMessage C fresh type body
  let c := { c with client := r.2 }
  match r.1 with
  | .fail _ => (.nothing, { c with state := .disconnected })
  | .none => c.buildChannel C
  | .message t b =>
      let d := makeHandshakeDatagram t b
      let built := { c with lastHandshakeDatagram := d }.buildChannel C
      (Output.append ⟨[], [d]⟩ built.1, built.2)

def onDatagram (fresh : EcdhKeyPair) (c : ClientConnection Key) (dg : Bytes) :
    Output × ClientConnection Key :=
  match dg with
  | [] => (.nothing, c)
  | kind :: rest =>
      if kind = kindClearHandshake then
        match rest with
        | [] => (.nothing, c)
        | type :: body => c.onClear C fresh (.ofByte type) body
      else if kind = kindEncrypted then
        match c.channel with
        | none => (.nothing, c)
        | some ch =>
            let r := receive C.toICrypto ch rest
            handleAll C { c with channel := some r.2 } r.1
      else (.nothing, c)

def sendTyped (c : ClientConnection Key) (type : MsgType) (body : Bytes) :
    Option (Bytes × ClientConnection Key) :=
  if c.state = .connected then c.sealOn C .reliableOrdered type body else none

def sendFleetCommand (c : ClientConnection Key) (body : Bytes) :
    Option (Bytes × ClientConnection Key) := c.sendTyped C .fleetCommand body

def buildDisconnect (c : ClientConnection Key) : Option (Bytes × ClientConnection Key) :=
  c.sealOn C .reliableOrdered .disconnect [DisconnectReason.normal.toByte]

def buildKeepalive (c : ClientConnection Key) : Option (Bytes × ClientConnection Key) :=
  if c.state = .connected then c.sealOn C .unreliable .keepalive [] else none

/-- What is waited for is sent again: the last clear datagram as it was, the login
    sealed anew. -/
def resendPending (c : ClientConnection Key) : Output × ClientConnection Key :=
  if c.state = .handshaking then (⟨[], [c.lastHandshakeDatagram]⟩, c)
  else if c.state = .authenticating then c.emit (c.sendLogin C)
  else (.nothing, c)

end ClientConnection

/-! ## The server's end -/

structure ServerConnection (Key : Type) where
  server : HandshakeServerConnection Key
  channel : Option (SecureChannel Key)
  state : ConnState
  token : UInt64
  playerNetId : UInt32
  loginName : Bytes
  lastHandshakeDatagram : Bytes

namespace ServerConnection

variable {Key : Type} (C : CryptoProvider Key)

def start (staticPriv : Bytes) (token serverTime : UInt64) : ServerConnection Key :=
  { server := HandshakeServerConnection.start staticPriv token serverTime
    channel := none, state := .idle, token := token, playerNetId := 0, loginName := []
    lastHandshakeDatagram := [] }

/-- A login that the host settled connects a connection that waits for it. -/
def markConnected (c : ServerConnection Key) : ServerConnection Key :=
  if c.state = .authenticating then { c with state := .connected } else c

/-- The verified cookie response: key agreement. -/
def beginFromCookieResponse (fresh : EcdhKeyPair) (c : ServerConnection Key) (body : Bytes) :
    Output × ServerConnection Key :=
  let r := c.server.onCookieResponse C fresh body
  let c := { c with server := r.2 }
  match r.1 with
  | .fail _ => (.nothing, { c with state := .disconnected })
  | .message t b =>
      let d := makeHandshakeDatagram t b
      (⟨[], [d]⟩, { c with lastHandshakeDatagram := d, state := .handshaking })
  | .none => (.nothing, { c with state := .handshaking })

/-- The last clear datagram again, while the handshake lasts. -/
def resendHandshake (c : ServerConnection Key) : List Bytes :=
  if c.state = .handshaking ∧ c.lastHandshakeDatagram ≠ [] then [c.lastHandshakeDatagram] else []

/-- Seal an app message into an encrypted datagram. -/
def sealApp (c : ServerConnection Key) (ch : Channel) (type : MsgType) (body : Bytes) :
    Option (Bytes × ServerConnection Key) :=
  match c.channel with
  | none => none
  | some channel =>
      (sealMessage C.toICrypto channel ch type body).map fun r =>
        (r.1, { c with channel := some r.2 })

/-- The answer of the development login, which takes any name. -/
def onLoginRequest (c : ServerConnection Key) (body : Bytes) : Output × ServerConnection Key :=
  let c := { c with loginName := loginRequestName body }
  let resp : LoginResponseBody := ⟨1, 0, c.token ^^^ 0x5555AAAA5555AAAA, c.playerNetId⟩
  match c.sealApp C .reliableOrdered .loginResponse resp.encode with
  | none => (.nothing, { c with state := .connected })
  | some (d, c) => (⟨[], [d]⟩, { c with state := .connected })

def handleAppMessage (c : ServerConnection Key) (m : DecodedMessage) :
    Output × ServerConnection Key :=
  match m.type with
  | .disconnect => (.nothing, { c with state := .disconnected })
  | .keepalive => (.nothing, c)
  | .loginRequest => c.onLoginRequest C m.body
  | _ => (⟨[m], []⟩, c)

def handleAll : ServerConnection Key → List DecodedMessage → Output × ServerConnection Key
  | c, [] => (.nothing, c)
  | c, m :: ms =>
      let r := c.handleAppMessage C m
      let rs := handleAll r.2 ms
      (r.1.append rs.1, rs.2)

/-- The end of the handshake builds the channel, once. -/
def buildChannel (c : ServerConnection Key) : ServerConnection Key :=
  match c.channel, c.server.keys with
  | none, some keys =>
      if c.server.complete = false then c
      else { c with
        channel := some (openChannel .serverToClient c.token keys.2 keys.1)
        state := .authenticating }
  | _, _ => c

/-- A clear message. Only the clock request is looked at. -/
def onClear (c : ServerConnection Key) (type : MsgType) (body : Bytes) :
    Output × ServerConnection Key :=
  if type = .clockSyncRequest then
    let r := c.server.onClockSyncRequest body
    let c := { c with server := r.2 }
    match r.1 with
    | .fail _ => (.nothing, { c with state := .disconnected })
    | .none => (.nothing, c.buildChannel)
    | .message t b => (⟨[], [makeHandshakeDatagram t b]⟩, c.buildChannel)
  else (.nothing, c)

def onDatagram (c : ServerConnection Key) (dg : Bytes) : Output × ServerConnection Key :=
  match dg with
  | [] => (.nothing, c)
  | kind :: rest =>
      if kind = kindClearHandshake then
        match rest with
        | [] => (.nothing, c)
        | type :: body => c.onClear (.ofByte type) body
      else if kind = kindEncrypted then
        match c.channel with
        | none => (.nothing, c)
        | some ch =>
            let r := receive C.toICrypto ch rest
            handleAll C { c with channel := some r.2 } r.1
      else (.nothing, c)

end ServerConnection

end Net

end EarthRise
