/-
Module: Priestly.Proofs.Joining
Layer: Proofs
Purpose: A client of `cli/client.py` that connects to a node of `cli/server.py`, over the bytes of one
  connection. Whatever the schedule and however the bytes are cut, a client of an open node and a client with
  the node's password join it, with sessions that face each other; and a client without the password exits,
  and the node registers nobody.
Imports: Priestly.Cli.Connect, Priestly.Proofs.Agreement, Priestly.Proofs.ByteLink
Trusted boundary: primality of `P` and `(P - 1) / 2`, the JSON round trip of the frames, and for a wrong
  password that the two confirmations do not collide, are hypotheses
Main exports: Joined, handshake_refused, greeting, join_completes, join_refused
-/
import Priestly.Cli.Connect
import Priestly.Proofs.Agreement
import Priestly.Proofs.ByteLink

namespace Priestly

open ByteCodec Interaction

/-! ### The handshake with two passwords -/

section Refused

variable {rt : Runtime} {grp : ModpGroup} {a b : Nat} {password password' : Bytes}

/-- The secret a client computes from the server's challenge with its own password. -/
def misledSecret (rt : Runtime) (grp : ModpGroup) (a b : Nat) (password password' : Bytes) : grp.Element :=
  match unmask grp (mask grp (publicElement grp b) (secretToElement grp rt.hmac password))
      (secretToElement grp rt.hmac password') with
  | .ok publicB => sharedSecret grp publicB a
  | .error _ => grp.reduce 0

/-- The frames of a handshake in which the client has another password than the server. -/
def refusedTranscript (rt : Runtime) (grp : ModpGroup) (a b : Nat) (password password' : Bytes) : List Frame :=
  let publicA := publicElement grp a
  let commit := commitDigest grp publicA
  [.covenantCommit (hexString commit),
    .covenantChallenge (elementHex grp
      (mask grp (publicElement grp b) (secretToElement grp rt.hmac password))),
    .covenantConfirm (elementHex grp publicA) (hexString
      (confirmMac grp rt.hmac (misledSecret rt grp a b password password') commit clientRole publicA)),
    .authFail "client key confirmation failed"]

/-- The client never computes the server's secret with another password element. -/
theorem misledSecret_ne (hP : grp.P.Prime) (hq : ((grp.P - 1) / 2).Prime) (ha : IsExponent grp a)
    (hA : grp.InRange (publicElement grp a))
    (hM : grp.InRange (mask grp (publicElement grp b) (secretToElement grp rt.hmac password)))
    (hne : secretToElement grp rt.hmac password ≠ secretToElement grp rt.hmac password') :
    ∃ publicB', unmask grp (mask grp (publicElement grp b) (secretToElement grp rt.hmac password))
        (secretToElement grp rt.hmac password') = .ok publicB' ∧
      misledSecret rt grp a b password password' = sharedSecret grp publicB' a ∧
      sharedSecret grp (publicElement grp a) b ≠ sharedSecret grp publicB' a := by
  have : Fact grp.P.Prime := ⟨hP⟩
  obtain ⟨publicB, hok, hB⟩ := unmask_div
    (mask grp (publicElement grp b) (secretToElement grp rt.hmac password))
    (secretToElement_ne_zero grp rt.hmac password)
  obtain ⟨publicB', hok', hB'⟩ := unmask_div
    (mask grp (publicElement grp b) (secretToElement grp rt.hmac password))
    (secretToElement_ne_zero grp rt.hmac password')
  have hsep := sharedSecret_separates hq hM ha hA hne hB hB'
  have hpublicB : publicB = publicElement grp b := by
    rw [unmask_mask _ (secretToElement_ne_zero grp rt.hmac password)] at hok
    exact (Except.ok.inj hok).symm
  refine ⟨publicB', hok', ?_, ?_⟩
  · rw [misledSecret, hok']
  · rw [← sharedSecret_comm, ← hpublicB]
    exact hsep

/-- A confirmation with another tag makes the server send `AUTH_FAIL`. -/
theorem serverOnConfirm_refused {commit : Bytes} {text confirmC : String} {publicA : grp.Element}
    (hA : parseElement rt grp text = .ok publicA) (hcommit : commitDigest grp publicA = commit)
    (hascii : isAscii confirmC = true) (hne : expectedConfirm rt grp b commit publicA ≠ confirmC) :
    serverOnConfirm rt grp b commit (.covenantConfirm text confirmC) =
      fail "client key confirmation failed" := by
  rw [expectedConfirm] at hne
  simp [serverOnConfirm, parseElementOrFail, hA, hcommit, compareDigest_hexString, hascii, hne]

/-- The inputs of the MAC in the two confirmations of such a handshake: the one that the server expects, and
the one that the client sends. -/
def refusedInputs (rt : Runtime) (grp : ModpGroup) (a b : Nat) (password password' : Bytes) :
    Set (Bytes × Bytes) :=
  let commit := commitDigest grp (publicElement grp a)
  {confirmInput grp (sharedSecret grp (publicElement grp a) b) commit clientRole (publicElement grp a),
    confirmInput grp (misledSecret rt grp a b password password') commit clientRole (publicElement grp a)}

/-- Under every schedule the two drivers of a handshake with different password elements end with a
`CovenantError` each. -/
theorem handshake_refused (hP : grp.P.Prime) (hq : ((grp.P - 1) / 2).Prime)
    (hfree : CollisionFree rt.hmac (refusedInputs rt grp a b password password'))
    (hwire : ∀ frame ∈ refusedTranscript rt grp a b password password',
      parseMessage rt (wire rt frame) = .ok frame)
    (ha : IsExponent grp a) (hA : grp.InRange (publicElement grp a))
    (hM : grp.InRange (mask grp (publicElement grp b) (secretToElement grp rt.hmac password)))
    (hne : secretToElement grp rt.hmac password ≠ secretToElement grp rt.hmac password') :
    Inevitable (LinkStep (wire rt))
      (· = { left := .raise (.covenantError "authentication failed: client key confirmation failed")
             right := .raise (.covenantError "client key confirmation failed")
             toLeft := [], toRight := [], wire := refusedTranscript rt grp a b password password' })
      (Link.start (runClient rt grp a password') (runServer rt grp b password)) := by
  obtain ⟨publicB', hunmask, hmisled, hsecret⟩ := misledSecret_ne hP hq ha hA hM hne
  have hbytes : bytesFromHex (hexString (commitDigest grp (publicElement grp a))).toList =
      some (commitDigest grp (publicElement grp a)) := by
    rw [toList_hexString, bytesFromHex_hexChars]
  simp only [refusedTranscript, List.forall_mem_cons] at hwire
  obtain ⟨hcommit, hchallenge, hconfirm, hverdict, _⟩ := hwire
  unfold Link.start runClient runServer
  -- The commitment travels to the server, and the challenge to the client.
  apply client_writes
  apply server_reads hcommit
  rw [serverOnCommit_ok hbytes (length_commitDigest grp _), serverChallenges]
  apply server_writes
  apply client_reads hchallenge
  rw [clientOnChallenge_ok (parseElement_elementHex hM) hunmask, clientConfirms]
  -- The confirmation travels to the server, which finds another tag than its own.
  rw [hmisled] at hconfirm
  apply client_writes
  apply server_reads hconfirm
  have htag : expectedConfirm rt grp b (commitDigest grp (publicElement grp a)) (publicElement grp a) ≠
      hexString (confirmMac grp rt.hmac (sharedSecret grp publicB' a)
        (commitDigest grp (publicElement grp a)) clientRole (publicElement grp a)) := by
    intro hsame
    exact hsecret (confirmMac_inj hfree (.inl rfl) (.inr (hmisled ▸ rfl)) rfl (.inl rfl) (.inl rfl) hsame).1
  rw [serverOnConfirm_refused (parseElement_elementHex hA) rfl (isAscii_hexString _) htag]
  -- The verdict travels to the client.
  rw [recvFrame_bind]
  apply inevitable_rightSend
  apply inevitable_leftRecv_idle
  · intro message next h
    cases h
  simp only [hverdict, Program.lift_ok, Program.done_bind, clientOnResult, Program.lift_error]
  apply Inevitable.here
  rw [refusedTranscript, hmisled]
  rfl

end Refused

/-! ### The greeting -/

section Joining

variable (rt : Runtime) (grp : ModpGroup) (cfg : ServerConfig) (a b : Nat)

/-- The HELLO of a client. -/
def helloFrame (timestamp : String) : Frame :=
  .hello { id := 1, userId := 42, deviceId := 7, timestamp, status := "init" }

/-- The answer of the node. -/
def ackFrame : Frame := .helloAck "ok" cfg.serverName cfg.passwordRequired

/-- The client once it has read the answer. -/
def greetedClient : ChatClient :=
  { session := none, serverName := some cfg.serverName, passwordRequired := cfg.passwordRequired }

/-- What `_connect` does with the answer to its HELLO. -/
def clientOnAck (secret : Option String) : Frame → Driver Connected
  | .helloAck _ serverName passwordRequired =>
      connectOnAck rt grp a secret { ChatClient.new with serverName := some serverName, passwordRequired }
  | other => throw (.chatProtocolError s!"expected HELLO_ACK, got {other.typeName}")

/-- The part of `handle_session` around `run_server`. -/
def inHandler (name : String) (isBrowser : Bool) (program : Driver SessionState) :
    Driver (Option RegisteredClient) := do
  let session ← Program.handle (do return some (← program)) fun
    | .covenantError _ => return none
    | exn => throw exn
  return session.map (authenticatedClient name isBrowser)

/-- The part of `_connect` around `run_client`. -/
def inClient (client : ChatClient) (program : Driver SessionState) : Driver Connected :=
  Program.handle (do
    let session ← program
    return .client { client with session := some session }) fun
    | .covenantError _ => return .systemExit 2
    | exn => throw exn

/-- What `handle_session` does behind its answer to the client. -/
def handlerOnHello : Driver (Option RegisteredClient) :=
  match cfg.secret with
  | none => return some { name := "user42", session := none }
  | some password => inHandler "user42" false (runServer rt grp b password)

variable {rt grp cfg a b}

theorem context_inHandler (name : String) (isBrowser : Bool) : Program.Context (inHandler name isBrowser) := by
  have hsome : Program.Context fun program : Driver SessionState =>
      program >>= fun session => (pure (some session) : Driver (Option SessionState)) :=
    .bind fun _ => trivial
  have hregister : Program.Context fun program : Driver (Option SessionState) =>
      program >>= fun session =>
        (pure (session.map (authenticatedClient name isBrowser)) : Driver (Option RegisteredClient)) :=
    .bind fun _ => trivial
  apply hregister.comp
  apply Program.Context.comp (.handle ?_) hsome
  intro exn
  cases exn <;> exact trivial

theorem context_inClient (client : ChatClient) : Program.Context (inClient client) := by
  have hclient : Program.Context fun program : Driver SessionState =>
      program >>= fun session =>
        (pure (.client { client with session := some session }) : Driver Connected) :=
    .bind fun _ => trivial
  apply Program.Context.comp (.handle ?_) hclient
  intro exn
  cases exn <;> exact trivial

/-- `_connect`, cut at its first read. -/
theorem connect_eq (timestamp : String) (secret : Option String) :
    connect rt grp a timestamp secret =
      Program.emit (helloFrame timestamp) >>= fun _ => recvFrame rt >>= clientOnAck rt grp a secret := by
  rw [connect, ChatClient.hello, Program.bind_assoc]
  apply congrArg
  funext _
  rw [Program.bind_assoc]
  apply congrArg
  funext frame
  cases frame <;> rfl

/-- With a password the handler goes on to `run_server`. -/
theorem handlerOnHello_some {password : Bytes} (h : cfg.secret = some password) :
    handlerOnHello rt grp cfg b = inHandler "user42" false (runServer rt grp b password) := by
  rw [handlerOnHello, h]

/-- With a password the handler waits for the commitment. -/
theorem handlerOnHello_waits {password : Bytes} (h : cfg.secret = some password) :
    ∃ next, handlerOnHello rt grp cfg b = .recv next := by
  rw [handlerOnHello_some h, runServer, recvFrame_bind]
  exact ⟨_, (context_inHandler _ _).recv _⟩

/-- The handler writes nothing before it has read again. -/
theorem handlerOnHello_idle (message : Frame) (next : Option Exn → Driver (Option RegisteredClient)) :
    handlerOnHello rt grp cfg b ≠ .send message next := by
  intro h
  cases hsecret : cfg.secret with
  | none =>
      rw [handlerOnHello, hsecret] at h
      cases h
  | some password =>
      obtain ⟨next', hwaits⟩ := @handlerOnHello_waits rt grp cfg b _ hsecret
      rw [hwaits] at h
      cases h

/-- HELLO and HELLO_ACK are exchanged first. -/
theorem greeting {timestamp : String} {secret : Option String}
    (hhello : parseMessage rt (wire rt (helloFrame timestamp)) = .ok (helloFrame timestamp))
    (hack : parseMessage rt (wire rt (ackFrame cfg)) = .ok (ackFrame cfg))
    {goal : Link WsMessage Frame Exn Connected (Option RegisteredClient) → Prop}
    (h : Inevitable (LinkStep (wire rt)) goal
      ⟨connectOnAck rt grp a secret (greetedClient cfg), handlerOnHello rt grp cfg b, [], [],
        [helloFrame timestamp, ackFrame cfg]⟩) :
    Inevitable (LinkStep (wire rt)) goal
      (Link.start (connect rt grp a timestamp secret) (handleSession rt grp cfg b)) := by
  rw [connect_eq]
  unfold Link.start handleSession
  apply client_writes
  apply server_reads hhello
  show Inevitable (LinkStep (wire rt)) goal
    ⟨recvFrame rt >>= clientOnAck rt grp a secret,
      Program.emit (ackFrame cfg) >>= fun _ => handlerOnHello rt grp cfg b, [], [], [helloFrame timestamp]⟩
  apply server_writes
  rw [recvFrame_bind]
  apply inevitable_leftRecv_idle handlerOnHello_idle
  simp only [hack, Program.lift_ok, Program.done_bind]
  exact h

/-! ### Joining -/

/-- The frame belongs to the greeting or to a handshake. -/
def Frame.IsJoining : Frame → Prop
  | .hello _ | .helloAck _ _ _ => True
  | frame => frame.IsHandshake

/-- The frames with which a client joins a node. -/
def joinTranscript (rt : Runtime) (grp : ModpGroup) (cfg : ServerConfig) (a b : Nat) (timestamp : String) :
    List Frame :=
  match cfg.secret with
  | none => [helloFrame timestamp, ackFrame cfg]
  | some password => [helloFrame timestamp, ackFrame cfg] ++ transcript rt grp a b password

/-- The client has joined the node: the node has registered it under its user id, and their sessions face each
other where the node has a password. -/
structure Joined (cfg : ServerConfig) (client : ChatClient) (registered : RegisteredClient) : Prop where
  name : registered.name = "user42"
  greeted : client.serverName = some cfg.serverName ∧ client.passwordRequired = cfg.passwordRequired
  unsealed : cfg.passwordRequired = false → client.session = none ∧ registered.session = none
  facing : cfg.passwordRequired = true → ∃ session session', client.session = some session ∧
    registered.session = some session' ∧ Mirrored session session'

/-- Without a password there is no secret. -/
theorem ServerConfig.secret_none {cfg : ServerConfig} (h : cfg.passwordRequired = false) : cfg.secret = none := by
  rw [ServerConfig.secret, if_neg (by simp [h])]

/-- The secret is the password in UTF-8. -/
theorem ServerConfig.exists_password {cfg : ServerConfig} (h : cfg.passwordRequired = true) :
    ∃ text, cfg.password = some text ∧ cfg.secret = some (utf8Encode text) := by
  rw [ServerConfig.secret, if_pos h]
  cases hpassword : cfg.password with
  | none =>
      rw [ServerConfig.passwordRequired, hpassword] at h
      cases h
  | some text => exact ⟨text, rfl, rfl⟩

/-- `authenticate` under its `except` clause is `run_client` in a context. -/
theorem authenticateClient_eq (client : ChatClient) (text : String) :
    authenticateClient rt grp a client text = inClient client (runClient rt grp a (utf8Encode text)) := by
  have hbody : (do return .client (← client.authenticate rt grp a (utf8Encode text)) : Driver Connected) =
      runClient rt grp a (utf8Encode text) >>= fun session =>
        (pure (.client { client with session := some session }) : Driver Connected) :=
    Program.bind_assoc (runClient rt grp a (utf8Encode text)) _ _
  refine congr (congrArg Program.handle hbody) (funext fun exn => ?_)
  cases exn <;> rfl

/-- Behind the answer of a node with a password, a client with a text for it goes on to `run_client`. -/
theorem connectOnAck_some (h : cfg.passwordRequired = true) (text : String) :
    connectOnAck rt grp a (some text) (greetedClient cfg) =
      inClient (greetedClient cfg) (runClient rt grp a (utf8Encode text)) := by
  have hrequired : (greetedClient cfg).passwordRequired = true := h
  rw [connectOnAck, if_pos hrequired, ← authenticateClient_eq]

/-- Over messages, a client that needs no password or has the right one is bound to join. -/
theorem join_inevitable (timestamp : String) {secret : Option String}
    (hP : grp.P.Prime) (hwire : ∀ frame : Frame, frame.IsJoining → loads rt (dumps rt frame) = .ok frame)
    (hsecret : cfg.passwordRequired = true → secret = cfg.password)
    (hA : grp.InRange (publicElement grp a))
    (hM : ∀ password, cfg.secret = some password →
      grp.InRange (mask grp (publicElement grp b) (secretToElement grp rt.hmac password))) :
    ∃ client registered, Joined cfg client registered ∧
      Inevitable (LinkStep (wire rt))
        (· = { left := .done (.client client), right := .done (some registered), toLeft := [], toRight := [],
               wire := joinTranscript rt grp cfg a b timestamp })
        (Link.start (connect rt grp a timestamp secret) (handleSession rt grp cfg b)) := by
  have hhello : parseMessage rt (wire rt (helloFrame timestamp)) = .ok (helloFrame timestamp) :=
    hwire (helloFrame timestamp) trivial
  have hack : parseMessage rt (wire rt (ackFrame cfg)) = .ok (ackFrame cfg) := hwire (ackFrame cfg) trivial
  cases hrequired : cfg.passwordRequired with
  | false =>
      have hnone := ServerConfig.secret_none hrequired
      refine ⟨greetedClient cfg, { name := "user42", session := none }, ⟨rfl, ⟨rfl, rfl⟩,
        fun _ => ⟨rfl, rfl⟩, fun h => ?_⟩, greeting hhello hack (.here ?_)⟩
      · rw [hrequired] at h
        cases h
      · have hclient : connectOnAck rt grp a secret (greetedClient cfg) = .done (.client (greetedClient cfg)) :=
          if_neg (by simp [greetedClient, hrequired])
        have hhandler : handlerOnHello rt grp cfg b = .done (some { name := "user42", session := none }) := by
          rw [handlerOnHello, hnone]
          rfl
        rw [hclient, hhandler, joinTranscript, hnone]
  | true =>
      obtain ⟨text, htext, hpassword⟩ := ServerConfig.exists_password hrequired
      have hhandshake : ∀ frame : Frame, frame.IsHandshake → loads rt (dumps rt frame) = .ok frame := by
        intro frame hframe
        apply hwire
        cases frame with
        | covenantCommit _ | covenantChallenge _ | covenantConfirm _ _ | authOk _ => exact trivial
        | _ => exact hframe.elim
      have hdone : Inevitable (LinkStep (wire rt)) (Completed rt grp a b (utf8Encode text))
          (Link.start (runClient rt grp a (utf8Encode text)) (runServer rt grp b (utf8Encode text))) :=
        handshake_inevitable hP hhandshake hA (hM _ hpassword)
      have hfilled := inevitable_fill (context_inClient (greetedClient cfg)) (context_inHandler "user42" false)
        [helloFrame timestamp, ackFrame cfg] hdone
      have hmirror := mirrored_new (sessionKeys grp rt.hmac (honestSecret grp a b)) true true
      refine ⟨{ greetedClient cfg with
          session := some (.new (sessionKeys grp rt.hmac (honestSecret grp a b)) true true) },
        authenticatedClient "user42" false (.new (sessionKeys grp rt.hmac (honestSecret grp a b)) false true),
        ⟨rfl, ⟨rfl, rfl⟩, fun h => ?_, fun _ => ⟨_, _, rfl, rfl, hmirror⟩⟩, greeting hhello hack ?_⟩
      · rw [hrequired] at h
        cases h
      · rw [hsecret hrequired, htext, connectOnAck_some hrequired, handlerOnHello_some hpassword,
          joinTranscript, hpassword]
        exact hfilled

/-- What a client and a node are bound to over messages, they are bound to over bytes. -/
theorem joins_over_bytes {timestamp : String} {secret : Option String} {client : ChatClient}
    {registered : RegisteredClient}
    (hdone : Inevitable (LinkStep (wire rt))
      (· = { left := .done (.client client), right := .done (some registered), toLeft := [], toRight := [],
             wire := joinTranscript rt grp cfg a b timestamp })
      (Link.start (connect rt grp a timestamp secret) (handleSession rt grp cfg b)))
    {room : Nat} (hfits : ∀ frame ∈ joinTranscript rt grp cfg a b timestamp, Fits rt room frame)
    {clientEp serverEp : WsEndpoint} (hclient : clientEp.Fresh room) (hserver : serverEp.Fresh room) :
    Inevitable (ByteStep rt)
      (fun c => c.left.program = .done (.client client) ∧ c.right.program = .done (some registered) ∧ c.Quiet)
      (.start (connect rt grp a timestamp secret) (handleSession rt grp cfg b) clientEp serverEp) := by
  have hall : FitsFrom rt room
      (Link.start (connect rt grp a timestamp secret) (handleSession rt grp cfg b)) := by
    apply FitsFrom.of_inevitable hdone
    · rintro g rfl g' hstep
      cases hstep
    · rintro g rfl
      exact hfits
  refine (agrees_inevitable hclient hserver hall hdone).mono ?_
  rintro c ⟨link, hagrees, rfl⟩
  exact ⟨hagrees.left, hagrees.right, hagrees.quiet rfl rfl⟩

/-- A client of `cli/client.py` joins a node of `cli/server.py` over the bytes of their connection. Let the
node be open, or let the client have its password; let the frames of the greeting and of the handshake survive
their JSON text, and let both processes be able to hold it. Then under every schedule of the two sides and of
the network, however the bytes are cut, the client ends connected and the node registers it as `user42`, with
no byte left over; and behind a password their sessions face each other. -/
theorem join_completes (rt : Runtime) (grp : ModpGroup) (cfg : ServerConfig) (a b : Nat) (timestamp : String)
    (secret : Option String) (hP : grp.P.Prime)
    (hwire : ∀ frame : Frame, frame.IsJoining → loads rt (dumps rt frame) = .ok frame)
    (hsecret : cfg.passwordRequired = true → secret = cfg.password)
    (hA : grp.InRange (publicElement grp a))
    (hM : ∀ password, cfg.secret = some password →
      grp.InRange (mask grp (publicElement grp b) (secretToElement grp rt.hmac password)))
    {room : Nat} (hfits : ∀ frame ∈ joinTranscript rt grp cfg a b timestamp, Fits rt room frame)
    {clientEp serverEp : WsEndpoint} (hclient : clientEp.Fresh room) (hserver : serverEp.Fresh room) :
    ∃ client registered,
      Inevitable (ByteStep rt)
        (fun c => c.left.program = .done (.client client) ∧ c.right.program = .done (some registered) ∧ c.Quiet)
        (.start (connect rt grp a timestamp secret) (handleSession rt grp cfg b) clientEp serverEp) ∧
      Joined cfg client registered := by
  obtain ⟨client, registered, hjoined, hdone⟩ :=
    join_inevitable timestamp hP hwire hsecret hA hM
  exact ⟨client, registered, joins_over_bytes hdone hfits hclient hserver, hjoined⟩

/-- A node with a password. -/
def alphaConfig : ServerConfig := { serverName := "priestly", password := some "alpha" }

/-- The frames of a greeting and of a handshake survive the sample runtime. -/
theorem loads_dumps_joining (frame : Frame) (h : frame.IsJoining) :
    loads (greetingRuntime hmacSha256) (dumps (greetingRuntime hmacSha256) frame) = .ok frame := by
  cases frame with
  | helloAck _ _ _ => exact loads_dumps_helloAck _ _ _ _
  | hello _ | covenantCommit _ | covenantChallenge _ | covenantConfirm _ _ | authOk _ =>
      exact loads_dumps_greeting _ rfl
  | _ => exact h.elim

/-- The challenge of that node with the exponent 4 is accepted. -/
theorem inRange_alphaConfig (password : Bytes) (h : alphaConfig.secret = some password) :
    group23.InRange (mask group23 (publicElement group23 4) (secretToElement group23 hmacSha256 password)) := by
  obtain rfl := Option.some.inj h
  decide +kernel

/-- A masking client joins a node, with the group modulo 23. -/
theorem join_completes_group23 :
    ∃ client registered,
      Inevitable (ByteStep (greetingRuntime hmacSha256))
        (fun c => c.left.program = .done (.client client) ∧ c.right.program = .done (some registered) ∧ c.Quiet)
        (.start (connect (greetingRuntime hmacSha256) group23 3 "2026-01-01T00:00:00" (some "alpha"))
          (handleSession (greetingRuntime hmacSha256) group23 alphaConfig 4)
          (freshEndpoint .gibibyte true) (freshEndpoint .gibibyte false)) ∧
      Joined alphaConfig client registered :=
  join_completes (greetingRuntime hmacSha256) group23 alphaConfig 3 4 "2026-01-01T00:00:00" (some "alpha")
    (by decide) loads_dumps_joining (fun _ => rfl) (by decide +kernel) inRange_alphaConfig
    (forall_mem_of_all (by decide +kernel)) (fresh_freshEndpoint .gibibyte true)
    (fresh_freshEndpoint .gibibyte false)

/-! ### Staying out -/

/-- The frames of a client without the password. -/
def refusedJoin (rt : Runtime) (grp : ModpGroup) (cfg : ServerConfig) (a b : Nat) (timestamp : String)
    (password : Bytes) : Option String → List Frame
  | none => [helloFrame timestamp, ackFrame cfg]
  | some text => [helloFrame timestamp, ackFrame cfg] ++
      refusedTranscript rt grp a b password (utf8Encode text)

/-- The client has left with an exit status, the node has registered nobody, and nothing more happens. -/
structure StaysOut (rt : Runtime) (secret : Option String) (frames : List Frame)
    (link : Link WsMessage Frame Exn Connected (Option RegisteredClient)) : Prop where
  left : link.left = .done (.systemExit 2)
  nobody : ∀ registered, link.right ≠ .done (some registered)
  right : secret.isSome = true → link.right = .done none
  toLeft : link.toLeft = []
  toRight : link.toRight = []
  wire : link.wire = frames
  stuck : ∀ link', ¬ LinkStep (Priestly.wire rt) link link'

/-- Over messages, a client that has no password or one with another element is bound to leave. -/
theorem stays_out_inevitable (timestamp : String) {secret : Option String} {password : Bytes}
    (hP : grp.P.Prime) (hq : ((grp.P - 1) / 2).Prime) (hpassword : cfg.secret = some password)
    (hfree : ∀ text, secret = some text →
      CollisionFree rt.hmac (refusedInputs rt grp a b password (utf8Encode text)))
    (hwire : ∀ frame ∈ refusedJoin rt grp cfg a b timestamp password secret,
      parseMessage rt (wire rt frame) = .ok frame)
    (ha : IsExponent grp a) (hA : grp.InRange (publicElement grp a))
    (hM : grp.InRange (mask grp (publicElement grp b) (secretToElement grp rt.hmac password)))
    (hne : ∀ text, secret = some text →
      secretToElement grp rt.hmac password ≠ secretToElement grp rt.hmac (utf8Encode text)) :
    Inevitable (LinkStep (wire rt))
      (StaysOut rt secret (refusedJoin rt grp cfg a b timestamp password secret))
      (Link.start (connect rt grp a timestamp secret) (handleSession rt grp cfg b)) := by
  have hrequired : cfg.passwordRequired = true := by
    cases h : cfg.passwordRequired with
    | true => rfl
    | false =>
        rw [ServerConfig.secret_none h] at hpassword
        cases hpassword
  cases secret with
  | none =>
      simp only [refusedJoin, List.forall_mem_cons] at hwire
      apply greeting hwire.1 hwire.2.1
      have hclient : connectOnAck rt grp a none (greetedClient cfg) = .done (.systemExit 2) := if_pos hrequired
      obtain ⟨next, hnext⟩ := @handlerOnHello_waits rt grp cfg b _ hpassword
      rw [hclient, hnext]
      apply Inevitable.here
      constructor
      case left | toLeft | toRight | wire => rfl
      case nobody =>
        intro registered h
        cases h
      case right =>
        intro h
        cases h
      case stuck =>
        intro link' h
        cases h
  | some text =>
      have hwire' : ∀ frame ∈ refusedTranscript rt grp a b password (utf8Encode text),
          parseMessage rt (wire rt frame) = .ok frame :=
        fun frame hframe => hwire frame (List.mem_append_right _ hframe)
      apply greeting (hwire _ (by simp [refusedJoin])) (hwire _ (by simp [refusedJoin]))
      rw [connectOnAck_some hrequired, handlerOnHello_some hpassword]
      have hdone := handshake_refused hP hq (hfree text rfl) hwire' ha hA hM (hne text rfl)
      refine (inevitable_fill (context_inClient (greetedClient cfg)) (context_inHandler "user42" false)
        [helloFrame timestamp, ackFrame cfg] hdone).mono ?_
      rintro _ rfl
      constructor
      case left | toLeft | toRight | wire => rfl
      case nobody =>
        intro registered h
        cases h
      case right =>
        intro _
        rfl
      case stuck =>
        intro link' h
        cases h

/-- A client of `cli/client.py` without the password stays out of a node of `cli/server.py`, over the bytes of
their connection. Let the node have a password, and let the client have none, or one with another element and
a confirmation whose tag does not collide with the one that the node expects. Then under every schedule of the
two sides and of the network, however the bytes are cut, the client ends with exit status 2, and where it has
tried a password the handler returns without a client; and at no point of any run has the handler registered
somebody. -/
theorem join_refused (rt : Runtime) (grp : ModpGroup) (cfg : ServerConfig) (a b : Nat) (timestamp : String)
    (secret : Option String) {password : Bytes} (hP : grp.P.Prime) (hq : ((grp.P - 1) / 2).Prime)
    (hpassword : cfg.secret = some password)
    (hfree : ∀ text, secret = some text →
      CollisionFree rt.hmac (refusedInputs rt grp a b password (utf8Encode text)))
    (hwire : ∀ frame ∈ refusedJoin rt grp cfg a b timestamp password secret,
      loads rt (dumps rt frame) = .ok frame)
    (ha : IsExponent grp a) (hA : grp.InRange (publicElement grp a))
    (hM : grp.InRange (mask grp (publicElement grp b) (secretToElement grp rt.hmac password)))
    (hne : ∀ text, secret = some text →
      secretToElement grp rt.hmac password ≠ secretToElement grp rt.hmac (utf8Encode text))
    {room : Nat} (hfits : ∀ frame ∈ refusedJoin rt grp cfg a b timestamp password secret, Fits rt room frame)
    {clientEp serverEp : WsEndpoint} (hclient : clientEp.Fresh room) (hserver : serverEp.Fresh room) :
    Inevitable (ByteStep rt)
      (fun c => c.left.program = .done (.systemExit 2) ∧
        (secret.isSome = true → c.right.program = .done none) ∧ c.Quiet)
      (.start (connect rt grp a timestamp secret) (handleSession rt grp cfg b) clientEp serverEp) ∧
    ∀ c, Relation.ReflTransGen (ByteStep rt)
        (.start (connect rt grp a timestamp secret) (handleSession rt grp cfg b) clientEp serverEp) c →
      ∀ registered, c.right.program ≠ .done (some registered) := by
  have hout := stays_out_inevitable timestamp hP hq hpassword hfree hwire ha hA hM hne
  have hall : FitsFrom rt room
      (Link.start (connect rt grp a timestamp secret) (handleSession rt grp cfg b)) := by
    apply FitsFrom.of_inevitable hout
    · intro g hg
      exact hg.stuck
    · intro g hg frame hframe
      rw [hg.wire] at hframe
      exact hfits frame hframe
  constructor
  · refine (agrees_inevitable hclient hserver hall hout).mono ?_
    rintro c ⟨link, hagrees, hlink⟩
    refine ⟨hagrees.left.trans hlink.left, ?_, hagrees.quiet hlink.toLeft hlink.toRight⟩
    intro htried
    exact hagrees.right.trans (hlink.right htried)
  · intro c hrun registered hregistered
    obtain ⟨link, hlink, hagrees, _⟩ := agrees_run hclient hserver hall hrun
    refine hout.never (fun link => link.right = .done (some registered)) (fun g hg => hg.stuck) ?_
      (fun g hg => hg.nobody registered) hlink (hagrees.right.symm.trans hregistered)
    intro t t' ht hstep
    cases hstep with
    | leftSend | leftRecv => exact ht
    | rightSend | rightRecv => cases ht

/-- A client with the password `beta` and a node with the password `alpha`, with the group modulo 23. -/
theorem join_refused_group23 :
    Inevitable (ByteStep (greetingRuntime hmacSha256))
      (fun c => c.left.program = .done (.systemExit 2) ∧
        ((some "beta").isSome = true → c.right.program = .done none) ∧ c.Quiet)
      (.start (connect (greetingRuntime hmacSha256) group23 3 "2026-01-01T00:00:00" (some "beta"))
        (handleSession (greetingRuntime hmacSha256) group23 alphaConfig 4) (freshEndpoint .gibibyte true)
        (freshEndpoint .gibibyte false)) ∧
    ∀ c, Relation.ReflTransGen (ByteStep (greetingRuntime hmacSha256))
        (.start (connect (greetingRuntime hmacSha256) group23 3 "2026-01-01T00:00:00" (some "beta"))
          (handleSession (greetingRuntime hmacSha256) group23 alphaConfig 4) (freshEndpoint .gibibyte true)
          (freshEndpoint .gibibyte false)) c →
      ∀ registered, c.right.program ≠ .done (some registered) := by
  have hfree : ∀ text, some "beta" = some text → CollisionFree (greetingRuntime hmacSha256).hmac
      (refusedInputs (greetingRuntime hmacSha256) group23 3 4 (asciiBytes "alpha") (utf8Encode text)) := by
    intro text htext
    obtain rfl := Option.some.inj htext
    apply Set.injOn_pair.mpr
    intro hsame
    exact absurd hsame (by decide +kernel)
  have hwire : ∀ frame ∈ refusedJoin (greetingRuntime hmacSha256) group23 alphaConfig 3 4 "2026-01-01T00:00:00"
      (asciiBytes "alpha") (some "beta"),
      loads (greetingRuntime hmacSha256) (dumps (greetingRuntime hmacSha256) frame) = .ok frame := by
    simp only [refusedJoin, refusedTranscript, List.cons_append, List.nil_append, List.forall_mem_cons]
    refine ⟨loads_dumps_greeting _ rfl, loads_dumps_helloAck _ _ _ _, loads_dumps_greeting _ rfl,
      loads_dumps_greeting _ rfl, loads_dumps_greeting _ rfl, loads_dumps_greeting _ rfl, ?_⟩
    intro frame hframe
    cases hframe
  have hne : ∀ text, some "beta" = some text →
      secretToElement group23 (greetingRuntime hmacSha256).hmac (asciiBytes "alpha") ≠
        secretToElement group23 (greetingRuntime hmacSha256).hmac (utf8Encode text) := by
    intro text htext
    obtain rfl := Option.some.inj htext
    decide +kernel
  exact join_refused (greetingRuntime hmacSha256) group23 alphaConfig 3 4 "2026-01-01T00:00:00" (some "beta")
    (by decide) (by decide) rfl hfree hwire (by decide) (by decide +kernel) (by decide +kernel) hne
    (forall_mem_of_all (by decide +kernel)) (fresh_freshEndpoint .gibibyte true)
    (fresh_freshEndpoint .gibibyte false)

end Joining

end Priestly
