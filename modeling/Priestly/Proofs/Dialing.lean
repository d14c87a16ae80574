/-
Module: Priestly.Proofs.Dialing
Layer: Proofs
Purpose: Behind the opening handshake two drivers stand as over fresh connections, whatever the schedule and
  however the bytes of the two header blocks are cut. What is inevitable for them there is inevitable from the
  moment the connection is accepted; so a CLI client that dials a node joins it.
Imports: Priestly.Cli.Dialing, Priestly.Proofs.Joining
Trusted boundary: none
Main exports: Awaits, awaits_serverHandshake, awaits_awaitResponse, dial_inevitable, dialled_client_joins
-/
import Priestly.Cli.Dialing
import Priestly.Proofs.Joining

namespace Priestly

open ByteCodec Interaction

/-! ### A call that waits for a header block -/

/-- A socket that works. -/
theorem Socket.works_of_nil {sock : Socket} (h : sock.faults = []) : sock.Works := by
  intro fault hfault
  rw [h] at hfault
  cases hfault

@[simp] theorem Socket.rest_arrive (more : List (Piece UInt8)) (sock : Socket) :
    (sock.arrive more).rest = sock.rest ++ Piece.flat more := Piece.flat_append _ _

/-- The call returns when the block is there and answers it; and it returns on no stream that does not start
with a header block. -/
structure Awaits (call : SocketM Headers) (block response : Bytes) : Prop where
  isBlock : HeaderBlock block
  answers : ∀ {sock : Socket} {more : Bytes}, sock.faults = [] → sock.rest = block ++ more →
    ∃ headers sock', call sock = .ok headers sock' ∧ sock'.rest = more ∧ sock'.faults = [] ∧
      sock'.memory = sock.memory ∧ sock'.written = sock.written ++ response
  needs : ∀ {sock sock' : Socket} {headers : Headers}, call sock = .ok headers sock' →
    ∃ found more, HeaderBlock found ∧ sock.rest = found ++ more

/-- A header block that is part of another is the other. -/
theorem HeaderBlock.eq_of_prefix {block found : Bytes} (h : HeaderBlock block) (hfound : HeaderBlock found)
    (hpart : found <+: block) : found = block :=
  h.first found hpart hfound.ends

theorem HeaderBlock.ne_nil {block : Bytes} (h : HeaderBlock block) : block ≠ [] := by
  rintro rfl
  exact absurd (List.suffix_nil.mp h.ends) (by decide)

/-- `server_handshake` waits for a request that passes its checks. -/
theorem awaits_serverHandshake {block : Bytes} {key : List Char} {headers : Headers} {token : String}
    (hblock : HeaderBlock block) (hcheck : checkRequest (latin1Decode block) = .ok (key, headers))
    (htoken : acceptToken key = .ok token) :
    Awaits serverHandshake block (latin1Bytes (handshakeResponse token).toList) where
  isBlock := hblock
  answers := by
    intro sock more hfaults hrest
    obtain ⟨sock', hcall, hrest', hwritten⟩ :=
      serverHandshake_works (Socket.works_of_nil hfaults) hblock hrest hcheck htoken
    have hascii : AsciiKey key := by
      rcases acceptToken_cases key with ⟨hascii, _⟩ | ⟨_, hnone⟩
      · exact hascii
      · rw [hnone] at htoken
        cases htoken
    rcases serverHandshake_accepted hblock hrest hcheck hascii with
      ⟨sock'', hcall', hmemory, _, hfaults'⟩ | ⟨fault, _, hfault, _⟩
    · rw [hcall] at hcall'
      obtain ⟨_, rfl⟩ := EStateM.Result.ok.inj hcall'
      rw [hfaults] at hfaults'
      exact ⟨headers, sock', hcall, hrest', hfaults', hmemory, hwritten⟩
    · rw [hfaults] at hfault
      cases hfault
  needs := by
    intro sock sock' found h
    obtain ⟨text, sock₁, hread, _⟩ := StateExcept.bind_eq_ok h
    obtain ⟨bytes, rest, hbytes, hrest, _⟩ := exists_headerBlock hread
    exact ⟨bytes, rest, hbytes, hrest⟩

/-- A client waits for a response that passes its checks. -/
theorem awaits_awaitResponse {nonce : Vector UInt8 16} {block : Bytes} {headers : Headers}
    (hblock : HeaderBlock block) (hcheck : checkResponse (clientKey nonce) (latin1Decode block) = .ok headers) :
    Awaits (awaitResponse nonce) block [] where
  isBlock := hblock
  answers := by
    intro sock more hfaults hrest
    obtain ⟨sock', hread, hleft⟩ := readHttpHeaders_block hblock hrest
    refine ⟨headers, sock', ?_, hleft.rest, hleft.faults.trans hfaults, hleft.memory, ?_⟩
    · rw [awaitResponse, StateExcept.bind_ok hread, hcheck]
      rfl
    · rw [hleft.written, List.append_nil]
  needs := by
    intro sock sock' found h
    obtain ⟨text, sock₁, hread, _⟩ := StateExcept.bind_eq_ok h
    obtain ⟨bytes, rest, hbytes, hrest, _⟩ := exists_headerBlock hread
    exact ⟨bytes, rest, hbytes, hrest⟩

/-! ### An end that waits -/

section Waiting

variable {rt : Runtime} {room : Nat} {α : Type} {next : Opening α} {block response : Bytes} {sock : Socket}
  {pipe : Bytes}

/-- The state of an end that waits for a block: the socket works, its process has room for packets, and what
has arrived of the block and what is on its way make it up. -/
structure Expecting (room : Nat) (sock : Socket) (pipe block : Bytes) : Prop where
  working : sock.faults = []
  holds : room ≤ sock.memory.largest
  stream : sock.rest ++ pipe = block

theorem Expecting.arrive {piece : Piece UInt8} (h : Expecting room sock (piece.items ++ pipe) block) :
    Expecting room (sock.arrive [piece]) pipe block where
  working := h.working
  holds := h.holds
  stream := by
    rw [← h.stream, Socket.rest_arrive]
    simp

/-- Such an end takes a step only when the whole block is there, and then it goes on with its driver. -/
theorem Expecting.step (h : Expecting room sock pipe block) (hawaits : Awaits next.call block response)
    {bytes : Bytes} {after : DialEnd α} (hstep : DialEndStep rt (.opening next sock) bytes after) :
    pipe = [] ∧ bytes = response ∧ ∃ ep : WsEndpoint, ep.Fresh room ∧ after = .running ⟨next.program, ep⟩ := by
  cases hstep with
  | opened call =>
      obtain ⟨found, more, hfound, hrest⟩ := hawaits.needs call
      have hstream : found ++ (more ++ pipe) = block := by
        rw [← List.append_assoc, ← hrest, h.stream]
      obtain rfl := hawaits.isBlock.eq_of_prefix hfound ⟨_, hstream⟩
      obtain ⟨hmore, hpipe⟩ := List.append_eq_nil_iff.mp
        (List.append_cancel_left (hstream.trans (List.append_nil _).symm))
      obtain ⟨headers, sock', hcall, hrest', hfaults, hmemory, hwritten⟩ := hawaits.answers h.working hrest
      rw [hcall] at call
      obtain ⟨_, rfl⟩ := EStateM.Result.ok.inj call
      refine ⟨hpipe, ?_, _, ⟨⟨rfl, hfaults, hmemory ▸ h.holds⟩, hrest'.trans hmore⟩, rfl⟩
      rw [Socket.emitted, hwritten, List.drop_left]
  | openRaised call settled =>
      obtain ⟨_, hraised⟩ := settled (Piece.ofList pipe)
      have hrest : (sock.arrive (Piece.ofList pipe)).rest = block ++ [] := by
        rw [Socket.rest_arrive, Piece.flat_ofList, h.stream, List.append_nil]
      have hworking : (sock.arrive (Piece.ofList pipe)).faults = [] := h.working
      obtain ⟨_, _, hcall, _⟩ := hawaits.answers hworking hrest
      rw [hcall] at hraised
      cases hraised

/-- With the whole block there, it can. -/
theorem Expecting.exists_step (h : Expecting room sock [] block) (hawaits : Awaits next.call block response) :
    ∃ bytes after, DialEndStep rt (.opening next sock) bytes after := by
  have hrest : sock.rest = block ++ [] := by
    rw [← h.stream]
    simp
  obtain ⟨_, _, hcall, _⟩ := hawaits.answers h.working hrest
  exact ⟨_, _, .opened hcall⟩

/-- A driver that reads first waits at a fresh end. -/
theorem EndStep.waits {program : Driver α} {ep : WsEndpoint} {bytes : Bytes} {after : PipeEnd α}
    (hreads : ∃ onMessage, program = .recv onMessage) (hfresh : ep.Fresh room)
    (hstep : EndStep rt ⟨program, ep⟩ bytes after) : False := by
  obtain ⟨onMessage, rfl⟩ := hreads
  have hempty : InTransit rt room ep [] [] := ⟨[], by rw [hfresh.nothing]; rfl, .nil⟩
  obtain ⟨_, _, hqueue, _⟩ := hstep.of_recv hfresh.toLive hempty
  cases hqueue

end Waiting

/-! ### The phases of an opening -/

section Phases

variable {rt : Runtime} {room : Nat} {α β : Type} {client : Opening α} {server : Opening β}
  {request response : Bytes} {goal : ByteLink α β → Prop}

/-- The goal, of a connection that is open at both ends. -/
def Dial.Reached (goal : ByteLink α β → Prop) (dial : Dial α β) : Prop :=
  ∃ link, dial = .ofLink link ∧ goal link

/-- A connection that is open at both ends takes the steps of its two drivers. -/
theorem ofLink_refines : Refines (DialStep (α := α) (β := β) rt) (ByteStep rt)
    (fun dial link => dial = .ofLink link) (fun _ => 0) where
  step := by
    rintro _ dial link rfl hstep
    left
    obtain ⟨left, right, toLeft, toRight⟩ := link
    cases hstep with
    | client step =>
        cases step with
        | ran step => exact ⟨_, .left step, rfl⟩
    | server step =>
        cases step with
        | ran step => exact ⟨_, .right step, rfl⟩
    | arriveClient => exact ⟨_, .arriveLeft, rfl⟩
    | arriveServer => exact ⟨_, .arriveRight, rfl⟩
  alive := by
    rintro _ link link' rfl hstep
    cases hstep with
    | left step => exact ⟨_, .client (.ran step)⟩
    | right step => exact ⟨_, .server (.ran step)⟩
    | arriveLeft => exact ⟨_, .arriveClient⟩
    | arriveRight => exact ⟨_, .arriveServer⟩

/-- What is known of the two drivers: the one of the server reads first, and over fresh connections the goal is
inevitable. -/
structure Bound (rt : Runtime) (room : Nat) (client : Opening α) (server : Opening β)
    (goal : ByteLink α β → Prop) : Prop where
  waits : ∃ onMessage, server.program = .recv onMessage
  inevitable : ∀ {clientEp serverEp : WsEndpoint}, clientEp.Fresh room → serverEp.Fresh room →
    Inevitable (ByteStep rt) goal (.start client.program server.program clientEp serverEp)

/-- The client waits for the response, and the handler of the server for the client. -/
theorem awaiting_response (hbound : Bound rt room client server goal)
    (hresponse : Awaits client.call response [])
    {sock : Socket} {toClient : Bytes} (hexpecting : Expecting room sock toClient response)
    {serverEp : WsEndpoint} (hserver : serverEp.Fresh room) :
    Inevitable (DialStep rt) (Dial.Reached goal)
      ⟨.opening client sock, .running ⟨server.program, serverEp⟩, toClient, []⟩ := by
  induction hlength : toClient.length using Nat.strongRecOn generalizing toClient sock with
  | ind length ih =>
      apply Inevitable.step
      · by_cases hempty : toClient = []
        · rw [hempty] at hexpecting ⊢
          obtain ⟨bytes, after, hstep⟩ : ∃ bytes after, DialEndStep rt (.opening client sock) bytes after :=
            hexpecting.exists_step hresponse
          exact ⟨_, .client hstep⟩
        · obtain ⟨piece, rest, rfl⟩ := exists_piece hempty
          exact ⟨_, .arriveClient⟩
      · intro dial hstep
        cases hstep with
        | client step =>
            obtain ⟨rfl, rfl, clientEp, hclient, rfl⟩ := hexpecting.step hresponse step
            have hreached := ofLink_refines.inevitable rfl (hbound.inevitable hclient hserver)
            exact hreached
        | server step =>
            cases step with
            | ran step => exact (EndStep.waits hbound.waits hserver step).elim
        | @arriveClient _ _ piece rest _ =>
            exact ih rest.length (by rw [← hlength]; simp [Piece.items]) hexpecting.arrive rfl

/-- The client has written its request, which the server waits for. -/
theorem awaiting_request (hbound : Bound rt room client server goal)
    (hrequest : Awaits server.call request response)
    (hresponse : Awaits client.call response []) {clientSock serverSock : Socket} {toServer : Bytes}
    (hclient : Expecting room clientSock response response)
    (hserver : Expecting room serverSock toServer request) :
    Inevitable (DialStep rt) (Dial.Reached goal)
      ⟨.opening client clientSock, .opening server serverSock, [], toServer⟩ := by
  induction hlength : toServer.length using Nat.strongRecOn generalizing toServer serverSock with
  | ind length ih =>
      apply Inevitable.step
      · by_cases hempty : toServer = []
        · rw [hempty] at hserver ⊢
          obtain ⟨bytes, after, hstep⟩ : ∃ bytes after, DialEndStep rt (.opening server serverSock) bytes after :=
            hserver.exists_step hrequest
          exact ⟨_, .server hstep⟩
        · obtain ⟨piece, rest, rfl⟩ := exists_piece hempty
          exact ⟨_, .arriveServer⟩
      · intro dial hstep
        cases hstep with
        | client step =>
            obtain ⟨hnothing, _⟩ := hclient.step hresponse step
            exact absurd hnothing hresponse.isBlock.ne_nil
        | server step =>
            obtain ⟨rfl, rfl, serverEp, hfresh, rfl⟩ := hserver.step hrequest step
            exact awaiting_response hbound hresponse hclient hfresh
        | @arriveServer _ _ piece _ rest =>
            exact ih rest.length (by rw [← hlength]; simp [Piece.items]) hserver.arrive rfl

/-- The server waits for a request that the client has still to write. -/
theorem opening_inevitable (hbound : Bound rt room client server goal)
    (hrequest : Awaits server.call request response)
    (hresponse : Awaits client.call response []) {clientSock serverSock : Socket}
    (hclient : Expecting room clientSock response response)
    (hserver : Expecting room serverSock request request) :
    Inevitable (DialStep rt) (Dial.Reached goal)
      (.start (.requesting request client clientSock) (.opening server serverSock)) := by
  have hwrite := (Socket.works_of_nil hclient.working).sendall request
  apply Inevitable.step
  · exact ⟨_, .client (.requested hwrite)⟩
  · intro dial hstep
    generalize hstart : Dial.start _ _ = start at hstep
    cases hstep with
    | client step =>
        cases hstart
        cases step with
        | requested call =>
            rw [hwrite] at call
            obtain ⟨_, rfl⟩ := EStateM.Result.ok.inj call
            rw [Socket.emitted, List.drop_left, List.nil_append]
            exact awaiting_request hbound hrequest hresponse
              ⟨by rw [hclient.working]; rfl, hclient.holds, hclient.stream⟩ hserver
        | requestRaised call =>
            rw [hwrite] at call
            cases call
    | server step =>
        cases hstart
        obtain ⟨hnothing, _⟩ := hserver.step hrequest step
        exact absurd hnothing hrequest.isBlock.ne_nil
    | arriveClient | arriveServer => cases hstart

/-- A working socket at which nothing has arrived, of a process that can hold packets of so many bytes. -/
structure Socket.Idle (sock : Socket) (room : Nat) : Prop where
  working : sock.faults = []
  nothing : sock.rest = []
  holds : room ≤ sock.memory.largest

/-- What is inevitable over fresh connections is inevitable from the sockets on. The client asks for a Latin-1
host and path without line breaks, and its request is not too large. -/
theorem dial_inevitable {left : Driver α} {right : Driver β} {goal : ByteLink α β → Prop}
    (hwaits : ∃ onMessage, right = .recv onMessage)
    (hgoal : ∀ {clientEp serverEp : WsEndpoint}, clientEp.Fresh room → serverEp.Fresh room →
      Inevitable (ByteStep rt) goal (.start left right clientEp serverEp))
    (nonce : Vector UInt8 16) {host path : List Char} (hhost : IsLatin1 host ∧ OnOneLine host)
    (hpath : IsLatin1 path ∧ OnOneLine path)
    (hsize : (handshakeRequest host path (clientKey nonce)).length ≤ maxHeaderBytes)
    (clientKeys serverKeys : Nat → MaskingKey) {clientSock serverSock : Socket}
    (hclient : clientSock.Idle room) (hserver : serverSock.Idle room) :
    Inevitable (DialStep rt) (Dial.Reached goal)
      (.start (dialling nonce host path clientKeys left clientSock) (serving serverKeys right serverSock)) := by
  obtain ⟨hblock, hcheck⟩ := request_accepted hhost hpath hsize
  have htoken : ∃ token, acceptToken (clientKey nonce) = .ok token := by
    rcases acceptToken_cases (clientKey nonce) with ⟨_, htoken⟩ | ⟨hnone, _⟩
    · exact htoken
    · exact absurd (fun c hc => (b64_printable hc).1) hnone
  obtain ⟨token, htoken⟩ := htoken
  obtain ⟨hblock', hcheck'⟩ := response_accepted htoken
  have hlatin1 : IsLatin1 (handshakeRequest host path (clientKey nonce)) :=
    isLatin1_handshakeRequest hhost.1 hpath.1
  have hencode := latin1Encode_ok hlatin1
  rw [dialling, hencode]
  exact opening_inevitable ⟨hwaits, hgoal⟩ (awaits_serverHandshake hblock hcheck htoken)
    (awaits_awaitResponse hblock' hcheck') ⟨hclient.working, hclient.holds, by rw [hclient.nothing]; rfl⟩
    ⟨hserver.working, hserver.holds, by rw [hserver.nothing]; rfl⟩

end Phases

/-! ### A client that dials a node -/

/-- Both drivers are done, and nothing is on its way. -/
def Ended {α β : Type} (value : α) (value' : β) (link : ByteLink α β) : Prop :=
  link.left.program = .done value ∧ link.right.program = .done value' ∧ link.Quiet

/-- An exception has left the opening handshake of one of the ends. -/
def Dial.Failed {α β : Type} (dial : Dial α β) : Prop :=
  (∃ exn, dial.client = .failed exn) ∨ ∃ exn, dial.server = .failed exn

section Joining

variable {rt : Runtime} {α β : Type}

/-- Where both drivers are done there is no step. -/
theorem Dial.Reached.stuck {value : α} {value' : β} {dial : Dial α β} (h : dial.Reached (Ended value value'))
    (dial' : Dial α β) : ¬ DialStep rt dial dial' := by
  obtain ⟨⟨⟨left, leftEp⟩, ⟨right, rightEp⟩, toLeft, toRight⟩, rfl, hlink⟩ := h
  obtain ⟨hleft, hright, ⟨htoLeft, _⟩, htoRight, _⟩ := hlink
  obtain rfl : left = .done value := hleft
  obtain rfl : right = .done value' := hright
  obtain rfl : toLeft = [] := htoLeft
  obtain rfl : toRight = [] := htoRight
  intro hstep
  cases hstep with
  | client step =>
      cases step with
      | ran step => cases step
  | server step =>
      cases step with
      | ran step => cases step

/-- A handshake that has failed stays so. -/
theorem Dial.Failed.step {dial dial' : Dial α β} (h : dial.Failed) (hstep : DialStep rt dial dial') :
    dial'.Failed := by
  rcases h with ⟨exn, hclient⟩ | ⟨exn, hserver⟩
  · left
    cases hstep with
    | client step =>
        obtain rfl := hclient
        cases step
    | server step => exact ⟨exn, hclient⟩
    | arriveClient =>
        obtain rfl := hclient
        exact ⟨exn, rfl⟩
    | arriveServer => exact ⟨exn, hclient⟩
  · right
    cases hstep with
    | client step => exact ⟨exn, hserver⟩
    | server step =>
        obtain rfl := hserver
        cases step
    | arriveClient => exact ⟨exn, hserver⟩
    | arriveServer =>
        obtain rfl := hserver
        exact ⟨exn, rfl⟩

end Joining

/-- A CLI client that dials a node joins it, from the accepted connection on. Let the client ask for a Latin-1
host and path without line breaks in a request that is not too large; let the node be open, or the client have
its password; let both sockets work, no byte have arrived, and both processes be able to hold the packets.
Then under every schedule of the two sides and of the network, however the bytes of the header blocks and of
the frames are cut, the client ends connected, the node registers it as `user42`, and no byte is left over;
behind a password their sessions face each other; and in no run the opening handshake fails at either end. -/
theorem dialled_client_joins (rt : Runtime) (grp : ModpGroup) (cfg : ServerConfig) (a b : Nat)
    (timestamp : String) (secret : Option String) (nonce : Vector UInt8 16) (host path : List Char)
    (hhost : IsLatin1 host ∧ OnOneLine host) (hpath : IsLatin1 path ∧ OnOneLine path)
    (hsize : (handshakeRequest host path (clientKey nonce)).length ≤ maxHeaderBytes) (hP : grp.P.Prime)
    (hwire : ∀ frame : Frame, frame.IsJoining → loads rt (dumps rt frame) = .ok frame)
    (hsecret : cfg.passwordRequired = true → secret = cfg.password)
    (hA : grp.InRange (publicElement grp a))
    (hM : ∀ password, cfg.secret = some password →
      grp.InRange (mask grp (publicElement grp b) (secretToElement grp rt.hmac password)))
    {room : Nat} (hfits : ∀ frame ∈ joinTranscript rt grp cfg a b timestamp, Fits rt room frame)
    (clientKeys serverKeys : Nat → MaskingKey) (clientSock serverSock : Socket)
    (hclient : clientSock.Idle room) (hserver : serverSock.Idle room) :
    ∃ client registered, Joined cfg client registered ∧
      Inevitable (DialStep rt) (Dial.Reached (Ended (.client client) (some registered)))
        (.start (dialling nonce host path clientKeys (connect rt grp a timestamp secret) clientSock)
          (serving serverKeys (handleSession rt grp cfg b) serverSock)) ∧
      ∀ dial, Relation.ReflTransGen (DialStep rt)
        (.start (dialling nonce host path clientKeys (connect rt grp a timestamp secret) clientSock)
          (serving serverKeys (handleSession rt grp cfg b) serverSock)) dial → ¬ dial.Failed := by
  obtain ⟨client, registered, hjoined, hdone⟩ :=
    @join_inevitable rt grp cfg a b timestamp secret hP hwire hsecret hA hM
  have hends := @dial_inevitable rt room _ _ (connect rt grp a timestamp secret) (handleSession rt grp cfg b)
    (Ended (.client client) (some registered)) ⟨_, rfl⟩
    (fun hleft hright => joins_over_bytes hdone hfits hleft hright) nonce _ _ hhost hpath hsize clientKeys
    serverKeys _ _ hclient hserver
  refine ⟨client, registered, hjoined, hends, ?_⟩
  intro dial hrun
  apply hends.never Dial.Failed (fun g hg => hg.stuck) (fun t t' ht hstep => ht.step hstep) ?_ hrun
  rintro _ ⟨link, rfl, _⟩ hfailed
  rcases hfailed with ⟨exn, h⟩ | ⟨exn, h⟩
  · cases h
  · cases h

/-- A socket at which nothing has arrived. -/
def idleSocket (memory : Memory) : Socket where
  memory := memory
  pieces := []
  ending := none
  faults := []
  written := []

/-- A client dials `localhost` and joins a node with the password `alpha`, with the group
modulo 23. -/
theorem dialled_client_joins_group23 :
    ∃ client registered, Joined alphaConfig client registered ∧
      Inevitable (DialStep (greetingRuntime hmacSha256))
        (Dial.Reached (Ended (.client client) (some registered)))
        (.start
          (dialling (Vector.replicate 16 0) "localhost".toList "/".toList (fun _ => Vector.replicate 4 7)
            (connect (greetingRuntime hmacSha256) group23 3 "2026-01-01T00:00:00" (some "alpha"))
            (idleSocket .gibibyte))
          (serving (fun _ => Vector.replicate 4 7)
            (handleSession (greetingRuntime hmacSha256) group23 alphaConfig 4) (idleSocket .gibibyte))) := by
  obtain ⟨client, registered, hjoined, hends, _⟩ := dialled_client_joins (greetingRuntime hmacSha256) group23
    alphaConfig 3 4 "2026-01-01T00:00:00" (some "alpha") (Vector.replicate 16 0) "localhost".toList "/".toList
    ⟨forall_mem_of_all (by decide), forall_mem_of_all (by decide)⟩
    ⟨forall_mem_of_all (by decide), forall_mem_of_all (by decide)⟩ (by decide +kernel) (by decide)
    loads_dumps_joining (fun _ => rfl) (by decide +kernel) inRange_alphaConfig
    (forall_mem_of_all (by decide +kernel)) (fun _ => Vector.replicate 4 7) (fun _ => Vector.replicate 4 7)
    (idleSocket .gibibyte) (idleSocket .gibibyte) ⟨rfl, rfl, le_refl _⟩ ⟨rfl, rfl, le_refl _⟩
  exact ⟨client, registered, hjoined, hends⟩

end Priestly
