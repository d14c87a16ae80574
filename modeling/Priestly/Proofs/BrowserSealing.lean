/-
Module: Priestly.Proofs.BrowserSealing
Layer: Proofs
Purpose: Sealed frames between the page and the nodes. What `seal` of the page makes is what a client
  session without compression seals, so the server opens it; what the server seals for a browser is
  stored verbatim, so `open_` of the page opens it, frame by frame in the order of the relay.
Imports: Priestly.Ui.Sealed, Priestly.Proofs.UiCovenant, Priestly.Proofs.Authorization
Trusted boundary: the JSON functions of the two languages invert each other, as a hypothesis
Main exports: Ui.seal_seals, Ui.open_seals, JsonInterop, browser_interop
-/
import Priestly.Proofs.Authorization
import Priestly.Proofs.UiCovenant
import Priestly.Ui.Sealed

namespace Priestly

open ByteCodec Js

/-! ### The header -/

namespace Ui

variable (js : JsonCodec) (mac : Mac)

/-- Header numbers are written as the nodes write them. -/
theorem u64be_eq {n : Int} (h : 0 ≤ n ∧ n < 2 ^ 64) : u64be n = toBytesBE 8 n.toNat := by
  rw [u64be, setBigUint64, Int.emod_eq_of_lt h.1 h.2]

/-- The bytes the page authenticates are the bytes the nodes authenticate. -/
theorem tagMessage_u64be {epoch seq : Int} (hepoch : 0 ≤ epoch ∧ epoch < 2 ^ 64)
    (hseq : 0 ≤ seq ∧ seq < 2 ^ 64) (direction : String) (body : Bytes) :
    tagMessage epoch seq direction body =
      .ok (u64be epoch ++ u64be seq ++ [directionByte direction] ++ body) := by
  rw [tagMessage_ok hepoch hseq, u64be_eq hepoch, u64be_eq hseq]

theorem b64encode_eq (body : Bytes) : b64encode body = .ok (Priestly.b64encode body) := btoa_octets body

/-- The page decodes what the nodes encode. -/
theorem b64decode_eq (body : Bytes) : b64decode (Priestly.b64encode body) = .ok body := by
  have hback : (body.map UInt8.toNat).map UInt8.ofNat = body := by
    rw [List.map_map]
    exact List.map_id'' (fun byte => UInt8.ofNat_toNat) body
  rw [b64decode, atob_b64encode, Js.ok_bind]
  exact congrArg Except.ok hback

/-! ### From the page to the server -/

/-- What the page seals under a number is what a client session without compression seals under it. -/
theorem seal_seals {keys : Keys} (hkey : keys.clientMac ≠ []) {base : SessionState}
    (hcompress : base.compress = false) (hdir : base.txDir = "client")
    (hmac : base.txMac = keys.clientMac) (hepoch : base.epoch = 0) {seq : Int}
    (hseq : 0 ≤ seq ∧ seq < 2 ^ 64) (obj : Json) :
    ∃ frame, «seal» js mac keys seq obj = .ok frame ∧ frame.seq = seq ∧
      base.Seals mac (utf8Encode (js.stringify obj)) frame := by
  have hzero : (0 : Int) ≤ 0 ∧ (0 : Int) < 2 ^ 64 := by decide
  have hdirection : utf8Encode "C" = [directionByte "client"] := by decide +kernel
  have hmessage := tagMessage_u64be hzero hseq "client" (storedMarker :: utf8Encode (js.stringify obj))
  let body := storedMarker :: utf8Encode (js.stringify obj)
  refine ⟨{ epoch := 0, seq, direction := "client", payload := Priestly.b64encode body
            tag := sign mac keys.clientMac (u64be 0 ++ u64be seq ++ utf8Encode "C" ++ body) },
    ?_, rfl, ?_⟩
  · rw [«seal», hmac_eq hkey, Js.ok_bind, b64encode_eq, Js.ok_bind, bytesToHex_eq]
    rfl
  · have hbody : SessionState.body { base with txSeq := seq } (utf8Encode (js.stringify obj)) =
        .ok (storedMarker :: utf8Encode (js.stringify obj)) := by
      rw [SessionState.body]
      exact if_neg (Bool.not_eq_true _ ▸ hcompress)
    rw [SessionState.Seals, SessionState.sealAt, hbody, Priestly.ok_bind]
    simp only [computeTag, hdir, hepoch, hmessage, hmac, Priestly.ok_bind, pure_ok, sign, hdirection,
      List.append_assoc]
    rfl

/-! ### From the server to the page -/

/-- The page opens what a server session without compression seals. -/
theorem open_seals {keys : Keys} (hkey : keys.serverMac ≠ []) {base : SessionState}
    (hcompress : base.compress = false) (hdir : base.txDir = "server")
    (hmac : base.txMac = keys.serverMac) {plaintext : Bytes} {frame : SealedFrame}
    (h : base.Seals mac plaintext frame) {rxSeq : Int} (hnew : rxSeq < frame.seq) :
    open_ js mac keys rxSeq frame = js.parse (textDecode plaintext) := by
  have hdirection : utf8Encode "S" = [directionByte "server"] := by decide +kernel
  obtain ⟨body, message, hbody, hmessage, hframe⟩ := h.parts
  obtain ⟨hepoch, hseq, hbytes⟩ := tagMessage_eq_ok hmessage
  have hstored : body = storedMarker :: plaintext := by
    rw [SessionState.body, if_neg (Bool.not_eq_true _ ▸ hcompress)] at hbody
    exact (Except.ok.inj hbody).symm
  have hfields : frame.direction = "server" ∧ frame.epoch = base.epoch ∧
      frame.payload = Priestly.b64encode body ∧ frame.tag = sign mac keys.serverMac message := by
    rw [hframe, hdir, hmac]
    exact ⟨rfl, rfl, rfl, rfl⟩
  obtain ⟨hframeDir, hframeEpoch, hpayload, htag⟩ := hfields
  have hinput : u64be frame.epoch ++ u64be frame.seq ++ utf8Encode "S" ++ body = message := by
    rw [hframeEpoch, u64be_eq hepoch, u64be_eq hseq, hdirection, hbytes, hdir]
  rw [open_, if_neg (not_not_intro hframeDir), hpayload, b64decode_eq, Js.ok_bind]
  simp only [hmac_eq hkey, Js.ok_bind, hinput, bytesToHex_eq]
  have hexpect : hexString (mac keys.serverMac message) = frame.tag := htag.symm
  rw [if_neg (not_not_intro hexpect), if_neg (not_le.mpr hnew), hstored]
  rfl

/-- Text that starts with an ASCII character is decoded to itself. -/
theorem textDecode_utf8Encode {text : String} {c : Char} {rest : List Char} (h : text.toList = c :: rest)
    (hc : c.toNat < 128) : textDecode (utf8Encode text) = text := by
  have hfirst : String.utf8EncodeChar c = [UInt8.ofNat c.toNat] := if_pos (Nat.le_of_lt_succ hc)
  have hbytes : utf8Encode text = UInt8.ofNat c.toNat :: rest.flatMap String.utf8EncodeChar := by
    rw [utf8Encode_eq, h, List.flatMap_cons, hfirst]
    rfl
  have hmark : UInt8.ofNat c.toNat ≠ 0xEF := by
    intro heq
    have hvalue := congrArg UInt8.toNat heq
    rw [UInt8.toNat_ofNat'] at hvalue
    have : (0xEF : UInt8).toNat = 239 := rfl
    omega
  have hdata : dropMark (utf8Encode text) = utf8Encode text := by
    rw [hbytes, dropMark.eq_def]
    split
    · rename_i heq
      exact absurd (List.cons.inj heq).1 hmark
    · rfl
  rw [textDecode, hdata, utf8Decode_utf8Encode]

end Ui

/-- `JSON.parse` inverts `json.dumps` on the objects the payload is made of, and these start with a
brace. -/
def JsonInterop (rt : Runtime) (js : JsonCodec) : Prop :=
  ∀ text sender, (∃ rest, (rt.jsonDumps (messageObject text sender)).toList = Char.ofNat 0x7B :: rest) ∧
    js.parse (rt.jsonDumps (messageObject text sender)) = .ok (messageObject text sender)

/-! ### Runs of frames -/

/-- What a session opens from the frames that arrive in turn. -/
def SessionState.openEach (rt : Runtime) : SessionState → List SealedFrame → List (Except Exn Bytes)
  | _, [] => []
  | session, frame :: frames =>
      let (result, session') := session.open rt frame
      result :: openEach rt session' frames

/-- A frame sealed under a new number is opened and moves the receive counter. -/
theorem SessionState.Seals.opens {rt : Runtime} {sender receiver : SessionState} {plaintext : Bytes}
    {frame : SealedFrame} (h : sender.Seals rt.hmac plaintext frame)
    (hdir : receiver.rxDir = sender.txDir) (hkey : receiver.rxMac = sender.txMac)
    (hseq : receiver.rxSeq < frame.seq) :
    receiver.open rt frame = (.ok plaintext, { receiver with rxSeq := frame.seq }) := by
  obtain ⟨body, hverify, hunpack⟩ := h.verify h.carries_self hdir hkey hseq
  rw [SessionState.open_of_verify_ok hverify, hunpack]

/-- A frame sealed under a number that has been seen is a replay, and changes nothing. -/
theorem SessionState.Seals.replayed {rt : Runtime} {sender receiver : SessionState} {plaintext : Bytes}
    {frame : SealedFrame} (h : sender.Seals rt.hmac plaintext frame)
    (hdir : receiver.rxDir = sender.txDir) (hkey : receiver.rxMac = sender.txMac)
    (hseq : frame.seq ≤ receiver.rxSeq) :
    receiver.open rt frame =
      (.error (.replayError s!"stale sequence number {frame.seq} (last seen {receiver.rxSeq})"), receiver) := by
  obtain ⟨body, message, _, hmessage, hframe⟩ := h.parts
  have haddressed : receiver.Addressed frame body := by
    rw [hframe]
    exact ⟨hdir.symm, b64decode_b64encode body⟩
  apply SessionState.open_of_verify_error
  apply @SessionState.verify_stale _ _ _ body message haddressed
  · rw [hframe]
    exact hmessage
  · rw [hframe, hkey]
  · exact hseq

/-- The page's keys for a session. -/
def SessionKeys.page (keys : SessionKeys) : Ui.Keys :=
  { clientMac := keys.clientMac, serverMac := keys.serverMac }

section PageToServer

variable (rt : Runtime) (js : JsonCodec) {keys : SessionKeys}

/-- The server opens a frame of the page under a number it has not seen. -/
theorem open_page_frame (hkey : keys.clientMac ≠ []) {session : SessionState}
    (hsession : (SessionState.new keys false true).Continues session) {seq : Int}
    (hseq : 0 < seq ∧ seq < 2 ^ 53) (hnew : session.rxSeq < seq) (obj : Json) :
    ∃ frame, Ui.seal js rt.hmac keys.page seq obj = .ok frame ∧
      session.open rt frame =
        (.ok (utf8Encode (js.stringify obj)), { session with rxSeq := seq }) := by
  have hwide : 0 ≤ seq ∧ seq < 2 ^ 64 := by omega
  have hpage : keys.page.clientMac ≠ [] := hkey
  obtain ⟨frame, hframe, hnumber, hseals⟩ :=
    Ui.seal_seals js rt.hmac hpage (rfl : (SessionState.new keys true false).compress = false)
      rfl rfl rfl hwide obj
  refine ⟨frame, hframe, ?_⟩
  rw [← hnumber]
  apply hseals.opens
  · rw [hsession.2]
    rfl
  · rw [hsession.2]
    rfl
  · rw [hnumber]
    exact hnew

/-- The server opens what the page seals under increasing numbers, in turn. -/
theorem openEach_sealEach (hkey : keys.clientMac ≠ []) {session : SessionState}
    (hsession : (SessionState.new keys false true).Continues session) {messages : List (Int × Json)}
    (hincreasing : messages.Pairwise fun a b => a.1 < b.1)
    (hrange : ∀ message ∈ messages, 0 < message.1 ∧ message.1 < 2 ^ 53)
    (hnew : ∀ message ∈ messages, session.rxSeq < message.1) :
    ∃ frames, Ui.sealEach js rt.hmac keys.page messages = .ok frames ∧
      session.openEach rt frames =
        messages.map fun message => .ok (utf8Encode (js.stringify message.2)) := by
  induction messages generalizing session with
  | nil => exact ⟨[], rfl, rfl⟩
  | cons message messages ih =>
      obtain ⟨hhead, htail⟩ := List.pairwise_cons.mp hincreasing
      obtain ⟨hrange, hranges⟩ := List.forall_mem_cons.mp hrange
      obtain ⟨frame, hframe, hopen⟩ :=
        open_page_frame rt js hkey hsession hrange (hnew message List.mem_cons_self) message.2
      have hlater : (SessionState.new keys false true).Continues { session with rxSeq := message.1 } := by
        refine ⟨hsession.1, ?_⟩
        rw [hsession.2]
      obtain ⟨frames, hframes, hopens⟩ := ih hlater htail hranges hhead
      refine ⟨frame :: frames, ?_, ?_⟩
      · rw [Ui.sealEach, List.mapM_cons, hframe, Js.ok_bind]
        rw [Ui.sealEach] at hframes
        rw [hframes]
        rfl
      · simp only [SessionState.openEach, hopen, hopens, List.map_cons]

end PageToServer

/-! ### What a browser is relayed -/

/-- The page got the text and the sender of the broadcast a relayed frame belongs to. -/
def Shows (broadcasts : List Broadcast) (entry : Nat × Frame) (result : Except JsError Json) : Prop :=
  ∃ message, broadcasts[entry.1]? = some message ∧
    result = .ok (messageObject message.text message.senderName)

/-- A frame with small numbers is received as it was sent. -/
theorem received_eq {frame : SealedFrame} (hepoch : frame.epoch = 0)
    (hseq : 0 ≤ frame.seq ∧ frame.seq < 2 ^ 53) : Ui.received frame = frame := by
  have hzero : toNumber frame.epoch = frame.epoch := by
    rw [hepoch]
    exact toNumber_of_lt (by decide)
  rw [Ui.received, hzero, toNumber_of_lt (by omega)]

/-- The page opens frames that a session without compression sealed under increasing numbers, each to the
broadcast it belongs to. -/
theorem openEach_matches {rt : Runtime} {js : JsonCodec} (hjson : JsonInterop rt js) {keys : Ui.Keys}
    (hkey : keys.serverMac ≠ []) {base : SessionState} (hcompress : base.compress = false)
    (hdir : base.txDir = "server") (hmac : base.txMac = keys.serverMac) (hepoch : base.epoch = 0)
    {broadcasts : List Broadcast} {entries : List (Nat × Frame)} {sent : List (Bytes × SealedFrame)}
    (hmatch : List.Forall₂ (Hub.Matches rt broadcasts) entries sent)
    (hseals : ∀ entry ∈ sent, base.Seals rt.hmac entry.1 entry.2)
    (hincreasing : Increasing (fun entry => entry.2.seq) sent) {rxSeq : Int}
    (habove : ∀ entry ∈ sent, rxSeq < entry.2.seq)
    (hrange : ∀ entry ∈ sent, 0 < entry.2.seq ∧ entry.2.seq < 2 ^ 53) :
    List.Forall₂ (Shows broadcasts) entries
      (Ui.openEach js rt.hmac keys rxSeq ((sent.map Prod.snd).map Ui.received)) := by
  induction hmatch generalizing rxSeq with
  | nil => exact .nil
  | @cons entry sealedPair entries sent hentry _ ih =>
      obtain ⟨_, message, hlog, hplaintext⟩ := hentry
      obtain ⟨hsealed, hseals⟩ := List.forall_mem_cons.mp hseals
      obtain ⟨hnew, _⟩ := List.forall_mem_cons.mp habove
      obtain ⟨hnumber, hrange⟩ := List.forall_mem_cons.mp hrange
      obtain ⟨hhead, htail⟩ := List.pairwise_cons.mp hincreasing
      obtain ⟨⟨rest, hbrace⟩, hparse⟩ := hjson message.text message.senderName
      have hframe : sealedPair.2.epoch = 0 := by
        obtain ⟨_, _, _, _, hparts⟩ := hsealed.parts
        rw [hparts]
        exact hepoch
      have hsame : Ui.received sealedPair.2 = sealedPair.2 := received_eq hframe (by omega)
      have htext : textDecode sealedPair.1 = rt.jsonDumps (messageObject message.text message.senderName) := by
        rw [hplaintext, encodeMessage]
        exact Ui.textDecode_utf8Encode hbrace (by decide)
      have hopen : Ui.open_ js rt.hmac keys rxSeq sealedPair.2 =
          .ok (messageObject message.text message.senderName) := by
        rw [Ui.open_seals js rt.hmac hkey hcompress hdir hmac hsealed hnew, htext, hparse]
      simp only [List.map_cons, hsame, Ui.openEach, Ui.openSealed, hopen]
      exact .cons ⟨message, hlog, rfl⟩ (ih hseals htail hhead hrange)

namespace Node

variable {rt : Runtime} {grp : ModpGroup} {cfg : ServerConfig} {s : Node} {i : Nat}

/-- The session of a connection that has announced itself as a browser does not compress: it is the one
`run_server` returned, with compression off before the registration. -/
theorem Serving.browser (h : s.Serving rt grp cfg i) {session : SessionState} {handshake : Handshake}
    (hreturned : s.Returned rt grp cfg i session) (hgreeted : s.Greeted rt i handshake)
    (hbrowser : handshake.status = "browser") :
    ∃ keys, session = .new keys false true ∧ s.hub.SealsFrom rt i (.new keys false false) := by
  obtain ⟨password, message, handshake', later, session', hsecret, hhistory, hparse, hserver, hbase⟩ := h
  obtain ⟨keys, rfl⟩ := (runServer_returns rt grp _ password).after hserver
  obtain ⟨password', hello, exchanges, hsecret', hhistory', houtcome⟩ := hreturned
  obtain ⟨message', exchanges', hgreeting, hparse'⟩ := hgreeted
  have hpassword : password' = password := Option.some.inj (hsecret'.symm.trans hsecret)
  have hlater : exchanges = later := by
    rw [hhistory] at hhistory'
    injection hhistory' with _ hrest
    injection hrest with _ hrest
    exact hrest.symm
  have hhandshake : handshake' = handshake := by
    rw [hhistory] at hgreeting
    injection hgreeting with hread _
    injection hread with hok
    injection hok with hmessage
    rw [hmessage, hparse'] at hparse
    injection hparse with hframe
    injection hframe with hsame
    exact hsame.symm
  have hsame := hserver.returned
  rw [hpassword, hlater, hsame] at houtcome
  injection houtcome with hsession
  refine ⟨keys, hsession.symm, ?_⟩
  rw [hhandshake, browser_session, hbrowser] at hbase
  exact hbase

/-- A browser opens what it is relayed: each frame in turn, with the last accepted number, to the text and
the sender of its broadcast. -/
theorem Run.browser_opens (hrun : s.Run rt grp cfg) (hprotected : cfg.passwordRequired = true)
    {js : JsonCodec} (hjson : JsonInterop rt js) {session : SessionState} {handshake : Handshake}
    (hreturned : s.Returned rt grp cfg i session) (hgreeted : s.Greeted rt i handshake)
    (hbrowser : handshake.status = "browser") {keys : Ui.Keys} (hkeys : keys.serverMac = session.txMac)
    (hkey : keys.serverMac ≠ []) {frames : List SealedFrame}
    (hframes : (s.hub.relays i).map Prod.snd = frames.map .sealed)
    (hrange : ∀ frame ∈ frames, frame.seq < 2 ^ 53) :
    List.Forall₂ (Shows s.hub.broadcasts) (s.hub.relays i)
      (Ui.openEach js rt.hmac keys 0 (frames.map Ui.received)) := by
  obtain ⟨password, hsecret⟩ := cfg.exists_secret hprotected
  have hguarded := hrun.guarded hsecret
  by_cases hinside : s.stage i = .inside
  · obtain ⟨sessionKeys, rfl, state, sent, _, hsends, hmatch⟩ :=
      (hguarded.serving i hinside).browser hreturned hgreeted hbrowser
    have hsame : frames = sent.map Prod.snd := by
      rw [frames_of_matches hmatch] at hframes
      exact (List.map_injective_iff.mpr (fun _ _ h => Frame.sealed.inj h) hframes).symm
    rw [hsame]
    rw [hsame] at hrange
    apply openEach_matches hjson hkey (rfl : (SessionState.new sessionKeys false false).compress = false) rfl
      hkeys.symm rfl hmatch hsends.seals hsends.increasing
    · intro entry hentry
      exact (hsends.range entry hentry).1
    · intro entry hentry
      exact ⟨(hsends.range entry hentry).1, hrange entry.2 (List.mem_map_of_mem hentry)⟩
  · have hsilent := hguarded.silent i hinside
    rw [hsilent] at hframes ⊢
    have hnone : frames = [] := List.map_eq_nil_iff.mp hframes.symm
    rw [hnone]
    exact .nil

/-- On a protected node all that is relayed is sealed. -/
theorem Run.relays_sealed (hrun : s.Run rt grp cfg) (hprotected : cfg.passwordRequired = true)
    (i : Nat) : ∃ frames : List SealedFrame, (s.hub.relays i).map Prod.snd = frames.map .sealed := by
  obtain ⟨password, hsecret⟩ := cfg.exists_secret hprotected
  have hguarded := hrun.guarded hsecret
  by_cases hinside : s.stage i = .inside
  · obtain ⟨_, _, _, _, _, _, _, _, _, _, sent, _, _, hmatch⟩ := hguarded.serving i hinside
    exact ⟨_, frames_of_matches hmatch⟩
  · refine ⟨[], ?_⟩
    rw [hguarded.silent i hinside]
    rfl

end Node

/-- Sealed frames interoperate. What the page seals under a safe number is opened by a server session with
the keys that has not seen the number, and yields the UTF-8 of the JSON of the object; so is a whole
sequence under increasing numbers. And in every run of a protected node, under every schedule of its
threads, what a connection that announced itself as a browser is relayed is opened by the page in turn,
with the last accepted number, to the text and the sender of the broadcast. -/
theorem browser_interop (rt : Runtime) (js : JsonCodec) (hjson : JsonInterop rt js) {keys : SessionKeys}
    (hclient : keys.clientMac ≠ []) (hserver : keys.serverMac ≠ []) :
    (∀ session seq obj, (SessionState.new keys false true).Continues session →
      0 < seq ∧ seq < 2 ^ 53 → session.rxSeq < seq →
      ∃ frame, Ui.seal js rt.hmac keys.page seq obj = .ok frame ∧
        session.open rt frame =
          (.ok (utf8Encode (js.stringify obj)), { session with rxSeq := seq })) ∧
    (∀ session (messages : List (Int × Json)), (SessionState.new keys false true).Continues session →
      messages.Pairwise (fun a b => a.1 < b.1) →
      (∀ message ∈ messages, 0 < message.1 ∧ message.1 < 2 ^ 53) →
      (∀ message ∈ messages, session.rxSeq < message.1) →
      ∃ frames, Ui.sealEach js rt.hmac keys.page messages = .ok frames ∧
        session.openEach rt frames =
          messages.map fun message => .ok (utf8Encode (js.stringify message.2))) ∧
    ∀ (grp : ModpGroup) (cfg : ServerConfig) (s : Node) (i : Nat) (session : SessionState)
      (handshake : Handshake), cfg.passwordRequired = true → s.Run rt grp cfg →
      s.Returned rt grp cfg i session → session.txMac = keys.serverMac →
      s.Greeted rt i handshake → handshake.status = "browser" →
      ∃ frames : List SealedFrame, (s.hub.relays i).map Prod.snd = frames.map .sealed ∧
        ((∀ frame ∈ frames, frame.seq < 2 ^ 53) →
          List.Forall₂ (Shows s.hub.broadcasts) (s.hub.relays i)
            (Ui.openEach js rt.hmac keys.page 0 (frames.map Ui.received))) := by
  refine ⟨?_, ?_, ?_⟩
  · intro session seq obj hsession hseq hnew
    exact open_page_frame rt js hclient hsession hseq hnew obj
  · intro session messages hsession hincreasing hrange hnew
    exact openEach_sealEach rt js hclient hsession hincreasing hrange hnew
  · intro grp cfg s i session handshake hprotected hrun hreturned hkeys hgreeted hbrowser
    obtain ⟨frames, hframes⟩ := hrun.relays_sealed hprotected i
    refine ⟨frames, hframes, ?_⟩
    intro hrange
    exact hrun.browser_opens hprotected hjson hreturned hgreeted hbrowser hkeys.symm hserver hframes hrange

/-- A JSON codec of the page that reads what the sample runtime writes. -/
def sampleCodec : JsonCodec where
  stringify := (sampleRuntime hmacSha256).jsonDumps
  parse text :=
    match (sampleRuntime hmacSha256).jsonLoads text with
    | .ok value => .ok value
    | .error _ => .error .syntaxError

theorem jsonInterop_sample : JsonInterop (sampleRuntime hmacSha256) sampleCodec := by
  intro text sender
  constructor
  · simp [sampleRuntime, messageObject, messageTemplate, TextTemplate.render]
  · have hround := jsonLoads_jsonDumps_sample hmacSha256 text sender
    rw [sampleCodec]
    simp only [messageObject, hround]

open Function in
/-- A message that a thread in the loop broadcasts to one recipient can be relayed to it. -/
theorem Node.exists_relayed {rt : Runtime} {grp : ModpGroup} {cfg : ServerConfig} {t : Node}
    (hrun : t.Run rt grp cfg) {k r : Nat} (hr : r ≠ k) {message : WsMessage} {text senderName : String}
    {client : RegisteredClient} (hlooping : t.hub.thread k = .looping)
    (hbody : messageLoopBody rt (t.hub.client k) message = (.ok (.broadcast text senderName), client))
    (hsnapshot : [r].Perm (t.hub.registry.filter fun j => decide (j ≠ k))) {session : SessionState}
    (hsession : (t.hub.client r).session = some session) {frame : SealedFrame}
    (hframe : (session.seal rt.hmac (encodeMessage rt text senderName)).1 = .ok frame)
    (healthy : t.hub.broken r = false) :
    ∃ t' : Node, t'.Run rt grp cfg ∧ t'.entry = t.entry ∧ t'.exponent = t.exponent ∧
      t'.hub.relays r = t.hub.relays r ++ [(t.hub.broadcasts.length, .sealed frame)] := by
  let m : Broadcast := { sender := k, text, senderName, registered := t.hub.registry }
  let hub : Hub :=
    { t.hub with
      client := update t.hub.client k client
      thread := update t.hub.thread k (.broadcasting t.hub.broadcasts.length [r])
      broadcasts := t.hub.broadcasts ++ [m] }
  have hbroadcast : HubStep rt (.receive k message) t.hub hub := .broadcast hlooping hbody hsnapshot
  let node : Node :=
    { t with
      hub
      received := Node.note t.received (some (k, message))
      handed := Node.note t.handed (HubEvent.offer rt t.hub (.receive k message)) }
  have hreceive : NodeStep rt grp cfg (.work (.receive k message)) t node :=
    .work (fun _ _ => nofun) hbroadcast
  have hlog : (t.hub.broadcasts ++ [m])[t.hub.broadcasts.length]? = some m := by simp
  obtain ⟨served, hdeliver⟩ : ∃ served, (update t.hub.client k client r).deliver rt m.text m.senderName =
      (.ok (.sealed frame), served) := by
    rw [update_of_ne hr]
    exact ⟨_, RegisteredClient.deliver_ok hsession hframe⟩
  have hbusy : hub.thread k = .broadcasting t.hub.broadcasts.length [r] := update_self k _ t.hub.thread
  have hserve : HubStep rt (.deliver k r t.hub.broadcasts.length) hub _ :=
    .deliver hbusy hlog hdeliver healthy
  have hdelivered : NodeStep rt grp cfg (.work (.deliver k r t.hub.broadcasts.length)) node _ :=
    .work (fun _ _ => nofun) hserve
  refine ⟨_, (hrun.step hreceive).step hdelivered, rfl, rfl, ?_⟩
  exact Hub.filterMap_update_relayed t.hub.written r _ _

/-- A browser and another client are registered, the other client sends a message, and the browser opens
it. -/
theorem browser_interop_hi : ∃ (s : Node) (frame : SealedFrame),
    s.Run (sampleRuntime hmacSha256) group23 sampleConfig ∧
      s.Greeted (sampleRuntime hmacSha256) 0 (sampleHello "browser") ∧
      s.hub.relays 0 = [(0, .sealed frame)] ∧
      List.Forall₂ (Shows s.hub.broadcasts) [(0, .sealed frame)]
        (Ui.openEach sampleCodec hmacSha256 (sessionKeys group23 hmacSha256
          (sharedSecret group23 (publicElement group23 3) 4)).page 0 [Ui.received frame]) := by
  have hkeys : (sessionKeys group23 hmacSha256 (sharedSecret group23 (publicElement group23 3) 4)).clientMac ≠
      [] ∧ (sessionKeys group23 hmacSha256 (sharedSecret group23 (publicElement group23 3) 4)).serverMac ≠
      [] := by
    decide +kernel
  obtain ⟨s, hrun, hstage, hgreeted, hreturned, hhub, hothers⟩ :=
    exists_registered_sample "browser" Relation.ReflTransGen.refl (rfl : Node.start.stage 0 = .absent)
  have hfree : s.stage 1 = .absent := (hothers 1 (by decide)).1
  obtain ⟨t, hrun', hstage', _, _, hhub', hothers'⟩ := exists_registered_sample "init" hrun hfree
  rw [hhub] at hhub'
  have hbrowser : (t.hub.client 0).session = some (.new (sessionKeys group23 hmacSha256
      (sharedSecret group23 (publicElement group23 3) 4)) false false) := by
    rw [hhub']
    rfl
  have hother : (t.hub.client 1).session = some (.new (sessionKeys group23 hmacSha256
      (sharedSecret group23 (publicElement group23 3) 4)) false true) := by
    rw [hhub']
    rfl
  have hlooping : t.hub.thread 1 = .looping := by
    rw [hhub']
    rfl
  have hsnapshot : [0].Perm (t.hub.registry.filter fun j => decide (j ≠ 1)) := by
    rw [hhub']
    exact List.Perm.refl _
  obtain ⟨hbroadcasts, hrelays, hhealthy⟩ :
      t.hub.broadcasts = [] ∧ t.hub.relays 0 = [] ∧ t.hub.broken 0 = false := by
    rw [hhub']
    exact ⟨rfl, rfl, rfl⟩
  obtain ⟨message, client, hbody⟩ := exists_broadcast_message
    (jsonRoundTrip_sample hmacSha256) (fun frame => loads_dumps_sample hmacSha256 rfl) hother
    "hi" "ann"
  obtain ⟨frame, hframe⟩ : ∃ frame, ((SessionState.new (sessionKeys group23 hmacSha256
      (sharedSecret group23 (publicElement group23 3) 4)) false false).seal hmacSha256
        (encodeMessage (sampleRuntime hmacSha256) "hi" (senderOr "ann" (t.hub.client 1).name))).1 =
          .ok frame := by
    apply SessionState.seal_ok_iff.mpr
    exact ⟨nofun, by decide +kernel, by decide +kernel⟩
  obtain ⟨t', hrun'', hentry, hexponent, hrelayed⟩ :=
    Node.exists_relayed hrun' (by decide) hlooping hbody hsnapshot hbrowser hframe hhealthy
  rw [hrelays, hbroadcasts, List.nil_append] at hrelayed
  have hkept : t'.exponent 0 = s.exponent 0 ∧ t'.entry 0 = s.entry 0 := by
    rw [hentry, hexponent]
    exact (hothers' 0 (by decide)).2
  have hgreeted' : t'.Greeted (sampleRuntime hmacSha256) 0 (sampleHello "browser") := by
    obtain ⟨hello, exchanges, hhistory, hparse⟩ := hgreeted
    exact ⟨hello, exchanges, hkept.2.trans hhistory, hparse⟩
  obtain ⟨_, _, hopens⟩ := browser_interop (sampleRuntime hmacSha256) sampleCodec jsonInterop_sample
    hkeys.1 hkeys.2
  obtain ⟨frames, hframes, hshown⟩ := hopens group23 sampleConfig t' 0 sampleSession
    (sampleHello "browser") rfl hrun'' (hreturned.of_entry hkept) rfl hgreeted' rfl
  rw [hrelayed] at hframes hshown
  have hsingle : frames = [frame] := by
    have hmapped : [frame].map Frame.sealed = frames.map Frame.sealed := hframes
    exact (List.map_injective_iff.mpr (fun _ _ h => Frame.sealed.inj h) hmapped).symm
  have hseq : frame.seq < 2 ^ 53 := by
    obtain ⟨_, _, _, _, _, hparts⟩ :=
      SessionState.seal_eq_ok (Prod.ext hframe (SessionState.seal_snd _ hmacSha256 _))
    rw [hparts]
    show (0 + 1 : Int) < 2 ^ 53
    decide
  rw [hsingle] at hshown
  refine ⟨t', frame, hrun'', hgreeted', hrelayed, hshown ?_⟩
  intro other hin
  rw [List.mem_singleton.mp hin]
  exact hseq

end Priestly
