/-
Module: Priestly.Python.SampleRuntime
Layer: Python
Purpose: A runtime that meets every assumption the protocol proofs make about the library functions:
  wire text is the JSON pydantic and the `json` module write for texts without control characters, and
  the MAC agrees with HMAC-SHA256 on a chosen list of inputs and is collision-free everywhere.
Imports: Priestly.Lib.TextTemplate, Priestly.Python.Hashlib, Priestly.Protocol.Packets
Trusted boundary: none
Main exports: sampledMac, collisionFree_sampledMac, sampleRuntime, loads_dumps_sample, greetingRuntime
-/
import Priestly.Lib.TextTemplate
import Priestly.Python.Hashlib
import Priestly.Protocol.Packets

namespace Priestly

open ByteCodec TextTemplate

/-! ### A collision-free MAC -/

/-- The octets of a key, each behind a one, and a closing zero. -/
def delimited : Bytes → Bytes
  | [] => [0]
  | byte :: key => 1 :: byte :: delimited key

private theorem delimited_append_inj {key key' message message' : Bytes}
    (h : delimited key ++ message = delimited key' ++ message') : key = key' ∧ message = message' := by
  induction key generalizing key' with
  | nil =>
      cases key' with
      | nil => exact ⟨rfl, (List.cons.inj h).2⟩
      | cons byte key' => exact absurd (List.cons.inj h).1 (by decide)
  | cons byte key ih =>
      cases key' with
      | nil => exact absurd (List.cons.inj h).1 (by decide)
      | cons other key' =>
          obtain ⟨hbyte, hrest⟩ := List.cons.inj (List.cons.inj h).2
          obtain ⟨hkey, hmessage⟩ := ih hrest
          exact ⟨by rw [hbyte, hkey], hmessage⟩

/-- HMAC-SHA256 on the samples; elsewhere a tag too long to be one of its values. -/
def sampledMac (samples : List (Bytes × Bytes)) : Mac := fun key message =>
  if (key, message) ∈ samples then hmacSha256 key message
  else List.replicate 33 0 ++ (delimited key ++ message)

/-- The tags of the samples are pairwise different. -/
def DistinctTags (samples : List (Bytes × Bytes)) : Prop :=
  ∀ sample ∈ samples, ∀ sample' ∈ samples,
    hmacSha256 sample.1 sample.2 = hmacSha256 sample'.1 sample'.2 → sample = sample'

instance (samples : List (Bytes × Bytes)) : Decidable (DistinctTags samples) :=
  inferInstanceAs (Decidable (∀ sample ∈ samples, _))

theorem collisionFree_sampledMac {samples : List (Bytes × Bytes)} (h : DistinctTags samples)
    (inputs : Set (Bytes × Bytes)) : CollisionFree (sampledMac samples) inputs := by
  have hlong : ∀ key message key' message', hmacSha256 key message ≠
      List.replicate 33 0 ++ (delimited key' ++ message') := by
    intro key message key' message' heq
    have hlength := congrArg List.length heq
    rw [length_hmacSha256, List.length_append, List.length_replicate] at hlength
    omega
  rintro ⟨key, message⟩ _ ⟨key', message'⟩ _ heq
  simp only [sampledMac] at heq
  by_cases hin : (key, message) ∈ samples
  · by_cases hin' : (key', message') ∈ samples
    · rw [if_pos hin, if_pos hin'] at heq
      exact h _ hin _ hin' heq
    · rw [if_pos hin, if_neg hin'] at heq
      exact absurd heq (hlong _ _ _ _)
  · by_cases hin' : (key', message') ∈ samples
    · rw [if_neg hin, if_pos hin'] at heq
      exact absurd heq.symm (hlong _ _ _ _)
    · rw [if_neg hin, if_neg hin'] at heq
      obtain ⟨rfl, rfl⟩ := delimited_append_inj (List.append_cancel_left heq)
      rfl

/-! ### Wire text -/

/-- The envelope up to the type of the frame. -/
def packetHead : List Segment := [.lit "\x7b\"version\":", .int, .lit "\"frame\":\x7b\"type\":", .str]

/-- The fields of a frame type. -/
def frameBody : String → Option (List Segment)
  | "hello" => some [.lit ",\"handshake\":\x7b\"id\":", .int, .lit "\"user_id\":", .int,
      .lit "\"device_id\":", .int, .lit "\"timestamp\":", .str, .lit ",\"status\":", .str,
      .lit "\x7d\x7d\x7d"]
  | "error" => some [.lit ",\"code\":", .int, .lit "\"reason\":", .str, .lit "\x7d\x7d"]
  | "covenant_commit" => some [.lit ",\"commit\":", .str, .lit "\x7d\x7d"]
  | "covenant_challenge" => some [.lit ",\"masked_b\":", .str, .lit "\x7d\x7d"]
  | "covenant_confirm" => some [.lit ",\"a\":", .str, .lit ",\"confirm_c\":", .str, .lit "\x7d\x7d"]
  | "auth_ok" => some [.lit ",\"confirm_s\":", .str, .lit "\x7d\x7d"]
  | "auth_fail" => some [.lit ",\"reason\":", .str, .lit "\x7d\x7d"]
  | "sealed" => some [.lit ",\"epoch\":", .int, .lit "\"seq\":", .int, .lit "\"direction\":", .str,
      .lit ",\"payload\":", .str, .lit ",\"tag\":", .str, .lit "\x7d\x7d"]
  | "chat" => some [.lit ",\"text\":", .str, .lit ",\"sender\":", .str, .lit "\x7d\x7d"]
  | _ => none

/-- The type and the field values of a frame. The frame kinds that no sample uses have none. -/
def frameParts : Frame → Option (String × List Value)
  | .hello h => some ("hello", [.int h.id, .int h.userId, .int h.deviceId, .str h.timestamp,
      .str h.status])
  | .error code reason => some ("error", [.int code, .str reason])
  | .covenantCommit commit => some ("covenant_commit", [.str commit])
  | .covenantChallenge maskedB => some ("covenant_challenge", [.str maskedB])
  | .covenantConfirm a confirmC => some ("covenant_confirm", [.str a, .str confirmC])
  | .authOk confirmS => some ("auth_ok", [.str confirmS])
  | .authFail reason => some ("auth_fail", [.str reason])
  | .sealed f => some ("sealed", [.int f.epoch, .int f.seq, .str f.direction, .str f.payload,
      .str f.tag])
  | .chat text sender => some ("chat", [.str text, .str sender])
  | _ => none

/-- The frame of a type and its field values. -/
def frameOf : String → List Value → Option Frame
  | "hello", [.int id, .int userId, .int deviceId, .str timestamp, .str status] =>
      some (.hello { id, userId, deviceId, timestamp, status })
  | "error", [.int code, .str reason] => some (.error code reason)
  | "covenant_commit", [.str commit] => some (.covenantCommit commit)
  | "covenant_challenge", [.str maskedB] => some (.covenantChallenge maskedB)
  | "covenant_confirm", [.str a, .str confirmC] => some (.covenantConfirm a confirmC)
  | "auth_ok", [.str confirmS] => some (.authOk confirmS)
  | "auth_fail", [.str reason] => some (.authFail reason)
  | "sealed", [.int epoch, .int seq, .str direction, .str payload, .str tag] =>
      some (.sealed { epoch, seq, direction, payload, tag })
  | "chat", [.str text, .str sender] => some (.chat text sender)
  | _, _ => none

/-- The text of a packet. -/
def samplePacketText (packet : Packet) : Option String := do
  let (type, values) ← frameParts packet.frame
  let body ← frameBody type
  return .ofList (render (packetHead ++ body) (.int packet.version :: .str type :: values))

/-- The packet of a text. -/
def samplePacket (raw : String) : Option Packet := do
  let (head, rest) ← read packetHead raw.toList
  match head with
  | [.int version, .str type] =>
      let (values, trailing) ← read (← frameBody type) rest
      let frame ← frameOf type values
      if trailing.isEmpty then return { version, frame } else none
  | _ => none

/-- The template of a chat message. -/
def messageTemplate : List Segment :=
  [.lit "\x7b\"text\": ", .str, .lit ", \"sender\": ", .str, .lit "\x7d"]

/-- A runtime with the given MAC. -/
def sampleRuntime (mac : Mac) : Runtime where
  hmac := mac
  strRepr text := "'" ++ text ++ "'"
  unicodeErrorText _ := "'utf-8' codec can't decode byte 0xff in position 0: invalid start byte"
  modelValidateJson raw :=
    match samplePacket raw with
    | some packet => .ok packet
    | none => .error "1 validation error for Packet\n  Invalid JSON"
  modelDumpJson packet := (samplePacketText packet).getD ""
  jsonLoads text :=
    match read messageTemplate text.toList with
    | some ([.str text, .str sender], []) =>
        .ok (.object [("text", .string text), ("sender", .string sender)])
    | _ => .error (.jsonDecodeError "Expecting value: line 1 column 1 (char 0)")
  jsonDumps
    | .object [("text", .string text), ("sender", .string sender)] =>
        .ofList (render messageTemplate [.str text, .str sender])
    | _ => "null"
  strOf
    | .null => .ok "None"
    | .bool true => .ok "True"
    | .bool false => .ok "False"
    | .number literal => .ok literal
    | .string text => .ok text
    | .array _ => .ok "[]"
    | .object _ => .ok "\x7b\x7d"

/-- The frames the sample codec covers. -/
def Frame.Sampled (frame : Frame) : Prop := (frameParts frame).isSome = true

private theorem render_append {head : List Segment} {headValues : List Value}
    (hhead : Fits head headValues) (body : List Segment) (values : List Value) :
    render (head ++ body) (headValues ++ values) = render head headValues ++ render body values := by
  fun_induction Fits head headValues with
  | case1 => rfl
  | case2 text segments headValues ih => simp [render, ih hhead]
  | case3 segments text headValues ih => simp [render, ih hhead]
  | case4 segments number headValues ih => simp [render, ih hhead]
  | case5 => exact hhead.elim

private theorem samplePacket_text {packet : Packet} {type : String} {values : List Value}
    {body : List Segment} (hparts : frameParts packet.frame = some (type, values))
    (hbody : frameBody type = some body) (hfits : Fits body values)
    (hframe : frameOf type values = some packet.frame) :
    ((samplePacketText packet).bind samplePacket) = some packet := by
  have hhead : Fits packetHead [.int packet.version, .str type] := trivial
  have hread := read_render hhead (render body values)
  have hrest := read_render hfits []
  rw [List.append_nil] at hrest
  have hsplit := render_append hhead body values
  simp only [List.cons_append, List.nil_append] at hsplit
  simp [samplePacketText, samplePacket, hparts, hbody, hsplit, hread, hrest, hframe]

/-- The packet of a sampled frame is read back from its text. -/
theorem exists_packetText {frame : Frame} (h : frame.Sampled) :
    ∃ text, samplePacketText ⟨protocolVersion, frame⟩ = some text ∧
      samplePacket text = some ⟨protocolVersion, frame⟩ := by
  have hround : ((samplePacketText ⟨protocolVersion, frame⟩).bind samplePacket) =
      some ⟨protocolVersion, frame⟩ := by
    cases frame with
    | helloAck _ _ _ | message _ | ack _ => cases h
    | _ => exact samplePacket_text rfl rfl trivial rfl
  exact Option.bind_eq_some_iff.mp hround

/-- A sampled frame survives `dumps` and `loads`. -/
theorem loads_dumps_sample (mac : Mac) {frame : Frame} (h : frame.Sampled) :
    loads (sampleRuntime mac) (dumps (sampleRuntime mac) frame) = .ok frame := by
  obtain ⟨text, htext, hpacket⟩ := exists_packetText h
  simp [loads, dumps, sampleRuntime, htext, hpacket]

/-- The sample `json.loads` inverts the sample `json.dumps` on chat messages. -/
theorem jsonLoads_jsonDumps_sample (mac : Mac) (text sender : String) :
    (sampleRuntime mac).jsonLoads ((sampleRuntime mac).jsonDumps
      (.object [("text", .string text), ("sender", .string sender)])) =
        .ok (.object [("text", .string text), ("sender", .string sender)]) := by
  have hfits : Fits messageTemplate [.str text, .str sender] := trivial
  have hread := read_render hfits []
  rw [List.append_nil] at hread
  simp [sampleRuntime, hread]

/-! ### The answer to a HELLO -/

/-- HELLO_ACK up to its last value. -/
def ackBody : List Segment :=
  [.lit ",\"status\":", .str, .lit ",\"server_name\":", .str, .lit ",\"password_required\":"]

/-- The last value of a HELLO_ACK, and its end. -/
def ackTail (passwordRequired : Bool) : List Char :=
  (if passwordRequired then "true\x7d\x7d" else "false\x7d\x7d").toList

/-- The text of a HELLO_ACK. -/
def ackText (version : Int) (status serverName : String) (passwordRequired : Bool) : String :=
  .ofList (render (packetHead ++ ackBody) [.int version, .str "hello_ack", .str status, .str serverName] ++
    ackTail passwordRequired)

/-- The HELLO_ACK of a text. -/
def readAck (raw : String) : Option Packet := do
  let (values, tail) ← read (packetHead ++ ackBody) raw.toList
  match values with
  | [.int version, .str "hello_ack", .str status, .str serverName] =>
      if tail = ackTail true then return { version, frame := .helloAck status serverName true }
      else if tail = ackTail false then return { version, frame := .helloAck status serverName false }
      else none
  | _ => none

/-- The runtime with the given MAC that covers HELLO_ACK too. -/
def greetingRuntime (mac : Mac) : Runtime :=
  { sampleRuntime mac with
    modelValidateJson := fun raw =>
      match (samplePacket raw).or (readAck raw) with
      | some packet => .ok packet
      | none => .error "1 validation error for Packet\n  Invalid JSON"
    modelDumpJson := fun packet =>
      match packet.frame with
      | .helloAck status serverName passwordRequired =>
          ackText packet.version status serverName passwordRequired
      | _ => (samplePacketText packet).getD "" }

/-- A sampled frame survives `dumps` and `loads` here too. -/
theorem loads_dumps_greeting (mac : Mac) {frame : Frame} (h : frame.Sampled) :
    loads (greetingRuntime mac) (dumps (greetingRuntime mac) frame) = .ok frame := by
  obtain ⟨text, htext, hpacket⟩ := exists_packetText h
  have hdumps : dumps (greetingRuntime mac) frame = text := by
    cases frame with
    | helloAck _ _ _ => cases h
    | _ => simp [dumps, greetingRuntime, htext]
  rw [hdumps]
  simp [loads, greetingRuntime, hpacket]

/-- A HELLO_ACK survives `dumps` and `loads`. -/
theorem loads_dumps_helloAck (mac : Mac) (status serverName : String) (passwordRequired : Bool) :
    loads (greetingRuntime mac)
      (dumps (greetingRuntime mac) (.helloAck status serverName passwordRequired)) =
        .ok (.helloAck status serverName passwordRequired) := by
  have hhead : Fits packetHead [.int protocolVersion, .str "hello_ack"] := trivial
  have hfits : Fits (packetHead ++ ackBody)
      [.int protocolVersion, .str "hello_ack", .str status, .str serverName] := trivial
  have hpacket : samplePacket (ackText protocolVersion status serverName passwordRequired) = none := by
    have hread := read_render hhead
      (render ackBody [.str status, .str serverName] ++ ackTail passwordRequired)
    have hsplit := render_append hhead ackBody [.str status, .str serverName]
    simp only [List.cons_append, List.nil_append] at hsplit
    simp [samplePacket, ackText, hsplit, hread, frameBody]
  have hack : readAck (ackText protocolVersion status serverName passwordRequired) =
      some ⟨protocolVersion, .helloAck status serverName passwordRequired⟩ := by
    have hread := read_render hfits (ackTail passwordRequired)
    have hother : ackTail false ≠ ackTail true := by decide
    cases passwordRequired with
    | true => simp [readAck, ackText, hread]
    | false => simp [readAck, ackText, hread, hother]
  simp [loads, dumps, greetingRuntime, hpacket, hack]

end Priestly
