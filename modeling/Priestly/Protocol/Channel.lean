/-
Module: Priestly.Protocol.Channel
Layer: Protocol
Purpose: The sealed channel between a client and a server session that hold the same keys, with an
  attacker on the wire: either side seals plaintexts, and either side is presented with frames of any
  origin. The history of what was sealed and what was accepted is kept next to the sessions.
Imports: Priestly.Protocol.Session
Trusted boundary: none
Main exports: SessionState.Seals, SealedFrame.Carries, SealedFrame.Authenticates, Endpoint, Channel,
  ChannelStep, Unforged
-/
import Mathlib.Logic.Relation
import Priestly.Protocol.Session

namespace Priestly

open ByteCodec

/-- The frame is what the session makes of the plaintext under the number the frame carries, wherever
the counters of the session stand. -/
def SessionState.Seals (s : SessionState) (mac : Mac) (plaintext : Bytes) (frame : SealedFrame) :
    Prop :=
  { s with txSeq := frame.seq }.sealAt mac plaintext = .ok frame

/-- The frame has the direction, epoch, number and tag of the original, and its payload decodes to the
same body. -/
structure SealedFrame.Carries (frame original : SealedFrame) : Prop where
  direction : frame.direction = original.direction
  epoch : frame.epoch = original.epoch
  seq : frame.seq = original.seq
  tag : frame.tag = original.tag
  body : ∃ body, b64decode frame.payload = .ok body ∧ b64decode original.payload = .ok body

/-- The input of the MAC that a frame claims to have been tagged with. -/
def SealedFrame.Authenticates (frame : SealedFrame) (input : Bytes) : Prop :=
  ∃ body, b64decode frame.payload = .ok body ∧
    tagMessage frame.epoch frame.seq frame.direction body = .ok input

/-- A session with its history: the plaintexts it sealed with their frames, and the frames it accepted
with the plaintexts it returned. -/
structure Endpoint where
  session : SessionState
  sent : List (Bytes × SealedFrame)
  accepted : List (SealedFrame × Bytes)

namespace Endpoint

/-- Seal a plaintext. -/
def push (e : Endpoint) (mac : Mac) (plaintext : Bytes) : Endpoint :=
  match e.session.seal mac plaintext with
  | (.ok frame, session) => { e with session, sent := e.sent ++ [(plaintext, frame)] }
  | (.error _, session) => { e with session }

/-- Be presented with a frame. -/
def present (e : Endpoint) (rt : Runtime) (frame : SealedFrame) : Endpoint :=
  match e.session.open rt frame with
  | (.ok plaintext, session) => { e with session, accepted := e.accepted ++ [(frame, plaintext)] }
  | (.error _, session) => { e with session }

end Endpoint

/-- The two sides of the channel. -/
abbrev Channel := Role → Endpoint

namespace Channel

/-- Replace one side. -/
def set (c : Channel) (role : Role) (e : Endpoint) : Channel :=
  fun other => if other = role then e else c other

/-- Two fresh sessions over the same keys, each with or without compression. -/
def start (keys : SessionKeys) (compress : Role → Bool) : Channel := fun role =>
  { session := .new keys (role = .client) (compress role), sent := [], accepted := [] }

end Channel

/-- The key that a side makes its tags with. -/
def SessionKeys.mac (keys : SessionKeys) : Role → Bytes
  | .client => keys.clientMac
  | .server => keys.serverMac

/-- If the frame's tag is the right one, under a key of the channel, for the input that the frame claims, one of
the two sides has sealed a frame over that input: nobody else computes the MAC under these keys. -/
def Unforged (rt : Runtime) (keys : SessionKeys) (c : Channel) (frame : SealedFrame) : Prop :=
  ∀ role input, frame.Authenticates input → frame.tag = sign rt.hmac (keys.mac role) input →
    ∃ maker, ∃ entry ∈ (c maker).sent, entry.2.Authenticates input

/-- One step of the channel. -/
inductive ChannelStep (rt : Runtime) (keys : SessionKeys) : Channel → Channel → Prop where
  | push {c} (role : Role) (plaintext : Bytes) :
      ChannelStep rt keys c (c.set role ((c role).push rt.hmac plaintext))
  | present {c} (role : Role) (frame : SealedFrame) (unforged : Unforged rt keys c frame) :
      ChannelStep rt keys c (c.set role ((c role).present rt frame))

/-- The channels that runs from fresh sessions reach. -/
def Channel.Reachable (rt : Runtime) (keys : SessionKeys) (compress : Role → Bool) (c : Channel) :
    Prop :=
  Relation.ReflTransGen (ChannelStep rt keys) (.start keys compress) c

end Priestly
