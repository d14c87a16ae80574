/-
Module: Priestly.Transport.Ws
Layer: Transport
Purpose: The sending half of `transport/ws.py`: the frame codec and what `WebSocket.send` hands to the
  socket. A stream of bytes is framed when it consists of complete frames and the beginning of one.
Imports: Priestly.Python.Builtins, Priestly.Lib.SharedStream
Trusted boundary: the masking key stands for `os.urandom(4)`
Main exports: Opcode, encodeFrame, WebSocket, WebSocket.send, IsFrame, Framed
-/
import Priestly.Lib.SharedStream
import Priestly.Python.Builtins

namespace Priestly

open ByteCodec

/-! ### Frames -/

/-- The frame opcodes. -/
inductive Opcode where
  | cont
  | text
  | binary
  | close
  | ping
  | pong
deriving DecidableEq, Repr

/-- The number of an opcode. -/
def Opcode.code : Opcode → UInt8
  | cont => 0x0
  | text => 0x1
  | binary => 0x2
  | close => 0x8
  | ping => 0x9
  | pong => 0xA

/-- A masking key. -/
abbrev MaskingKey := Vector UInt8 4

/-- `bytes(b ^ masking_key[i % 4] for i, b in enumerate(payload))`. -/
def applyMask (key : MaskingKey) (payload : Bytes) : Bytes :=
  payload.mapIdx fun i b => b ^^^ key.get ⟨i % 4, Nat.mod_lt i (by decide)⟩

/-- The header of a frame behind its first byte, up to the masking key. -/
def lengthHeader (maskBit : UInt8) (length : Nat) : Except Exn Bytes :=
  if length < 126 then .ok [maskBit ||| UInt8.ofNat length]
  else if length < 65536 then do return (maskBit ||| 126) :: (← structPackH length)
  else do return (maskBit ||| 127) :: (← structPackQ length)

/-- `encode_frame`: a single, unfragmented frame with FIN set. A frame is masked when there is a masking
key. -/
def encodeFrame (opcode : Opcode) (payload : Bytes) (mask : Option MaskingKey) :
    Except Exn Bytes := do
  match mask with
  | none =>
      let header ← lengthHeader 0x00 payload.length
      return (0x80 ||| opcode.code) :: header ++ payload
  | some maskingKey =>
      let header ← lengthHeader 0x80 payload.length
      return (0x80 ||| opcode.code) :: header ++ maskingKey.toList ++ applyMask maskingKey payload

/-! ### Sending -/

/-- The state of a `WebSocket`, without its socket. -/
structure WebSocket where
  isClient : Bool
  closed : Bool
deriving DecidableEq, Repr

namespace WebSocket

/-- `_send`: the bytes handed to `sendall`. Only a client masks, with a fresh key. -/
def sendFrame (ws : WebSocket) (freshKey : MaskingKey) (opcode : Opcode) (payload : Bytes) :
    Except Exn Bytes :=
  if ws.closed then .error (.connectionClosed
    "connection closed (code=None, reason='send on closed connection')")
  else encodeFrame opcode payload (if ws.isClient then some freshKey else none)

/-- `send`. -/
def send (ws : WebSocket) (freshKey : MaskingKey) (text : String) : Except Exn Bytes :=
  ws.sendFrame freshKey .text (utf8Encode text)

/-- `send_bytes`. -/
def sendBytes (ws : WebSocket) (freshKey : MaskingKey) (data : Bytes) : Except Exn Bytes :=
  ws.sendFrame freshKey .binary data

end WebSocket

/-! ### Framed streams -/

/-- The bytes are one encoded frame, masked or not. -/
def IsFrame (bytes : Bytes) : Prop := ∃ opcode payload mask, encodeFrame opcode payload mask = .ok bytes

/-- The stream is a concatenation of complete encoded frames followed by at most a prefix of one
frame. -/
abbrev Framed (stream : Bytes) : Prop := SharedStream.Whole IsFrame stream

/-- What a `WebSocket` sends is a frame. -/
theorem WebSocket.sendFrame_isFrame {ws : WebSocket} {freshKey : MaskingKey} {opcode : Opcode}
    {payload bytes : Bytes} (h : ws.sendFrame freshKey opcode payload = .ok bytes) : IsFrame bytes := by
  rw [sendFrame] at h
  by_cases hclosed : ws.closed = true
  · rw [if_pos hclosed] at h
    cases h
  · rw [if_neg hclosed] at h
    exact ⟨_, _, _, h⟩

/-- A short unmasked frame. -/
theorem encodeFrame_short (opcode : Opcode) {payload : Bytes} (h : payload.length < 126) :
    encodeFrame opcode payload none =
      .ok ((0x80 ||| opcode.code) :: UInt8.ofNat payload.length :: payload) := by
  have hheader : lengthHeader 0x00 payload.length = .ok [UInt8.ofNat payload.length] := by
    rw [lengthHeader, if_pos h]
    exact congrArg (fun byte => Except.ok [byte]) UInt8.zero_or
  rw [encodeFrame, hheader]
  rfl

/-- The second byte of a header that is below 126 is the length of an unmasked frame. -/
theorem lengthHeader_short {maskBit : UInt8} {length : Nat} {header : Bytes}
    (hmask : maskBit = 0x00 ∨ maskBit = 0x80) (h : lengthHeader maskBit length = .ok header) :
    ∃ second rest, header = second :: rest ∧
      (second.toNat < 126 → maskBit = 0x00 ∧ rest = [] ∧ length = second.toNat) := by
  have hmasked : ∀ n : UInt8, 126 ≤ ((0x80 : UInt8) ||| n).toNat := by
    intro n
    rw [UInt8.toNat_or]
    exact le_trans (by decide) Nat.left_le_or
  have hlong : ∀ n : UInt8, n = 126 ∨ n = 127 → 126 ≤ (maskBit ||| n).toNat := by
    rintro n (rfl | rfl)
    · rcases hmask with rfl | rfl <;> decide
    · rcases hmask with rfl | rfl <;> decide
  rw [lengthHeader] at h
  by_cases hsmall : length < 126
  · rw [if_pos hsmall] at h
    refine ⟨_, _, (Except.ok.inj h).symm, ?_⟩
    intro hsecond
    rcases hmask with rfl | rfl
    · refine ⟨rfl, rfl, ?_⟩
      have hzero : (0x00 : UInt8) ||| UInt8.ofNat length = UInt8.ofNat length := UInt8.zero_or
      rw [hzero, UInt8.toNat_ofNat']
      omega
    · exact absurd hsecond (Nat.not_lt.mpr (hmasked _))
  · rw [if_neg hsmall] at h
    by_cases hmedium : length < 65536
    · rw [if_pos hmedium] at h
      obtain ⟨packed, _, hheader⟩ := bind_eq_ok h
      refine ⟨_, _, (Except.ok.inj hheader).symm, ?_⟩
      intro hsecond
      exact absurd hsecond (Nat.not_lt.mpr (hlong _ (.inl rfl)))
    · rw [if_neg hmedium] at h
      obtain ⟨packed, _, hheader⟩ := bind_eq_ok h
      refine ⟨_, _, (Except.ok.inj hheader).symm, ?_⟩
      intro hsecond
      exact absurd hsecond (Nat.not_lt.mpr (hlong _ (.inr rfl)))

/-- A frame starts with a byte whose top bit is set, and with a second byte that is the length of its
payload when it is below 126. -/
theorem IsFrame.head {bytes : Bytes} (h : IsFrame bytes) :
    ∃ first second rest, bytes = first :: second :: rest ∧ 128 ≤ first.toNat ∧
      (second.toNat < 126 → rest.length = second.toNat) := by
  obtain ⟨opcode, payload, mask, hframe⟩ := h
  have hfin : 128 ≤ ((0x80 : UInt8) ||| opcode.code).toNat := by
    cases opcode <;> decide
  cases mask with
  | none =>
      obtain ⟨header, hheader, hbytes⟩ := bind_eq_ok hframe
      obtain ⟨second, rest, rfl, hshort⟩ := lengthHeader_short (.inl rfl) hheader
      refine ⟨_, second, rest ++ payload, (Except.ok.inj hbytes).symm, hfin, ?_⟩
      intro hsecond
      obtain ⟨_, rfl, hlength⟩ := hshort hsecond
      exact hlength
  | some key =>
      obtain ⟨header, hheader, hbytes⟩ := bind_eq_ok hframe
      obtain ⟨second, rest, rfl, hshort⟩ := lengthHeader_short (.inr rfl) hheader
      refine ⟨_, second, rest ++ key.toList ++ applyMask key payload, ?_, hfin, ?_⟩
      · exact (Except.ok.inj hbytes).symm
      · intro hsecond
        exact absurd (hshort hsecond).1 (by decide)

/-- A framed stream starts with a byte whose top bit is set. -/
theorem Framed.head {first : UInt8} {rest : Bytes} (h : Framed (first :: rest)) :
    128 ≤ first.toNat := by
  obtain ⟨blocks, tail, hblocks, hstream, htail⟩ := h
  cases blocks with
  | nil =>
      rcases htail with rfl | ⟨block, hblock, more, rfl⟩
      · cases hstream
      · obtain ⟨byte, _, _, hbytes, hfin, _⟩ := hblock.head
        rw [← List.nil_append tail, ← List.flatten_nil, ← hstream] at hbytes
        rw [(List.cons.inj hbytes).1]
        exact hfin
  | cons block blocks =>
      obtain ⟨byte, _, _, rfl, hfin, _⟩ := (hblocks block List.mem_cons_self).head
      rw [(List.cons.inj hstream).1]
      exact hfin

/-- In a framed stream the byte behind a short first frame has its top bit set: it starts the next
frame. -/
theorem Framed.next_frame {first second next : UInt8} {rest : Bytes}
    (h : Framed (first :: second :: rest)) (hshort : second.toNat < 126)
    (hnext : rest[second.toNat]? = some next) : 128 ≤ next.toNat := by
  obtain ⟨blocks, tail, hblocks, hstream, htail⟩ := h
  cases blocks with
  | nil =>
      rcases htail with rfl | ⟨block, hblock, more, rfl⟩
      · cases hstream
      · obtain ⟨_, second', rest', hbytes, _, hlength⟩ := hblock.head
        rw [← List.nil_append tail, ← List.flatten_nil, ← hstream] at hbytes
        obtain ⟨_, hbytes⟩ := List.cons.inj hbytes
        obtain ⟨rfl, hrest⟩ := List.cons.inj hbytes
        have hinside := (List.getElem?_eq_some_iff.mp hnext).1
        have hwhole : (rest ++ more).length = second.toNat := (congrArg List.length hrest).trans (hlength hshort)
        rw [List.length_append] at hwhole
        omega
  | cons block blocks =>
      obtain ⟨_, second', rest', rfl, _, hlength⟩ := (hblocks block List.mem_cons_self).head
      obtain ⟨_, hbytes⟩ := List.cons.inj hstream
      obtain ⟨rfl, hrest⟩ := List.cons.inj hbytes
      have hwhole := hlength hshort
      have hrest' : rest = rest' ++ (blocks.flatten ++ tail) :=
        hrest.trans (List.append_assoc rest' blocks.flatten tail)
      rw [hrest', ← hwhole, List.getElem?_append_right (le_refl _), Nat.sub_self] at hnext
      have hremaining : Framed (blocks.flatten ++ tail) :=
        ⟨blocks, tail, fun b hb => hblocks b (List.mem_cons_of_mem _ hb), rfl, htail⟩
      cases hsplit : blocks.flatten ++ tail with
      | nil =>
          rw [hsplit] at hnext
          cases hnext
      | cons byte more =>
          rw [hsplit] at hnext hremaining
          obtain rfl := Option.some.inj hnext
          exact hremaining.head

end Priestly
