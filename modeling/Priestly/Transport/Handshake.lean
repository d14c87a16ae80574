/-
Module: Priestly.Transport.Handshake
Layer: Transport
Purpose: The opening handshake of `transport/ws.py`: the header block read byte by byte and its header
  fields, the response of the server, and the request of the client with its checks on the response; and the
  calls of `recv` that follow on a connection.
Imports: Priestly.Crypto.Sha1, Priestly.Python.Base64, Priestly.Python.Text, Priestly.Transport.Receive,
  Mathlib infixes of lists
Trusted boundary: `hashlib.sha1` computes the digest of `crypto/sha1.py`
Main exports: readHttpHeaders, parseHeaders, acceptToken, serverHandshake, clientHandshake, serveCalls
-/
import Mathlib.Data.List.Infix
import Priestly.Crypto.Sha1
import Priestly.Python.Base64
import Priestly.Python.Text
import Priestly.Transport.Receive

namespace Priestly

open ByteCodec

/-! ### The header block -/

/-- `b"\r\n\r\n"`. -/
def crlfCrlf : Bytes := [13, 10, 13, 10]

/-- `_MAX_HEADER_BYTES`. -/
def maxHeaderBytes : Nat := 16 * 1024

/-- The loop of `_read_http_headers`, with room for so many more bytes. -/
def readHttpHeadersLoop (room : Nat) (buf : Bytes) : SocketM Bytes :=
  if crlfCrlf <:+ buf then return buf
  else do
    let byte ← Socket.recvOrClosed "socket error during handshake" 1
    if byte = [] then throw (.connectionClosed none "stream ended during handshake")
    else
      match room with
      | 0 => throw (.protocolError "handshake header block too large")
      | room + 1 => readHttpHeadersLoop room (buf ++ byte)

/-- `_read_http_headers`. -/
def readHttpHeaders : SocketM (List Char) := do
  return latin1Decode (← readHttpHeadersLoop maxHeaderBytes [])

/-- `block.split("\r\n")`. -/
def splitCrlf : List Char → List (List Char)
  | [] => [[]]
  | '\r' :: '\n' :: rest => [] :: splitCrlf rest
  | c :: rest =>
      match splitCrlf rest with
      | [] => [[c]]
      | line :: lines => (c :: line) :: lines

/-- The header fields: a dictionary of texts. -/
abbrev Headers := List (List Char × List Char)

/-- `headers[name] = value`. -/
def setHeader (headers : Headers) (name value : List Char) : Headers :=
  if name ∈ headers.map Prod.fst then
    headers.map fun entry => if entry.1 = name then (name, value) else entry
  else headers ++ [(name, value)]

/-- The name and the value of a header line, cut at the first colon. -/
def headerOf (line : List Char) : List Char × List Char :=
  (lower (strip (line.takeWhile (· ≠ ':'))), strip ((line.dropWhile (· ≠ ':')).drop 1))

/-- `_parse_headers`. -/
def parseHeaders (block : List Char) : List Char × Headers :=
  let lines := splitCrlf block
  (lines.headD [],
    (lines.tail.filter (· ≠ [])).foldl
      (fun headers line => setHeader headers (headerOf line).1 (headerOf line).2) [])

/-! ### The server -/

/-- `_GUID`. -/
def guid : String := "258EAFA5-E914-47DA-95CA-C5AB0DC85B11"

/-- `text.encode("ascii")`. -/
def asciiEncode (text : List Char) : Except TransportExn Bytes :=
  if text.all fun c => c.toNat < 128 then .ok (text.map fun c => UInt8.ofNat c.toNat)
  else .error (.unicodeEncodeError (.ofList text))

/-- `accept_token`. -/
def acceptToken (key : List Char) : Except TransportExn String := do
  return b64encode (sha1 (← asciiEncode (key ++ guid.toList)))

/-- The response of the server. -/
def handshakeResponse (token : String) : String :=
  "HTTP/1.1 101 Switching Protocols\r\nUpgrade: websocket\r\nConnection: Upgrade\r\n" ++
    s!"Sec-WebSocket-Accept: {token}\r\n\r\n"

/-- The checks of `server_handshake` on the header block; the result is the client's key with the header
fields. -/
def checkRequest (block : List Char) : Except TransportExn (List Char × Headers) :=
  let (startLine, headers) := parseHeaders block
  if ¬ "GET".toList <+: upper startLine then
    .error (.protocolError s!"expected GET request, got {reprLatin1 startLine}")
  else if lower ((headers.lookup "upgrade".toList).getD []) ≠ "websocket".toList then
    .error (.protocolError "missing 'Upgrade: websocket' header")
  else
    match headers.lookup "sec-websocket-key".toList with
    | none | some [] => .error (.protocolError "missing Sec-WebSocket-Key header")
    | some key => .ok (key, headers)

/-- `server_handshake`. -/
def serverHandshake : SocketM Headers := do
  let block ← readHttpHeaders
  match checkRequest block with
  | .error exn => throw exn
  | .ok (key, headers) =>
      match acceptToken key with
      | .error exn => throw exn
      | .ok token => do
          Socket.sendall ((handshakeResponse token).toList.map fun c => UInt8.ofNat c.toNat)
          return headers

/-! ### The client -/

/-- The request of the client. -/
def handshakeRequest (host path key : List Char) : List Char :=
  "GET ".toList ++ path ++ " HTTP/1.1\r\nHost: ".toList ++ host ++
    "\r\nUpgrade: websocket\r\nConnection: Upgrade\r\nSec-WebSocket-Key: ".toList ++ key ++
    "\r\nSec-WebSocket-Version: 13\r\n\r\n".toList

/-- `text.encode("iso-8859-1")`. -/
def latin1Encode (text : List Char) : Except TransportExn Bytes :=
  if text.all fun c => c.toNat < 256 then .ok (text.map fun c => UInt8.ofNat c.toNat)
  else .error (.unicodeEncodeError (.ofList text))

/-- The checks of `client_handshake` on the header block of the server. -/
def checkResponse (key block : List Char) : Except TransportExn Headers :=
  let (statusLine, headers) := parseHeaders block
  if ¬ "101".toList <:+: statusLine then
    .error (.protocolError s!"handshake rejected: {reprLatin1 statusLine}")
  else
    match acceptToken key with
    | .error exn => .error exn
    | .ok token =>
        if headers.lookup "sec-websocket-accept".toList ≠ some token.toList then
          .error (.protocolError "server returned an invalid Sec-WebSocket-Accept")
        else .ok headers

/-- `client_handshake`, with the bytes that `os.urandom(16)` gives. -/
def clientHandshake (urandom : Vector UInt8 16) (host path : List Char) : SocketM Headers := do
  let key := (b64encode urandom.toList).toList
  match latin1Encode (handshakeRequest host path key) with
  | .error exn => throw exn
  | .ok request => do
      Socket.sendall request
      let block ← readHttpHeaders
      match checkResponse key block with
      | .error exn => throw exn
      | .ok headers => return headers

/-! ### A connection that is served -/

/-- What a worker thread asks of the transport layer: the handshake, and then so many calls of `recv` as
long as none raises. -/
def serveCalls (calls : Nat) : WsM (List WsMessage) := do
  let _ ← WsEndpoint.onSocket serverHandshake
  WsEndpoint.recvMany calls

end Priestly
