/-
Module: Priestly.Proofs.OpeningAgreement
Layer: Proofs
Purpose: The two halves of the opening handshake on each other: the server finds the client's key in the
  request, and the client finds the accept token of its key in the response; each side leaves what follows
  the header block of the other.
Imports: Priestly.Proofs.HeaderLines
Trusted boundary: none
Main exports: checkRequest_handshakeRequest, checkResponse_handshakeResponse, clientHandshake_accepted,
  Interoperate, opening_handshake_interoperates
-/
import Priestly.Proofs.HeaderLines

namespace Priestly

open ByteCodec

/-! ### The request -/

/-- A text without line breaks. -/
def OnOneLine (text : List Char) : Prop := ∀ c ∈ text, c ≠ '\r' ∧ c ≠ '\n'

theorem OnOneLine.append {first second : List Char} (h : OnOneLine first) (h' : OnOneLine second) :
    OnOneLine (first ++ second) := by
  intro c hc
  rcases List.mem_append.mp hc with hc | hc
  · exact h c hc
  · exact h' c hc

theorem onOneLine_b64encode (data : Bytes) : OnOneLine (b64encode data).toList :=
  fun _ hc => (b64_printable hc).2.2

/-- A field fits on a line. -/
theorem isLine_fieldLine {name value : List Char} (hname : OnOneLine name) (hvalue : OnOneLine value) :
    IsLine (fieldLine name value) := by
  refine ⟨by simp [fieldLine], hname.append ?_⟩
  intro c hc
  rcases List.mem_cons.mp hc with rfl | hc
  · decide
  · rcases List.mem_cons.mp hc with rfl | hc
    · decide
    · exact hvalue c hc

/-- The first line of the request. -/
def requestLine (path : List Char) : List Char := "GET ".toList ++ (path ++ " HTTP/1.1".toList)

/-- The fields of the request. -/
def requestFields (host key : List Char) : List (List Char) :=
  [fieldLine "Host".toList host, fieldLine "Upgrade".toList "websocket".toList,
    fieldLine "Connection".toList "Upgrade".toList, fieldLine "Sec-WebSocket-Key".toList key,
    fieldLine "Sec-WebSocket-Version".toList "13".toList]

/-- Pieces of text in which the ends of lines stand are the lines. -/
theorem headerText_pieces {get path http name host upgrade connection name' key version : List Char}
    {first second third : List Char} (hfirst : first = http ++ (crlf ++ (name ++ [':', ' '])))
    (hsecond : second = crlf ++ (upgrade ++ (crlf ++ (connection ++ (crlf ++ (name' ++ [':', ' ']))))))
    (hthird : third = crlf ++ (version ++ (crlf ++ crlf))) :
    get ++ path ++ first ++ host ++ second ++ key ++ third =
      headerText [get ++ (path ++ http), fieldLine name host, upgrade, connection, fieldLine name' key,
        version] := by
  simp only [hfirst, hsecond, hthird, headerText, fieldLine, List.flatMap_cons, List.flatMap_nil,
    List.append_assoc, List.cons_append, List.nil_append]

theorem handshakeRequest_eq (host path key : List Char) :
    handshakeRequest host path key = headerText (requestLine path :: requestFields host key) := by
  have hhost : " HTTP/1.1\r\nHost: ".toList =
      " HTTP/1.1".toList ++ (crlf ++ ("Host".toList ++ [':', ' '])) := by
    decide
  have hkey : "\r\nUpgrade: websocket\r\nConnection: Upgrade\r\nSec-WebSocket-Key: ".toList =
      crlf ++ (fieldLine "Upgrade".toList "websocket".toList ++ (crlf ++
        (fieldLine "Connection".toList "Upgrade".toList ++ (crlf ++
          ("Sec-WebSocket-Key".toList ++ [':', ' ']))))) := by
    decide
  have hversion : "\r\nSec-WebSocket-Version: 13\r\n\r\n".toList =
      crlf ++ (fieldLine "Sec-WebSocket-Version".toList "13".toList ++ (crlf ++ crlf)) := by
    decide
  exact headerText_pieces hhost hkey hversion

/-- The fields of the request as the server finds them. -/
def requestHeaders (host key : List Char) : Headers :=
  [("host".toList, strip (' ' :: host)), ("upgrade".toList, "websocket".toList),
    ("connection".toList, "Upgrade".toList), ("sec-websocket-key".toList, key),
    ("sec-websocket-version".toList, "13".toList)]

theorem map_headerOf_requestFields (host : List Char) {key : List Char} (hkey : Solid key) :
    (requestFields host key).map headerOf = requestHeaders host key := by
  have hhost : headerOf (fieldLine "Host".toList host) = ("host".toList, strip (' ' :: host)) := by
    rw [headerOf_fieldLine (forall_mem_of_all (by decide))]
    exact congrArg (fun name => (name, strip (' ' :: host))) (by decide)
  have hupgrade : headerOf (fieldLine "Upgrade".toList "websocket".toList) =
      ("upgrade".toList, "websocket".toList) := by decide
  have hconnection : headerOf (fieldLine "Connection".toList "Upgrade".toList) =
      ("connection".toList, "Upgrade".toList) := by decide
  have hkeyField : headerOf (fieldLine "Sec-WebSocket-Key".toList key) =
      ("sec-websocket-key".toList, key) := by
    rw [headerOf_fieldLine (forall_mem_of_all (by decide)), hkey.strip_space]
    exact congrArg (fun name => (name, key)) (by decide)
  have hversion : headerOf (fieldLine "Sec-WebSocket-Version".toList "13".toList) =
      ("sec-websocket-version".toList, "13".toList) := by decide
  simp only [requestFields, List.map_cons, List.map_nil, hhost, hupgrade, hconnection, hkeyField, hversion,
    requestHeaders]

/-- The lines of the request are lines. -/
theorem isLine_requestFields {host key : List Char} (hhost : OnOneLine host) (hkey : OnOneLine key) :
    ∀ line ∈ requestFields host key, IsLine line := by
  intro line hline
  simp only [requestFields, List.mem_cons, List.not_mem_nil, or_false] at hline
  rcases hline with rfl | rfl | rfl | rfl | rfl
  · exact isLine_fieldLine (forall_mem_of_all (by decide)) hhost
  · exact isLine_fieldLine (forall_mem_of_all (by decide)) (forall_mem_of_all (by decide))
  · exact isLine_fieldLine (forall_mem_of_all (by decide)) (forall_mem_of_all (by decide))
  · exact isLine_fieldLine (forall_mem_of_all (by decide)) hkey
  · exact isLine_fieldLine (forall_mem_of_all (by decide)) (forall_mem_of_all (by decide))

theorem isLine_requestLine {path : List Char} (hpath : OnOneLine path) : IsLine (requestLine path) := by
  have hget : OnOneLine "GET ".toList := forall_mem_of_all (by decide)
  have hhttp : OnOneLine " HTTP/1.1".toList := forall_mem_of_all (by decide)
  exact ⟨List.cons_ne_nil _ _, hget.append (hpath.append hhttp)⟩

/-- The first line of the request asks for a page. -/
theorem get_prefix_requestLine (path : List Char) : "GET".toList <+: upper (requestLine path) := by
  have hget : upper "GET ".toList = "GET".toList ++ [' '] := by decide
  rw [requestLine, upper, List.flatMap_append]
  apply List.IsPrefix.trans (List.prefix_append "GET".toList [' '])
  rw [← hget]
  exact List.prefix_append _ _

/-- The server finds the key of the client. -/
theorem checkRequest_handshakeRequest {host path key : List Char} (hhost : OnOneLine host)
    (hpath : OnOneLine path) (hkey : Solid key) (hline : OnOneLine key) (hne : key ≠ []) :
    checkRequest (handshakeRequest host path key) = .ok (key, requestHeaders host key) := by
  have hnames : (((requestFields host key).map headerOf).map Prod.fst).Nodup := by
    have hlist : (requestHeaders host key).map Prod.fst =
        ["host".toList, "upgrade".toList, "connection".toList, "sec-websocket-key".toList,
          "sec-websocket-version".toList] := rfl
    rw [map_headerOf_requestFields host hkey, hlist]
    decide
  have hparse := parseHeaders_headerText (isLine_requestLine hpath) (isLine_requestFields hhost hline) hnames
  rw [map_headerOf_requestFields host hkey] at hparse
  have hupgrade : (requestHeaders host key).lookup "upgrade".toList = some "websocket".toList := rfl
  have hfound : (requestHeaders host key).lookup "sec-websocket-key".toList = some key := rfl
  have hlower : lower "websocket".toList = "websocket".toList := by decide
  rw [checkRequest, handshakeRequest_eq, hparse]
  simp only [get_prefix_requestLine, hupgrade, Option.getD_some, hlower, hfound, not_true_eq_false, ne_eq,
    if_false]

/-! ### The response -/

/-- The first line of the response. -/
def statusLine : List Char := "HTTP/1.1 101 Switching Protocols".toList

/-- The fields of the response. -/
def responseFields (token : List Char) : List (List Char) :=
  [fieldLine "Upgrade".toList "websocket".toList, fieldLine "Connection".toList "Upgrade".toList,
    fieldLine "Sec-WebSocket-Accept".toList token]

theorem handshakeResponse_eq (token : String) :
    (handshakeResponse token).toList = headerText (statusLine :: responseFields token.toList) := by
  have hstart : "HTTP/1.1 101 Switching Protocols\r\nUpgrade: websocket\r\nConnection: Upgrade\r\n".toList =
      statusLine ++ (crlf ++ (fieldLine "Upgrade".toList "websocket".toList ++ (crlf ++
        (fieldLine "Connection".toList "Upgrade".toList ++ crlf)))) := by
    decide
  have hname : "Sec-WebSocket-Accept: ".toList = "Sec-WebSocket-Accept".toList ++ [':', ' '] := by decide
  have hend : "\r\n\r\n".toList = crlf ++ crlf := by decide
  have hpieces : ∀ {status upgrade connection name : List Char} {first second third : List Char},
      first = status ++ (crlf ++ (upgrade ++ (crlf ++ (connection ++ crlf)))) →
      second = name ++ [':', ' '] → third = crlf ++ crlf →
      first ++ (second ++ token.toList ++ third) =
        headerText [status, upgrade, connection, fieldLine name token.toList] := by
    intro status upgrade connection name first second third hfirst hsecond hthird
    simp only [hfirst, hsecond, hthird, headerText, fieldLine, List.flatMap_cons, List.flatMap_nil,
      List.append_assoc, List.cons_append, List.nil_append]
  unfold handshakeResponse
  simp only [String.toList_append]
  exact hpieces hstart hname hend

/-- The response is as long as its token says. -/
theorem length_response (token : List Char) :
    (headerText (statusLine :: responseFields token)).length = 101 + token.length := by
  have hstatus : statusLine.length = 32 := by decide
  have hupgrade : (fieldLine "Upgrade".toList "websocket".toList).length = 18 := by decide
  have hconnection : (fieldLine "Connection".toList "Upgrade".toList).length = 19 := by decide
  have haccept : (fieldLine "Sec-WebSocket-Accept".toList token).length = 22 + token.length := by
    have hname : "Sec-WebSocket-Accept".toList.length = 20 := by decide
    simp only [fieldLine, List.length_append, List.length_cons, hname]
    omega
  simp only [headerText, responseFields, crlf, List.flatMap_cons, List.flatMap_nil, List.length_append,
    List.length_cons, List.length_nil, hstatus, hupgrade, hconnection, haccept]
  omega

/-- The response is Latin-1 when its token is. -/
theorem isLatin1_response {token : List Char} (h : IsLatin1 token) :
    ∀ line ∈ statusLine :: responseFields token, IsLatin1 line := by
  intro line hline
  simp only [responseFields, List.mem_cons, List.not_mem_nil, or_false] at hline
  rcases hline with rfl | rfl | rfl | rfl
  · exact forall_mem_of_all (by decide)
  · exact forall_mem_of_all (by decide)
  · exact forall_mem_of_all (by decide)
  · apply IsLatin1.append (forall_mem_of_all (by decide))
    exact IsLatin1.append (forall_mem_of_all (show [':', ' '].all _ = true by decide)) h

/-- The fields of the response as the client finds them. -/
def responseHeaders (token : List Char) : Headers :=
  [("upgrade".toList, "websocket".toList), ("connection".toList, "Upgrade".toList),
    ("sec-websocket-accept".toList, token)]

theorem map_headerOf_responseFields {token : List Char} (htoken : Solid token) :
    (responseFields token).map headerOf = responseHeaders token := by
  have hupgrade : headerOf (fieldLine "Upgrade".toList "websocket".toList) =
      ("upgrade".toList, "websocket".toList) := by decide
  have hconnection : headerOf (fieldLine "Connection".toList "Upgrade".toList) =
      ("connection".toList, "Upgrade".toList) := by decide
  have haccept : headerOf (fieldLine "Sec-WebSocket-Accept".toList token) =
      ("sec-websocket-accept".toList, token) := by
    rw [headerOf_fieldLine (forall_mem_of_all (by decide)), htoken.strip_space]
    exact congrArg (fun name => (name, token)) (by decide)
  simp only [responseFields, List.map_cons, List.map_nil, hupgrade, hconnection, haccept, responseHeaders]

theorem isLine_responseFields {token : List Char} (htoken : OnOneLine token) :
    ∀ line ∈ responseFields token, IsLine line := by
  intro line hline
  simp only [responseFields, List.mem_cons, List.not_mem_nil, or_false] at hline
  rcases hline with rfl | rfl | rfl
  · exact isLine_fieldLine (forall_mem_of_all (by decide)) (forall_mem_of_all (by decide))
  · exact isLine_fieldLine (forall_mem_of_all (by decide)) (forall_mem_of_all (by decide))
  · exact isLine_fieldLine (forall_mem_of_all (by decide)) htoken

theorem isLine_statusLine : IsLine statusLine := ⟨by decide, forall_mem_of_all (by decide)⟩

/-- The client finds the token of its key. -/
theorem checkResponse_handshakeResponse {key : List Char} {token : String} (hsolid : Solid token.toList)
    (hline : OnOneLine token.toList) (htoken : acceptToken key = .ok token) :
    checkResponse key (handshakeResponse token).toList = .ok (responseHeaders token.toList) := by
  have hnames : (((responseFields token.toList).map headerOf).map Prod.fst).Nodup := by
    have hlist : (responseHeaders token.toList).map Prod.fst =
        ["upgrade".toList, "connection".toList, "sec-websocket-accept".toList] := rfl
    rw [map_headerOf_responseFields hsolid, hlist]
    decide
  have hparse := parseHeaders_headerText isLine_statusLine (isLine_responseFields hline) hnames
  rw [map_headerOf_responseFields hsolid] at hparse
  have hstatus : "101".toList <:+: statusLine :=
    ⟨"HTTP/1.1 ".toList, " Switching Protocols".toList, by decide⟩
  have hfound : (responseHeaders token.toList).lookup "sec-websocket-accept".toList = some token.toList := rfl
  rw [checkResponse, handshakeResponse_eq, hparse]
  simp only [hstatus, htoken, hfound, not_true_eq_false, ne_eq, if_false]

/-! ### The two sides on their sockets -/

/-- Reading a header block writes nothing, however it ends. -/
theorem written_readHttpHeadersLoop (room : Nat) (buf : Bytes) (sock : Socket) :
    (StateExcept.final (readHttpHeadersLoop room buf sock)).written = sock.written := by
  induction room generalizing buf sock with
  | zero =>
      by_cases hline : crlfCrlf <:+ buf
      · rw [readHttpHeadersLoop_done 0 hline]
        rfl
      · cases hrest : sock.rest with
        | nil =>
            rw [readHttpHeadersLoop_end 0 hrest hline]
            rfl
        | cons byte more =>
            obtain ⟨sock₁, hleft, hloop⟩ := readHttpHeadersLoop_byte 0 hrest hline
            rw [hloop]
            exact hleft.written
  | succ room ih =>
      by_cases hline : crlfCrlf <:+ buf
      · rw [readHttpHeadersLoop_done (room + 1) hline]
        rfl
      · cases hrest : sock.rest with
        | nil =>
            rw [readHttpHeadersLoop_end (room + 1) hrest hline]
            rfl
        | cons byte more =>
            obtain ⟨sock₁, hleft, hloop⟩ := readHttpHeadersLoop_byte (room + 1) hrest hline
            rw [hloop, ih]
            exact hleft.written

theorem written_readHttpHeaders (sock : Socket) :
    (StateExcept.final (readHttpHeaders sock)).written = sock.written := by
  have hloop := written_readHttpHeadersLoop maxHeaderBytes [] sock
  rw [readHttpHeaders]
  cases hread : readHttpHeadersLoop maxHeaderBytes [] sock with
  | ok block sock' =>
      rw [hread] at hloop
      rw [StateExcept.bind_ok hread]
      exact hloop
  | error exn sock' =>
      rw [hread] at hloop
      rw [StateExcept.bind_error hread]
      exact hloop

/-- What has been read when `_read_http_headers` returns. -/
theorem exists_headerBlock {sock sock' : Socket} {block : List Char}
    (h : readHttpHeaders sock = .ok block sock') :
    ∃ bytes rest, HeaderBlock bytes ∧ sock.rest = bytes ++ rest ∧ block = latin1Decode bytes ∧
      sock'.rest = rest := by
  rcases readHttpHeaders_cases sock with ⟨bytes, rest, hblock, hrest⟩ | ⟨exn, sock₁, hraised, _⟩
  · obtain ⟨sock₁, hread, hleft⟩ := readHttpHeaders_block hblock hrest
    rw [h] at hread
    cases hread
    exact ⟨bytes, rest, hblock, hrest, rfl, hleft.rest⟩
  · rw [hraised] at h
    cases h

/-- The server answers a request that passes the checks. -/
theorem serverHandshake_works {server : Socket} {block frames : Bytes} {key : List Char} {headers : Headers}
    {token : String} (hworks : server.Works) (hblock : HeaderBlock block)
    (hrest : server.rest = block ++ frames)
    (hcheck : checkRequest (latin1Decode block) = .ok (key, headers)) (htoken : acceptToken key = .ok token) :
    ∃ server', serverHandshake server = .ok headers server' ∧ server'.rest = frames ∧
      server'.written = server.written ++ latin1Bytes (handshakeResponse token).toList := by
  obtain ⟨server₁, hread, hleft⟩ := readHttpHeaders_block hblock hrest
  have hworks₁ : server₁.Works := hworks.of_faults (hleft.faults ▸ List.Subset.refl _)
  have hwrite := hworks₁.sendall (latin1Bytes (handshakeResponse token).toList)
  rw [hleft.written] at hwrite
  have hserver : serverHandshake server = .ok headers { server₁ with
      faults := server₁.faults.tail
      written := server.written ++ latin1Bytes (handshakeResponse token).toList } := by
    rw [serverHandshake, StateExcept.bind_ok hread, hcheck]
    simp only [htoken]
    exact StateExcept.bind_ok hwrite
  exact ⟨_, hserver, hleft.rest, rfl⟩

variable {nonce : Vector UInt8 16} {host path : List Char}

/-- The key of a client. -/
def clientKey (nonce : Vector UInt8 16) : List Char := (b64encode nonce.toList).toList

/-- What a client does behind its request. -/
def awaitResponse (nonce : Vector UInt8 16) : SocketM Headers := do
  match checkResponse (clientKey nonce) (← readHttpHeaders) with
  | .error exn => throw exn
  | .ok headers => return headers

theorem written_awaitResponse (sock : Socket) :
    (StateExcept.final (awaitResponse nonce sock)).written = sock.written := by
  have hblock := written_readHttpHeaders sock
  rw [awaitResponse]
  cases hread : readHttpHeaders sock with
  | error exn sock' =>
      rw [hread] at hblock
      rw [StateExcept.bind_error hread]
      exact hblock
  | ok block sock' =>
      rw [hread] at hblock
      rw [StateExcept.bind_ok hread]
      cases checkResponse (clientKey nonce) block with
      | error exn => exact hblock
      | ok headers => exact hblock

/-- The request of a client is Latin-1 when its host and its path are. -/
theorem isLatin1_handshakeRequest (hhost : IsLatin1 host) (hpath : IsLatin1 path) :
    IsLatin1 (handshakeRequest host path (clientKey nonce)) := by
  have hkey : IsLatin1 (clientKey nonce) := fun c hc => Nat.lt_trans (b64_printable hc).1 (by decide)
  have hget : IsLatin1 "GET ".toList := forall_mem_of_all (by decide)
  have hfirst : IsLatin1 " HTTP/1.1\r\nHost: ".toList := forall_mem_of_all (by decide)
  have hsecond : IsLatin1 "\r\nUpgrade: websocket\r\nConnection: Upgrade\r\nSec-WebSocket-Key: ".toList :=
    forall_mem_of_all (by decide)
  have hthird : IsLatin1 "\r\nSec-WebSocket-Version: 13\r\n\r\n".toList := forall_mem_of_all (by decide)
  unfold handshakeRequest
  exact (((((hget.append hpath).append hfirst).append hhost).append hsecond).append hkey).append hthird

/-- A client writes its request and awaits the response. -/
theorem clientHandshake_works {client : Socket} (hworks : client.Works) (hhost : IsLatin1 host)
    (hpath : IsLatin1 path) :
    clientHandshake nonce host path client = awaitResponse nonce { client with
      faults := client.faults.tail
      written := client.written ++ latin1Bytes (handshakeRequest host path (clientKey nonce)) } := by
  have hencode : latin1Encode (handshakeRequest host path (b64encode nonce.toList).toList) =
      .ok (latin1Bytes (handshakeRequest host path (clientKey nonce))) :=
    latin1Encode_ok (isLatin1_handshakeRequest hhost hpath)
  unfold clientHandshake
  simp only [hencode]
  exact StateExcept.bind_ok (hworks.sendall _)

/-- A response that passes the checks has the accept token of the key. -/
theorem checkResponse_accepted {key block : List Char} {headers : Headers}
    (h : checkResponse key block = .ok headers) :
    ∃ token, acceptToken key = .ok token ∧
      (parseHeaders block).2.lookup "sec-websocket-accept".toList = some token.toList := by
  simp only [checkResponse] at h
  split at h
  · cases h
  · cases htoken : acceptToken key with
    | error exn =>
        rw [htoken] at h
        cases h
    | ok token =>
        rw [htoken] at h
        refine ⟨token, rfl, ?_⟩
        by_contra hforeign
        simp only [if_pos hforeign] at h
        cases h

/-- What a client that accepts a response has seen: the accept token of its own key. -/
theorem clientHandshake_accepted {client client' : Socket} {headers : Headers}
    (h : clientHandshake nonce host path client = .ok headers client') :
    ∃ block token, HeaderBlock block ∧ client.rest = block ++ client'.rest ∧
      acceptToken (clientKey nonce) = .ok token ∧
      (parseHeaders (latin1Decode block)).2.lookup "sec-websocket-accept".toList = some token.toList := by
  have hwritten : ∃ client₁, client₁.rest = client.rest ∧
      awaitResponse nonce client₁ = .ok headers client' := by
    unfold clientHandshake at h
    cases hencode : latin1Encode (handshakeRequest host path (b64encode nonce.toList).toList) with
    | error exn =>
        simp only [hencode] at h
        cases h
    | ok request =>
        simp only [hencode] at h
        obtain ⟨_, client₁, hsend, hawait⟩ := StateExcept.bind_eq_ok h
        rcases sendall_cases request client with ⟨client₂, hsend', _, hrest, _⟩ | ⟨fault, client₂, _, hsend'⟩
        · rw [hsend'] at hsend
          cases hsend
          exact ⟨client₁, hrest, hawait⟩
        · rw [hsend'] at hsend
          cases hsend
  obtain ⟨client₁, hrest, hawait⟩ := hwritten
  obtain ⟨text, client₂, hread, hcheck⟩ := StateExcept.bind_eq_ok hawait
  obtain ⟨block, rest, hblock, hstream, rfl, hleft⟩ := exists_headerBlock hread
  have hchecked : checkResponse (clientKey nonce) (latin1Decode block) = .ok headers ∧ client₂ = client' := by
    cases hresult : checkResponse (clientKey nonce) (latin1Decode block) with
    | error exn =>
        rw [hresult] at hcheck
        cases hcheck
    | ok found =>
        rw [hresult] at hcheck
        cases hcheck
        exact ⟨rfl, rfl⟩
  obtain ⟨hchecked, rfl⟩ := hchecked
  obtain ⟨token, htoken, hfound⟩ := checkResponse_accepted hchecked
  refine ⟨block, token, hblock, ?_, htoken, hfound⟩
  rw [← hrest, hstream, hleft]

/-! ### The agreement -/

/-- The two halves of the handshake fit together: what the client writes, in whatever pieces it arrives and
whatever bytes follow it, is accepted by the server, and what the server answers is accepted by the client;
each of them leaves the bytes that follow to be read. -/
def Interoperate (nonce : Vector UInt8 16) (host path : List Char) : Prop :=
  ∃ request response : Bytes,
    (∀ client : Socket, client.Works →
      (StateExcept.final (clientHandshake nonce host path client)).written = client.written ++ request) ∧
    (∀ (server : Socket) (frames : Bytes), server.Works → server.rest = request ++ frames →
      ∃ headers server', serverHandshake server = .ok headers server' ∧ server'.rest = frames ∧
        server'.written = server.written ++ response) ∧
    ∀ (client : Socket) (frames : Bytes), client.Works → client.rest = response ++ frames →
      ∃ headers client', clientHandshake nonce host path client = .ok headers client' ∧ client'.rest = frames

/-- The request is a header block that the server finds the key of the client in. -/
theorem request_accepted (hhost : IsLatin1 host ∧ OnOneLine host) (hpath : IsLatin1 path ∧ OnOneLine path)
    (hsize : (handshakeRequest host path (clientKey nonce)).length ≤ maxHeaderBytes) :
    HeaderBlock (latin1Bytes (handshakeRequest host path (clientKey nonce))) ∧
      checkRequest (latin1Decode (latin1Bytes (handshakeRequest host path (clientKey nonce)))) =
        .ok (clientKey nonce, requestHeaders host (clientKey nonce)) := by
  have hlatin1 : IsLatin1 (handshakeRequest host path (clientKey nonce)) :=
    isLatin1_handshakeRequest hhost.1 hpath.1
  have hkey : OnOneLine (clientKey nonce) := onOneLine_b64encode nonce.toList
  have hne : clientKey nonce ≠ [] := by
    apply b64_ne_nil
    apply List.ne_nil_of_length_pos
    rw [Vector.length_toList]
    decide
  constructor
  · rw [handshakeRequest_eq] at hlatin1 hsize ⊢
    apply headerBlock_headerText (List.cons_ne_nil _ _) ?_ hlatin1 hsize
    intro line hline
    rcases List.mem_cons.mp hline with rfl | hline
    · exact isLine_requestLine hpath.2
    · exact isLine_requestFields hhost.2 hkey line hline
  · rw [latin1Decode_latin1Bytes hlatin1]
    exact checkRequest_handshakeRequest hhost.2 hpath.2 (solid_b64encode nonce.toList) hkey hne

/-- The response is a header block that the client finds the token of its key in. -/
theorem response_accepted {key : List Char} {token : String} (htoken : acceptToken key = .ok token) :
    HeaderBlock (latin1Bytes (handshakeResponse token).toList) ∧
      checkResponse key (latin1Decode (latin1Bytes (handshakeResponse token).toList)) =
        .ok (responseHeaders token.toList) := by
  have hdigest : ∃ digest : Bytes, digest.length = 20 ∧ token = b64encode digest := by
    rw [acceptToken] at htoken
    cases hencode : asciiEncode (key ++ guid.toList) with
    | error exn =>
        rw [hencode] at htoken
        cases htoken
    | ok text =>
        rw [hencode] at htoken
        exact ⟨sha1 text, length_sha1 text, (Except.ok.inj htoken).symm⟩
  obtain ⟨digest, hlength, rfl⟩ := hdigest
  have hline := onOneLine_b64encode digest
  have htext : (b64encode digest).toList.length = 28 := by rw [length_b64encode, hlength]
  have hlatin1 : IsLatin1 (headerText (statusLine :: responseFields (b64encode digest).toList)) :=
    isLatin1_headerText (isLatin1_response fun c hc => Nat.lt_trans (b64_printable hc).1 (by decide))
  constructor
  · rw [handshakeResponse_eq]
    apply headerBlock_headerText (List.cons_ne_nil _ _) ?_ hlatin1 ?_
    · intro line hmember
      rcases List.mem_cons.mp hmember with rfl | hmember
      · exact isLine_statusLine
      · exact isLine_responseFields hline line hmember
    · rw [length_response, htext]
      decide
  · rw [handshakeResponse_eq, latin1Decode_latin1Bytes hlatin1, ← handshakeResponse_eq]
    exact checkResponse_handshakeResponse (solid_b64encode digest) hline htoken

/-- For every nonce, and every Latin-1 host and path without line breaks for which the request is not too
large, the two halves of the handshake fit together; and whatever a client is sent, it returns only if it
has seen the accept token of its own key, and leaves what follows the header block. -/
theorem opening_handshake_interoperates (nonce : Vector UInt8 16) (host path : List Char) :
    (IsLatin1 host ∧ OnOneLine host → IsLatin1 path ∧ OnOneLine path →
      (handshakeRequest host path (clientKey nonce)).length ≤ maxHeaderBytes → Interoperate nonce host path) ∧
    ∀ (client client' : Socket) (headers : Headers),
      clientHandshake nonce host path client = .ok headers client' →
      ∃ block token, HeaderBlock block ∧ client.rest = block ++ client'.rest ∧
        acceptToken (clientKey nonce) = .ok token ∧
        (parseHeaders (latin1Decode block)).2.lookup "sec-websocket-accept".toList = some token.toList := by
  constructor
  · intro hhost hpath hsize
    obtain ⟨hblock, hcheck⟩ := request_accepted hhost hpath hsize
    have hascii : AsciiKey (clientKey nonce) := fun c hc => (b64_printable hc).1
    rcases acceptToken_cases (clientKey nonce) with ⟨_, token, htoken⟩ | ⟨hnone, _⟩
    swap
    · exact absurd hascii hnone
    obtain ⟨hblock', hcheck'⟩ := response_accepted htoken
    refine ⟨_, _, ?_, fun server frames hworks hrest =>
      ⟨_, serverHandshake_works hworks hblock hrest hcheck htoken⟩, ?_⟩
    · intro client hworks
      rw [clientHandshake_works hworks hhost.1 hpath.1, written_awaitResponse]
    · intro client frames hworks hrest
      rw [clientHandshake_works hworks hhost.1 hpath.1]
      obtain ⟨client', hread, hleft⟩ := readHttpHeaders_block hblock' (show Socket.rest { client with
        faults := client.faults.tail
        written := client.written ++ latin1Bytes (handshakeRequest host path (clientKey nonce)) } = _
      from hrest)
      refine ⟨responseHeaders token.toList, client', ?_, hleft.rest⟩
      rw [awaitResponse, StateExcept.bind_ok hread, hcheck']
      rfl
  · exact fun client client' headers => clientHandshake_accepted

/-- A client that asks `localhost` for `/`. -/
theorem opening_handshake_localhost :
    Interoperate (Vector.replicate 16 0) "localhost".toList "/".toList :=
  (opening_handshake_interoperates (Vector.replicate 16 0) "localhost".toList "/".toList).1
    ⟨forall_mem_of_all (by decide), forall_mem_of_all (by decide)⟩
    ⟨forall_mem_of_all (by decide), forall_mem_of_all (by decide)⟩ (by decide +kernel)

end Priestly
