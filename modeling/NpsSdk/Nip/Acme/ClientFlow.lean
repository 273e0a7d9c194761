import NpsSdk.Nip.Acme.Interference
import NpsSdk.Nip.Acme.OrderSafety

/-! The client's flow against the server, with requests of others in between: it comes to its end, with
the certificate that it asked for. -/
namespace Nps.Nip.Acme
open Json Rely
open Wire (Bytes)

theorem b64uEncode_char {bytes : Bytes} {c : Char} (member : c ∈ (b64uEncode bytes).toList) :
    visible c = true ∧ c ≠ '/' := by
  have symbols : ∀ value < 64, visible (Char.ofNat (Base64.symbol .urlSafe value).toNat) = true ∧
      Char.ofNat (Base64.symbol .urlSafe value).toNat ≠ '/' := by decide
  rw [b64uEncode, Base64.encode, Text.ascii, String.toList_ofList] at member
  obtain ⟨byte, among, rfl⟩ := List.mem_map.mp member
  obtain ⟨value, small, rfl⟩ := Base64.encodeBytes_symbols .urlSafe bytes byte among
  exact symbols value small

theorem b64uEncode_visible (bytes : Bytes) : (b64uEncode bytes).toList.all visible = true :=
  List.all_eq_true.mpr fun _ member => (b64uEncode_char member).1

theorem trimStartMatches_plain {start text : List Char} (apart : start.isPrefixOf text = false) (fuel : Nat) :
    trimStartMatches start fuel text = text := by
  cases fuel with
  | zero => rfl
  | succ fuel => rw [trimStartMatches, apart, if_neg Bool.false_ne_true]

/-- An id has no slash, so the prefix is taken off once. -/
theorem idIn_append {start : String} (begins : start.toList.head? = some '/') (bytes : Bytes) :
    idIn start (start ++ b64uEncode bytes) = b64uEncode bytes := by
  obtain ⟨rest, spelled⟩ : ∃ rest, start.toList = '/' :: rest := by
    cases chars : start.toList with
    | nil => rw [chars] at begins; cases begins
    | cons c rest =>
      rw [chars] at begins
      cases begins
      exact ⟨rest, rfl⟩
  have apart : start.toList.isPrefixOf (b64uEncode bytes).toList = false := by
    rw [spelled]
    cases id : (b64uEncode bytes).toList with
    | nil => rfl
    | cons c tail =>
      have plain : c ≠ '/' := (b64uEncode_char (id ▸ List.mem_cons_self)).2
      rw [List.isPrefixOf, beq_false_of_ne plain.symm, Bool.false_and]
  obtain ⟨fuel, length⟩ : ∃ fuel, (start ++ b64uEncode bytes).toList.length = fuel + 1 := by
    refine ⟨rest.length + (b64uEncode bytes).toList.length, ?_⟩
    rw [String.toList_append, List.length_append, spelled, List.length_cons]
    omega
  have whole : start.toList.isPrefixOf (start.toList ++ (b64uEncode bytes).toList) = true :=
    List.isPrefixOf_iff_prefix.mpr (List.prefix_append _ _)
  rw [idIn, length, String.toList_append, trimStartMatches, if_pos whole, List.drop_left,
    trimStartMatches_plain apart, String.ofList_toList]

theorem resource_apart {start path : String} (begins : Text.startsWith start path = true)
    (among : start ∈ ["/authz/", "/chall/", "/finalize/", "/cert/"]) :
    (path ≠ "/directory" ∧ path ≠ "/new-nonce" ∧ path ≠ "/new-account" ∧ path ≠ "/new-order") ∧
      ∀ other ∈ ["/authz/", "/chall/", "/finalize/", "/cert/"], other ≠ start →
        Text.startsWith other path = false := by
  have words : ∀ start ∈ ["/authz/", "/chall/", "/finalize/", "/cert/"],
      ∀ text ∈ ["/directory", "/new-nonce", "/new-account", "/new-order"],
        Text.startsWith start text = false := by decide
  have starts : ∀ start ∈ ["/authz/", "/chall/", "/finalize/", "/cert/"],
      ∀ other ∈ ["/authz/", "/chall/", "/finalize/", "/cert/"], other ≠ start →
        start.toList.isPrefixOf other.toList = false := by decide
  have word (text : String) (member : text ∈ ["/directory", "/new-nonce", "/new-account", "/new-order"]) :
      path ≠ text := by
    rintro rfl
    rw [words start among path member] at begins
    cases begins
  refine ⟨⟨word _ (by decide), word _ (by decide), word _ (by decide), word _ (by decide)⟩, ?_⟩
  intro other member apart
  exact startsWith_other _ _ begins (starts start among other member apart)
    (starts other member start among apart.symm)

theorem startsWith_append (start rest : String) : Text.startsWith start (start ++ rest) = true := by
  rw [Text.startsWith, String.toList_append]
  exact List.isPrefixOf_iff_prefix.mpr (List.prefix_append _ _)

section Headers
variable {status : Nat} {body name value : String} {rest : List (String × String)}

theorem header_self (plain : value.toList.all visible = true) :
    Response.header { status, body, headers := (name, value) :: rest } name = some value := by
  simp [Response.header, plain]

theorem header_cons {other : String} (apart : (Text.lowerAscii other == Text.lowerAscii name) = false) :
    Response.header { status, body, headers := (other, value) :: rest } name =
      Response.header { status, body, headers := rest } name := by
  rw [Response.header, List.find?_cons, apart]
  rfl

end Headers

theorem next_self (e : Event) (value : Value) :
    (jsonResponse 200 value [("Replay-Nonce", e.nonce)]).header "Replay-Nonce" = some e.nonce :=
  (header_cons (by decide)).trans (header_self (b64uEncode_visible _))

theorem clean_renewed (header : ProtectedHeader) {s after : State} {e : Event} {spent : List String}
    (clean : Clean spent s) (fresh : e.nonce ∉ header.nonce :: spent) :
    Clean (header.nonce :: spent) (s.renewed header e after) := by
  intro nonce used there
  rcases mem_mintNonce.mp there with rfl | left
  · exact fresh used
  · obtain ⟨unused, other⟩ := List.mem_filter.mp left
    rcases List.mem_cons.mp used with rfl | old
    · exact of_decide_eq_true other rfl
    · exact clean nonce old unused

theorem exists_unused (used : List String) : ∃ bytes : Bytes, b64uEncode bytes ∉ used := by
  have injective : Function.Injective fun n => b64uEncode (List.replicate n 0) := by
    intro n m same
    have lengths := congrArg List.length (b64uEncode_injective same)
    rwa [List.length_replicate, List.length_replicate] at lengths
  by_contra all
  have inside : (List.range (used.length + 1)).map (fun n => b64uEncode (List.replicate n 0)) ⊆ used := by
    intro text member
    obtain ⟨n, -, rfl⟩ := List.mem_map.mp member
    by_contra other
    exact all ⟨_, other⟩
  have fits := (List.nodup_range.map injective).subperm inside |>.length_le
  rw [List.length_map, List.length_range] at fits
  omega

/-- The server, the nonces that the client has spent and the one that was given to it last. -/
structure World where
  server : State
  spent : List String := []
  held : Option String := none

section
variable [Ed25519]
variable (server : AcmeServer) (key : Ed25519.SigningKey)

abbrev ownJwk : Jwk := jwkFromPublicKey (Ed25519.asBytes (Ed25519.verifyingKey key))

/-- The client once it knows the directory. -/
def known (account nonce : Option String) : AcmeClient where
  directoryUrl := server.baseUrl ++ "/directory"
  signingKey := key
  verifyingKey := Ed25519.verifyingKey key
  directory := some
    ⟨server.baseUrl ++ "/new-nonce", server.baseUrl ++ "/new-account", server.baseUrl ++ "/new-order"⟩
  accountUrl := account
  lastNonce := nonce

/-- The client has an unused nonce, and something holds of the server. -/
structure Holds (account : Option String) (facts : State → Prop) (client : AcmeClient) (w : World) : Prop where
  client : client = known server key account w.held
  held : ∃ nonce, w.held = some nonce ∧ nonce ∈ w.server.nonces
  clean : Clean w.spent w.server
  facts : facts w.server

/-- The nonce that the client has is named. -/
def Ready (account : Option String) (nonce : String) (facts : State → Prop) (client : AcmeClient) (w : World) :
    Prop :=
  w.held = some nonce ∧ Holds server key account facts client w

/-- The client has been given the next nonce by an answer, and has not taken it yet. -/
structure Answered (account : Option String) (facts : State → Prop) (response : Response)
    (client : AcmeClient) (w : World) : Prop where
  client : ∃ nonce, client = known server key account nonce
  given : response.header "Replay-Nonce" = w.held
  held : ∃ nonce, w.held = some nonce ∧ nonce ∈ w.server.nonces
  clean : Clean w.spent w.server
  facts : facts w.server

def Steady (facts : State → Prop) : Prop :=
  ∀ held s t, facts s → Undisturbed (ownJwk key) held s t → facts t

variable {server key} {account : Option String} {facts : State → Prop}

theorem Ready.client_eq (ready : Ready server key account nonce facts client w) :
    client = known server key account (some nonce) :=
  ready.2.client.trans (congrArg _ ready.1)

theorem named_ensures {α : Type} {p : ClientM α} {Q : α → AcmeClient → World → Prop}
    {exec : (call : HttpCall) → World → HttpAnswer call → World → Prop}
    (each : ∀ nonce, Ensures exec (Ready server key account nonce facts) p Q) :
    Ensures exec (Holds server key account facts) p Q := by
  refine (Ensures.of_exists each).mono (fun client w holds => ?_) fun _ _ _ holds => holds
  obtain ⟨nonce, held, -⟩ := holds.held
  exact ⟨nonce, held, holds⟩

theorem Steady.nonces (steady : Steady key facts) {s : State} (holds : facts s) (nonces : List String) :
    facts { s with nonces } :=
  steady none s _ holds {
    held := fun _ none_ => nomatch none_
    accounts := fun found => found
    orders := fun found _ => ⟨_, found, .inl rfl⟩
    authzs := fun found => ⟨_, found⟩
    challenges := fun found => ⟨_, found⟩
    certs := fun found => found }

def Registered (key : Ed25519.SigningKey) (url : String) (s : State) : Prop :=
  s.accountJwks.lookup url = some (ownJwk key)

theorem Registered.steady (url : String) : Steady key (Registered key url) :=
  fun _ _ _ registered others => others.accounts registered

/-- The challenge as the server keeps it. -/
def ordered (url : String) (e : Event) (status : Status) : ChallengeState where
  id := e.challId
  type := "agent-01"
  status := status
  token := b64uEncode e.draws.token
  authzId := e.authzId
  accountUrl := url

/-- The order that the request has opened for the account, with its authorization and its challenge. -/
structure Placed (key : Ed25519.SigningKey) (url nid : String) (e : Event) (s : State) : Prop where
  account : Registered key url s
  order : ∃ os, s.orders.lookup e.orderId = some os ∧ os.identifier = ⟨"nid", nid⟩ ∧
    os.authzId = e.authzId ∧ os.accountUrl = url
  authz : ∃ status, s.authzs.lookup e.authzId = some
    { identifier := ⟨"nid", nid⟩, status, challengeIds := [e.challId], accountUrl := url }
  challenge : ∃ status, s.challenges.lookup e.challId = some (ordered url e status)

theorem Placed.steady (url nid : String) (e : Event) : Steady key (Placed key url nid e) := by
  rintro held s t placed others
  obtain ⟨os, found, identifier, authzId, own⟩ := placed.order
  obtain ⟨status, authz⟩ := placed.authz
  obtain ⟨status', challenge⟩ := placed.challenge
  obtain ⟨after, order, -⟩ := others.orders found (own ▸ placed.account)
  exact ⟨others.accounts placed.account, ⟨_, order, identifier, authzId, own⟩, others.authzs authz,
    others.challenges challenge⟩

structure Due (key : Ed25519.SigningKey) (url nid : String) (e : Event) (s : State) : Prop where
  account : Registered key url s
  order : ∃ os, s.orders.lookup e.orderId = some os ∧ os.identifier = ⟨"nid", nid⟩ ∧ os.accountUrl = url ∧
    os.status = .ready

theorem Due.steady (url nid : String) (e : Event) : Steady key (Due key url nid e) := by
  rintro held s t due others
  obtain ⟨os, found, identifier, own, ready⟩ := due.order
  obtain ⟨status, order, still⟩ := others.orders found (own ▸ due.account)
  exact ⟨others.accounts due.account, ⟨_, order, identifier, own, still.elim (·.trans ready) id⟩⟩

theorem sign_payload {header : ProtectedHeader} {α : Type} {read : Bytes → Except String α} {value : Value} {a : α}
    (reads : read (Text.utf8 value.text) = .ok a) :
    decodePayload read (sign header (some value) key) = .ok (some a) := by
  refine decodePayload_ok rfl ?_ reads
  obtain ⟨c, tail, spelled, -⟩ := value.compact_cons
  intro empty
  have none_ : value.text = "" := Text.utf8_injective (empty.trans (show [] = Text.utf8 "" from rfl))
  rw [Value.text, spelled] at none_
  exact absurd (congrArg String.toList none_) (by simp)

section
variable [Library]

def messageNonce (body : String) : Option String :=
  match readEnvelope (.ok body) with
  | .ok env => (parseHeader env).toOption.map ProtectedHeader.nonce
  | .error _ => none

def spentBy (call : HttpCall) (spent : List String) : List String :=
  if call.method = .post then (messageNonce call.body).toList ++ spent else spent

theorem answeredChallenge_ok {s : State} {env : Envelope} {header verified : ProtectedHeader} {path : String}
    {ch : ChallengeState} {jwk : Jwk} {key : Ed25519.VerifyingKey} {payload : Option String}
    (account : s.accountJwks.lookup (header.kid.getD "") = some jwk) (read : publicKeyFromJwk jwk = .ok key)
    (checked : verify env key = .ok verified) (found : s.challenges.lookup (idIn "/chall/" path) = some ch)
    (own : ch.accountUrl = header.kid.getD "")
    (responds : decodePayload Library.challengeRespond env = .ok payload) :
    AcmeServer.answeredChallenge s env header path = .ok (ch, key, payload) := by
  simp [AcmeServer.answeredChallenge, account, read, checked, found, own, responds]

theorem readyOrder_ok {s : State} {env : Envelope} {header : ProtectedHeader} {id : String} {os : OrderState}
    (verified : verifyAccount s env header = true) (found : s.orders.lookup id = some os)
    (own : os.accountUrl = header.kid.getD "") (ready : os.status = .ready) :
    AcmeServer.readyOrder s env header id = .ok os := by
  simp [AcmeServer.readyOrder, verified, found, own, ready]

variable [ClientLibrary]

omit [Library] in
theorem buildCsr_spec {nid : String} {der : Bytes} (built : AcmeClient.buildCsr key nid = .ok der) :
    ClientLibrary.serializeRequest { commonName := nid, sanUris := [nid] } key = .ok der := by
  unfold AcmeClient.buildCsr at built
  cases pair : ClientLibrary.keyPair key with
  | error e => simp [pair, Except.mapError, bind, Except.bind] at built
  | ok =>
    cases names : ClientLibrary.checkNames [nid] with
    | error e => simp [pair, names, Except.mapError, bind, Except.bind] at built
    | ok =>
      cases uri : ClientLibrary.checkUri nid with
      | error e => simp [pair, names, uri, Except.mapError, bind, Except.bind] at built
      | ok =>
        cases request : ClientLibrary.serializeRequest { commonName := nid, sanUris := [nid] } key with
        | error e => simp [pair, names, uri, request, Except.mapError, bind, Except.bind] at built
        | ok other =>
          simp only [pair, names, uri, request, Except.mapError, bind, Except.bind, Except.ok.injEq] at built
          rw [built]

/-- Each side reads what the other one writes, and the scheme accepts what it signs. -/
structure Interoperates : Prop where
  envelope (env : Envelope) : Library.envelope env.toValue.text = .ok env
  header (header : ProtectedHeader) : Library.header (Text.utf8 header.toValue.text) = .ok header
  newOrder (identifiers : List Identifier) :
    Library.newOrder (Text.utf8 (newOrderPayload identifiers).text) = .ok identifiers
  challengeRespond (signature : String) :
    Library.challengeRespond (Text.utf8 (challengeRespondPayload signature).text) = .ok signature
  finalize (csr : String) : Library.finalize (Text.utf8 (finalizePayload csr).text) = .ok csr
  csr (params : CsrParams) (key : Ed25519.SigningKey) (der : Bytes) :
    ClientLibrary.serializeRequest params key = .ok der → der ≠ [] ∧
      Library.csr der = .ok ⟨some params.commonName, (Ed25519.asBytes (Ed25519.verifyingKey key)).val⟩
  directory (server : AcmeServer) : ClientLibrary.directory server.directory.text =
    .ok ⟨server.baseUrl ++ "/new-nonce", server.baseUrl ++ "/new-account", server.baseUrl ++ "/new-order"⟩
  order (order : Order) : ClientLibrary.order order.toValue.text =
    .ok ⟨order.authorizations, order.finalize, order.certificate⟩
  authorization (authz : Authorization) : ClientLibrary.authorization authz.toValue.text =
    .ok ⟨authz.challenges.map fun challenge => ⟨challenge.type, challenge.url, challenge.token⟩⟩
  verify (key : Ed25519.SigningKey) (message : Bytes) :
    Ed25519.verify (Ed25519.verifyingKey key) message (Ed25519.sign key message) = true
  point (key : Ed25519.SigningKey) :
    Ed25519.fromBytes (Ed25519.asBytes (Ed25519.verifyingKey key)) = .ok (Ed25519.verifyingKey key)

variable (sides : Interoperates)
include sides

theorem ownJwk_key : publicKeyFromJwk (ownJwk key) = .ok (Ed25519.verifyingKey key) := by
  rw [ownJwk, jwkFromPublicKey, publicKeyFromJwk_encode, sides.point]
  rfl

section Signed
variable {header : ProtectedHeader} {payload : Option Value}

theorem sign_read :
    readEnvelope (.ok (sign header payload key).toValue.text) = .ok (sign header payload key) :=
  readEnvelope_ok (sides.envelope _)

theorem sign_parsed : parseHeader (sign header payload key) = .ok header :=
  parseHeader_ok rfl (sides.header header)

theorem sign_verified :
    verify (sign header payload key) (Ed25519.verifyingKey key) = .ok header :=
  verify_ok rfl (sides.header header) rfl (sides.verify key _)

theorem sign_nonce :
    messageNonce (sign header payload key).toValue.text = some header.nonce := by
  rw [messageNonce, sign_read sides]
  simp only [sign_parsed sides]
  rfl

theorem sign_account {s : State} {url : String}
    (known : s.accountJwks.lookup url = some (ownJwk key)) (named : header.kid = some url) :
    verifyAccount s (sign header payload key) header = true := by
  simp [verifyAccount, named, known, ownJwk_key sides, sign_verified sides, Except.toOption]

end Signed

def messageHeader (server : AcmeServer) (path : String) (jwk : Option Jwk) (kid : Option String)
    (nonce : String) : ProtectedHeader :=
  { alg := "EdDSA", nonce, url := server.baseUrl ++ path, jwk, kid }

def messageCall (server : AcmeServer) (key : Ed25519.SigningKey) (path : String) (jwk : Option Jwk)
    (kid : Option String) (payload : Option Value) (nonce : String) : HttpCall where
  method := .post
  url := server.baseUrl ++ path
  contentType := some "application/jose+json"
  body := (sign (messageHeader server path jwk kid nonce) payload key).toValue.text

theorem spentBy_messageCall (spent : List String) :
    spentBy (messageCall server key path jwk kid payload nonce) spent = nonce :: spent := by
  have isPost : (messageCall server key path jwk kid payload nonce).method = .post := rfl
  have spends : messageNonce (messageCall server key path jwk kid payload nonce).body = some nonce :=
    sign_nonce sides
  rw [spentBy, if_pos isPost, spends]
  rfl

end

section
variable [X509.CertificateLibrary] [Library]

abbrev AcmeServer.answer (server : AcmeServer) (s : State) (e : Event) : Response × State :=
  server.handleRequest s e.request e.draws e.now

/-- A call to the server is served there, with random bytes that mint no spent nonce again. -/
inductive Exchange (server : AcmeServer) (call : HttpCall) (w : World) : HttpAnswer call → World → Prop where
  | served (e : Event) (method : e.request.method = call.method) (body : e.request.body = .ok call.body)
      (place : call.url = server.baseUrl ++ e.request.path) (fresh : e.nonce ∉ spentBy call w.spent) :
      Exchange server call w (.ok (server.answer w.server e).1)
        { server := (server.answer w.server e).2
          spent := spentBy call w.spent
          held := ((server.answer w.server e).1.header "Replay-Nonce").or w.held }

/-- The others send requests to the server. -/
def Others (server : AcmeServer) (key : Ed25519.VerifyingKey) (w after : World) : Prop :=
  after.spent = w.spent ∧ after.held = w.held ∧ ∃ events,
    Transition.Run (Transition.Guarded (Foreign server key w.spent w.held) server.Step) w.server events
      after.server

theorem others_refl {server : AcmeServer} {key : Ed25519.VerifyingKey} (w : World) : Others server key w w :=
  ⟨rfl, rfl, [], .refl _⟩

abbrev Flow (server : AcmeServer) (key : Ed25519.VerifyingKey) (call : HttpCall) (w : World)
    (answer : HttpAnswer call) (after : World) : Prop :=
  Among (Others server key) (Exchange server) call w answer after

/-- The client's program succeeds, whatever the others do. -/
abbrev Succeeds {α : Type} (server : AcmeServer) (key : Ed25519.SigningKey) (P : AcmeClient → World → Prop)
    (p : ClientM α) (Q : α → AcmeClient → World → Prop) : Prop :=
  Ensures (Flow server (Ed25519.verifyingKey key)) P p Q

section
variable {server : AcmeServer} {s : State} {e : Event} {env : Envelope} {header : ProtectedHeader}

theorem directory_answered (method : e.request.method = .get) (path : e.request.path = "/directory") :
    server.answer s e = (jsonResponse 200 server.directory [], s) := by
  simp [AcmeServer.answer, AcmeServer.handleRequest, AcmeServer.route, method, path]

theorem newNonce_answered (method : e.request.method = .head) (path : e.request.path = "/new-nonce") :
    server.answer s e =
      ({ status := 200, body := "", headers := [("Replay-Nonce", e.nonce), ("Cache-Control", "no-store")] },
        s.mintNonce e.nonce) := by
  simp [AcmeServer.answer, AcmeServer.handleRequest, AcmeServer.route, method, path, Event.nonce]

variable (posted : Posted s e env header)
include posted

theorem account_answered {jwk : Jwk} (path : e.request.path = "/new-account")
    (given : header.jwk = some jwk) (checked : AcmeServer.checkJwk env jwk = .ok ()) :
    server.answer s e =
      (jsonResponse 201 (.object [("status", .string Status.valid.text)])
        [("Location", server.accountUrl e), ("Replay-Nonce", e.nonce)],
        s.renewed header e { s with accountJwks := s.accountJwks.insert (server.accountUrl e) jwk }) := by
  have route : server.route s e.request e.draws e.now =
      server.handleNewAccount s e.draws e.request.body := by
    simp [AcmeServer.route, posted.method, path]
  rw [AcmeServer.answer, AcmeServer.handleRequest, route, AcmeServer.handleNewAccount, posted.read]
  simp only [posted.parsed, given, consumeNonce_unused posted.unused, checked]
  rfl

def AcmeServer.openedOrder (server : AcmeServer) (e : Event) (identifier : Identifier) : Order where
  status := .pending
  identifiers := [identifier]
  authorizations := [server.baseUrl ++ "/authz/" ++ e.authzId]
  finalize := server.finalizeUrl e
  certificate := none

theorem order_answered {ident : Identifier} (path : e.request.path = "/new-order")
    (ordered : AcmeServer.orderedIdentifier s env header = .ok ident) :
    server.answer s e =
      (jsonResponse 201 (server.openedOrder e ident).toValue
        [("Location", server.baseUrl ++ "/order/" ++ e.orderId), ("Replay-Nonce", e.nonce)],
        s.renewed header e (s.opened ident (header.kid.getD "") e.orderId e.authzId e.challId
          (b64uEncode e.draws.token) (server.finalizeUrl e))) := by
  have ordered' : AcmeServer.orderedIdentifier
      { s with nonces := s.nonces.filter (· ≠ header.nonce) } env header = .ok ident := ordered
  have route : server.route s e.request e.draws e.now = server.handleNewOrder s e.draws e.request.body := by
    simp [AcmeServer.route, posted.method, path]
  rw [AcmeServer.answer, AcmeServer.handleRequest, route, AcmeServer.handleNewOrder, withNonce_posted posted]
  simp only [ordered']
  rfl

theorem authz_answered {az : AuthzState} (path : Text.startsWith "/authz/" e.request.path = true)
    (verified : verifyAccount s env header = true)
    (found : s.authzs.lookup (idIn "/authz/" e.request.path) = some az)
    (own : az.accountUrl = header.kid.getD "") :
    server.answer s e =
      (jsonResponse 200 (Authorization.toValue
        { status := az.status, identifier := az.identifier
          challenges := (az.challengeIds.filterMap s.challenges.lookup).map fun ch =>
            server.challengeView ch ch.status }) [("Replay-Nonce", e.nonce)], s.renewed header e s) := by
  have verified' : verifyAccount { s with nonces := s.nonces.filter (· ≠ header.nonce) } env header = true :=
    verified
  have route : server.route s e.request e.draws e.now =
      server.handleAuthz s e.draws e.request.path e.request.body := by
    simp [AcmeServer.route, posted.method, (resource_apart path (by decide)).1, path]
  rw [AcmeServer.answer, AcmeServer.handleRequest, route, AcmeServer.handleAuthz, withNonce_posted posted]
  simp only [verified', found, own, ne_eq, not_true_eq_false, if_false, Bool.true_eq_false]
  rfl

theorem challenge_answered {ch : ChallengeState} {key : Ed25519.VerifyingKey} {payload : Option String}
    (path : Text.startsWith "/chall/" e.request.path = true)
    (answered : AcmeServer.answeredChallenge s env header e.request.path = .ok (ch, key, payload))
    (checked : AcmeServer.checkAgent ch key payload = .ok ()) :
    server.answer s e =
      (jsonResponse 200 (server.challengeView ch .valid).toValue [("Replay-Nonce", e.nonce)],
        s.renewed header e (s.answered ch)) := by
  have answered' : AcmeServer.answeredChallenge { s with nonces := s.nonces.filter (· ≠ header.nonce) }
      env header e.request.path = .ok (ch, key, payload) := answered
  have route : server.route s e.request e.draws e.now =
      server.handleChallenge s e.draws e.request.path e.request.body := by
    obtain ⟨words, others⟩ := resource_apart path (by decide)
    simp [AcmeServer.route, posted.method, words, others, path]
  rw [AcmeServer.answer, AcmeServer.handleRequest, route, AcmeServer.handleChallenge, withNonce_posted posted]
  simp only [answered', checked]
  rfl

theorem finalize_answered {os : OrderState} {leaf : X509.Certificate}
    (path : Text.startsWith "/finalize/" e.request.path = true)
    (issued : server.issued s env header (idIn "/finalize/" e.request.path) e.draws.serial e.now =
      .ok (os, leaf)) :
    server.answer s e =
      (jsonResponse 200 (server.orderView
        { os with status := .valid, certificateUrl := some (server.certUrl e) }).toValue
        [("Replay-Nonce", e.nonce)],
        s.renewed header e (s.certified (idIn "/finalize/" e.request.path) e.certId (server.certUrl e)
          (Library.pem leaf.der ++ Library.pem server.opts.caRootCert.der))) := by
  have issued' : server.issued { s with nonces := s.nonces.filter (· ≠ header.nonce) } env header
      (idIn "/finalize/" e.request.path) e.draws.serial e.now = .ok (os, leaf) := issued
  rw [AcmeServer.answer, AcmeServer.handleRequest, route_finalize posted.method path, AcmeServer.handleFinalize,
    withNonce_posted posted]
  simp only [issued']
  rfl

theorem cert_answered {pem : String} (path : Text.startsWith "/cert/" e.request.path = true)
    (verified : verifyAccount s env header = true)
    (found : s.certs.lookup (idIn "/cert/" e.request.path) = some pem) :
    server.answer s e =
      ({ status := 200, body := pem
         headers := [("Content-Type", "application/pem-certificate-chain"), ("Replay-Nonce", e.nonce)] },
        s.renewed header e s) := by
  have verified' : verifyAccount { s with nonces := s.nonces.filter (· ≠ header.nonce) } env header = true :=
    verified
  have route : server.route s e.request e.draws e.now =
      AcmeServer.handleCert s e.draws e.request.path e.request.body := by
    obtain ⟨words, others⟩ := resource_apart path (by decide)
    simp [AcmeServer.route, posted.method, words, others, path]
  rw [AcmeServer.answer, AcmeServer.handleRequest, route, AcmeServer.handleCert, withNonce_posted posted]
  simp only [verified', found, if_false, Bool.true_eq_false]
  rfl

end

theorem captureNonce_ensures {response : Response} :
    Succeeds server key (Answered server key account facts response)
      (AcmeClient.captureNonce response) fun _ => Holds server key account facts := by
  refine .of_fact (∃ nonce, response.header "Replay-Nonce" = some nonce) ?_ ?_
  · intro client w answered
    obtain ⟨nonce, same, -⟩ := answered.held
    exact ⟨nonce, answered.given.trans same⟩
  · rintro ⟨nonce, given⟩
    unfold AcmeClient.captureNonce
    rw [given]
    apply Ensures.modify
    intro client w answered
    obtain ⟨old, rfl⟩ := answered.client
    refine ⟨?_, answered.held, answered.clean, answered.facts⟩
    rw [← answered.given, given]
    rfl

/-- Every call to the server can be served. -/
theorem exchange_possible {call : HttpCall} {path : String} (place : call.url = server.baseUrl ++ path)
    (w : World) : ∃ answer after, Exchange server call w answer after := by
  obtain ⟨bytes, fresh⟩ := exists_unused (spentBy call w.spent)
  let e : Event := {
    request := { method := call.method, path, body := .ok call.body }
    draws := { nonce := bytes, accountId := [], orderId := [], authzId := [], challId := [], token := []
               serial := [], certId := [] }
    now := 0 }
  exact ⟨_, _, .served e rfl rfl place fresh⟩

/-- A message is answered with success, the next nonce and what is then given. -/
def Replies (server : AcmeServer) (key : Ed25519.SigningKey) (path : String) (jwk : Option Jwk)
    (kid : Option String) (payload : Option Value) (facts : State → Prop)
    (given : Response → State → Prop) : Prop :=
  ∀ (s : State) (e : Event) (header : ProtectedHeader), facts s → header.jwk = jwk → header.kid = kid →
    Posted s e (sign header payload key) header → e.request.path = path →
    ∃ response after, server.answer s e = (response, s.renewed header e after) ∧
      response.isSuccess = true ∧ response.header "Replay-Nonce" = some e.nonce ∧
      ∀ nonces, given response { after with nonces }

theorem Others.clean {w after : World} (others : Others server (Ed25519.verifyingKey key) w after)
    (mine : publicKeyFromJwk (ownJwk key) = .ok (Ed25519.verifyingKey key)) (clean : Clean w.spent w.server) :
    Clean after.spent after.server := by
  obtain ⟨spent, -, events, run⟩ := others
  rw [spent]
  exact (undisturbed_of_run clean mine run).2

theorem stable_clean (sides : publicKeyFromJwk (ownJwk key) = .ok (Ed25519.verifyingKey key))
    (is : AcmeClient) : Stable (Others server (Ed25519.verifyingKey key)) fun client w =>
      client = is ∧ Clean w.spent w.server :=
  fun _ _ _ holds others => ⟨holds.1, others.clean sides holds.2⟩

theorem issued_ok {s : State} {env : Envelope} {header : ProtectedHeader} {id : String} {os : OrderState}
    {raw : Key32} {serial : Bytes} {now : Instant} {leaf : X509.Certificate}
    (ready : AcmeServer.readyOrder s env header id = .ok os)
    (requested : AcmeServer.requestedKey env os.identifier = .ok raw)
    (issues : X509.issueLeaf (server.leafOptions os.identifier raw serial now) = .ok leaf) :
    server.issued s env header id serial now = .ok (os, leaf) := by
  simp only [AcmeServer.issued, ready, requested, issues, Except.mapError, bind, Except.bind]
  rfl

/-- The text is the chain of a certificate that the server has issued for the identifier and the client's
key. -/
def Certifies (server : AcmeServer) (key : Ed25519.SigningKey) (nid pem : String) : Prop :=
  ∃ serial now leaf, X509.issueLeaf (server.leafOptions ⟨"nid", nid⟩
      (Ed25519.asBytes (Ed25519.verifyingKey key)) serial now) = .ok leaf ∧
    pem = Library.pem leaf.der ++ Library.pem server.opts.caRootCert.der

structure Stored (server : AcmeServer) (key : Ed25519.SigningKey) (url nid certId : String) (s : State) :
    Prop where
  account : Registered key url s
  cert : ∃ pem, s.certs.lookup certId = some pem ∧ Certifies server key nid pem

theorem Stored.steady (url nid certId : String) : Steady key (Stored server key url nid certId) := by
  rintro held s t stored others
  obtain ⟨pem, found, certifies⟩ := stored.cert
  exact ⟨others.accounts stored.account, pem, others.certs found, certifies⟩

variable [ClientLibrary]

section Stages
variable (sides : Interoperates)
include sides

theorem Holds.stable (steady : Steady key facts) :
    Stable (Others server (Ed25519.verifyingKey key)) (Holds server key account facts) := by
  rintro client w after holds ⟨spent, held, events, run⟩
  obtain ⟨undisturbed, clean⟩ := undisturbed_of_run holds.clean (ownJwk_key sides) run
  obtain ⟨nonce, same, unused⟩ := holds.held
  refine ⟨?_, ⟨nonce, held.trans same, undisturbed.held nonce same unused⟩, ?_, ?_⟩
  · rw [held]
    exact holds.client
  · rw [spent]
    exact clean
  · exact steady _ _ _ holds.facts undisturbed

section Message
variable {path : String} {jwk : Option Jwk} {kid : Option String} {payload : Option Value}
  {given : Response → State → Prop} {client : AcmeClient} {w : World} {nonce : String}

theorem Exchange.answered
    (replies : Replies server key path jwk kid payload facts given)
    (holds : Holds server key account facts client w) (held : w.held = some nonce)
    {answer : HttpAnswer (messageCall server key path jwk kid payload nonce)} {after : World}
    (exchange : Exchange server (messageCall server key path jwk kid payload nonce) w answer after) :
    ∃ response, answer = .ok response ∧ response.isSuccess = true ∧
      Answered server key account (given response) response client after := by
  obtain ⟨e, method, body, place, fresh⟩ := exchange
  obtain ⟨other, isHeld, unused⟩ := holds.held
  cases isHeld.symm.trans held
  rw [spentBy_messageCall sides] at fresh
  have posted : Posted w.server e (sign (messageHeader server path jwk kid nonce) payload key)
      (messageHeader server path jwk kid nonce) := by
    refine ⟨method, ?_, sign_parsed sides, unused⟩
    rw [body]
    exact sign_read sides
  have there : e.request.path = path := ((String.append_right_inj _).mp place).symm
  obtain ⟨response, changed, handled, success, next, facts'⟩ :=
    replies w.server e _ holds.facts rfl rfl posted there
  rw [spentBy_messageCall sides, handled]
  refine ⟨response, rfl, success, ?_⟩
  rw [next]
  exact {
    client := ⟨w.held, holds.client⟩
    given := next
    held := ⟨e.nonce, rfl, mem_mintNonce.mpr (.inl rfl)⟩
    clean := clean_renewed (messageHeader server path jwk kid nonce) holds.clean fresh
    facts := facts' _ }

/-- A signed message is answered, whatever the others have done before it. -/
theorem postSigned_ensures (steady : Steady key facts) (label : String)
    (replies : Replies server key path jwk kid payload facts given) :
    Succeeds server key (Ready server key account nonce facts)
      (AcmeClient.postSigned nonce label (server.baseUrl ++ path) jwk kid payload)
      fun response => Answered server key account (given response) response := by
  refine .of_run (q := send (messageCall server key path jwk kid payload nonce) >>= fun sent => do
    let response ← context ("POST " ++ (server.baseUrl ++ path)) sent
    AcmeClient.checkStatus label response
    return response) _ (fun client w ready => ready.client_eq) rfl ?_
  refine Ensures.bind (Q := fun answer client w => ∃ response, (answer = .ok response ∧
    response.isSuccess = true) ∧ Answered server key account (given response) response client w)
    (.ask others_refl ?_ (fun _ w _ => exchange_possible rfl w) ?_) fun sent => .of_exists fun response => ?_
  · intro client w after ready others
    exact ⟨others.2.1.trans ready.1, Holds.stable sides steady client w after ready.2 others⟩
  · intro client w answer after ready exchange
    obtain ⟨response, same, success, answered⟩ := exchange.answered sides replies ready.2 ready.1
    exact ⟨response, ⟨same, success⟩, answered⟩
  · refine .of_fact (sent = .ok response ∧ response.isSuccess = true) (fun _ _ holds => holds.1) ?_
    rintro ⟨rfl, success⟩
    rw [context_ok, pure_then, AcmeClient.checkStatus, if_pos success, pure_then]
    exact .pure fun _ _ holds => holds.2

theorem posts_ensures {α : Type} {p : ClientM α} {rest : Response → ClientM α} {Q : α → AcmeClient → World → Prop}
    (steady : Steady key facts) (label : String)
    (replies : Replies server key path jwk kid payload facts given)
    (starts : ∀ nonce, p.run (known server key account (some nonce)) =
      (AcmeClient.postSigned nonce label (server.baseUrl ++ path) jwk kid payload >>= rest).run
        (known server key account (some nonce)))
    (goes : ∀ response, Succeeds server key
      (Answered server key account (given response) response) (rest response) Q) :
    Succeeds server key (Holds server key account facts) p Q := by
  refine named_ensures fun nonce => .of_run _ (fun client w ready => ready.client_eq) (starts nonce) ?_
  exact (postSigned_ensures sides steady label replies).bind goes

theorem captures_ensures {ι α : Type} {p : ClientM α} {rest : Response → ClientM α}
    {Q : α → AcmeClient → World → Prop} {tells : ι → Response → Prop} {after : ι → State → Prop}
    (steady : Steady key facts) (label : String)
    (replies : Replies server key path jwk kid payload facts fun response s => ∃ i, tells i response ∧ after i s)
    (starts : ∀ nonce, p.run (known server key account (some nonce)) =
      (AcmeClient.postSigned nonce label (server.baseUrl ++ path) jwk kid payload >>= fun response => do
        AcmeClient.captureNonce response
        rest response).run (known server key account (some nonce)))
    (goes : ∀ i response, tells i response → Succeeds server key
      (Holds server key account (after i)) (rest response) Q) :
    Succeeds server key (Holds server key account facts) p Q := by
  refine posts_ensures sides steady label replies starts fun response => captureNonce_ensures.bind fun _ => ?_
  have each (i : ι) : Succeeds server key
      (fun client w => tells i response ∧ Holds server key account (after i) client w) (rest response) Q :=
    .of_fact (tells i response) (fun client w holds => holds.1) fun told =>
      (goes i response told).mono (fun client w holds => holds.2) fun _ _ _ holds => holds
  refine (Ensures.of_exists each).mono (fun client w holds => ?_) fun _ _ _ holds => holds
  obtain ⟨i, told, facts⟩ := holds.facts
  exact ⟨i, told, holds.client, holds.held, holds.clean, facts⟩

end Message

def Unused (server : AcmeServer) (key : Ed25519.SigningKey) (client : AcmeClient) (w : World) : Prop :=
  client = AcmeClient.new (server.baseUrl ++ "/directory") key ∧ Clean w.spent w.server

/-- The client with the directory and without a nonce. -/
def Listed (server : AcmeServer) (key : Ed25519.SigningKey) (client : AcmeClient) (w : World) : Prop :=
  client = known server key none none ∧ Clean w.spent w.server

theorem refreshNonce_ensures :
    Succeeds server key (Listed server key) AcmeClient.refreshNonce
      fun _ => Holds server key none fun _ => True := by
  refine .of_run (q := send { method := .head, url := server.baseUrl ++ "/new-nonce" } >>= fun sent => do
    let response ← context "HEAD newNonce" sent
    let nonce ← okOrMessage "server omitted Replay-Nonce" (response.header "Replay-Nonce")
    modify fun client => { client with lastNonce := some nonce })
    _ (fun client w holds => holds.1) (by unfold AcmeClient.refreshNonce; rfl) ?_
  refine Ensures.bind (Q := fun answer client w => ∃ response nonce, (answer = .ok response ∧
    response.header "Replay-Nonce" = some nonce) ∧ Holds server key none (fun _ => True)
      { client with lastNonce := some nonce } w)
    (.ask others_refl (stable_clean (ownJwk_key sides) _) (fun _ w _ => exchange_possible rfl w) ?_)
    fun sent => .of_exists fun response => .of_exists fun nonce => ?_
  · rintro own w answer after ⟨rfl, clean⟩ ⟨e, method, body, place, fresh⟩
    have path : e.request.path = "/new-nonce" := ((String.append_right_inj _).mp place).symm
    rw [newNonce_answered method path]
    have next : Response.header { status := 200, body := "", headers :=
        [("Replay-Nonce", e.nonce), ("Cache-Control", "no-store")] } "Replay-Nonce" = some e.nonce :=
      header_self (b64uEncode_visible _)
    refine ⟨_, e.nonce, ⟨rfl, next⟩, ?_⟩
    dsimp only
    rw [next]
    refine ⟨rfl, ⟨e.nonce, rfl, mem_mintNonce.mpr (.inl rfl)⟩, fun nonce used there => ?_, trivial⟩
    rcases mem_mintNonce.mp there with rfl | old
    · exact fresh used
    · exact clean nonce used old
  · refine .of_fact (sent = .ok response ∧ response.header "Replay-Nonce" = some nonce)
      (fun own w holds => holds.1) ?_
    rintro ⟨rfl, next⟩
    rw [context_ok, pure_then, next, okOrMessage_some, pure_then]
    exact .modify fun own w holds => holds.2

theorem ensureDirectory_ensures :
    Succeeds server key (Unused server key) AcmeClient.ensureDirectory
      fun _ => Holds server key none fun _ => True := by
  refine .of_run (q := send { method := .get, url := server.baseUrl ++ "/directory" } >>= fun sent => do
    let response ← context "get directory" sent
    AcmeClient.checkStatus "get directory" response
    let directory ← context "decode directory" (ClientLibrary.directory response.body)
    modify fun client => { client with directory := some directory }
    AcmeClient.refreshNonce) _ (fun client w holds => holds.1) (by unfold AcmeClient.ensureDirectory; rfl) ?_
  refine Ensures.bind (Q := fun answer client w =>
      answer = .ok (jsonResponse 200 server.directory []) ∧ Unused server key client w)
    (.ask others_refl (stable_clean (ownJwk_key sides) _) (fun _ w _ => exchange_possible rfl w) ?_)
    fun sent => .of_fact _ (fun own w holds => holds.1) ?_
  · rintro own w answer after ⟨rfl, clean⟩ ⟨e, method, body, place, fresh⟩
    have path : e.request.path = "/directory" := ((String.append_right_inj _).mp place).symm
    rw [directory_answered method path]
    exact ⟨rfl, rfl, clean⟩
  · rintro rfl
    change Succeeds server key _ (context "decode directory" (ClientLibrary.directory server.directory.text) >>= _) _
    rw [sides.directory, context_ok, pure_then]
    refine Ensures.bind (Q := fun _ => Listed server key) (.modify ?_) fun _ => refreshNonce_ensures sides
    rintro own w ⟨-, rfl, clean⟩
    exact ⟨rfl, clean⟩

def Welcomed (key : Ed25519.SigningKey) (response : Response) (s : State) : Prop :=
  ∃ url, response.header "Location" = some url ∧ Registered key url s

theorem newAccount_replies (plain : server.baseUrl.toList.all visible = true) :
    Replies server key "/new-account" (some (ownJwk key)) none (some newAccountPayload) (fun _ => True)
      (Welcomed key) := by
  intro s e header _ jwk _ posted path
  have checked : AcmeServer.checkJwk (sign header (some newAccountPayload) key) (ownJwk key) = .ok () :=
    checkJwk_ok (ownJwk_key sides) (sign_verified sides)
  have next {url : String} {value : Value} : (jsonResponse 201 value
      [("Location", url), ("Replay-Nonce", e.nonce)]).header "Replay-Nonce" = some e.nonce :=
    (header_cons (by decide)).trans ((header_cons (by decide)).trans (header_self (b64uEncode_visible _)))
  refine ⟨_, _, account_answered posted path jwk checked, rfl, next,
    fun nonces => ⟨server.accountUrl e, ?_, AList.lookup_insert _⟩⟩
  have shown : (server.accountUrl e).toList.all visible = true := by
    have word : "/account/".toList.all visible = true := by decide
    rw [AcmeServer.accountUrl, String.toList_append, String.toList_append, List.all_append, List.all_append,
      plain, word, b64uEncode_visible]
    rfl
  exact (header_cons (by decide)).trans (header_self shown)

theorem newAccount_ensures (plain : server.baseUrl.toList.all visible = true) :
    Succeeds server key (Holds server key none fun _ => True)
      AcmeClient.newAccount fun _ client w =>
        ∃ url, Holds server key (some url) (Registered key url) client w := by
  refine posts_ensures (p := AcmeClient.newAccount) sides (fun _ _ _ _ _ => trivial) "newAccount"
    (newAccount_replies sides plain) (fun _ => rfl) fun response => ?_
  refine .of_fact (∃ url, response.header "Location" = some url)
    (fun own w answered => ⟨_, answered.facts.choose_spec.1⟩) ?_
  rintro ⟨url, named⟩
  rw [named, okOrMessage_some, pure_then]
  refine captureNonce_ensures.bind fun _ => .modify fun own w holds => ⟨url, ?_, holds.held, holds.clean, ?_⟩
  · rw [holds.client]
    rfl
  · obtain ⟨other, same, registered⟩ := holds.facts
    cases same.symm.trans named
    exact registered

variable (url nid : String) (e : Event)

theorem newOrder_replies :
    Replies server key "/new-order" none (some url) (some (newOrderPayload [⟨"nid", nid⟩]))
      (Registered key url) fun response s => ∃ e,
        response.body = (server.openedOrder e ⟨"nid", nid⟩).toValue.text ∧ Placed key url nid e s := by
  intro s e header registered _ kid posted path
  have ordered : AcmeServer.orderedIdentifier s
      (sign header (some (newOrderPayload [⟨"nid", nid⟩])) key) header = .ok ⟨"nid", nid⟩ :=
    orderedIdentifier_ok (sign_account sides registered kid) (sign_payload (sides.newOrder _))
  have next {order : String} {value : Value} : (jsonResponse 201 value
      [("Location", order), ("Replay-Nonce", e.nonce)]).header "Replay-Nonce" = some e.nonce :=
    (header_cons (by decide)).trans ((header_cons (by decide)).trans (header_self (b64uEncode_visible _)))
  have own : header.kid.getD "" = url := by rw [kid]; rfl
  refine ⟨_, _, order_answered posted path ordered, rfl, next, fun nonces => ⟨e, rfl, ?_⟩⟩
  rw [own]
  exact ⟨registered, ⟨_, AList.lookup_insert _, rfl, rfl, rfl⟩, ⟨_, AList.lookup_insert _⟩,
    ⟨_, AList.lookup_insert _⟩⟩

theorem newOrder_ensures :
    Succeeds server key (Holds server key (some url) (Registered key url))
      (AcmeClient.newOrder nid) fun order client w => ∃ e,
        order = ⟨[server.baseUrl ++ "/authz/" ++ e.authzId], server.finalizeUrl e, none⟩ ∧
        Holds server key (some url) (Placed key url nid e) client w := by
  refine captures_ensures (p := AcmeClient.newOrder nid) sides (Registered.steady url) "newOrder"
    (newOrder_replies sides url nid) (fun _ => rfl) fun e response body => ?_
  rw [body, sides.order, context_ok]
  exact .pure fun client w holds => ⟨e, rfl, holds⟩

def offered (server : AcmeServer) (e : Event) : ChallengeMessage :=
  ⟨"agent-01", server.baseUrl ++ ("/chall/" ++ e.challId), b64uEncode e.draws.token⟩

theorem fetchAuthz_replies :
    Replies server key ("/authz/" ++ e.authzId) none (some url) none (Placed key url nid e) fun response s =>
      ∃ authz : Authorization, (response.body = authz.toValue.text ∧
        (authz.challenges.map fun challenge => ChallengeMessage.mk challenge.type challenge.url challenge.token) =
          [offered server e]) ∧ Placed key url nid e s := by
  intro s event header placed _ kid posted path
  obtain ⟨status, authz⟩ := placed.authz
  obtain ⟨status', challenge⟩ := placed.challenge
  have begins : Text.startsWith "/authz/" event.request.path = true := path ▸ startsWith_append _ _
  have found : s.authzs.lookup (idIn "/authz/" event.request.path) = some
      { identifier := ⟨"nid", nid⟩, status, challengeIds := [e.challId], accountUrl := url } := by
    rw [path, Event.authzId, idIn_append rfl]
    exact authz
  have own : url = header.kid.getD "" := by rw [kid]; rfl
  refine ⟨_, _, authz_answered posted begins (sign_account sides placed.account kid) found own, rfl,
    next_self _ _, fun nonces => ⟨_, ⟨rfl, ?_⟩, (Placed.steady url nid e).nonces placed nonces⟩⟩
  simp [challenge, offered, ordered, AcmeServer.challengeView, String.append_assoc]

theorem fetchAuthz_ensures :
    Succeeds server key (Holds server key (some url) (Placed key url nid e))
      (AcmeClient.fetchAuthz (server.baseUrl ++ "/authz/" ++ e.authzId)) fun authz client w =>
        authz = ⟨[offered server e]⟩ ∧ Holds server key (some url) (Placed key url nid e) client w := by
  rw [String.append_assoc]
  refine captures_ensures (p := AcmeClient.fetchAuthz _) sides (Placed.steady url nid e) "fetch authz"
    (fetchAuthz_replies sides url nid e) (fun _ => rfl) fun authz response told => ?_
  rw [told.1, sides.authorization, context_ok, told.2]
  exact .pure fun client w holds => ⟨rfl, holds⟩

def agentSignature (key : Ed25519.SigningKey) (e : Event) : String :=
  b64uEncode (Ed25519.sign key (Text.utf8 (b64uEncode e.draws.token))).val

theorem respondAgent01_replies :
    Replies server key ("/chall/" ++ e.challId) none (some url)
      (some (challengeRespondPayload (agentSignature key e))) (Placed key url nid e)
      fun _ => Due key url nid e := by
  intro s event header placed _ kid posted path
  obtain ⟨os, order, identifier, authzId, own⟩ := placed.order
  obtain ⟨status, challenge⟩ := placed.challenge
  have begins : Text.startsWith "/chall/" event.request.path = true := path ▸ startsWith_append _ _
  have named : header.kid.getD "" = url := by rw [kid]; rfl
  have answered : AcmeServer.answeredChallenge s
      (sign header (some (challengeRespondPayload (agentSignature key e))) key) header event.request.path =
        .ok (ordered url e status, Ed25519.verifyingKey key, some (agentSignature key e)) := by
    refine answeredChallenge_ok (named ▸ placed.account) (ownJwk_key sides) (sign_verified sides) ?_ named.symm
      (sign_payload (sides.challengeRespond _))
    rw [path, Event.challId, idIn_append rfl]
    exact challenge
  have checked : AcmeServer.checkAgent (ordered url e status) (Ed25519.verifyingKey key)
      (some (agentSignature key e)) = .ok () :=
    checkAgent_ok _ rfl (sides.verify key _)
  refine ⟨_, _, challenge_answered posted begins answered checked, rfl, next_self _ _, fun nonces =>
    ⟨placed.account, { os with status := .ready }, ?_, identifier, own, rfl⟩⟩
  simp only [State.answered, AList.lookup_mapValues, order, Option.map_some, ordered, authzId, if_true]

theorem respondAgent01_ensures :
    Succeeds server key (Holds server key (some url) (Placed key url nid e))
      (AcmeClient.respondAgent01 ⟨[offered server e]⟩) fun _ =>
        Holds server key (some url) (Due key url nid e) :=
  posts_ensures sides (Placed.steady url nid e) "challenge" (respondAgent01_replies sides url nid e)
    (fun _ => rfl) fun _ => captureNonce_ensures

/-- The server can issue a certificate for the identifier and the client's key, and the client can ask
for it. -/
structure Certifiable (server : AcmeServer) (key : Ed25519.SigningKey) (nid : String) : Prop where
  requests : ∃ der, AcmeClient.buildCsr key nid = .ok der
  issues : ∀ serial now, ∃ leaf, X509.issueLeaf (server.leafOptions ⟨"nid", nid⟩
    (Ed25519.asBytes (Ed25519.verifyingKey key)) serial now) = .ok leaf

theorem finalizeOrder_replies {der : Bytes}
    (built : AcmeClient.buildCsr key nid = .ok der) (certifiable : Certifiable server key nid) :
    Replies server key ("/finalize/" ++ e.orderId) none (some url) (some (finalizePayload (b64uEncode der)))
      (Due key url nid e) fun response s => ∃ given : Order × Event,
        (response.body = given.1.toValue.text ∧ given.1.certificate = some (server.certUrl given.2)) ∧
        Stored server key url nid given.2.certId s := by
  intro s event header due _ kid posted path
  obtain ⟨os, order, identifier, own, ready⟩ := due.order
  obtain ⟨leaf, issues⟩ := certifiable.issues event.draws.serial event.now
  obtain ⟨filled, reads⟩ := sides.csr _ key der (buildCsr_spec built)
  have begins : Text.startsWith "/finalize/" event.request.path = true := path ▸ startsWith_append _ _
  have place : idIn "/finalize/" event.request.path = e.orderId := by rw [path, Event.orderId, idIn_append rfl]
  have named : header.kid.getD "" = url := by rw [kid]; rfl
  have requested : AcmeServer.requestedKey (sign header (some (finalizePayload (b64uEncode der))) key)
      os.identifier = .ok (Ed25519.asBytes (Ed25519.verifyingKey key)) := by
    refine requestedKey_ok (sign_payload (sides.finalize _)) filled reads ?_ (Signer.sized_self _)
      (sides.point key)
    rw [identifier]
  have found : AcmeServer.readyOrder s (sign header (some (finalizePayload (b64uEncode der))) key) header
      (idIn "/finalize/" event.request.path) = .ok os := by
    rw [place]
    exact readyOrder_ok (sign_account sides due.account kid) order (own.trans named.symm) ready
  refine ⟨_, _, finalize_answered posted begins (issued_ok found requested (identifier ▸ issues)), rfl,
    next_self _ _, fun nonces => ⟨(_, event), ⟨rfl, rfl⟩, due.account, _, AList.lookup_insert _, ?_⟩⟩
  exact ⟨_, _, _, issues, rfl⟩

theorem finalizeOrder_ensures (others : List String)
    (certificate : Option String) (certifiable : Certifiable server key nid) :
    Succeeds server key (Holds server key (some url) (Due key url nid e))
      (AcmeClient.finalizeOrder ⟨others, server.finalizeUrl e, certificate⟩ nid) fun order client w =>
        ∃ event : Event, order.certificate = some (server.certUrl event) ∧
          Holds server key (some url) (Stored server key url nid event.certId) client w := by
  obtain ⟨der, built⟩ := certifiable.requests
  have place : server.finalizeUrl e = server.baseUrl ++ ("/finalize/" ++ e.orderId) :=
    String.append_assoc
  rw [place]
  have starts (nonce : String) : (AcmeClient.finalizeOrder
      ⟨others, server.baseUrl ++ ("/finalize/" ++ e.orderId), certificate⟩ nid).run
        (known server key (some url) (some nonce)) =
      (AcmeClient.postSigned nonce "finalize" (server.baseUrl ++ ("/finalize/" ++ e.orderId)) none (some url)
        (some (finalizePayload (b64uEncode der))) >>= fun response => do
          AcmeClient.captureNonce response
          context "decode finalized order" (ClientLibrary.order response.body)).run
        (known server key (some url) (some nonce)) := by
    change ((do
        let csrDer ← orMessage (AcmeClient.buildCsr key nid)
        let nonce ← AcmeClient.consumeLastNonce
        let response ← AcmeClient.postSigned nonce "finalize" _ none (← get).accountUrl
          (some (finalizePayload (b64uEncode csrDer)))
        AcmeClient.captureNonce response
        context "decode finalized order" (ClientLibrary.order response.body)) : ClientM OrderMessage).run
          (known server key (some url) (some nonce)) = _
    rw [built]
    rfl
  refine captures_ensures sides (Due.steady url nid e) "finalize"
    (finalizeOrder_replies sides url nid e built certifiable) starts fun given response told => ?_
  rw [told.1, sides.order, context_ok]
  exact .pure fun client w holds => ⟨given.2, told.2, holds⟩

theorem downloadPem_replies (certId : String) (bytes : Bytes)
    (encoded : certId = b64uEncode bytes) :
    Replies server key ("/cert/" ++ certId) none (some url) none (Stored server key url nid certId)
      fun response s => ∃ pem, (response.body = pem ∧ Certifies server key nid pem) ∧ Registered key url s := by
  intro s event header stored _ kid posted path
  obtain ⟨pem, found, certifies⟩ := stored.cert
  have begins : Text.startsWith "/cert/" event.request.path = true := path ▸ startsWith_append _ _
  have found' : s.certs.lookup (idIn "/cert/" event.request.path) = some pem := by
    rw [path, encoded, idIn_append rfl, ← encoded]
    exact found
  exact ⟨_, _, cert_answered posted begins (sign_account sides stored.account kid) found', rfl,
    (header_cons (by decide)).trans (header_self (b64uEncode_visible _)),
    fun nonces => ⟨pem, ⟨rfl, certifies⟩, stored.account⟩⟩

theorem downloadPem_ensures :
    Succeeds server key
      (Holds server key (some url) (Stored server key url nid e.certId))
      (AcmeClient.downloadPem (server.certUrl e)) fun pem client w =>
        Certifies server key nid pem ∧ Holds server key (some url) (Registered key url) client w := by
  rw [AcmeServer.certUrl, String.append_assoc]
  refine captures_ensures (p := AcmeClient.downloadPem _) sides (Stored.steady url nid e.certId) "download cert"
    (downloadPem_replies sides url nid e.certId _ rfl) (fun _ => rfl) fun pem response told => ?_
  rw [told.1]
  exact .pure fun client w holds => ⟨told.2, holds⟩

/-- What is left of the flow once there is an account. -/
theorem certificate_ensures (certifiable : Certifiable server key nid) :
    Succeeds server key (Holds server key (some url) (Registered key url))
      (do
        let order ← AcmeClient.newOrder nid
        let authz ← AcmeClient.fetchAuthz (← unwrap order.authorizations.head?)
        AcmeClient.respondAgent01 authz
        let finalized ← AcmeClient.finalizeOrder order nid
        let certUrl ← okOrMessage "finalized order has no certificate URL" finalized.certificate
        AcmeClient.downloadPem certUrl)
      fun pem client w =>
        Certifies server key nid pem ∧ Holds server key (some url) (Registered key url) client w := by
  refine (newOrder_ensures sides url nid).bind fun order => .of_exists fun e => ?_
  refine .of_fact (order = _) (fun client w holds => holds.1) ?_
  rintro rfl
  change Ensures _ _ (AcmeClient.fetchAuthz (server.baseUrl ++ "/authz/" ++ e.authzId) >>= _) _
  refine (fetchAuthz_ensures sides url nid e).also.bind fun authz => ?_
  refine .of_fact (authz = _) (fun client w holds => holds.1) ?_
  rintro rfl
  refine (respondAgent01_ensures sides url nid e).also.bind fun _ => ?_
  refine (finalizeOrder_ensures sides url nid e _ _ certifiable).bind fun finalized => .of_exists fun event => ?_
  refine .of_fact (finalized.certificate = some (server.certUrl event)) (fun client w holds => holds.1) ?_
  intro named
  rw [named, okOrMessage_some, pure_then]
  exact (downloadPem_ensures sides url nid event).also

/-- Between two certificates: the client has made no call yet, or has an account. -/
def Between (server : AcmeServer) (key : Ed25519.SigningKey) (client : AcmeClient) (w : World) : Prop :=
  Unused server key client w ∨ ∃ url, Holds server key (some url) (Registered key url) client w

theorem issueAgentCert_ensures (plain : server.baseUrl.toList.all visible = true)
    (nid : String) (certifiable : Certifiable server key nid) :
    Succeeds server key (Between server key) (AcmeClient.issueAgentCert nid)
      fun pem client w => Certifies server key nid pem ∧ Between server key client w := by
  have later (url : String) := (certificate_ensures sides url nid certifiable).mono (fun _ _ holds => holds)
    fun pem client w holds => (⟨holds.1, .inr ⟨url, holds.2⟩⟩ :
      Certifies server key nid pem ∧ Between server key client w)
  refine .cases ?_ (.of_exists fun url => named_ensures fun nonce => ?_)
  · refine Ensures.bind (ensureDirectory_ensures sides) fun _ => named_ensures fun nonce => ?_
    refine .of_run (q := AcmeClient.newAccount >>= fun _ => _) _ (fun client w ready => ready.client_eq) rfl ?_
    have account := (newAccount_ensures sides plain).mono
      (fun client w (ready : Ready server key none nonce (fun _ => True) client w) => ready.2)
      fun _ _ _ holds => holds
    exact account.bind fun _ => .of_exists later
  · have certificate := (later url).mono
      (fun client w (ready : Ready server key (some url) nonce (Registered key url) client w) => ready.2)
      fun _ _ _ holds => holds
    refine .of_run _ (fun client w ready => ready.client_eq) ?_ certificate
    rfl

end Stages

/-- Where the server can certify them, the client gets a certificate for each of the identifiers, whatever
the others ask of the server before and between its calls. -/
theorem acme_flow (sides : Interoperates) (plain : server.baseUrl.toList.all visible = true) {nids : List String}
    (certifiable : ∀ nid ∈ nids, Certifiable server key nid) :
    Succeeds server key (Unused server key)
      (Rely.rounds AcmeClient.issueAgentCert nids)
      fun pems _ _ => List.Forall₂ (Certifies server key) nids pems :=
  (Ensures.rounds fun nid among => issueAgentCert_ensures sides plain nid (certifiable nid among)).mono
    (fun _ _ unused => .inl unused) fun _ _ _ holds => holds.1

end
end

namespace Enrolment

def keyBytes : Bytes := Sample.spelled 32 0xb659c218c831dc15769758018678a1b059c7e1f23acb54747933094a564dcf80

def key : Key32 := ⟨keyBytes, Sample.spelled_length 32 _⟩

def nid : String := "urn:nps:agent:example.com:a"

def csr : Bytes :=
  Sample.spelled 42 0x3081df30819202010030263124302206035504030c1b75726e3a6e70733a6167656e743a6578616d706c ++
  Sample.spelled 42 0x652e636f6d3a61302a300506032b6570032100b659c218c831dc15769758018678a1b059c7e1f23acb54 ++
  Sample.spelled 42 0x747933094a564dcf80a039303706092a864886f70d01090e312a302830260603551d11041f301d861b75 ++
  Sample.spelled 42 0x726e3a6e70733a6167656e743a6578616d706c652e636f6d3a61300506032b65700341005c27ab8d4687 ++
  Sample.spelled 42 0xd2e3027c55ec357ab58d3ccf6e9563b749f66b900c9839aec8638441e52d44cade632cd71c18bebbd6b8 ++
  Sample.spelled 16 0xec1d8ce242c77cb164e93e5e1860ed0e

noncomputable def reads {α : Type} (read : Value → Option α) (bytes : Bytes) : Except String α :=
  Sample.known ((Function.partialInv (Text.utf8 ∘ Value.text) bytes).bind read)

theorem reads_text {α : Type} {read : Value → Option α} {value : Value} {a : α} (same : read value = some a) :
    reads read (Text.utf8 value.text) = .ok a := by
  have injective : Function.Injective (Text.utf8 ∘ Value.text) :=
    fun _ _ written => Value.text_injective (Text.utf8_injective written)
  have found := Function.partialInv_left injective value
  rw [Function.comp_apply] at found
  rw [reads, found, Option.bind_some, same, Sample.known]

def text (name : String) (value : Value) : Option String := do (get name (← value.asObject)).bind Value.asStr

def items {α : Type} (name : String) (read : Value → Option α) (value : Value) : Option (List α) := do
  let values ← (get name (← value.asObject)).bind Value.asArray
  values.mapM read

def jwkOf (value : Value) : Option Jwk := return ⟨← text "kty" value, ← text "crv" value, ← text "x" value⟩

def headerOf (value : Value) : Option ProtectedHeader := do
  let jwk := (get "jwk" (← value.asObject)).bind jwkOf
  return { alg := ← text "alg" value, nonce := ← text "nonce" value, url := ← text "url" value, jwk
           kid := text "kid" value }

def envelopeOf (value : Value) : Option Envelope :=
  return ⟨← text "protected" value, ← text "payload" value, ← text "signature" value⟩

def identifierOf (value : Value) : Option Identifier := return ⟨← text "type" value, ← text "value" value⟩

def directoryOf (value : Value) : Option Directory :=
  return ⟨← text "newNonce" value, ← text "newAccount" value, ← text "newOrder" value⟩

def orderOf (value : Value) : Option OrderMessage :=
  return ⟨← items "authorizations" Value.asStr value, ← text "finalize" value, text "certificate" value⟩

def challengeOf (value : Value) : Option ChallengeMessage :=
  return ⟨← text "type" value, ← text "url" value, ← text "token" value⟩

def authorizationOf (value : Value) : Option AuthorizationMessage :=
  return ⟨← items "challenges" challengeOf value⟩

def signed (message : Bytes) : Option Signature64 := some ⟨message.takeD 64 0, List.takeD_length 64 message 0⟩

scoped instance ed25519 : Ed25519 := .table key signed

scoped instance certificates : X509.CertificateLibrary where
  checkUri _ := .ok ()
  selfSigned _ _ := .ok [0x30, 0x00]
  signedBy _ _ _ _ := .ok [0x30, 0x00]

noncomputable scoped instance library : Library where
  envelope body := reads envelopeOf (Text.utf8 body)
  header := reads headerOf
  newOrder := reads (items "identifiers" identifierOf)
  challengeRespond := reads (text "agent_signature")
  finalize := reads (text "csr")
  csr der := if der = csr then .ok { commonName := some nid, publicKey := keyBytes }
    else .error "malformed certificate request"
  pem der := "-----BEGIN CERTIFICATE-----\n" ++ Base64.encode .standard .canonical der ++
    "\n-----END CERTIFICATE-----\n"

noncomputable scoped instance clientLibrary : ClientLibrary where
  directory body := reads directoryOf (Text.utf8 body)
  order body := reads orderOf (Text.utf8 body)
  authorization body := reads authorizationOf (Text.utf8 body)
  keyPair _ := .ok ()
  checkNames _ := .ok ()
  checkUri _ := .ok ()
  serializeRequest params _ := if params.commonName = nid then .ok csr else .error "not requested here"
  displayStatus status := toString status

def server : AcmeServer where
  baseUrl := "http://127.0.0.1:8080"
  opts := { caSigningKey := (), caRootCert := ⟨X509.rootParams
    { caNid := "urn:nps:org:example.com", caSigningKey := (), notBefore := 0, notAfter := 0
      serialNumber := [1] },
    [0x30, 0x00]⟩, certValidity := Duration.seconds 2592000 }

theorem mapM_map {α β γ : Type} (write : α → β) (read : β → Option γ) (see : α → γ)
    (reads : ∀ a, read (write a) = some (see a)) (values : List α) :
    (values.map write).mapM read = some (values.map see) := by
  induction values with
  | nil => rfl
  | cons a rest ih => simp [List.mapM_cons, reads, ih]

attribute [local simp] text items Value.asObject Value.asArray Value.asStr Json.get skipNone

theorem jwkOf_toValue (jwk : Jwk) : jwkOf jwk.toValue = some jwk := by simp [jwkOf, Jwk.toValue]

theorem headerOf_toValue (header : ProtectedHeader) : headerOf header.toValue = some header := by
  rcases header with ⟨alg, nonce, url, _ | jwk, _ | kid⟩ <;>
    simp [headerOf, ProtectedHeader.toValue, jwkOf_toValue]

theorem orderOf_toValue (order : Order) :
    orderOf order.toValue = some ⟨order.authorizations, order.finalize, order.certificate⟩ := by
  obtain ⟨status, identifiers, authorizations, finalize, certificate⟩ := order
  have read := mapM_map Value.string Value.asStr id (fun _ => rfl) authorizations
  rw [List.map_id] at read
  cases certificate <;> simp [orderOf, Order.toValue, stringArray, read]

theorem csr_ne_nil : csr ≠ [] := by
  intro empty
  have size := congrArg List.length empty
  simp only [csr, List.length_append, Sample.spelled_length] at size
  cases size

theorem interoperates : Interoperates where
  envelope env := reads_text (by simp [envelopeOf, Envelope.toValue])
  header header := reads_text (headerOf_toValue header)
  newOrder identifiers := by
    have read := mapM_map Identifier.toValue identifierOf id
      (fun identifier => by simp [identifierOf, Identifier.toValue]) identifiers
    rw [List.map_id] at read
    exact reads_text (by simp [newOrderPayload, read])
  challengeRespond signature := reads_text rfl
  finalize csr := reads_text (by simp [finalizePayload])
  csr params signingKey der requested := by
    by_cases mine : params.commonName = nid
    · have same : csr = der := Except.ok.inj ((if_pos mine).symm.trans requested)
      refine same ▸ ⟨csr_ne_nil, ?_⟩
      rw [mine]
      exact if_pos rfl
    · cases (if_neg mine).symm.trans requested
  directory server := reads_text (by simp [directoryOf, AcmeServer.directory])
  order order := reads_text (orderOf_toValue order)
  authorization authz := by
    have read := mapM_map Challenge.toValue challengeOf
      (fun challenge => ⟨challenge.type, challenge.url, challenge.token⟩)
      (fun challenge => by simp [challengeOf, Challenge.toValue]) authz.challenges
    exact reads_text (by simp [authorizationOf, Authorization.toValue, read])
  verify signingKey message := decide_eq_true ⟨rfl, rfl⟩
  point _ := rfl

theorem certifiable : Certifiable server () nid where
  requests := ⟨csr, rfl⟩
  issues _ _ := ⟨_, rfl⟩

end Enrolment

open Enrolment Interaction in
/-- The agent gets two certificates, one after the other. -/
theorem acme_flow_enrolled : ∃ client after pems,
    Runs (Flow server (Ed25519.verifyingKey ())) ((Rely.rounds AcmeClient.issueAgentCert [nid, nid]).run
      (AcmeClient.new "http://127.0.0.1:8080/directory" ())) { server := {} } (.ok pems, client) after ∧
    List.Forall₂ (Certifies server ()) [nid, nid] pems := by
  have flows : Succeeds server () (Unused server ())
      (Rely.rounds AcmeClient.issueAgentCert [nid, nid])
      fun pems _ _ => List.Forall₂ (Certifies server ()) [nid, nid] pems :=
    acme_flow interoperates (by decide) fun other among => by
      have same : other = nid := by simpa using among
      exact same ▸ certifiable
  have unused : Unused server () (AcmeClient.new "http://127.0.0.1:8080/directory" ()) { server := {} } :=
    ⟨rfl, fun nonce used => absurd used List.not_mem_nil⟩
  obtain ⟨⟨result, client⟩, after, run⟩ := flows.runs _ _ unused
  obtain ⟨pems, same, certified⟩ := flows.succeeds _ _ _ _ unused run
  cases same
  exact ⟨client, after, pems, run, certified⟩

end Nps.Nip.Acme
