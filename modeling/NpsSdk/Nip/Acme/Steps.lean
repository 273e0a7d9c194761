import NpsSdk.Nip.Acme.Server

/-! What one request can do to the state of the ACME server. -/
namespace Nps.Nip.Acme
open Wire (Bytes)

structure Event where
  request : Request
  draws : Draws
  now : Instant

def messageStarts : List String := ["/authz/", "/chall/", "/finalize/", "/cert/", "/order/"]

def messagePath (path : String) : Bool :=
  path = "/new-account" || path = "/new-order" || messageStarts.any fun start => Text.startsWith start path

/-- The message comes to a handler that checks the nonce first. -/
structure Routes (e : Event) : Prop where
  message : messagePath e.request.path = true
  other : e.request.path ≠ "/new-account"

theorem routes_order {e : Event} (path : e.request.path = "/new-order") : Routes e where
  message := by simp [messagePath, path]
  other := by simp [path]

theorem routes_start {e : Event} {start : String} (known : start ∈ messageStarts)
    (path : Text.startsWith start e.request.path = true) : Routes e where
  message := by
    have some : (messageStarts.any fun start => Text.startsWith start e.request.path) = true :=
      List.any_eq_true.mpr ⟨start, known, path⟩
    simp [messagePath, some]
  other := by
    intro same
    have apart : ∀ start ∈ messageStarts, Text.startsWith start "/new-account" = false := by
      decide +kernel
    rw [same, apart start known] at path
    cases path

section
variable [Ed25519] [X509.CertificateLibrary] [Library] (server : AcmeServer)

def AcmeServer.Step (s : State) (e : Event) (t : State) : Prop :=
  (server.handleRequest s e.request e.draws e.now).2 = t

namespace Event
variable (e : Event)

def nonce : String := b64uEncode e.draws.nonce
def orderId : String := b64uEncode e.draws.orderId
def authzId : String := b64uEncode e.draws.authzId
def challId : String := b64uEncode e.draws.challId
def certId : String := b64uEncode e.draws.certId

end Event

def AcmeServer.accountUrl (e : Event) : String := server.baseUrl ++ "/account/" ++ b64uEncode e.draws.accountId
def AcmeServer.finalizeUrl (e : Event) : String := server.baseUrl ++ "/finalize/" ++ e.orderId
def AcmeServer.certUrl (e : Event) : String := server.baseUrl ++ "/cert/" ++ e.certId

structure Posted (s : State) (e : Event) (env : Envelope) (header : ProtectedHeader) : Prop where
  method : e.request.method = .post
  read : readEnvelope e.request.body = .ok env
  parsed : parseHeader env = .ok header
  unused : header.nonce ∈ s.nonces

/-- The message passes the check of its nonce, which comes first but for the key of a new account. -/
structure Checked (s : State) (e : Event) (env : Envelope) (header : ProtectedHeader) : Prop where
  posted : Posted s e env header
  routed : messagePath e.request.path = true
  keyed : e.request.path = "/new-account" → header.jwk.isSome = true

def SignedBy (s : State) (env : Envelope) (header : ProtectedHeader) (account : String) (jwk : Jwk) : Prop :=
  header.kid.getD "" = account ∧ s.accountJwks.lookup account = some jwk ∧
    ∃ key verified, publicKeyFromJwk jwk = .ok key ∧ verify env key = .ok verified

def Orders (s : State) (e : Event) (account : String) (jwk : Jwk) (identifier : Identifier) : Prop :=
  ∃ env header, Posted s e env header ∧ SignedBy s env header account jwk ∧
    e.request.path = "/new-order" ∧ AcmeServer.orderedIdentifier s env header = .ok identifier

def Answers (s : State) (e : Event) (account : String) (jwk : Jwk) (ch : ChallengeState) : Prop :=
  ∃ env header key payload, Posted s e env header ∧ SignedBy s env header account jwk ∧
    publicKeyFromJwk jwk = .ok key ∧
    Text.startsWith "/chall/" e.request.path = true ∧ ch.accountUrl = account ∧
    AcmeServer.answeredChallenge s env header e.request.path = .ok (ch, key, payload) ∧
    AcmeServer.checkAgent ch key payload = .ok ()

def Issues (s : State) (e : Event) (id : String) (os : OrderState) (leaf : X509.Certificate) : Prop :=
  ∃ env header jwk, Posted s e env header ∧ SignedBy s env header os.accountUrl jwk ∧
    Text.startsWith "/finalize/" e.request.path = true ∧ id = idIn "/finalize/" e.request.path ∧
    server.issued s env header id e.draws.serial e.now = .ok (os, leaf)

inductive Effect (s : State) (e : Event) : State → Prop where
  | idle : Effect s e s
  | account {jwk : Jwk} :
      Effect s e { s with accountJwks := s.accountJwks.insert (server.accountUrl e) jwk }
  | ordered {account : String} {jwk : Jwk} {identifier : Identifier}
      (orders : Orders s e account jwk identifier) :
      Effect s e (s.opened identifier account e.orderId e.authzId e.challId (b64uEncode e.draws.token)
        (server.finalizeUrl e))
  | invalidated {id : String} : Effect s e (s.markChallengeInvalid id)
  | answered {account : String} {jwk : Jwk} {ch : ChallengeState} (answers : Answers s e account jwk ch) :
      Effect s e (s.answered ch)
  | certified {id : String} {os : OrderState} {leaf : X509.Certificate}
      (issues : Issues server s e id os leaf) :
      Effect s e (s.certified id e.certId (server.certUrl e)
        (Library.pem leaf.der ++ Library.pem server.opts.caRootCert.der))

structure Applied (s : State) (e : Event) (t : State) : Prop where
  effect : ∃ after, Effect server s e after ∧ t = { after with nonces := t.nonces }
  minted : ∀ nonce ∈ t.nonces, nonce ∈ s.nonces ∨ nonce = e.nonce

/-- A message has its effect. One that is accepted has passed the check of its nonce, and one that
has passed it has spent it. -/
structure Handled (s : State) (e : Event) (served : Served) : Prop where
  applied : Applied server s e served.2
  accepted : ∀ response, served.1 = .ok response → ∃ env header, Checked s e env header
  spends : ∀ env header, Checked s e env header → header.nonce ∈ served.2.nonces → header.nonce = e.nonce

/-- What is left when a nonce has been spent. -/
def Serves (s : State) (e : Event) (nonces : List String) (t : State) : Prop :=
  ∃ after, Effect server s e after ∧
    (t = { after with nonces } ∨ t = { after with nonces }.mintNonce e.nonce)

variable {server} {s t : State} {e : Event}

omit [X509.CertificateLibrary] [Library] [Ed25519] in
theorem mem_mintNonce {nonce new : String} :
    nonce ∈ (s.mintNonce new).nonces ↔ nonce = new ∨ nonce ∈ s.nonces := by
  by_cases same : nonce = new <;> simp [State.mintNonce, same]

theorem applied_refl : Applied server s e s where
  effect := ⟨s, .idle, rfl⟩
  minted _ there := .inl there

theorem applied_mint : Applied server s e (s.mintNonce e.nonce) where
  effect := ⟨s, .idle, rfl⟩
  minted _ there := (mem_mintNonce.mp there).symm

theorem Serves.applied {spent : String} (serves : Serves server s e (s.nonces.filter (· ≠ spent)) t) :
    Applied server s e t := by
  obtain ⟨after, effect, left⟩ := serves
  refine ⟨⟨after, effect, ?_⟩, fun nonce there => ?_⟩
  · rcases left with rfl | rfl <;> rfl
  · rcases left with rfl | rfl
    · exact .inl (List.mem_of_mem_filter there)
    · rcases mem_mintNonce.mp there with new | old
      · exact .inr new
      · exact .inl (List.mem_of_mem_filter old)

theorem handled_error {problem : Problem} (unchecked : ∀ env header, ¬ Checked s e env header) :
    Handled server s e (.error problem, s) where
  applied := applied_refl
  accepted _ served := nomatch served
  spends env header checked := absurd checked (unchecked env header)

omit [Ed25519] [X509.CertificateLibrary] in
theorem unchecked_unread {problem : Problem} (read : readEnvelope e.request.body = .error problem)
    (env : Envelope) (header : ProtectedHeader) : ¬ Checked s e env header := by
  intro checked
  cases read.symm.trans checked.posted.read

omit [Ed25519] [X509.CertificateLibrary] in
theorem Checked.header_eq {env env' : Envelope} {header : ProtectedHeader}
    (checked : Checked s e env' header) (read : readEnvelope e.request.body = .ok env) :
    parseHeader env = .ok header := by
  cases read.symm.trans checked.posted.read
  exact checked.posted.parsed

theorem Serves.handled {env : Envelope} {header : ProtectedHeader} (checked : Checked s e env header)
    {served : Served} (serves : Serves server s e (s.nonces.filter (· ≠ header.nonce)) served.2) :
    Handled server s e served := by
  refine ⟨serves.applied, fun response _ => ⟨env, header, checked⟩, fun env' header' again there => ?_⟩
  cases checked.posted.parsed.symm.trans (again.header_eq checked.posted.read)
  have gone : header.nonce ∉ s.nonces.filter (· ≠ header.nonce) := by simp
  obtain ⟨after, effect, left | left⟩ := serves
  · rw [left] at there
    exact absurd there gone
  · rw [left] at there
    exact (mem_mintNonce.mp there).resolve_right gone

theorem withNonce_handled {serve : State → Envelope → ProtectedHeader → Served}
    (method : e.request.method = .post) (routes : Routes e)
    (serves : ∀ env header, Posted s e env header →
      Serves server s e (s.nonces.filter (· ≠ header.nonce))
        (serve { s with nonces := s.nonces.filter (· ≠ header.nonce) } env header).2) :
    Handled server s e (withNonce s e.request.body serve) := by
  unfold withNonce
  cases read : readEnvelope e.request.body with
  | error problem => exact handled_error (unchecked_unread read)
  | ok env =>
    cases parsed : parseHeader env with
    | error problem =>
      simp only [parsed]
      exact handled_error fun env' header checked => by cases parsed.symm.trans (checked.header_eq read)
    | ok header =>
      by_cases unused : header.nonce ∈ s.nonces
      · have posted : Posted s e env header := ⟨method, read, parsed, unused⟩
        simp only [parsed, State.consumeNonce, if_pos unused]
        exact (serves env header posted).handled
          ⟨posted, routes.message, fun same => absurd same routes.other⟩
      · simp only [parsed, State.consumeNonce, if_neg unused]
        refine handled_error fun env' header' checked => ?_
        cases parsed.symm.trans (checked.header_eq read)
        exact unused checked.posted.unused

/-- A refusal, or a response that changes nothing but the nonces. -/
theorem idle_serves {nonces : List String} : Serves server s e nonces { s with nonces } :=
  ⟨s, .idle, .inl rfl⟩

theorem idle_mints {nonces : List String} :
    Serves server s e nonces ({ s with nonces }.mintNonce e.nonce) :=
  ⟨s, .idle, .inr rfl⟩

theorem handleNewAccount_handled (method : e.request.method = .post)
    (path : e.request.path = "/new-account") :
    Handled server s e (server.handleNewAccount s e.draws e.request.body) := by
  unfold AcmeServer.handleNewAccount
  cases read : readEnvelope e.request.body with
  | error problem => exact handled_error (unchecked_unread read)
  | ok env =>
    cases parsed : parseHeader env with
    | error problem =>
      simp only [parsed]
      exact handled_error fun env' header checked => by cases parsed.symm.trans (checked.header_eq read)
    | ok header =>
      cases given : header.jwk with
      | none =>
        simp only [parsed, given]
        refine handled_error fun env' header' checked => ?_
        cases parsed.symm.trans (checked.header_eq read)
        have keyed := checked.keyed path
        rw [given] at keyed
        cases keyed
      | some jwk =>
        by_cases unused : header.nonce ∈ s.nonces
        · simp only [parsed, given, State.consumeNonce, if_pos unused]
          have checked : Checked s e env header :=
            ⟨⟨method, read, parsed, unused⟩, by simp [messagePath, path], fun _ => by rw [given]; rfl⟩
          refine Serves.handled checked ?_
          cases AcmeServer.checkJwk env jwk with
          | error problem => exact idle_serves
          | ok => exact ⟨_, .account, .inr rfl⟩
        · simp only [parsed, given, State.consumeNonce, if_neg unused]
          refine handled_error fun env' header' checked => ?_
          cases parsed.symm.trans (checked.header_eq read)
          exact unused checked.posted.unused

omit [X509.CertificateLibrary] in
theorem signedBy_of_verifyAccount {env : Envelope} {header : ProtectedHeader}
    (verified : verifyAccount s env header = true) :
    ∃ jwk, SignedBy s env header (header.kid.getD "") jwk := by
  unfold verifyAccount at verified
  cases named : header.kid with
  | none => simp [named] at verified
  | some kid =>
    cases known : s.accountJwks.lookup kid with
    | none => simp [named, known] at verified
    | some jwk =>
      cases key : publicKeyFromJwk jwk with
      | error message => simp [named, known, key, Except.toOption] at verified
      | ok key' =>
        cases checked : verify env key' with
        | error message => simp [named, known, key, checked, Except.toOption] at verified
        | ok header' =>
          exact ⟨jwk, named ▸ rfl, known, key', header', key, checked⟩

theorem handleNewOrder_handled (method : e.request.method = .post) (path : e.request.path = "/new-order") :
    Handled server s e (server.handleNewOrder s e.draws e.request.body) := by
  refine withNonce_handled method (routes_order path) fun env header posted => ?_
  cases read : AcmeServer.orderedIdentifier s env header with
  | error problem =>
    have read' : AcmeServer.orderedIdentifier
        { s with nonces := s.nonces.filter (· ≠ header.nonce) } env header = .error problem := read
    simp only [read']
    exact idle_serves
  | ok ident =>
    have read' : AcmeServer.orderedIdentifier
        { s with nonces := s.nonces.filter (· ≠ header.nonce) } env header = .ok ident := read
    simp only [read']
    have verified : verifyAccount s env header = true := by
      unfold AcmeServer.orderedIdentifier at read
      split at read
      · cases read
      · rename_i passed
        exact Bool.eq_true_of_not_eq_false passed
    obtain ⟨jwk, signed⟩ := signedBy_of_verifyAccount verified
    exact ⟨_, .ordered ⟨env, header, posted, signed, path, read⟩, .inr rfl⟩

theorem handleAuthz_handled (method : e.request.method = .post)
    (path : Text.startsWith "/authz/" e.request.path = true) :
    Handled server s e (server.handleAuthz s e.draws e.request.path e.request.body) := by
  refine withNonce_handled method (routes_start (by simp [messageStarts]) path) fun env header posted => ?_
  dsimp only
  split
  · exact idle_serves
  · split
    · exact idle_serves
    · split
      · exact idle_serves
      · exact idle_mints

theorem handleCert_handled (method : e.request.method = .post)
    (path : Text.startsWith "/cert/" e.request.path = true) :
    Handled server s e (AcmeServer.handleCert s e.draws e.request.path e.request.body) := by
  refine withNonce_handled method (routes_start (by simp [messageStarts]) path) fun env header posted => ?_
  dsimp only
  split
  · exact idle_serves
  · split
    · exact idle_serves
    · exact idle_mints

theorem handleOrder_handled (method : e.request.method = .post)
    (path : Text.startsWith "/order/" e.request.path = true) :
    Handled server s e (server.handleOrder s e.draws e.request.path e.request.body) := by
  refine withNonce_handled method (routes_start (by simp [messageStarts]) path) fun env header posted => ?_
  dsimp only
  split
  · exact idle_serves
  · split
    · exact idle_serves
    · split
      · exact idle_serves
      · exact idle_mints

omit [X509.CertificateLibrary] in
theorem answeredChallenge_spec {env : Envelope} {header : ProtectedHeader} {path : String}
    {ch : ChallengeState} {key : Ed25519.VerifyingKey} {payload : Option String}
    (answered : AcmeServer.answeredChallenge s env header path = .ok (ch, key, payload)) :
    ∃ jwk, SignedBy s env header (header.kid.getD "") jwk ∧ publicKeyFromJwk jwk = .ok key ∧
      ch.accountUrl = header.kid.getD "" ∧ s.challenges.lookup (idIn "/chall/" path) = some ch := by
  unfold AcmeServer.answeredChallenge at answered
  split at answered
  · cases answered
  rename_i jwk known
  split at answered
  · cases answered
  rename_i key' read
  split at answered
  · cases answered
  rename_i verified checked
  split at answered
  · cases answered
  rename_i ch' found
  split at answered
  · cases answered
  rename_i own
  split at answered
  · cases answered
  cases answered
  exact ⟨jwk, ⟨rfl, known, key, verified, read, checked⟩, read, not_not.mp own, found⟩

theorem handleChallenge_handled (method : e.request.method = .post)
    (path : Text.startsWith "/chall/" e.request.path = true) :
    Handled server s e (server.handleChallenge s e.draws e.request.path e.request.body) := by
  refine withNonce_handled method (routes_start (by simp [messageStarts]) path) fun env header posted => ?_
  cases answered : AcmeServer.answeredChallenge s env header e.request.path with
  | error problem =>
    have answered' : AcmeServer.answeredChallenge { s with nonces := s.nonces.filter (· ≠ header.nonce) }
        env header e.request.path = .error problem := answered
    simp only [answered']
    exact idle_serves
  | ok given =>
    obtain ⟨ch, key, payload⟩ := given
    have answered' : AcmeServer.answeredChallenge { s with nonces := s.nonces.filter (· ≠ header.nonce) }
        env header e.request.path = .ok (ch, key, payload) := answered
    simp only [answered']
    cases checked : AcmeServer.checkAgent ch key payload with
    | error problem => exact ⟨_, .invalidated, .inl rfl⟩
    | ok =>
      obtain ⟨jwk, signed, read, own, -⟩ := answeredChallenge_spec answered
      exact ⟨_, .answered ⟨env, header, key, payload, posted, signed, read, path, own, answered, checked⟩,
        .inr rfl⟩

omit [X509.CertificateLibrary] in
theorem readyOrder_spec {env : Envelope} {header : ProtectedHeader} {id : String} {os : OrderState}
    (ready : AcmeServer.readyOrder s env header id = .ok os) :
    (∃ jwk, SignedBy s env header os.accountUrl jwk) ∧ s.orders.lookup id = some os ∧
      os.status = .ready := by
  unfold AcmeServer.readyOrder at ready
  split at ready
  · cases ready
  rename_i verified
  split at ready
  · cases ready
  rename_i os' found
  split at ready
  · cases ready
  rename_i own
  split at ready
  · cases ready
  rename_i status
  cases ready
  rw [not_not.mp own]
  exact ⟨signedBy_of_verifyAccount (Bool.eq_true_of_not_eq_false verified), found, not_not.mp status⟩

/-- A certificate is issued for an order that is ready, in the name of its identifier. -/
theorem issued_spec {env : Envelope} {header : ProtectedHeader} {id : String} {serial : Bytes}
    {now : Instant} {os : OrderState} {leaf : X509.Certificate}
    (issued : server.issued s env header id serial now = .ok (os, leaf)) :
    AcmeServer.readyOrder s env header id = .ok os ∧
      leaf.params.commonName = os.identifier.value := by
  unfold AcmeServer.issued at issued
  obtain ⟨ready, isReady, issued⟩ := Outcome.bind_ok.mp issued
  obtain ⟨raw, -, issued⟩ := Outcome.bind_ok.mp issued
  obtain ⟨leaf', signed, issued⟩ := Outcome.bind_ok.mp issued
  cases issued
  refine ⟨isReady, ?_⟩
  have made := Outcome.mapError_ok.mp signed
  unfold X509.issueLeaf at made
  obtain ⟨-, -, made⟩ := Outcome.bind_ok.mp made
  obtain ⟨der, -, made⟩ := Outcome.bind_ok.mp made
  cases made
  rfl

theorem handleFinalize_handled (method : e.request.method = .post)
    (path : Text.startsWith "/finalize/" e.request.path = true) :
    Handled server s e (server.handleFinalize s e.draws e.now e.request.path e.request.body) := by
  refine withNonce_handled method (routes_start (by simp [messageStarts]) path) fun env header posted => ?_
  dsimp only
  cases issued : server.issued s env header (idIn "/finalize/" e.request.path) e.draws.serial e.now with
  | error problem =>
    have issued' : server.issued { s with nonces := s.nonces.filter (· ≠ header.nonce) } env header
        (idIn "/finalize/" e.request.path) e.draws.serial e.now = .error problem := issued
    simp only [issued']
    exact idle_serves
  | ok given =>
    obtain ⟨os, leaf⟩ := given
    have issued' : server.issued { s with nonces := s.nonces.filter (· ≠ header.nonce) } env header
        (idIn "/finalize/" e.request.path) e.draws.serial e.now = .ok (os, leaf) := issued
    simp only [issued']
    obtain ⟨⟨jwk, signed⟩, -⟩ := readyOrder_spec (issued_spec issued).1
    exact ⟨_, .certified ⟨env, header, jwk, posted, signed, path, rfl, issued⟩, .inr rfl⟩

variable (server s e) in
/-- A request is a read of the directory, a request for a nonce or a message. -/
theorem route_handled : e.request.method = .get ∧ (server.route s e.request e.draws e.now).2 = s ∨
    e.request.path = "/new-nonce" ∧ (server.route s e.request e.draws e.now).2 = s.mintNonce e.nonce ∨
      Handled server s e (server.route s e.request e.draws e.now) := by
  unfold AcmeServer.route
  dsimp only
  split
  · rename_i directory
    exact .inl ⟨of_decide_eq_true (Bool.and_eq_true_iff.mp directory).1, rfl⟩
  split
  · rename_i new
    exact .inr (.inl ⟨new, rfl⟩)
  refine .inr (.inr ?_)
  split
  · rename_i account
    obtain ⟨method, path⟩ := Bool.and_eq_true_iff.mp account
    exact handleNewAccount_handled (of_decide_eq_true method) (of_decide_eq_true path)
  split
  · rename_i ordered
    obtain ⟨method, path⟩ := Bool.and_eq_true_iff.mp ordered
    exact handleNewOrder_handled (of_decide_eq_true method) (of_decide_eq_true path)
  split
  · rename_i authz
    obtain ⟨method, path⟩ := Bool.and_eq_true_iff.mp authz
    exact handleAuthz_handled (of_decide_eq_true method) path
  split
  · rename_i chall
    obtain ⟨method, path⟩ := Bool.and_eq_true_iff.mp chall
    exact handleChallenge_handled (of_decide_eq_true method) path
  split
  · rename_i finalize
    obtain ⟨method, path⟩ := Bool.and_eq_true_iff.mp finalize
    exact handleFinalize_handled (of_decide_eq_true method) path
  split
  · rename_i cert
    obtain ⟨method, path⟩ := Bool.and_eq_true_iff.mp cert
    exact handleCert_handled (of_decide_eq_true method) path
  split
  · rename_i order
    obtain ⟨method, path⟩ := Bool.and_eq_true_iff.mp order
    exact handleOrder_handled (of_decide_eq_true method) path
  · refine handled_error fun env header checked => ?_
    have routed := checked.routed
    have method := checked.posted.method
    simp_all [messagePath, messageStarts]

theorem handleRequest_route : (server.handleRequest s e.request e.draws e.now).2 =
    (server.route s e.request e.draws e.now).2 := by
  unfold AcmeServer.handleRequest
  generalize server.route s e.request e.draws e.now = result
  obtain ⟨response | problem, after⟩ := result <;> rfl

theorem applied_of_step (step : server.Step s e t) : Applied server s e t := by
  rw [← step, handleRequest_route]
  rcases route_handled server s e with ⟨-, same⟩ | ⟨-, minted⟩ | handled
  · rw [same]
    exact applied_refl
  · rw [minted]
    exact applied_mint
  · exact handled.applied

variable (server) in
def Accepted (s : State) (e : Event) : Prop :=
  e.request.method = .post ∧ e.request.path ≠ "/new-nonce" ∧
    ∃ response, (server.route s e.request e.draws e.now).1 = .ok response

theorem Accepted.checked (accepted : Accepted server s e) : ∃ env header, Checked s e env header := by
  obtain ⟨method, path, response, served⟩ := accepted
  rcases route_handled server s e with ⟨get, -⟩ | ⟨new, -⟩ | handled
  · cases method.symm.trans get
  · exact absurd new path
  · exact handled.accepted response served

theorem Checked.spends {env : Envelope} {header : ProtectedHeader} (checked : Checked s e env header)
    (step : server.Step s e t) (there : header.nonce ∈ t.nonces) : header.nonce = e.nonce := by
  rw [← step, handleRequest_route] at there
  rcases route_handled server s e with ⟨get, -⟩ | ⟨new, -⟩ | handled
  · cases checked.posted.method.symm.trans get
  · have routed := checked.routed
    rw [new] at routed
    exact absurd routed (by decide +kernel)
  · exact handled.spends env header checked there

omit [Ed25519] [X509.CertificateLibrary] [Library] in
@[simp] theorem b64uDecode_encode (bytes : Bytes) : b64uDecode (b64uEncode bytes) = .ok bytes := by
  rw [b64uDecode, b64uEncode, Base64.decode_encode]

omit [Ed25519] [X509.CertificateLibrary] [Library] in
theorem b64uEncode_injective {a b : Bytes} (same : b64uEncode a = b64uEncode b) : a = b := by
  have read := congrArg b64uDecode same
  rw [b64uDecode_encode, b64uDecode_encode] at read
  exact Except.ok.inj read

omit [Ed25519] [X509.CertificateLibrary] [Library] in
theorem b64uEncode_ne_empty {bytes : Bytes} (filled : bytes ≠ []) : b64uEncode bytes ≠ "" := by
  intro empty
  exact filled (b64uEncode_injective (empty.trans (show "" = b64uEncode [] from rfl)))

omit [X509.CertificateLibrary] [Library] in
theorem publicKeyFromJwk_encode (key : Key32) :
    publicKeyFromJwk ⟨"OKP", "Ed25519", b64uEncode key.val⟩ =
      (Ed25519.fromBytes key).mapError ("Ed25519 pubkey: " ++ ·) := by
  have plain : ¬ ("OKP" ≠ "OKP" ∨ "Ed25519" ≠ "Ed25519") := by simp
  have fits : Signer.sized 32 key.val = some key := Signer.sized_self key
  rw [publicKeyFromJwk, if_neg plain]
  simp only [b64uDecode_encode, fits]

omit [Ed25519] [X509.CertificateLibrary] in
theorem readEnvelope_ok {text : String} {env : Envelope} (read : Library.envelope text = .ok env) :
    readEnvelope (.ok text) = .ok env := by
  simp only [readEnvelope, Except.mapError, bind, Except.bind, read]

omit [Ed25519] [X509.CertificateLibrary] in
theorem parseHeader_ok {env : Envelope} {header : ProtectedHeader} {bytes : Bytes}
    (encoded : env.protectedHeader = b64uEncode bytes) (read : Library.header bytes = .ok header) :
    parseHeader env = .ok header := by
  simp only [parseHeader, encoded, b64uDecode_encode, Except.mapError, bind, Except.bind, read]

omit [X509.CertificateLibrary] in
theorem verify_ok {env : Envelope} {key : Ed25519.VerifyingKey} {header : ProtectedHeader} {bytes : Bytes}
    {signature : Signature64} (encoded : env.protectedHeader = b64uEncode bytes)
    (read : Library.header bytes = .ok header) (signed : env.signature = b64uEncode signature.1)
    (verified : Ed25519.verify key (signingInput env) signature = true) : verify env key = .ok header := by
  simp only [verify, encoded, signed, b64uDecode_encode, signatureFromSlice, Signer.sized_self, verifyMessage,
    verified, Except.mapError, bind, Except.bind, read, if_true]

omit [Ed25519] [X509.CertificateLibrary] [Library] in
theorem decodePayload_ok {α : Type} {read : Bytes → Except String α} {env : Envelope} {bytes : Bytes}
    {value : α} (encoded : env.payload = b64uEncode bytes) (filled : bytes ≠ [])
    (reads : read bytes = .ok value) :
    decodePayload read env = .ok (some value) := by
  simp only [decodePayload, encoded, if_neg (b64uEncode_ne_empty filled), b64uDecode_encode, reads,
    Except.mapError, bind, Except.bind]
  rfl

omit [X509.CertificateLibrary] in
theorem checkJwk_ok {env : Envelope} {jwk : Jwk} {key : Ed25519.VerifyingKey} {header : ProtectedHeader}
    (read : publicKeyFromJwk jwk = .ok key) (verified : verify env key = .ok header) :
    AcmeServer.checkJwk env jwk = .ok () := by
  simp only [AcmeServer.checkJwk, read, verified, Except.mapError, bind, Except.bind]
  rfl

omit [X509.CertificateLibrary] in
theorem orderedIdentifier_ok {env : Envelope} {header : ProtectedHeader} {ident : Identifier}
    {others : List Identifier} (verified : verifyAccount s env header = true)
    (payload : decodePayload Library.newOrder env = .ok (some (ident :: others))) :
    AcmeServer.orderedIdentifier s env header = .ok ident := by
  simp [AcmeServer.orderedIdentifier, verified, payload]

omit [X509.CertificateLibrary] [Library] in
theorem checkAgent_ok {ch : ChallengeState} {key : Ed25519.VerifyingKey} {encoded : String}
    (signature : Signature64) (signed : encoded = b64uEncode signature.1)
    (verified : Ed25519.verify key (Text.utf8 ch.token) signature = true) :
    AcmeServer.checkAgent ch key (some encoded) = .ok () := by
  subst signed
  have filled : (some (b64uEncode signature.1)).filter (· ≠ "") = some (b64uEncode signature.1) := by
    have some_ : b64uEncode signature.1 ≠ "" := b64uEncode_ne_empty (by
      intro empty
      have size := signature.2
      rw [empty] at size
      cases size)
    simp [some_]
  simp only [AcmeServer.checkAgent, filled, b64uDecode_encode, signatureFromSlice, Signer.sized_self,
    verifyMessage, verified, Except.mapError, bind, Except.bind, if_true]

omit [X509.CertificateLibrary] in
theorem requestedKey_ok {env : Envelope} {identifier : Identifier} {der : Bytes} {csr : Csr} {raw : Key32}
    {key : Ed25519.VerifyingKey} (payload : decodePayload Library.finalize env = .ok (some (b64uEncode der)))
    (filled : der ≠ []) (read : Library.csr der = .ok csr) (named : csr.commonName = some identifier.value)
    (fits : Signer.sized 32 csr.publicKey = some raw) (point : Ed25519.fromBytes raw = .ok key) :
    AcmeServer.requestedKey env identifier = .ok raw := by
  have given : (some (b64uEncode der)).filter (· ≠ "") = some (b64uEncode der) := by
    simp [b64uEncode_ne_empty filled]
  simp only [AcmeServer.requestedKey, payload, given, b64uDecode_encode, read, named, fits, point,
    Except.mapError, okOr, bind, Except.bind, ne_eq, not_true_eq_false, if_false]
  rfl

omit [Ed25519] [X509.CertificateLibrary] [Library] in
theorem consumeNonce_unused {nonce : String} (unused : nonce ∈ s.nonces) :
    s.consumeNonce nonce = some { s with nonces := s.nonces.filter (· ≠ nonce) } :=
  if_pos unused

omit [Ed25519] [X509.CertificateLibrary] in
theorem withNonce_posted {serve : State → Envelope → ProtectedHeader → Served} {env : Envelope}
    {header : ProtectedHeader} (posted : Posted s e env header) :
    withNonce s e.request.body serve =
      serve { s with nonces := s.nonces.filter (· ≠ header.nonce) } env header := by
  rw [withNonce, posted.read]
  simp only [posted.parsed, consumeNonce_unused posted.unused]

omit [Ed25519] [X509.CertificateLibrary] [Library] in
theorem startsWith_other (start other : String) {path : String} (begins : Text.startsWith start path = true)
    (apart : start.toList.isPrefixOf other.toList = false)
    (apart' : other.toList.isPrefixOf start.toList = false) : Text.startsWith other path = false := by
  by_contra also
  have first := List.isPrefixOf_iff_prefix.mp begins
  have second := List.isPrefixOf_iff_prefix.mp (Bool.eq_true_of_not_eq_false also)
  rcases List.prefix_or_prefix_of_prefix first second with within | within
  · rw [List.isPrefixOf_iff_prefix.mpr within] at apart
    cases apart
  · rw [List.isPrefixOf_iff_prefix.mpr within] at apart'
    cases apart'

theorem route_finalize (method : e.request.method = .post)
    (path : Text.startsWith "/finalize/" e.request.path = true) :
    server.route s e.request e.draws e.now =
      server.handleFinalize s e.draws e.now e.request.path e.request.body := by
  have other (text : String) (apart : Text.startsWith "/finalize/" text = false) :
      e.request.path ≠ text := by
    intro same
    rw [same, apart] at path
    cases path
  have authz : Text.startsWith "/authz/" e.request.path = false :=
    startsWith_other _ _ path (by decide) (by decide)
  have chall : Text.startsWith "/chall/" e.request.path = false :=
    startsWith_other _ _ path (by decide) (by decide)
  simp only [AcmeServer.route, method, other "/directory" (by decide), other "/new-nonce" (by decide),
    other "/new-account" (by decide), other "/new-order" (by decide), authz, chall, path, decide_false,
    decide_true, Bool.and_false, Bool.true_and, if_true, if_false, Bool.false_eq_true]

def State.renewed (s : State) (header : ProtectedHeader) (e : Event) (after : State) : State :=
  { after with nonces := s.nonces.filter (· ≠ header.nonce) }.mintNonce e.nonce

theorem finalize_serves {env : Envelope} {header : ProtectedHeader} {os : OrderState}
    {leaf : X509.Certificate} (posted : Posted s e env header)
    (path : Text.startsWith "/finalize/" e.request.path = true)
    (issued : server.issued s env header (idIn "/finalize/" e.request.path) e.draws.serial e.now =
      .ok (os, leaf)) :
    (server.handleRequest s e.request e.draws e.now).2 =
      s.renewed header e (s.certified (idIn "/finalize/" e.request.path) e.certId (server.certUrl e)
        (Library.pem leaf.der ++ Library.pem server.opts.caRootCert.der)) := by
  have issued' : server.issued { s with nonces := s.nonces.filter (· ≠ header.nonce) } env header
      (idIn "/finalize/" e.request.path) e.draws.serial e.now = .ok (os, leaf) := issued
  rw [AcmeServer.handleRequest, route_finalize posted.method path, AcmeServer.handleFinalize,
    withNonce_posted posted]
  simp only [issued']
  rfl

variable (server) in
theorem account_serves {env : Envelope} {header : ProtectedHeader} {jwk : Jwk} (posted : Posted s e env header)
    (path : e.request.path = "/new-account") (given : header.jwk = some jwk)
    (checked : AcmeServer.checkJwk env jwk = .ok ()) :
    (server.handleRequest s e.request e.draws e.now).2 =
      s.renewed header e { s with accountJwks := s.accountJwks.insert (server.accountUrl e) jwk } := by
  have route : server.route s e.request e.draws e.now =
      server.handleNewAccount s e.draws e.request.body := by
    simp [AcmeServer.route, posted.method, path]
  rw [AcmeServer.handleRequest, route, AcmeServer.handleNewAccount, posted.read]
  simp only [posted.parsed, given, consumeNonce_unused posted.unused, checked]
  rfl

theorem order_serves {env : Envelope} {header : ProtectedHeader} {ident : Identifier}
    (posted : Posted s e env header) (path : e.request.path = "/new-order")
    (ordered : AcmeServer.orderedIdentifier s env header = .ok ident) :
    (server.handleRequest s e.request e.draws e.now).2 =
      s.renewed header e (s.opened ident (header.kid.getD "") e.orderId e.authzId e.challId
        (b64uEncode e.draws.token) (server.finalizeUrl e)) := by
  have ordered' : AcmeServer.orderedIdentifier
      { s with nonces := s.nonces.filter (· ≠ header.nonce) } env header = .ok ident := ordered
  have route : server.route s e.request e.draws e.now = server.handleNewOrder s e.draws e.request.body := by
    simp [AcmeServer.route, posted.method, path]
  rw [AcmeServer.handleRequest, route, AcmeServer.handleNewOrder, withNonce_posted posted]
  simp only [ordered']
  rfl

theorem challenge_serves {env : Envelope} {header : ProtectedHeader} {ch : ChallengeState}
    {key : Ed25519.VerifyingKey} {payload : Option String} (posted : Posted s e env header)
    (path : Text.startsWith "/chall/" e.request.path = true)
    (answered : AcmeServer.answeredChallenge s env header e.request.path = .ok (ch, key, payload))
    (checked : AcmeServer.checkAgent ch key payload = .ok ()) :
    (server.handleRequest s e.request e.draws e.now).2 = s.renewed header e (s.answered ch) := by
  have answered' : AcmeServer.answeredChallenge { s with nonces := s.nonces.filter (· ≠ header.nonce) }
      env header e.request.path = .ok (ch, key, payload) := answered
  have other (text : String) (apart : Text.startsWith "/chall/" text = false) : e.request.path ≠ text := by
    intro same
    rw [same, apart] at path
    cases path
  have authz : Text.startsWith "/authz/" e.request.path = false :=
    startsWith_other _ _ path (by decide) (by decide)
  have route : server.route s e.request e.draws e.now =
      server.handleChallenge s e.draws e.request.path e.request.body := by
    simp only [AcmeServer.route, posted.method, other "/directory" (by decide), other "/new-nonce" (by decide),
      other "/new-account" (by decide), other "/new-order" (by decide), authz, path, decide_false,
      decide_true, Bool.and_false, Bool.true_and, if_true, if_false, Bool.false_eq_true]
  rw [AcmeServer.handleRequest, route, AcmeServer.handleChallenge, withNonce_posted posted]
  simp only [answered', checked]
  rfl


end
end Nps.Nip.Acme
