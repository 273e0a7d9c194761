import NpsSdk.Nip.Acme.Client

/-! What requests of others leave alone of what a client has at the ACME server: its unused nonce, its
account, its order with the authorization and the challenge, and its certificate. -/
namespace Nps.Nip.Acme
open Wire (Bytes)

section
variable {s t : State} {jwk : Jwk} {held : Option String}

def Clean (spent : List String) (s : State) : Prop := ∀ nonce ∈ spent, nonce ∉ s.nonces

/-- What others leave alone: everything of the accounts with the client's key, except that an order may
become ready and that a status may change. -/
structure Undisturbed (jwk : Jwk) (held : Option String) (s t : State) : Prop where
  held : ∀ nonce, held = some nonce → nonce ∈ s.nonces → nonce ∈ t.nonces
  accounts : ∀ {url other}, s.accountJwks.lookup url = some other → t.accountJwks.lookup url = some other
  orders : ∀ {id os}, s.orders.lookup id = some os → s.accountJwks.lookup os.accountUrl = some jwk →
    ∃ status, t.orders.lookup id = some { os with status } ∧ (status = os.status ∨ status = .ready)
  authzs : ∀ {id az}, s.authzs.lookup id = some az → ∃ status, t.authzs.lookup id = some { az with status }
  challenges : ∀ {id ch}, s.challenges.lookup id = some ch →
    ∃ status, t.challenges.lookup id = some { ch with status }
  certs : ∀ {id pem}, s.certs.lookup id = some pem → t.certs.lookup id = some pem

theorem Undisturbed.refl (s : State) : Undisturbed jwk held s s where
  held _ _ there := there
  accounts found := found
  orders found _ := ⟨_, found, .inl rfl⟩
  authzs found := ⟨_, found⟩
  challenges found := ⟨_, found⟩
  certs found := found

theorem Undisturbed.trans {u : State} (first : Undisturbed jwk held s t) (second : Undisturbed jwk held t u) :
    Undisturbed jwk held s u where
  held nonce same there := second.held nonce same (first.held nonce same there)
  accounts found := second.accounts (first.accounts found)
  orders found own := by
    obtain ⟨status, later, before⟩ := first.orders found own
    obtain ⟨status', last, after⟩ := second.orders later (first.accounts own)
    refine ⟨status', last, after.elim (fun same => ?_) .inr⟩
    rw [same]
    exact before
  authzs found := by
    obtain ⟨status, later⟩ := first.authzs found
    obtain ⟨status', last⟩ := second.authzs later
    exact ⟨status', last⟩
  challenges found := by
    obtain ⟨status, later⟩ := first.challenges found
    obtain ⟨status', last⟩ := second.challenges later
    exact ⟨status', last⟩
  certs found := second.certs (first.certs found)

theorem lookup_insert_old {β : Type} {m : Assoc String β} {id new : String} {value other : β}
    (fresh : m.lookup new = none) (found : m.lookup id = some value) :
    (m.insert new other).lookup id = some value := by
  rw [AList.lookup_insert_if, if_neg]
  · exact found
  · rintro rfl
    cases fresh.symm.trans found

variable [Ed25519] [X509.CertificateLibrary] [Library] {server : AcmeServer} {e : Event} {nonce : String}
  {key : Ed25519.VerifyingKey} {spent : List String}

omit [Ed25519] [X509.CertificateLibrary] in
/-- Another nonce is spent, and nothing else takes one away. -/
theorem withNonce_keeps {body : Except String String} {serve : State → Envelope → ProtectedHeader → Served}
    (unused : nonce ∈ s.nonces)
    (apart : ∀ env header, readEnvelope body = .ok env → parseHeader env = .ok header → header.nonce ≠ nonce)
    (keeps : ∀ t env header, nonce ∈ t.nonces → nonce ∈ (serve t env header).2.nonces) :
    nonce ∈ (withNonce s body serve).2.nonces := by
  unfold withNonce
  cases read : readEnvelope body with
  | error problem => exact unused
  | ok env =>
    cases parsed : parseHeader env with
    | error problem => simpa only [parsed] using unused
    | ok header =>
      by_cases fresh : header.nonce ∈ s.nonces
      · simp only [parsed, State.consumeNonce, if_pos fresh]
        apply keeps
        have other : nonce ≠ header.nonce := (apart env header read parsed).symm
        exact List.mem_filter.mpr ⟨unused, decide_eq_true other⟩
      · simpa only [parsed, State.consumeNonce, if_neg fresh] using unused

omit [X509.CertificateLibrary] in
theorem handleNewAccount_keeps {draws : Draws} {body : Except String String} (unused : nonce ∈ s.nonces)
    (apart : ∀ env header, readEnvelope body = .ok env → parseHeader env = .ok header → header.nonce ≠ nonce) :
    nonce ∈ (server.handleNewAccount s draws body).2.nonces := by
  unfold AcmeServer.handleNewAccount
  cases read : readEnvelope body with
  | error problem => exact unused
  | ok env =>
    cases parsed : parseHeader env with
    | error problem => simpa only [parsed] using unused
    | ok header =>
      cases given : header.jwk with
      | none => simpa only [parsed, given] using unused
      | some jwk =>
        by_cases fresh : header.nonce ∈ s.nonces
        · have other : nonce ≠ header.nonce := (apart env header read parsed).symm
          have left : nonce ∈ s.nonces.filter (· ≠ header.nonce) :=
            List.mem_filter.mpr ⟨unused, decide_eq_true other⟩
          simp only [parsed, given, State.consumeNonce, if_pos fresh]
          cases AcmeServer.checkJwk env jwk with
          | error problem => exact left
          | ok => exact mem_mintNonce.mpr (.inr left)
        · simpa only [parsed, given, State.consumeNonce, if_neg fresh] using unused

/-- Only a message under it spends a nonce. -/
theorem route_keeps {request : Request} {draws : Draws} {now : Instant} (unused : nonce ∈ s.nonces)
    (apart : ∀ env header, readEnvelope request.body = .ok env → parseHeader env = .ok header →
      header.nonce ≠ nonce) :
    nonce ∈ (server.route s request draws now).2.nonces := by
  have mints {t : State} {new : String} (there : nonce ∈ t.nonces) : nonce ∈ (t.mintNonce new).nonces :=
    mem_mintNonce.mpr (.inr there)
  unfold AcmeServer.route
  dsimp only
  split
  · exact unused
  split
  · exact mints unused
  split
  · exact handleNewAccount_keeps unused apart
  split
  · refine withNonce_keeps unused apart fun t env header there => ?_
    cases AcmeServer.orderedIdentifier t env header with
    | error problem => exact there
    | ok ident => exact mints there
  split
  · refine withNonce_keeps unused apart fun t env header there => ?_
    dsimp only
    split
    · exact there
    · split
      · exact there
      · split
        · exact there
        · exact mints there
  split
  · refine withNonce_keeps unused apart fun t env header there => ?_
    cases AcmeServer.answeredChallenge t env header request.path with
    | error problem => exact there
    | ok given =>
      obtain ⟨ch, key, payload⟩ := given
      dsimp only
      split
      · exact there
      · exact mints there
  split
  · refine withNonce_keeps unused apart fun t env header there => ?_
    dsimp only
    split
    · exact there
    · exact mints there
  split
  · refine withNonce_keeps unused apart fun t env header there => ?_
    dsimp only
    split
    · exact there
    · split
      · exact there
      · exact mints there
  split
  · refine withNonce_keeps unused apart fun t env header there => ?_
    dsimp only
    split
    · exact there
    · split
      · exact there
      · split
        · exact there
        · exact mints there
  · exact unused

variable (server) in
/-- Somebody else's request. It does not use the nonce that the client holds; what is signed with the
client's key in it is a copy of something that the client has sent, under a nonce that it has spent; and
its random bytes are new. -/
structure Foreign (key : Ed25519.VerifyingKey) (spent : List String) (held : Option String) (s : State)
    (e : Event) : Prop where
  apart : ∀ env header, readEnvelope e.request.body = .ok env → parseHeader env = .ok header →
    held ≠ some header.nonce
  copied : ∀ env header verified, readEnvelope e.request.body = .ok env → parseHeader env = .ok header →
    verify env key = .ok verified → header.nonce ∈ spent
  nonce : e.nonce ∉ spent
  account : s.accountJwks.lookup (server.accountUrl e) = none
  order : s.orders.lookup e.orderId = none
  authz : s.authzs.lookup e.authzId = none
  chall : s.challenges.lookup e.challId = none
  cert : s.certs.lookup e.certId = none

/-- Whatever it does, somebody else's request leaves alone what is the client's. -/
theorem Foreign.effect (foreign : Foreign server key spent held s e) (clean : Clean spent s)
    (mine : publicKeyFromJwk jwk = .ok key) {after : State} (effect : Effect server s e after)
    (kept : ∀ nonce, held = some nonce → nonce ∈ s.nonces → nonce ∈ t.nonces) :
    Undisturbed jwk held s { after with nonces := t.nonces } := by
  have idle : Undisturbed jwk held s { s with nonces := t.nonces } :=
    ⟨kept, fun found => found, fun found _ => ⟨_, found, .inl rfl⟩, fun found => ⟨_, found⟩,
      fun found => ⟨_, found⟩, fun found => found⟩
  cases effect with
  | idle => exact idle
  | account => exact { idle with accounts := fun found => lookup_insert_old foreign.account found }
  | ordered orders =>
    exact { idle with
      orders := fun found own => ⟨_, lookup_insert_old foreign.order found, .inl rfl⟩
      authzs := fun found => ⟨_, lookup_insert_old foreign.authz found⟩
      challenges := fun found => ⟨_, lookup_insert_old foreign.chall found⟩ }
  | @invalidated chall =>
    refine { idle with challenges := fun {id ch} found => ?_ }
    simp only [State.markChallengeInvalid, AList.lookup_modify, found]
    split
    · rename_i same
      rw [← same, found]
      exact ⟨_, rfl⟩
    · exact ⟨ch.status, rfl⟩
  | @answered account other ch answers =>
    refine { idle with orders := fun {id os} found own => ?_, authzs := fun {id az} found => ?_
                       challenges := fun {id other} found => ?_ }
    · simp only [State.answered, AList.lookup_mapValues, found, Option.map_some]
      split
      · exact ⟨_, rfl, .inr rfl⟩
      · exact ⟨os.status, rfl, .inl rfl⟩
    · simp only [State.answered, AList.lookup_modify, found]
      split
      · rename_i same
        rw [← same, found]
        exact ⟨_, rfl⟩
      · exact ⟨az.status, rfl⟩
    · simp only [State.answered, AList.lookup_modify, found]
      split
      · rename_i same
        rw [← same, found]
        exact ⟨_, rfl⟩
      · exact ⟨other.status, rfl⟩
  | @certified certified os leaf issues =>
    refine { idle with orders := fun {id mineOs} found own => ?_
                       certs := fun found => lookup_insert_old foreign.cert found }
    obtain ⟨env, header, other, posted, signed, -, same, issued⟩ := issues
    simp only [State.certified, AList.lookup_modify, found]
    split
    · -- The order would be one of the client's, and the message signed with its key.
      rename_i this
      obtain ⟨-, there, -⟩ := readyOrder_spec (issued_spec issued).1
      rw [this] at found
      cases there.symm.trans found
      obtain ⟨-, known, key', verified, read, checked⟩ := signed
      cases own.symm.trans known
      cases mine.symm.trans read
      exact absurd posted.unused (clean _ (foreign.copied env header verified posted.read posted.parsed checked))
    · exact ⟨_, rfl, .inl rfl⟩

theorem Foreign.undisturbed (foreign : Foreign server key spent held s e) (clean : Clean spent s)
    (mine : publicKeyFromJwk jwk = .ok key) (step : server.Step s e t) :
    Undisturbed jwk held s t ∧ Clean spent t := by
  have applied := applied_of_step step
  obtain ⟨after, effect, same⟩ := applied.effect
  have kept : ∀ nonce, held = some nonce → nonce ∈ s.nonces → nonce ∈ t.nonces := by
    intro nonce isHeld unused
    rw [← step, handleRequest_route]
    refine route_keeps unused fun env header read parsed same => ?_
    exact foreign.apart env header read parsed (isHeld.trans (congrArg some same.symm))
  refine ⟨same ▸ foreign.effect clean mine effect kept, fun nonce used there => ?_⟩
  rcases applied.minted nonce there with old | rfl
  · exact clean nonce used old
  · exact foreign.nonce used

theorem undisturbed_of_run {events : List Event} (clean : Clean spent s)
    (mine : publicKeyFromJwk jwk = .ok key)
    (run : Transition.Run (Transition.Guarded (Foreign server key spent held) server.Step) s events t) :
    Undisturbed jwk held s t ∧ Clean spent t := by
  induction run with
  | refl s => exact ⟨.refl s, clean⟩
  | next step rest ih =>
    obtain ⟨foreign, step⟩ := step
    obtain ⟨first, clean'⟩ := foreign.undisturbed clean mine step
    obtain ⟨second, last⟩ := ih clean'
    exact ⟨first.trans second, last⟩

end
end Nps.Nip.Acme
