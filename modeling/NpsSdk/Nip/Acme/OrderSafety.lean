import NpsSdk.Lib.JsonText
import NpsSdk.Lib.Transition
import NpsSdk.Nip.Acme.Steps

/-! What holds of nonces, orders and certificates in every run of the ACME server whose random bytes do
not repeat, and in which no challenge is answered again when its order has been served. -/
namespace Nps.Nip.Acme
open Json Transition
open Wire (Bytes)

section
variable [Ed25519] [X509.CertificateLibrary] [Library] {server : AcmeServer} {s t : State} {e : Event}

omit [Ed25519] [X509.CertificateLibrary] [Library] in
theorem lookup_modify_some {β : Type} {m : Assoc String β} {key other : String} {f : β → β} {value : β}
    (found : (m.modify key f).lookup other = some value) :
    m.lookup other = some value ∨ ∃ old, other = key ∧ m.lookup other = some old ∧ value = f old := by
  rw [AList.lookup_modify] at found
  split at found
  · rename_i same
    obtain ⟨old, there, made⟩ := Option.map_eq_some_iff.mp found
    exact .inr ⟨old, same, same ▸ there, made.symm⟩
  · exact .inl found

/-- What has become of an order, or that it is new. -/
inductive Moved (server : AcmeServer) (s : State) (e : Event) (id : String) : OrderState → Prop where
  | kept {os : OrderState} (held : s.orders.lookup id = some os) : Moved server s e id os
  | opened {account : String} {jwk : Jwk} {identifier : Identifier}
      (orders : Orders s e account jwk identifier) (same : id = e.orderId) :
      Moved server s e id
        { identifier, status := .pending, authzId := e.authzId, finalizeUrl := server.finalizeUrl e
          accountUrl := account, certificateUrl := none }
  | readied {os : OrderState} {account : String} {jwk : Jwk} {ch : ChallengeState}
      (held : s.orders.lookup id = some os) (answers : Answers s e account jwk ch)
      (same : os.authzId = ch.authzId) : Moved server s e id { os with status := .ready }
  | served {os : OrderState} {leaf : X509.Certificate} (held : s.orders.lookup id = some os)
      (issues : Issues server s e id os leaf) :
      Moved server s e id { os with status := .valid, certificateUrl := some (server.certUrl e) }

theorem Issues.ready {id : String} {os : OrderState} {leaf : X509.Certificate}
    (issues : Issues server s e id os leaf) :
    s.orders.lookup id = some os ∧ os.status = .ready ∧
      leaf.params.commonName = os.identifier.value := by
  obtain ⟨env, header, jwk, -, -, -, -, issued⟩ := issues
  obtain ⟨ready, named⟩ := issued_spec issued
  exact ⟨(readyOrder_spec ready).2.1, (readyOrder_spec ready).2.2, named⟩

theorem Effect.moved {after : State} (effect : Effect server s e after) {id : String} {os : OrderState}
    (found : after.orders.lookup id = some os) : Moved server s e id os := by
  cases effect with
  | idle => exact .kept found
  | account => exact .kept found
  | invalidated => exact .kept found
  | ordered orders =>
    simp only [State.opened, AList.lookup_insert_if] at found
    split at found
    · rename_i same
      cases found
      exact .opened orders same
    · exact .kept found
  | answered answers =>
    simp only [State.answered, AList.lookup_mapValues] at found
    obtain ⟨old, held, made⟩ := Option.map_eq_some_iff.mp found
    split at made
    · rename_i same
      subst made
      exact .readied held answers same
    · subst made
      exact .kept held
  | @certified served os' leaf issues =>
    rcases lookup_modify_some found with held | ⟨old, same, held, made⟩
    · exact .kept held
    · subst same made
      cases Option.some.inj (held.symm.trans issues.ready.1)
      exact .served held issues

theorem Effect.orders_kept {after : State} (effect : Effect server s e after) {id : String}
    (there : s.orders.lookup id ≠ none) : after.orders.lookup id ≠ none := by
  cases effect with
  | idle => exact there
  | account => exact there
  | invalidated => exact there
  | ordered orders =>
    simp only [State.opened, AList.lookup_insert_if]
    split
    · exact Option.some_ne_none _
    · exact there
  | answered answers =>
    simp only [State.answered, AList.lookup_mapValues, Ne, Option.map_eq_none_iff]
    exact there
  | certified issues =>
    simp only [State.certified, AList.lookup_modify]
    split
    · rename_i same
      rw [Ne, Option.map_eq_none_iff, ← same]
      exact there
    · exact there

theorem Effect.accounts_kept {after : State} (effect : Effect server s e after)
    (fresh : s.accountJwks.lookup (server.accountUrl e) = none) {account : String} {jwk : Jwk}
    (known : s.accountJwks.lookup account = some jwk) : after.accountJwks.lookup account = some jwk := by
  cases effect with
  | account =>
    rw [AList.lookup_insert_ne]
    · exact known
    · rintro rfl
      rw [fresh] at known
      cases known
  | idle | ordered | invalidated | answered | certified => exact known

theorem Effect.authzs_kept {after : State} (effect : Effect server s e after) {id : String}
    (there : s.authzs.lookup id ≠ none) : after.authzs.lookup id ≠ none := by
  cases effect with
  | idle | account | invalidated | certified => exact there
  | ordered orders =>
    simp only [State.opened, AList.lookup_insert_if]
    split
    · exact Option.some_ne_none _
    · exact there
  | answered answers =>
    simp only [State.answered, AList.lookup_modify]
    split
    · rename_i same
      rw [Ne, Option.map_eq_none_iff, ← same]
      exact there
    · exact there

/-- A challenge is one that was there, in another status, or that of a new order. -/
theorem Effect.challenge {after : State} (effect : Effect server s e after) {id : String}
    {ch : ChallengeState} (found : after.challenges.lookup id = some ch) :
    (∃ old, s.challenges.lookup id = some old ∧ ch.authzId = old.authzId ∧
      ch.accountUrl = old.accountUrl) ∨
    ch.authzId = e.authzId ∧ after.authzs.lookup e.authzId ≠ none ∧
      ∃ jwk identifier, Orders s e ch.accountUrl jwk identifier := by
  cases effect with
  | idle | account | certified => exact .inl ⟨ch, found, rfl, rfl⟩
  | ordered orders =>
    simp only [State.opened, AList.lookup_insert_if] at found
    split at found
    · cases found
      exact .inr ⟨rfl, by simp [State.opened], _, _, orders⟩
    · exact .inl ⟨ch, found, rfl, rfl⟩
  | invalidated =>
    rcases lookup_modify_some found with held | ⟨old, -, held, made⟩
    · exact .inl ⟨ch, held, rfl, rfl⟩
    · exact .inl ⟨old, held, made ▸ rfl, made ▸ rfl⟩
  | answered answers =>
    rcases lookup_modify_some found with held | ⟨old, -, held, made⟩
    · exact .inl ⟨ch, held, rfl, rfl⟩
    · exact .inl ⟨old, held, made ▸ rfl, made ▸ rfl⟩

omit [X509.CertificateLibrary] in
theorem Orders.unique {account other : String} {jwk jwk' : Jwk} {identifier identifier' : Identifier}
    (orders : Orders s e account jwk identifier) (orders' : Orders s e other jwk' identifier') :
    account = other := by
  obtain ⟨env, header, posted, signed, -⟩ := orders
  obtain ⟨env', header', posted', signed', -⟩ := orders'
  cases Except.ok.inj (posted.read.symm.trans posted'.read)
  cases Except.ok.inj (posted.parsed.symm.trans posted'.parsed)
  exact signed.1.symm.trans signed'.1

omit [X509.CertificateLibrary] in
theorem Orders.account {account : String} {jwk : Jwk} {identifier : Identifier}
    (orders : Orders s e account jwk identifier) : s.accountJwks.lookup account = some jwk := by
  obtain ⟨env, header, -, signed, -⟩ := orders
  exact signed.2.1

/-- Every order has its authorization. -/
theorem Effect.authz_known {after : State} (effect : Effect server s e after)
    (known : ∀ id os, s.orders.lookup id = some os → s.authzs.lookup os.authzId ≠ none) {id : String}
    {os : OrderState} (found : after.orders.lookup id = some os) :
    after.authzs.lookup os.authzId ≠ none := by
  have kept {id : String} (there : s.authzs.lookup id ≠ none) := effect.authzs_kept there
  cases effect with
  | ordered orders =>
    simp only [State.opened, AList.lookup_insert_if] at found
    split at found
    · cases found
      simp [State.opened]
    · exact kept (known id os found)
  | idle => exact known id os found
  | account => exact known id os found
  | invalidated => exact known id os found
  | answered answers =>
    simp only [State.answered, AList.lookup_mapValues] at found
    obtain ⟨old, held, made⟩ := Option.map_eq_some_iff.mp found
    have same : os.authzId = old.authzId := by
      split at made <;> exact made ▸ rfl
    exact same ▸ kept (known id old held)
  | certified issues =>
    rcases lookup_modify_some found with held | ⟨old, -, held, made⟩
    · exact known id os held
    · exact made ▸ known id old held

structure Fresh (server : AcmeServer) (history : List (State × Event)) (s : State) (e : Event) : Prop where
  nonce : ∀ past ∈ history, past.2.nonce ≠ e.nonce
  account : s.accountJwks.lookup (server.accountUrl e) = none
  order : s.orders.lookup e.orderId = none
  authz : s.authzs.lookup e.authzId = none

/-- No challenge is answered of an order that has its certificate. -/
structure Careful (server : AcmeServer) (history : List (State × Event)) (s : State) (e : Event) : Prop
    extends Fresh server history s e where
  settled : ∀ account jwk ch, Answers s e account jwk ch → ∀ id os,
    s.orders.lookup id = some os → os.authzId = ch.authzId → os.status ≠ .valid

/-- A step, beside which is kept what was asked and in which state. -/
def RecordedStep (server : AcmeServer) (s : State × List (State × Event)) (e : Event)
    (t : State × List (State × Event)) : Prop :=
  server.Step s.1 e t.1 ∧ t.2 = s.2 ++ [(s.1, e)]

def FreshStep (server : AcmeServer) : State × List (State × Event) → Event →
    State × List (State × Event) → Prop :=
  Guarded (fun s e => Fresh server s.2 s.1 e) (RecordedStep server)

def CarefulStep (server : AcmeServer) : State × List (State × Event) → Event →
    State × List (State × Event) → Prop :=
  Guarded (fun s e => Careful server s.2 s.1 e) (RecordedStep server)

/-- The order was opened, and when it is not pending its challenge was answered, by one account with one
key. -/
structure Backed (history : List (State × Event)) (s : State) (id : String) (os : OrderState)
    (jwk : Jwk) : Prop where
  account : s.accountJwks.lookup os.accountUrl = some jwk
  opened : ∃ past ∈ history, Orders past.1 past.2 os.accountUrl jwk os.identifier ∧
    past.2.orderId = id ∧ past.2.authzId = os.authzId
  answered : os.status ≠ .pending → ∃ past ∈ history, ∃ ch,
    Answers past.1 past.2 os.accountUrl jwk ch ∧ ch.authzId = os.authzId

structure Sane (s : State × List (State × Event)) : Prop where
  orders : ∀ id os, s.1.orders.lookup id = some os →
    (∃ jwk, Backed s.2 s.1 id os jwk) ∧ os.status ≠ .invalid ∧ s.1.authzs.lookup os.authzId ≠ none
  challenges : ∀ id ch, s.1.challenges.lookup id = some ch → s.1.authzs.lookup ch.authzId ≠ none
  linked : ∀ i ch j os, s.1.challenges.lookup i = some ch → s.1.orders.lookup j = some os →
    ch.authzId = os.authzId → ch.accountUrl = os.accountUrl
  nonces : ∀ nonce ∈ s.1.nonces, ∃ past ∈ s.2, past.2.nonce = nonce

omit [X509.CertificateLibrary] in
theorem Answers.found {account : String} {jwk : Jwk} {ch : ChallengeState}
    (answers : Answers s e account jwk ch) :
    ∃ id, s.challenges.lookup id = some ch ∧ ch.accountUrl = account ∧
      s.accountJwks.lookup account = some jwk := by
  obtain ⟨env, header, key, payload, -, signed, -, -, own, answered, -⟩ := answers
  obtain ⟨-, -, -, -, found⟩ := answeredChallenge_spec answered
  exact ⟨_, found, own, signed.2.1⟩

theorem sane_step {s t : State × List (State × Event)} (sane : Sane s) (step : CarefulStep server s e t) :
    Sane t := by
  obtain ⟨careful, step, history⟩ := step
  obtain ⟨⟨after, effect, same⟩, minted⟩ := applied_of_step step
  obtain ⟨s, past⟩ := s
  obtain ⟨t, past'⟩ := t
  dsimp only at history same careful
  subst history
  have orders' : t.orders = after.orders := by rw [same]
  have authzs' : t.authzs = after.authzs := by rw [same]
  have accounts' : t.accountJwks = after.accountJwks := by rw [same]
  have challenges' : t.challenges = after.challenges := by rw [same]
  have older {P : State × Event → Prop} (found : ∃ entry ∈ past, P entry) :
      ∃ entry ∈ past ++ [(s, e)], P entry := by
    obtain ⟨entry, member, holds⟩ := found
    exact ⟨entry, List.mem_append_left _ member, holds⟩
  have newest : (s, e) ∈ past ++ [(s, e)] := List.mem_append_right _ List.mem_cons_self
  refine ⟨fun id os found => ?_, fun id ch found => ?_, fun i ch j os left right joined => ?_,
    fun nonce there => ?_⟩
  · rw [orders'] at found
    rw [authzs']
    have known := effect.authz_known (fun id os held => (sane.orders id os held).2.2) found
    cases effect.moved found with
    | kept held =>
      obtain ⟨⟨jwk, backed⟩, status, -⟩ := sane.orders id os held
      refine ⟨⟨jwk, accounts' ▸ effect.accounts_kept careful.account backed.account, older backed.opened,
        fun moved => older (backed.answered moved)⟩, status, known⟩
    | opened orders same' =>
      exact ⟨⟨_, accounts' ▸ effect.accounts_kept careful.account orders.account,
        ⟨_, newest, orders, same'.symm, rfl⟩, fun moved => absurd rfl moved⟩, nofun, known⟩
    | @readied os account jwk' ch held answers joined =>
      obtain ⟨⟨jwk, backed⟩, -⟩ := sane.orders id os held
      obtain ⟨i, there, own, key⟩ := answers.found
      have account_ : os.accountUrl = account := (sane.linked i ch id os there held joined.symm).symm.trans own
      subst account_
      have sameKey : jwk' = jwk := Option.some.inj (key.symm.trans backed.account)
      subst sameKey
      refine ⟨⟨_, accounts' ▸ effect.accounts_kept careful.account backed.account, older backed.opened,
        fun _ => ⟨_, newest, ch, answers, joined.symm⟩⟩, nofun, known⟩
    | @served os leaf held issues =>
      obtain ⟨⟨jwk, backed⟩, -⟩ := sane.orders id os held
      have moved : os.status ≠ .pending := by
        rw [issues.ready.2.1]
        exact nofun
      exact ⟨⟨jwk, accounts' ▸ effect.accounts_kept careful.account backed.account, older backed.opened,
        fun _ => older (backed.answered moved)⟩, nofun, known⟩
  · rw [challenges'] at found
    rw [authzs']
    rcases effect.challenge found with ⟨old, held, joined, -⟩ | ⟨joined, known, -⟩
    · exact joined ▸ effect.authzs_kept (sane.challenges id old held)
    · exact joined ▸ known
  · rw [challenges'] at left
    rw [orders'] at right
    rcases effect.challenge left with ⟨old, held, joined', own⟩ | ⟨joined', -, jwk, identifier, orders⟩
    · rw [own]
      cases effect.moved right with
      | kept held' => exact sane.linked i old j os held held' (joined'.symm.trans joined)
      | opened orders same' =>
        have new : old.authzId = e.authzId := joined'.symm.trans joined
        exact absurd careful.authz (new ▸ sane.challenges i old held)
      | readied held' =>
        have own' := sane.linked i old j _ held held' (joined'.symm.trans joined)
        exact own'
      | served held' =>
        have own' := sane.linked i old j _ held held' (joined'.symm.trans joined)
        exact own'
    · have stranger (os' : OrderState) (held : s.orders.lookup j = some os')
          (same' : os'.authzId = e.authzId) : False :=
        (sane.orders j os' held).2.2 (same' ▸ careful.authz)
      cases effect.moved right with
      | kept held => exact (stranger _ held (joined.symm.trans joined')).elim
      | opened orders' => exact orders.unique orders'
      | readied held => exact (stranger _ held (joined.symm.trans joined')).elim
      | served held => exact (stranger _ held (joined.symm.trans joined')).elim
  · rcases minted nonce there with old | new
    · exact older (sane.nonces nonce old)
    · exact ⟨_, newest, new.symm⟩

/-- The order that a certificate is issued for has been served. -/
theorem served_of_issues {id : String} {os : OrderState} {leaf : X509.Certificate}
    (issues : Issues server s e id os leaf) (step : server.Step s e t) :
    ∃ os', t.orders.lookup id = some os' ∧ os'.status = .valid := by
  have held := issues.ready.1
  obtain ⟨env, header, jwk, posted, signed, path, rfl, issued⟩ := issues
  rw [← step, finalize_serves posted path issued, State.renewed]
  simp only [State.mintNonce, State.certified, AList.lookup_modify, held, if_true, Option.map_some]
  exact ⟨_, rfl, rfl⟩

/-- An order goes from pending to ready to served. -/
inductive Advances : Status → Status → Prop where
  | stays (status : Status) : Advances status status
  | readied : Advances .pending .ready
  | served : Advances .ready .valid

omit [Ed25519] [X509.CertificateLibrary] [Library] in
theorem Advances.of_valid {status : Status} (advances : Advances .valid status) : status = .valid := by
  cases advances
  rfl

theorem order_advances {history : List (State × Event)} (sane : Sane (s, history))
    (careful : Careful server history s e) (step : server.Step s e t) {id : String} {os : OrderState}
    (held : s.orders.lookup id = some os) : ∃ os', t.orders.lookup id = some os' ∧
      Advances os.status os'.status ∧ os'.identifier = os.identifier ∧ os'.accountUrl = os.accountUrl := by
  obtain ⟨⟨after, effect, same⟩, -⟩ := applied_of_step step
  have orders' : t.orders = after.orders := by rw [same]
  rw [orders']
  have there := effect.orders_kept (by rw [held]; exact Option.some_ne_none _)
  obtain ⟨os', found⟩ := Option.ne_none_iff_exists'.mp there
  refine ⟨os', found, ?_⟩
  cases effect.moved found with
  | kept held' =>
    cases Option.some.inj (held.symm.trans held')
    exact ⟨.stays _, rfl, rfl⟩
  | opened orders same' =>
    subst same'
    rw [careful.order] at held
    cases held
  | readied held' answers joined =>
    cases Option.some.inj (held.symm.trans held')
    have unserved := careful.settled _ _ _ answers id os held joined
    have sound := (sane.orders id os held).2.1
    refine ⟨?_, rfl, rfl⟩
    cases status : os.status with
    | pending => exact .readied
    | ready => exact .stays _
    | valid => exact absurd status unserved
    | invalid => exact absurd status sound
  | served held' issues =>
    cases Option.some.inj (held.symm.trans held')
    refine ⟨?_, rfl, rfl⟩
    rw [issues.ready.2.1]
    exact .served

theorem Effect.cert {after : State} (effect : Effect server s e after) {certId pem : String}
    (found : after.certs.lookup certId = some pem) : s.certs.lookup certId = some pem ∨
      ∃ id os leaf, Issues server s e id os leaf ∧
        pem = Library.pem leaf.der ++ Library.pem server.opts.caRootCert.der := by
  cases effect with
  | certified issues =>
    simp only [State.certified, AList.lookup_insert_if] at found
    split at found
    · exact .inr ⟨_, _, _, issues, (Option.some.inj found).symm⟩
    · exact .inl found
  | idle | account | ordered | invalidated | answered => exact .inl found

section
variable {events : List Event} {history : List (State × Event)}

theorem sane_run (run : Run (CarefulStep server) ({}, []) events (t, history)) : Sane (t, history) := by
  refine run.invariant sane_step ⟨?_, ?_, ?_, ?_⟩
  · intro id os found
    cases found
  · intro id ch found
    cases found
  · intro i ch j os found
    cases found
  · intro nonce there
    cases there

theorem nonce_spent {t u : State × List (State × Event)} (sane : Sane t) (step : CarefulStep server t e u)
    {nonce : String} (there : nonce ∈ t.1.nonces) (gone : nonce ∉ u.1.nonces) {later : List Event}
    {v : State × List (State × Event)} (run : Run (CarefulStep server) u later v) : nonce ∉ v.1.nonces := by
  have drawn : ∃ past ∈ u.2, past.2.nonce = nonce := by
    obtain ⟨past, member, same⟩ := sane.nonces nonce there
    rw [step.2.2]
    exact ⟨past, List.mem_append_left _ member, same⟩
  have both : nonce ∉ v.1.nonces ∧ ∃ past ∈ v.2, past.2.nonce = nonce := by
    refine run.invariant (P := fun v => nonce ∉ v.1.nonces ∧ ∃ past ∈ v.2, past.2.nonce = nonce)
      (fun {v e w} holds step => ?_) ⟨gone, drawn⟩
    obtain ⟨absent, past, member, same⟩ := holds
    obtain ⟨careful, step, history⟩ := step
    rw [history]
    refine ⟨fun back => ?_, past, List.mem_append_left _ member, same⟩
    rcases (applied_of_step step).minted nonce back with old | new
    · exact absent old
    · exact careful.nonce past member (same.trans new)
  exact both.1

theorem served_run {t u : State × List (State × Event)} (sane : Sane t) {id : String} {os : OrderState}
    (held : t.1.orders.lookup id = some os) (served : os.status = .valid)
    (run : Run (CarefulStep server) t events u) :
    ∃ os', u.1.orders.lookup id = some os' ∧ os'.status = .valid := by
  have both : Sane u ∧ ∃ os', u.1.orders.lookup id = some os' ∧ os'.status = .valid := by
    refine run.invariant
      (P := fun u => Sane u ∧ ∃ os', u.1.orders.lookup id = some os' ∧ os'.status = .valid)
      (fun {u e v} holds step => ?_) ⟨sane, os, held, served⟩
    obtain ⟨sane, os, held, served⟩ := holds
    obtain ⟨os', found, advances, -⟩ := order_advances sane step.1 step.2.1 held
    refine ⟨sane_step sane step, os', found, ?_⟩
    rw [served] at advances
    exact advances.of_valid
  exact both.2

/-- In every run with new random bytes in which no served order's challenge is answered again: a message
that is accepted has passed the check of its nonce, and the nonce of one that has passed it is never there
again; what is stored as a certificate was issued,
for the identifier of an order that one account opened and whose challenge it answered, with the same key;
an order never goes back; and no order gets a second certificate. -/
theorem order_safety (run : Run (CarefulStep server) ({}, []) events (t, history)) :
    (∀ e u, CarefulStep server (t, history) e u →
      (Accepted server t e → ∃ env header, Checked t e env header) ∧
      ∀ env header, Checked t e env header →
        ∀ later v, Run (CarefulStep server) u later v → header.nonce ∉ v.1.nonces) ∧
    (∀ e u, CarefulStep server (t, history) e u →
      ∀ certId pem, u.1.certs.lookup certId = some pem → t.certs.lookup certId = some pem ∨
        ∃ id os leaf, Issues server t e id os leaf ∧
          pem = Library.pem leaf.der ++ Library.pem server.opts.caRootCert.der) ∧
    (∀ e id os leaf, Issues server t e id os leaf → leaf.params.commonName = os.identifier.value ∧
      t.orders.lookup id = some os ∧ ∃ jwk,
        (∃ past ∈ history, Orders past.1 past.2 os.accountUrl jwk os.identifier ∧
          past.2.orderId = id ∧ past.2.authzId = os.authzId) ∧
        ∃ past ∈ history, ∃ ch, Answers past.1 past.2 os.accountUrl jwk ch ∧ ch.authzId = os.authzId) ∧
    (∀ e u, CarefulStep server (t, history) e u →
      (∀ id os, t.orders.lookup id = some os → ∃ os', u.1.orders.lookup id = some os' ∧
        Advances os.status os'.status ∧ os'.identifier = os.identifier ∧
          os'.accountUrl = os.accountUrl) ∧
      ∀ id os, t.orders.lookup id = none → u.1.orders.lookup id = some os → os.status = .pending) ∧
    (∀ e u id os leaf, CarefulStep server (t, history) e u → Issues server t e id os leaf →
      ∀ later v, Run (CarefulStep server) u later v → ∀ e' os' leaf', ¬ Issues server v.1 e' id os' leaf') := by
  have sane := sane_run run
  refine ⟨fun e u step => ⟨Accepted.checked, fun env header checked later v run' => ?_⟩,
    fun e u step certId pem found => ?_,
    fun e id os leaf issues => ?_, fun e u step => ⟨fun id os held => ?_, fun id os new found => ?_⟩,
    fun e u id os leaf step issues later v run' e' os' leaf' again => ?_⟩
  · have unused := checked.posted.unused
    have gone : header.nonce ∉ u.1.nonces := by
      intro there
      obtain ⟨past, member, same⟩ := sane.nonces header.nonce unused
      exact step.1.nonce past member (same.trans (checked.spends step.2.1 there))
    exact nonce_spent sane step unused gone run'
  · obtain ⟨after, effect, same⟩ := (applied_of_step step.2.1).effect
    have certs : u.1.certs = after.certs := by rw [same]
    exact effect.cert (certs ▸ found)
  · obtain ⟨held, ready, named⟩ := issues.ready
    obtain ⟨⟨jwk, backed⟩, -⟩ := sane.orders id os held
    have moved : os.status ≠ .pending := by
      rw [ready]
      exact nofun
    exact ⟨named, held, jwk, backed.opened, backed.answered moved⟩
  · exact order_advances sane step.1 step.2.1 held
  · obtain ⟨after, effect, same⟩ := (applied_of_step step.2.1).effect
    have orders : u.1.orders = after.orders := by rw [same]
    cases effect.moved (orders ▸ found) with
    | opened => rfl
    | kept held => cases held.symm.trans new
    | readied held => cases held.symm.trans new
    | served held => cases held.symm.trans new
  · obtain ⟨os₁, held, served⟩ := served_of_issues issues step.2.1
    obtain ⟨os₂, held', served'⟩ := served_run (sane_step sane step) held served run'
    obtain ⟨ready, status, -⟩ := again.ready
    cases Option.some.inj (held'.symm.trans ready)
    rw [served'] at status
    cases status

end
end

namespace Sample

def spelled (width number : Nat) : Bytes :=
  (List.range width).map fun i => UInt8.ofNat (number / 256 ^ (width - 1 - i))

theorem spelled_length (width number : Nat) : (spelled width number).length = width := by
  rw [spelled, List.length_map, List.length_range]

def keyBytes : Bytes := spelled 32 0x9afee56d936872623f5a971507aa931ff68a48b3f165185ddde9bac52512491c

theorem keyBytes_length : keyBytes.length = 32 := spelled_length 32 _

def key : Key32 := ⟨keyBytes, keyBytes_length⟩

def draws (n : UInt8) : Draws where
  nonce := List.replicate 16 n
  accountId := List.replicate 8 n
  orderId := List.replicate 8 n
  authzId := List.replicate 8 n
  challId := List.replicate 8 n
  token := List.replicate 32 n
  serial := List.replicate 20 n
  certId := List.replicate 8 n

def nonce (n : UInt8) : String := b64uEncode (draws n).nonce
def shortId (n : UInt8) : String := b64uEncode (List.replicate 8 n)

def baseUrl : String := "http://127.0.0.1:8080"
def accountUrl : String := baseUrl ++ "/account/" ++ shortId 1
def token : String := b64uEncode (draws 2).token
def identifier : Identifier := ⟨"nid", "urn:nps:agent:example.com:a"⟩
def jwk : Jwk := ⟨"OKP", "Ed25519", b64uEncode keyBytes⟩

def halves (r s : Nat) : Bytes := spelled 32 r ++ spelled 32 s

theorem halves_length (r s : Nat) : (halves r s).length = 64 := by
  rw [halves, List.length_append, spelled_length, spelled_length]

def csr : Bytes :=
  spelled 42 0x3081a5305902010030263124302206035504030c1b75726e3a6e70733a6167656e743a6578616d706c65 ++
  spelled 42 0x2e636f6d3a61302a300506032b65700321009afee56d936872623f5a971507aa931ff68a48b3f165185d ++
  spelled 42 0xdde9bac52512491ca000300506032b6570034100415de4775a63af40db596f2fcbb60c4e078f8441e78c ++
  spelled 42 0xe5029cd871d0d71f8482619f43c61ff48fb9488df7a41f92d09d43bb8da377e7dcf3f085b67989356505

def agentSignature : Bytes :=
  halves 0x8e5d14cfb60bc22abd1cffeae55dbcaaed313ae7e8c60a8113d8fb9b30dff8f5
    0x9270addf34bb74f6ea6ebba98c718fe3e4b27d5d29d657bd53eecc7ec2011c07

def accountPayload : Value := .object [("termsOfServiceAgreed", .bool true)]
def orderPayload : Value := .object [("identifiers", .array [identifier.toValue])]
def challengePayload : Value := .object [("agent_signature", .string (b64uEncode agentSignature))]
def finalizePayload : Value := .object [("csr", .string (b64uEncode csr))]

/-- A message is signed under the nonce of the draws before its own. -/
structure Message where
  number : UInt8
  path : String
  jwk : Option Jwk := none
  payload : Value
  signature : Bytes

namespace Message
variable (message : Message)

def header : ProtectedHeader where
  alg := "EdDSA"
  nonce := nonce (message.number - 1)
  url := baseUrl ++ message.path
  jwk := message.jwk
  kid := if message.jwk.isSome then none else some accountUrl

def headerText : String :=
  (Value.object ([("alg", .string message.header.alg), ("nonce", .string message.header.nonce),
    ("url", .string message.header.url)] ++
    skipNone "jwk" (message.jwk.map fun jwk =>
      .object [("kty", .string jwk.kty), ("crv", .string jwk.crv), ("x", .string jwk.x)]) ++
    skipNone "kid" (message.header.kid.map .string))).text

def envelope : Envelope where
  protectedHeader := b64uEncode (Text.utf8 message.headerText)
  payload := b64uEncode (Text.utf8 message.payload.text)
  signature := b64uEncode message.signature

def text : String :=
  (Value.object [("protected", .string message.envelope.protectedHeader),
    ("payload", .string message.envelope.payload), ("signature", .string message.envelope.signature)]).text

def event : Event where
  request := { method := .post, path := message.path, body := .ok message.text }
  draws := draws message.number
  now := Duration.seconds 1800000000

end Message

def account : Message where
  number := 1
  path := "/new-account"
  jwk := some Sample.jwk
  payload := accountPayload
  signature := halves 0x5933966df145ab999d973924ed3bdb5dec4ad05013051c2cf9db31db36d8953f
    0x101d4bcba97746267e3308aa3b0224324da9db1a53f3849db99f2e1d0988810b

def order : Message where
  number := 2
  path := "/new-order"
  payload := orderPayload
  signature := halves 0x0a828e571b5900809a73c4283c30d9d42e029c4b21da58235ec9cbb2f498810f
    0xda8a0f1a51e102a63a30e004dac7039b175092b8e740c0f389806e1e72721400

def challenge : Message where
  number := 3
  path := "/chall/" ++ shortId 2
  payload := challengePayload
  signature := halves 0xe6c625ab17a9b0813146cdcae754119f03c7077fe1c8398a6585efaa831daefb
    0xc879306d33363a30dc3253a2422bc62d62f04e8fb3368e36a2a94e901deecd0b

def finalize : Message where
  number := 4
  path := "/finalize/" ++ shortId 2
  payload := finalizePayload
  signature := halves 0xe0f5d1926f2b463a55014aabf056a834966fcd7ae1eab7de57c87aedb0e0774a
    0x4100e0421ba96ef4d8a602e393f307f25f1271bdd8d070b0d39d07112327ce09

def challengeAgain : Message where
  number := 5
  path := "/chall/" ++ shortId 2
  payload := challengePayload
  signature := halves 0x9cf4a05ed4e257ae3d28a86fa7a267c9a684146c2925859cc84dbedae08706b6
    0x8557eee4f2f8030ef817cc2ea7b39bd3ba47e5d48087fef01b68a5e62c2b2f02

def finalizeAgain : Message where
  number := 6
  path := "/finalize/" ++ shortId 2
  payload := finalizePayload
  signature := halves 0x32fc3d0c7579e0825602b28419ccd8d4e578099564fa5ac8f4798cdbcdc6a0de
    0x4989483294efeef543e75d190e518773b05ecca476cefc2c4ba975be5f4ff50a

def messages : List Message := [account, order, challenge, finalize, challengeAgain, finalizeAgain]

def signingInput (message : Message) : Bytes :=
  Text.utf8 (message.envelope.protectedHeader ++ "." ++ message.envelope.payload)

def signed (text : Bytes) : Option Signature64 :=
  if text = Text.utf8 token then Signer.sized 64 agentSignature
  else (messages.find? (signingInput · = text)).bind fun message => Signer.sized 64 message.signature

def reads {α : Type} (payload : Value) (value : α) (bytes : Bytes) : Except String α :=
  if bytes = Text.utf8 payload.text then .ok value else .error "expected value at line 1 column 1"

scoped instance ed25519 : Ed25519 := .table key signed

scoped instance certificates : X509.CertificateLibrary where
  checkUri _ := .ok ()
  selfSigned _ _ := .ok [0x30, 0x00]
  signedBy _ _ _ _ := .ok [0x30, 0x00]

def known {α : Type} : Option α → Except String α
  | some value => .ok value
  | none => .error "expected value at line 1 column 1"

def envelopeOf (text : String) : Except String Envelope :=
  known ((messages.find? (·.text = text)).map Message.envelope)

def headerOf (bytes : Bytes) : Except String ProtectedHeader :=
  known ((messages.find? (Text.utf8 ·.headerText = bytes)).map Message.header)

scoped instance library : Library where
  envelope := envelopeOf
  header := headerOf
  newOrder := reads orderPayload [identifier]
  challengeRespond := reads challengePayload (b64uEncode agentSignature)
  finalize := reads finalizePayload (b64uEncode csr)
  csr bytes := if bytes = csr then .ok { commonName := some identifier.value, publicKey := keyBytes }
    else .error "malformed certificate request"
  pem der := "-----BEGIN CERTIFICATE-----\n" ++ Base64.encode .standard .canonical der ++
    "\n-----END CERTIFICATE-----\n"

def server : AcmeServer where
  baseUrl := Sample.baseUrl
  opts := { caSigningKey := (), caRootCert := ⟨X509.rootParams
    { caNid := "urn:nps:org:example.com", caSigningKey := (), notBefore := 0, notAfter := 0
      serialNumber := [1] },
    [0x30, 0x00]⟩, certValidity := Duration.seconds 2592000 }

theorem library_envelope : Library.envelope = envelopeOf := rfl
theorem library_header : Library.header = headerOf := rfl

theorem nonce_injective {n m : UInt8} (same : nonce n = nonce m) : n = m :=
  (List.replicate_right_inj (by decide)).mp (b64uEncode_injective same)

theorem shortId_injective {n m : UInt8} (same : shortId n = shortId m) : n = m :=
  (List.replicate_right_inj (by decide)).mp (b64uEncode_injective same)

theorem message_of_number {message other : Message} (member : message ∈ messages)
    (member' : other ∈ messages) (same : message.number = other.number) : message = other :=
  List.inj_on_of_nodup_map (by decide) member member' same

theorem number_of_header {message other : Message}
    (same : Text.utf8 message.headerText = Text.utf8 other.headerText) : message.number = other.number := by
  have fields := Value.object.inj (Value.text_injective (Text.utf8_injective same))
  simp only [List.cons_append, List.cons.injEq, Prod.mk.injEq, Value.string.injEq] at fields
  have shifted : message.number - 1 = other.number - 1 := nonce_injective fields.2.1.2
  rw [← UInt8.sub_add_cancel message.number 1, shifted, UInt8.sub_add_cancel]

theorem find_known {κ : Type} [DecidableEq κ] (text : Message → κ)
    (numbered : ∀ message other, text message = text other → message.number = other.number)
    {message : Message} (member : message ∈ messages) :
    messages.find? (text · = text message) = some message := by
  have there : (messages.find? (text · = text message)).isSome := by
    rw [List.find?_isSome]
    exact ⟨message, member, decide_eq_true rfl⟩
  obtain ⟨other, found⟩ := Option.isSome_iff_exists.mp there
  rw [found]
  have same : text other = text message := by simpa using List.find?_some found
  rw [message_of_number (List.mem_of_find?_eq_some found) member (numbered _ _ same)]

theorem point_not_symbol (alphabet : Base64.Alphabet) {value : Nat} (small : value < 64) :
    Base64.symbol alphabet value ≠ 0x2E := by
  have all : ∀ value < 64, Base64.symbol alphabet value ≠ 0x2E := by
    cases alphabet <;> decide +kernel
  exact all value small

theorem point_not_encoded (alphabet : Base64.Alphabet) (bytes : Bytes) :
    0x2E ∉ Base64.encodeBytes alphabet .none bytes := by
  have apart {value : Nat} (small : value < 64) : ¬ 0x2E = Base64.symbol alphabet value :=
    (point_not_symbol alphabet small).symm
  fun_induction Base64.encodeBytes alphabet .none bytes with
  | case1 b0 b1 b2 rest ih =>
    obtain ⟨v0, v1, v2, v3⟩ := Base64.byte_bounds b0 b1 b2
    simp [apart v0, apart v1, apart v2, apart v3, ih]
  | case2 b0 b1 =>
    obtain ⟨v0, v1, v2, -⟩ := Base64.byte_bounds b0 b1 0
    rw [UInt8.toNat_zero, Nat.zero_div, Nat.add_zero] at v2
    simp [apart v0, apart v1, apart v2, Base64.padding]
  | case3 b0 =>
    obtain ⟨v0, v1, -⟩ := Base64.byte_bounds b0 0 0
    rw [UInt8.toNat_zero, Nat.zero_div, Nat.add_zero] at v1
    simp [apart v0, apart v1, Base64.padding]
  | case4 => exact List.not_mem_nil

theorem signingInput_eq (message : Message) : signingInput message =
    Base64.encodeBytes .urlSafe .none (Text.utf8 message.headerText) ++ 0x2E ::
      Base64.encodeBytes .urlSafe .none (Text.utf8 message.payload.text) := by
  have point : Text.utf8 "." = [0x2E] := by decide
  rw [signingInput, Text.utf8_append, Text.utf8_append, point]
  simp [Message.envelope, b64uEncode]

theorem number_of_signingInput {message other : Message} (same : signingInput message = signingInput other) :
    message.number = other.number := by
  rw [signingInput_eq, signingInput_eq,
    List.append_cons_inj_of_notMem (point_not_encoded _ _) (point_not_encoded _ _)] at same
  have read := congrArg (Base64.decodeBytes .urlSafe .none) same.1
  rw [Base64.decodeBytes_encodeBytes, Base64.decodeBytes_encodeBytes] at read
  exact number_of_header (Except.ok.inj read)

theorem number_of_text {message other : Message} (same : message.text = other.text) :
    message.number = other.number := by
  have fields := Value.object.inj (Value.text_injective same)
  simp only [List.cons.injEq, Prod.mk.injEq, Value.string.injEq] at fields
  exact number_of_header (b64uEncode_injective fields.1.2)

theorem signature_length {message : Message} (member : message ∈ messages) : message.signature.length = 64 := by
  have all : ∀ message ∈ messages, message.signature.length = 64 := by
    simp only [messages, List.forall_mem_cons]
    exact ⟨halves_length _ _, halves_length _ _, halves_length _ _, halves_length _ _, halves_length _ _,
      halves_length _ _, nofun⟩
  exact all message member

theorem readEnvelope_text {message : Message} (member : message ∈ messages) :
    readEnvelope message.event.request.body = .ok message.envelope := by
  have found := find_known Message.text (fun _ _ => number_of_text) member
  have read : envelopeOf message.text = .ok message.envelope := by
    rw [envelopeOf, found, Option.map_some, known]
  exact readEnvelope_ok (library_envelope ▸ read)

theorem header_text {message : Message} (member : message ∈ messages) :
    Library.header (Text.utf8 message.headerText) = .ok message.header := by
  have found := find_known (fun message => Text.utf8 message.headerText)
    (fun _ _ => number_of_header) member
  rw [library_header, headerOf, found, Option.map_some, known]

theorem parseHeader_envelope {message : Message} (member : message ∈ messages) :
    parseHeader message.envelope = .ok message.header :=
  parseHeader_ok rfl (header_text member)

theorem signed_input {message : Message} (member : message ∈ messages) :
    signed (signingInput message) = Signer.sized 64 message.signature := by
  have other : signingInput message ≠ Text.utf8 token := by
    intro same
    have point : 0x2E ∈ signingInput message := by simp [signingInput_eq]
    rw [same, token, b64uEncode, Base64.utf8_encode] at point
    exact point_not_encoded _ _ point
  rw [signed, if_neg other, find_known signingInput (fun _ _ => number_of_signingInput) member,
    Option.bind_some]

theorem verify_envelope {message : Message} (member : message ∈ messages) :
    verify message.envelope key = .ok message.header := by
  have verified := signed_input member
  rw [Signer.sized_self (⟨message.signature, signature_length member⟩ : Signature64)] at verified
  exact verify_ok rfl (header_text member) rfl (decide_eq_true ⟨rfl, verified⟩)

theorem csr_ne_nil : csr ≠ [] := by
  intro empty
  have size := congrArg List.length empty
  simp only [csr, List.length_append, spelled_length] at size
  cases size

theorem publicKeyFromJwk_jwk : publicKeyFromJwk jwk = .ok key :=
  publicKeyFromJwk_encode key

theorem decodePayload_reads {α : Type} (value : α) (message : Message) :
    decodePayload (reads message.payload value) message.envelope = .ok (some value) := by
  refine decodePayload_ok rfl (fun empty => ?_) (if_pos rfl)
  have blank : message.payload.text = "" := Text.utf8_injective empty
  exact Value.text_ne_empty message.payload (congrArg String.toList blank)

section
variable {s : State} {n : UInt8} {status : Status} {message : Message}

theorem verifyAccount_message (member : message ∈ messages) (known : message.jwk = none)
    (account : s.accountJwks.lookup accountUrl = some jwk) :
    verifyAccount s message.envelope message.header = true := by
  have kid : message.header.kid = some accountUrl := by simp [Message.header, known]
  simp [verifyAccount, kid, account, publicKeyFromJwk_jwk, Except.toOption, verify_envelope member]

structure Placed (s : State) (n : UInt8) (status : Status) : Prop where
  nonces : s.nonces = [nonce n]
  account : ∀ url, s.accountJwks.lookup url = if url = accountUrl then some jwk else none
  order : ∃ finalizeUrl certificateUrl, ∀ id, s.orders.lookup id = if id = shortId 2 then
    some { identifier, status, authzId := shortId 2, finalizeUrl, accountUrl, certificateUrl } else none
  authz : ∀ id, id ≠ shortId 2 → s.authzs.lookup id = none
  chall : ∃ answered, s.challenges.lookup (shortId 2) = some
    { id := shortId 2, type := "agent-01", status := answered, token, authzId := shortId 2, accountUrl }

theorem posted (nonces : s.nonces = [nonce n]) (member : message ∈ messages) (next : message.number = n + 1) :
    Posted s message.event message.envelope message.header where
  method := rfl
  read := readEnvelope_text member
  parsed := parseHeader_envelope member
  unused := by
    have same : message.header.nonce = nonce n := by rw [Message.header, next, UInt8.add_sub_cancel]
    rw [nonces, same]
    exact List.mem_singleton_self _

theorem renewed_nonces (nonces : s.nonces = [nonce n]) (next : message.number = n + 1) {after : State} :
    s.renewed message.header message.event after = { after with nonces := [nonce (n + 1)] } := by
  have same : message.header.nonce = nonce n := by rw [Message.header, next, UInt8.add_sub_cancel]
  have new : message.event.nonce = nonce (n + 1) := by rw [Event.nonce, Message.event, next, nonce]
  simp [State.renewed, State.mintNonce, nonces, same, new]

theorem idIn_shortId : idIn "/chall/" ("/chall/" ++ shortId 2) = shortId 2 ∧
    idIn "/finalize/" ("/finalize/" ++ shortId 2) = shortId 2 := by
  decide +kernel

theorem kid_message (message : Message) (known : message.jwk = none) :
    message.header.kid.getD "" = accountUrl := by
  simp [Message.header, known]

/-- The challenge is answered, whatever has become of the order. -/
theorem answers_message (message : Message) (placed : Placed s n status) (member : message ∈ messages)
    (next : message.number = n + 1) (known : message.jwk = none) (path : message.path = "/chall/" ++ shortId 2)
    (payload : message.payload = challengePayload) : ∃ ch t, Answers s message.event accountUrl jwk ch ∧
      server.Step s message.event t ∧ Placed t (n + 1) .ready := by
  obtain ⟨finalizeUrl, certificateUrl, order⟩ := placed.order
  obtain ⟨answered, chall⟩ := placed.chall
  have account : s.accountJwks.lookup accountUrl = some jwk := by rw [placed.account, if_pos rfl]
  have posts := posted placed.nonces member next
  have kid := kid_message message known
  have path' : Text.startsWith "/chall/" message.event.request.path = true := by
    rw [show message.event.request.path = "/chall/" ++ shortId 2 from path]
    exact List.isPrefixOf_iff_prefix.mpr (by simp)
  have reads : decodePayload Library.challengeRespond message.envelope =
      .ok (some (b64uEncode agentSignature)) := by
    have read := decodePayload_reads (b64uEncode agentSignature) message
    rw [payload] at read
    exact read
  have found : AcmeServer.answeredChallenge s message.envelope message.header message.event.request.path =
      .ok ({ id := shortId 2, type := "agent-01", status := answered, token, authzId := shortId 2, accountUrl },
        key, some (b64uEncode agentSignature)) := by
    rw [show message.event.request.path = "/chall/" ++ shortId 2 from path, AcmeServer.answeredChallenge, kid,
      account]
    simp only [publicKeyFromJwk_jwk, verify_envelope member]
    rw [idIn_shortId.1, chall]
    simp only [ne_eq, not_true_eq_false, if_false, reads]
  have fits : Signer.sized 64 agentSignature = some ⟨agentSignature, halves_length _ _⟩ :=
    Signer.sized_self ⟨agentSignature, halves_length _ _⟩
  have checked : AcmeServer.checkAgent
      { id := shortId 2, type := "agent-01", status := answered, token, authzId := shortId 2, accountUrl } key
      (some (b64uEncode agentSignature)) = .ok () := by
    refine checkAgent_ok ⟨agentSignature, halves_length _ _⟩ rfl ?_
    exact decide_eq_true ⟨rfl, (if_pos rfl).trans fits⟩
  refine ⟨_, _, ⟨message.envelope, message.header, key, _, posts, ?_, publicKeyFromJwk_jwk, path', rfl, found,
    checked⟩, rfl, ?_⟩
  · exact ⟨kid, account, key, message.header, publicKeyFromJwk_jwk, verify_envelope member⟩
  · rw [challenge_serves posts path' found checked, renewed_nonces placed.nonces next]
    refine ⟨rfl, placed.account, ⟨finalizeUrl, certificateUrl, fun id => ?_⟩, fun id other => ?_, .valid, ?_⟩
    · simp only [State.answered, AList.lookup_mapValues, order]
      split <;> simp
    · simp only [State.answered, AList.lookup_modify, if_neg other, placed.authz id other]
    · simp only [State.answered, AList.lookup_modify, chall, if_true, Option.map_some]

/-- A certificate is issued for the order when it is ready. -/
theorem issues_message (message : Message) (placed : Placed s n .ready) (member : message ∈ messages)
    (next : message.number = n + 1) (known : message.jwk = none)
    (path : message.path = "/finalize/" ++ shortId 2) (payload : message.payload = finalizePayload) :
    ∃ os leaf t, Issues server s message.event (shortId 2) os leaf ∧ server.Step s message.event t ∧
      Placed t (n + 1) .valid := by
  obtain ⟨finalizeUrl, certificateUrl, order⟩ := placed.order
  have account : s.accountJwks.lookup accountUrl = some jwk := by rw [placed.account, if_pos rfl]
  have posts := posted placed.nonces member next
  have kid := kid_message message known
  have path' : Text.startsWith "/finalize/" message.event.request.path = true := by
    rw [show message.event.request.path = "/finalize/" ++ shortId 2 from path]
    exact List.isPrefixOf_iff_prefix.mpr (by simp)
  have ready : AcmeServer.readyOrder s message.envelope message.header (shortId 2) = .ok
      { identifier, status := .ready, authzId := shortId 2, finalizeUrl, accountUrl, certificateUrl } := by
    rw [AcmeServer.readyOrder, verifyAccount_message member known account, order, kid]
    rfl
  have reads : decodePayload Library.finalize message.envelope = .ok (some (b64uEncode csr)) := by
    have read := decodePayload_reads (b64uEncode csr) message
    rw [payload] at read
    exact read
  have fits : Signer.sized 32 keyBytes = some key := Signer.sized_self key
  have requested : AcmeServer.requestedKey message.envelope identifier = .ok key := by
    refine requestedKey_ok reads csr_ne_nil (if_pos rfl) rfl fits rfl
  obtain ⟨leaf, issued⟩ : ∃ leaf, server.issued s message.envelope message.header (shortId 2)
      message.event.draws.serial message.event.now = .ok ({ identifier, status := .ready, authzId := shortId 2
                                                            finalizeUrl, accountUrl, certificateUrl }, leaf) := by
    simp only [AcmeServer.issued, ready, requested, bind, Except.bind]
    exact ⟨_, rfl⟩
  have place : idIn "/finalize/" message.event.request.path = shortId 2 := by
    rw [show message.event.request.path = "/finalize/" ++ shortId 2 from path, idIn_shortId.2]
  refine ⟨_, leaf, _, ⟨message.envelope, message.header, jwk, posts, ?_, path', place.symm, issued⟩, rfl, ?_⟩
  · exact ⟨kid, account, key, message.header, publicKeyFromJwk_jwk, verify_envelope member⟩
  · rw [finalize_serves posts path' (place.symm ▸ issued), renewed_nonces placed.nonces next, place]
    refine ⟨rfl, placed.account, ⟨finalizeUrl, some (server.certUrl message.event), fun id => ?_⟩, placed.authz,
      placed.chall⟩
    simp only [State.certified, AList.lookup_modify, order, if_true, Option.map_some]
    split <;> rfl

theorem accountUrl_ne (other : message.number ≠ 1) : server.accountUrl message.event ≠ accountUrl :=
  fun same => other (shortId_injective ((String.append_right_inj _).mp same))

theorem fresh_message {history : List (State × Event)} (placed : Placed s n status)
    (others : ∀ past ∈ history, past.2.nonce ≠ nonce message.number)
    (later : message.number ≠ 1 ∧ message.number ≠ 2) : Fresh server history s message.event where
  nonce past there := others past there
  account := by
    rw [placed.account, if_neg (accountUrl_ne later.1)]
  order := by
    obtain ⟨finalizeUrl, certificateUrl, order⟩ := placed.order
    rw [order]
    exact if_neg fun same => later.2 (shortId_injective same)
  authz := placed.authz _ fun same => later.2 (shortId_injective same)

end

def opening : Event where
  request := { method := .get, path := "/new-nonce", body := .ok "" }
  draws := draws 0
  now := Duration.seconds 1800000000

def after (s : State) (e : Event) : State := (server.handleRequest s e.request e.draws e.now).2

theorem step_after (s : State) (e : Event) : server.Step s e (after s e) := rfl

theorem after_opening : after {} opening = { nonces := [nonce 0] } := by
  simp [after, AcmeServer.handleRequest, AcmeServer.route, opening, State.mintNonce, nonce]

def registered (n : UInt8) : State where
  nonces := [nonce n]
  accountJwks := (∅ : Assoc String Jwk).insert accountUrl jwk

theorem accountUrl_event : server.accountUrl account.event = accountUrl := rfl

theorem checkJwk_account : AcmeServer.checkJwk account.envelope jwk = .ok () :=
  checkJwk_ok publicKeyFromJwk_jwk (verify_envelope List.mem_cons_self)

theorem after_account : after { nonces := [nonce 0] } account.event = registered 1 := by
  have member : account ∈ messages := List.mem_cons_self
  have next : account.number = 0 + 1 := rfl
  have posts : Posted { nonces := [nonce 0] } account.event account.envelope account.header :=
    posted rfl member next
  have served := account_serves server posts rfl rfl checkJwk_account
  rw [renewed_nonces rfl next, accountUrl_event] at served
  rw [after, served, registered]
  rfl

theorem lookup_account {n : UInt8} (url : String) :
    (registered n).accountJwks.lookup url = if url = accountUrl then some jwk else none := by
  rw [registered, AList.lookup_insert_if, AList.lookup_empty]

theorem order_event : order.event.orderId = shortId 2 ∧ order.event.authzId = shortId 2 ∧
    order.event.challId = shortId 2 ∧ b64uEncode order.event.draws.token = token :=
  ⟨rfl, rfl, rfl, rfl⟩

theorem order_message : ∃ t, server.Step (registered 1) order.event t ∧ Placed t (1 + 1) .pending := by
  have member : order ∈ messages := List.mem_cons_of_mem _ List.mem_cons_self
  have next : order.number = 1 + 1 := rfl
  have posts : Posted (registered 1) order.event order.envelope order.header := posted rfl member next
  have known : (registered 1).accountJwks.lookup accountUrl = some jwk := by rw [lookup_account, if_pos rfl]
  have kid := kid_message order rfl
  have ordered : AcmeServer.orderedIdentifier (registered 1) order.envelope order.header = .ok identifier :=
    orderedIdentifier_ok (verifyAccount_message member rfl known)
      (decodePayload_reads [identifier] order)
  obtain ⟨orderId, authzId, challId, drawn⟩ := order_event
  refine ⟨_, step_after _ _, ?_⟩
  rw [after, order_serves posts rfl ordered, renewed_nonces rfl next, kid, orderId, authzId, challId, drawn,
    State.opened]
  exact {
    nonces := rfl
    account := lookup_account (n := 1)
    order := ⟨_, _, fun id => AList.lookup_insert_if⟩
    authz := fun id other => AList.lookup_insert_if.trans (if_neg other)
    chall := ⟨_, AList.lookup_insert _⟩ }

def history : List (State × Event) :=
  [({}, opening), ({ nonces := [nonce 0] }, account.event), (registered 1, order.event)]

theorem not_answers {s : State} {e : Event} {account : String} {jwk : Jwk} {ch : ChallengeState}
    (path : Text.startsWith "/chall/" e.request.path = false) : ¬ Answers s e account jwk ch := by
  rintro ⟨env, header, key, payload, -, -, -, begins, -⟩
  rw [path] at begins
  cases begins

theorem careful_of_fresh {s : State} {past : List (State × Event)} {e : Event} (fresh : Fresh server past s e)
    (path : Text.startsWith "/chall/" e.request.path = false) : Careful server past s e :=
  { fresh with settled := fun _ _ _ answers => absurd answers (not_answers path) }

theorem fresh_unplaced {s : State} {past : List (State × Event)} {e : Event}
    (others : ∀ entry ∈ past, entry.2.nonce ≠ e.nonce)
    (account : s.accountJwks.lookup (server.accountUrl e) = none) (orders : s.orders = ∅)
    (authzs : s.authzs = ∅) : Fresh server past s e where
  nonce := others
  account := account
  order := by rw [orders, AList.lookup_empty]
  authz := by rw [authzs, AList.lookup_empty]

theorem event_nonce :
    opening.nonce = nonce 0 ∧ ∀ message : Message, message.event.nonce = nonce message.number :=
  ⟨rfl, fun _ => rfl⟩

theorem nonce_ne {n m : UInt8} (other : n ≠ m) : nonce n ≠ nonce m := fun same => other (nonce_injective same)

theorem opening_run {t : State} (step : server.Step (registered 1) order.event t) :
    Run (CarefulStep server) ({}, []) [opening, account.event, order.event] (t, history) := by
  have first := after_opening ▸ step_after {} opening
  have second := after_account ▸ step_after { nonces := [nonce 0] } account.event
  obtain ⟨opens, numbered⟩ := event_nonce
  refine .next (t := ({ nonces := [nonce 0] }, [({}, opening)]))
    ⟨careful_of_fresh (fresh_unplaced nofun (AList.lookup_empty _) rfl rfl) (by decide), first, rfl⟩ ?_
  refine .next (t := (registered 1, [({}, opening), ({ nonces := [nonce 0] }, account.event)]))
    ⟨careful_of_fresh (fresh_unplaced ?_ (AList.lookup_empty _) rfl rfl) (by decide), second, rfl⟩ ?_
  · simp only [List.forall_mem_singleton, opens, numbered]
    exact nonce_ne (by decide)
  refine .single ⟨careful_of_fresh (fresh_unplaced ?_ ?_ rfl rfl) (by decide), step, rfl⟩
  · simp only [List.forall_mem_cons, opens, numbered]
    exact ⟨nonce_ne (by decide), nonce_ne (by decide), nofun⟩
  · rw [lookup_account, if_neg (accountUrl_ne (by decide))]

theorem Placed.found {s : State} {n : UInt8} {status : Status} (placed : Placed s n status) :
    ∃ os, s.orders.lookup (shortId 2) = some os ∧ os.status = status := by
  obtain ⟨finalizeUrl, certificateUrl, order⟩ := placed.order
  exact ⟨_, (order (shortId 2)).trans (if_pos rfl), rfl⟩

theorem finalize_path : Text.startsWith "/chall/" finalize.event.request.path = false :=
  startsWith_other "/finalize/" "/chall/" (List.isPrefixOf_iff_prefix.mpr (by simp [finalize, Message.event]))
    (by decide) (by decide)

theorem challenge_run : ∃ s past, Run (CarefulStep server) ({}, [])
    [opening, account.event, order.event, challenge.event] (s, past) ∧ Placed s 3 .ready ∧
    past.map (·.2) = [opening, account.event, order.event, challenge.event] := by
  obtain ⟨t, step, placed⟩ := order_message
  have member : challenge ∈ messages := by simp [messages]
  obtain ⟨ch, s, answers, answer, ready⟩ := answers_message challenge placed member rfl rfl rfl rfl
  obtain ⟨opens, numbered⟩ := event_nonce
  refine ⟨s, history ++ [(t, challenge.event)], (opening_run step).trans (.single ⟨?_, answer, rfl⟩), ready,
    rfl⟩
  refine { fresh_message placed ?_ ⟨by decide, by decide⟩ with settled := fun _ _ _ _ id os held _ => ?_ }
  · simp only [history, List.forall_mem_cons, opens, numbered]
    exact ⟨nonce_ne (by decide), nonce_ne (by decide), nonce_ne (by decide), nofun⟩
  · obtain ⟨finalizeUrl, certificateUrl, order⟩ := placed.order
    rw [order] at held
    split at held
    · cases held
      exact nofun
    · cases held

theorem fresh_next {s : State} {past : List (State × Event)} {n : UInt8} {status : Status}
    (earlier : List Message) (message : Message) (placed : Placed s n status)
    (before : past.map (·.2) = opening :: earlier.map Message.event)
    (others : message.number ∉ 0 :: earlier.map Message.number)
    (later : message.number ≠ 1 ∧ message.number ≠ 2) : Fresh server past s message.event := by
  refine fresh_message placed (fun entry there => ?_) later
  have listed : entry.2 ∈ opening :: earlier.map Message.event := before ▸ List.mem_map_of_mem there
  rcases List.mem_cons.mp listed with opens | sent
  · rw [opens]
    exact nonce_ne fun same => others (same ▸ List.mem_cons_self)
  · obtain ⟨other, member, same⟩ := List.mem_map.mp sent
    rw [← same]
    exact nonce_ne fun same => others (same ▸ List.mem_cons_of_mem _ (List.mem_map_of_mem member))

end Sample

open Sample in
/-- The order of the run is finalized once. -/
theorem order_safety_finalized : ∃ s past t os leaf, Run (CarefulStep server) ({}, [])
    [opening, account.event, order.event, challenge.event] (s, past) ∧
    CarefulStep server (s, past) finalize.event t ∧ Issues server s finalize.event (shortId 2) os leaf ∧
    ∀ later v, Run (CarefulStep server) t later v →
      ∀ e os' leaf', ¬ Issues server v.1 e (shortId 2) os' leaf' := by
  obtain ⟨s, past, run, placed, before⟩ := challenge_run
  have member : finalize ∈ messages := by simp [messages]
  obtain ⟨os, leaf, t, issues, step, -⟩ := issues_message finalize placed member rfl rfl rfl rfl
  have fresh := fresh_next [account, order, challenge] finalize placed before (by decide) ⟨by decide, by decide⟩
  have careful : CarefulStep server (s, past) finalize.event (t, past ++ [(s, finalize.event)]) :=
    ⟨careful_of_fresh fresh finalize_path, step, rfl⟩
  exact ⟨s, past, _, os, leaf, run, careful, issues,
    (order_safety run).2.2.2.2 _ _ _ _ _ careful issues⟩

open Sample in
/-- New random bytes alone are not enough: the challenge of an order that has its certificate is answered
again, the order goes back from valid to ready, and a second certificate is issued for it. -/
theorem order_served_again : ∃ s t u v, Run (FreshStep server) ({}, [])
    [opening, account.event, order.event, challenge.event] s ∧
    FreshStep server s finalize.event t ∧ FreshStep server t challengeAgain.event u ∧
    FreshStep server u finalizeAgain.event v ∧
    (∃ os leaf, Issues server s.1 finalize.event (shortId 2) os leaf) ∧
    (∃ os, t.1.orders.lookup (shortId 2) = some os ∧ os.status = .valid) ∧
    (∃ os, u.1.orders.lookup (shortId 2) = some os ∧ os.status = .ready) ∧
    ∃ os leaf, Issues server u.1 finalizeAgain.event (shortId 2) os leaf := by
  obtain ⟨s, past, run, placed, before⟩ := challenge_run
  obtain ⟨os, leaf, t, issues, step, served⟩ :=
    issues_message finalize placed (by simp [messages]) rfl rfl rfl rfl
  obtain ⟨ch, u, -, step', back⟩ :=
    answers_message challengeAgain served (by simp [messages]) rfl rfl rfl rfl
  obtain ⟨os', leaf', v, issues', step'', -⟩ :=
    issues_message finalizeAgain back (by simp [messages]) rfl rfl rfl rfl
  have events (added : List (State × Event)) : (past ++ added).map (·.2) =
      [opening, account.event, order.event, challenge.event] ++ added.map (·.2) := by
    rw [List.map_append, before]
  refine ⟨(s, past), (t, past ++ [(s, finalize.event)]),
    (u, past ++ [(s, finalize.event), (t, challengeAgain.event)]),
    (v, past ++ [(s, finalize.event), (t, challengeAgain.event), (u, finalizeAgain.event)]),
    run.mono fun step => ⟨step.1.toFresh, step.2⟩, ⟨?_, step, rfl⟩, ⟨?_, step', ?_⟩, ⟨?_, step'', ?_⟩,
    ⟨os, leaf, issues⟩, served.found, back.found, ⟨os', leaf', issues'⟩⟩
  · exact fresh_next [account, order, challenge] finalize placed before (by decide) ⟨by decide, by decide⟩
  · exact fresh_next [account, order, challenge, finalize] challengeAgain served (events _) (by decide)
      ⟨by decide, by decide⟩
  · rw [List.append_assoc]
    rfl
  · exact fresh_next [account, order, challenge, finalize, challengeAgain] finalizeAgain back (events _)
      (by decide) ⟨by decide, by decide⟩
  · rw [List.append_assoc]
    rfl

end Nps.Nip.Acme
