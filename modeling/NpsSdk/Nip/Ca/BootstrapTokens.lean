import NpsSdk.Nip.Ca.Ra
import NpsSdk.Nip.Ca.World

/-! Bootstrap tokens under interleaved enrollments. The policy consumes the token of a request
before the CA looks at the request itself; a registration that is refused afterwards has used its
token up. -/
namespace Nps.Nip.Ca
open Interaction Interaction.Prog Transition
open Wire (Bytes)

inductive TokenCall where
  | create (label : Option String) (expiresAt : Instant)
  | revoke (tokenId : String)
  | enroll (request : EnrollmentRequest)

inductive TokenReply where
  | created (token : String)
  | revoked (done : Bool)
  | enrolled (result : Except RegisterWithRaError IdentFrame)

section
variable [Ed25519] [Serde] [TimeText] (ca : NipCaService)

def TokenCall.program : TokenCall → CaProg TokenReply
  | create label expiresAt => (Ask.createToken label expiresAt).map .created
  | revoke tokenId => (Ask.revokeToken tokenId).map .revoked
  | enroll request => (ca.registerWithRa request bootstrapTokenPolicy).map .enrolled

variable [Sha256]

def bootstrap : System CaOp.Answer CaState TokenCall TokenReply where
  program := TokenCall.program ca
  exec := exec

end

abbrev TokenPool := Pool CaOp.Answer CaState TokenCall TokenReply

abbrev TokenEvent := Event CaOp.Answer TokenCall

namespace InMemoryBootstrapTokenStore
variable {hash : Bytes} {now : Instant} {tokenId : String} {tokens : List TokenEntry}

def usable (hash : Bytes) (now : Instant) (entry : TokenEntry) : Bool :=
  entry.consumed = false ∧ entry.revoked = false ∧ now ≤ entry.expiresAt ∧ entry.hash = hash

theorem consume_true (taken : (consume hash now tokens).1 = true) :
    ∃ entry, tokens[tokens.findIdx (usable hash now)]? = some entry ∧ usable hash now entry = true ∧
      (consume hash now tokens).2 =
        tokens.set (tokens.findIdx (usable hash now)) { entry with consumed := true } := by
  induction tokens with
  | nil => cases taken
  | cons first rest ih =>
    unfold consume at taken ⊢
    by_cases here : first.consumed = false ∧ first.revoked = false ∧ now ≤ first.expiresAt ∧
        first.hash = hash
    · have usable : usable hash now first = true := decide_eq_true here
      rw [if_pos here, List.findIdx_cons, usable]
      exact ⟨first, rfl, usable, rfl⟩
    · have unusable : usable hash now first = false := decide_eq_false here
      rw [if_neg here] at taken ⊢
      obtain ⟨entry, found, live, result⟩ := ih taken
      rw [List.findIdx_cons, unusable]
      exact ⟨entry, found, live, congrArg (first :: ·) result⟩

theorem consume_false (missed : (consume hash now tokens).1 = false) :
    (consume hash now tokens).2 = tokens := by
  induction tokens with
  | nil => rfl
  | cons first rest ih =>
    unfold consume at missed ⊢
    split at missed
    · cases missed
    · rename_i passed
      rw [if_neg passed]
      exact congrArg (first :: ·) (ih missed)

theorem revoke_true (done : (revoke tokenId tokens).1 = true) :
    ∃ entry, tokens[tokens.findIdx (·.id == tokenId)]? = some entry ∧ entry.id = tokenId ∧
      entry.consumed = false ∧ entry.revoked = false ∧ (revoke tokenId tokens).2 =
        tokens.set (tokens.findIdx (·.id == tokenId)) { entry with revoked := true } := by
  induction tokens with
  | nil => cases done
  | cons first rest ih =>
    unfold revoke at done ⊢
    by_cases own : first.id = tokenId
    · rw [if_neg (not_not.mpr own)] at done ⊢
      split at done
      · cases done
      · rename_i live
        obtain ⟨unconsumed, unrevoked⟩ := not_or.mp live
        rw [if_neg live, List.findIdx_cons, beq_iff_eq.mpr own]
        exact ⟨first, rfl, own, by simpa using unconsumed, by simpa using unrevoked, rfl⟩
    · rw [if_pos own] at done ⊢
      obtain ⟨entry, found, same, unconsumed, unrevoked, result⟩ := ih done
      rw [List.findIdx_cons, beq_false_of_ne own]
      exact ⟨entry, found, same, unconsumed, unrevoked, congrArg (first :: ·) result⟩

theorem revoke_false (missed : (revoke tokenId tokens).1 = false) :
    (revoke tokenId tokens).2 = tokens := by
  induction tokens with
  | nil => rfl
  | cons first rest ih =>
    unfold revoke at missed ⊢
    split at missed
    · rename_i other
      rw [if_pos other]
      exact congrArg (first :: ·) (ih missed)
    · rename_i own
      rw [if_neg own]
      split at missed
      · rename_i settled
        rw [if_pos settled]
      · cases missed

end InMemoryBootstrapTokenStore
open InMemoryBootstrapTokenStore

/-- What becomes of a token: it stays what it was issued as, and once it is consumed or revoked
nothing happens to it any more. -/
structure Ages (entry later : TokenEntry) : Prop where
  id : later.id = entry.id
  hash : later.hash = entry.hash
  expiresAt : later.expiresAt = entry.expiresAt
  settled : entry.consumed = true ∨ entry.revoked = true → later = entry

theorem Ages.refl (entry : TokenEntry) : Ages entry entry := ⟨rfl, rfl, rfl, fun _ => rfl⟩

theorem ages_set {k : Nat} {tokens : List TokenEntry} {place : Nat} {entry old replaced : TokenEntry}
    (here : tokens[place]? = some old) (ages : Ages old replaced) (found : tokens[k]? = some entry) :
    ∃ later, (tokens.set place replaced)[k]? = some later ∧ Ages entry later := by
  by_cases same : place = k
  · subst same
    cases here.symm.trans found
    exact ⟨replaced, List.getElem?_set_self (List.getElem?_eq_some_iff.mp found).1, ages⟩
  · exact ⟨entry, by rwa [List.getElem?_set_ne same], .refl entry⟩

/-- The token at this place is the one that the id stands for, and it is revoked. -/
def Withheld (tokenId : String) (k : Nat) (tokens : List TokenEntry) : Prop :=
  ∃ entry, tokens[k]? = some entry ∧ entry.id = tokenId ∧ entry.revoked = true ∧
    entry.consumed = false ∧
    ∀ (j : Nat) other, j < k → tokens[j]? = some other → other.id ≠ tokenId

/-- An enrollment that a token admitted: the thread of it, the place of the token and the time. -/
structure Admission where
  thread : Nat
  entry : Nat
  time : Instant

section
variable [Sha256] {s t : CaState} {op : CaOp} {answer : op.Answer} {k : Nat}

def admission (thread : Nat) (s t : CaState) : (op : CaOp) → op.Answer → List Admission
  | .validateAndConsume token, true =>
    [⟨thread, s.tokens.findIdx (usable (Sha256.digest (Text.utf8 token)) t.clock), t.clock⟩]
  | _, _ => []

/-- Tokens keep their places, whatever is done. -/
theorem exec_ages {entry : TokenEntry} (step : exec op s answer t)
    (found : s.tokens[k]? = some entry) : ∃ later, t.tokens[k]? = some later ∧ Ages entry later := by
  cases op with
  | createToken label expiresAt =>
    obtain ⟨-, -, -, -, -, rfl⟩ := step
    refine ⟨entry, ?_, .refl entry⟩
    rw [List.getElem?_append_left (List.getElem?_eq_some_iff.mp found).1]
    exact found
  | validateAndConsume token =>
    obtain ⟨now, -, -, rfl⟩ := step
    dsimp only
    cases taken : (consume (Sha256.digest (Text.utf8 token)) now s.tokens).1 with
    | false => exact ⟨entry, by rwa [consume_false taken], .refl entry⟩
    | true =>
      obtain ⟨old, here, live, result⟩ := consume_true taken
      obtain ⟨unconsumed, unrevoked, -⟩ := of_decide_eq_true live
      rw [result]
      refine ages_set here ⟨rfl, rfl, rfl, fun settled => ?_⟩ found
      simp [unconsumed, unrevoked] at settled
  | revokeToken tokenId =>
    obtain ⟨-, rfl⟩ := step
    dsimp only
    cases done : (InMemoryBootstrapTokenStore.revoke tokenId s.tokens).1 with
    | false => exact ⟨entry, by rwa [revoke_false done], .refl entry⟩
    | true =>
      obtain ⟨old, here, -, unconsumed, unrevoked, result⟩ := revoke_true done
      rw [result]
      refine ages_set here ⟨rfl, rfl, rfl, fun settled => ?_⟩ found
      simp [unconsumed, unrevoked] at settled
  | randomBytes | enqueue => cases step; exact ⟨entry, found, .refl entry⟩
  | _ => obtain ⟨-, rfl⟩ := step; exact ⟨entry, found, .refl entry⟩

/-- A token that is consumed was so before, or has just admitted an enrollment. -/
theorem exec_consumed {later : TokenEntry} (thread : Nat) (step : exec op s answer t)
    (found : t.tokens[k]? = some later) (consumed : later.consumed = true) :
    (∃ entry, s.tokens[k]? = some entry ∧ entry.consumed = true) ∨
      ∃ a ∈ admission thread s t op answer, a.entry = k := by
  cases op with
  | createToken label expiresAt =>
    obtain ⟨_, _, _, -, -, rfl⟩ := step
    rcases getElem?_concat found with old | ⟨-, rfl⟩
    · exact .inl ⟨later, old, consumed⟩
    · cases consumed
  | validateAndConsume token =>
    obtain ⟨now, -, rfl, rfl⟩ := step
    dsimp only at found
    cases taken : (consume (Sha256.digest (Text.utf8 token)) now s.tokens).1 with
    | false =>
      rw [consume_false taken] at found
      exact .inl ⟨later, found, consumed⟩
    | true =>
      obtain ⟨old, here, -, result⟩ := consume_true taken
      rw [result] at found
      by_cases same : s.tokens.findIdx (usable (Sha256.digest (Text.utf8 token)) now) = k
      · exact .inr ⟨_, List.mem_singleton_self _, same⟩
      · rw [List.getElem?_set_ne same] at found
        exact .inl ⟨later, found, consumed⟩
  | revokeToken tokenId =>
    obtain ⟨-, rfl⟩ := step
    dsimp only at found
    left
    cases done : (InMemoryBootstrapTokenStore.revoke tokenId s.tokens).1 with
    | false =>
      rw [revoke_false done] at found
      exact ⟨later, found, consumed⟩
    | true =>
      obtain ⟨old, here, -, unconsumed, -, result⟩ := revoke_true done
      rw [result] at found
      by_cases same : s.tokens.findIdx (·.id == tokenId) = k
      · subst same
        rw [List.getElem?_set_self (List.getElem?_eq_some_iff.mp here).1] at found
        cases found
        cases unconsumed.symm.trans consumed
      · rw [List.getElem?_set_ne same] at found
        exact ⟨later, found, consumed⟩
  | randomBytes | enqueue => cases step; exact .inl ⟨later, found, consumed⟩
  | _ => obtain ⟨-, rfl⟩ := step; exact .inl ⟨later, found, consumed⟩

/-- The token that is presented is live and unexpired at the place of the admission. -/
structure Admits (s t : CaState) (token : String) (a : Admission) (entry : TokenEntry) : Prop where
  here : s.tokens[a.entry]? = some entry
  unconsumed : entry.consumed = false
  unrevoked : entry.revoked = false
  unexpired : a.time ≤ entry.expiresAt
  hash : entry.hash = Sha256.digest (Text.utf8 token)
  taken : t.tokens[a.entry]? = some { entry with consumed := true }

theorem exec_admits {token : String} (thread : Nat) (step : exec (.validateAndConsume token) s true t) :
    ∃ a entry, admission thread s t (.validateAndConsume token) true = [a] ∧ a.thread = thread ∧
      Admits s t token a entry := by
  obtain ⟨now, -, taken, rfl⟩ := step
  obtain ⟨entry, here, live, result⟩ := consume_true taken.symm
  obtain ⟨unconsumed, unrevoked, unexpired, hash⟩ := of_decide_eq_true live
  refine ⟨_, entry, rfl, rfl, here, unconsumed, unrevoked, unexpired, hash, ?_⟩
  dsimp only
  rw [result]
  exact List.getElem?_set_self (List.getElem?_eq_some_iff.mp here).1

/-- Only a token that is consumed admits. -/
theorem admission_cases (thread : Nat) (step : exec op s answer t) :
    admission thread s t op answer = [] ∨ ∃ token a entry, op = .validateAndConsume token ∧
      admission thread s t op answer = [a] ∧ a.thread = thread ∧ Admits s t token a entry := by
  cases op with
  | validateAndConsume token =>
    cases answer with
    | false => exact .inl rfl
    | true =>
      obtain ⟨a, entry, same, acting, admits⟩ := exec_admits thread step
      exact .inr ⟨token, a, entry, rfl, same, acting, admits⟩
  | _ => exact .inl rfl

theorem admission_thread {thread : Nat} {a : Admission} (step : exec op s answer t)
    (member : a ∈ admission thread s t op answer) : a.thread = thread := by
  rcases admission_cases thread step with none | ⟨token, b, entry, rfl, one, acting, -⟩
  · rw [none] at member
    cases member
  · rw [one] at member
    cases List.mem_singleton.mp member
    exact acting

theorem exec_revokes {tokenId : String} (step : exec (.revokeToken tokenId) s true t) :
    ∃ k, Withheld tokenId k t.tokens := by
  obtain ⟨done, rfl⟩ := step
  obtain ⟨entry, here, own, unconsumed, -, result⟩ := revoke_true done.symm
  dsimp only
  rw [result]
  have bound := (List.getElem?_eq_some_iff.mp here).1
  refine ⟨_, { entry with revoked := true }, List.getElem?_set_self bound, own, rfl, unconsumed,
    fun j other before found same => ?_⟩
  rw [List.getElem?_set_ne before.ne'] at found
  obtain ⟨inside, rfl⟩ := List.getElem?_eq_some_iff.mp found
  exact beq_eq_false_iff_ne.mp (List.not_of_lt_findIdx before) same

theorem Withheld.kept {tokenId : String} (withheld : Withheld tokenId k s.tokens)
    (step : exec op s answer t) : Withheld tokenId k t.tokens := by
  obtain ⟨entry, here, own, revoked, unconsumed, others⟩ := withheld
  obtain ⟨later, there, ages⟩ := exec_ages step here
  obtain rfl := ages.settled (.inr revoked)
  refine ⟨later, there, own, revoked, unconsumed, fun j other before found => ?_⟩
  have bound : j < s.tokens.length := before.trans (List.getElem?_eq_some_iff.mp here).1
  obtain ⟨aged, found', ages'⟩ := exec_ages step (List.getElem?_eq_getElem bound)
  cases found.symm.trans found'
  rw [ages'.id]
  exact others j _ before (List.getElem?_eq_getElem bound)

end

def EnrollmentRequest.token (request : EnrollmentRequest) : String := request.enrollmentToken.getD ""

/-- No token is presented but the one that the request carries. -/
def PresentsOnly (token : Option String) : CaOp → Prop
  | .validateAndConsume presented => token = some presented
  | _ => True

/-- What a thread may present, and what an acknowledged revocation has brought about. -/
def TokenPhase (s : CaState) : TokenCall → CaProg TokenReply → Prop
  | .create _ _, p => Only (PresentsOnly none) p
  | .enroll request, p => Only (PresentsOnly (some request.token)) p
  | .revoke tokenId, p => p = .call (.revokeToken tokenId) (fun done => .done (.revoked done)) ∨
      ∃ done, p = .done (.revoked done) ∧ (done = true → ∃ k, Withheld tokenId k s.tokens)

def Succeeds : CaProg TokenReply → Prop
  | .done reply => ∃ frame, reply = .enrolled (.ok frame)
  | .call (.getByNid _) next => Succeeds (next none)
  | .call (.save _) next => Succeeds (next (.ok ()))
  | .call op next => Prepares op ∧ ∀ answer, Succeeds (next answer)

/-- The policy asks for nothing but the token, and refuses without it. -/
theorem bootstrapTokenPolicy_cases (request : EnrollmentRequest) :
    (∃ e, bootstrapTokenPolicy request = done (.deny e)) ∨ ∃ next,
      bootstrapTokenPolicy request = call (.validateAndConsume request.token) next ∧
        next true = done .admitted ∧ ∃ e, next false = done (.deny e) := by
  by_cases malformed : request.enrollmentToken.getD "" = "" ∨
      Text.startsWith "nps-bootstrap-" (request.enrollmentToken.getD "") = false
  · exact .inl ⟨_, if_pos malformed⟩
  · exact .inr ⟨_, if_neg malformed, rfl, _, rfl⟩

theorem only_bootstrapTokenPolicy (request : EnrollmentRequest) :
    Only (PresentsOnly (some request.token)) (bootstrapTokenPolicy request) := by
  rcases bootstrapTokenPolicy_cases request with ⟨e, same⟩ | ⟨next, same, admits, e, denies⟩
  · rw [same]
    trivial
  · rw [same]
    refine ⟨rfl, fun consumed => ?_⟩
    cases consumed with
    | true => rw [admits]; trivial
    | false => rw [denies]; trivial

section
variable [Ed25519] [Serde]

def Acceptable (ca : NipCaService) (request : EnrollmentRequest) : Prop :=
  ca.checkCapabilities request.capabilities = .ok () ∧
    ∃ scope, Serde.fromStr request.scopeJson = .ok scope

/-- No token is consumed yet, and one that is refused ends the thread. -/
def Applying (ca : NipCaService) (request : EnrollmentRequest) (p : CaProg TokenReply) : Prop :=
  (∃ e, p = .done (.enrolled (.error e))) ∨ ∃ next,
    p = .call (.validateAndConsume request.token) next ∧
      (∃ e, next false = .done (.enrolled (.error e))) ∧
      (Acceptable ca request → Succeeds (next true))

variable [TimeText] (ca : NipCaService)

theorem succeeds_register {request : EnrollmentRequest} (acceptable : Acceptable ca request) :
    Succeeds (Prog.map .enrolled ((ca.register request.entityType request.identifier request.pubKey
      request.capabilities request.scopeJson request.metadataJson) >>= fun result =>
        done (result.mapError .ca))) := by
  obtain ⟨allowed, scope, parsed⟩ := acceptable
  have issues (issuance : NipCaService.Issuance) (same : issuance.scopeJson = request.scopeJson) :
      ∃ frame, ca.issueFrame issuance = .ok frame := by
    unfold NipCaService.issueFrame
    rw [same, parsed]
    exact ⟨_, rfl⟩
  unfold NipCaService.register
  rw [allowed]
  refine ⟨trivial, fun now => ⟨trivial, fun serial => ?_⟩⟩
  obtain ⟨frame, issued⟩ := issues {
    nid := ca.buildNid request.entityType request.identifier, pubKey := request.pubKey
    capabilities := request.capabilities, scopeJson := request.scopeJson, issuedAt := now
    expiresAt := now + Duration.days (ca.validDays request.entityType), serial
    metadataJson := request.metadataJson } rfl
  dsimp only [Prog.bind]
  rw [issued]
  exact ⟨frame, rfl⟩

theorem applying_enroll (request : EnrollmentRequest) :
    Applying ca request ((TokenCall.enroll request).program ca) := by
  change Applying ca request (Prog.map .enrolled (bootstrapTokenPolicy request >>= _))
  rcases bootstrapTokenPolicy_cases request with ⟨e, same⟩ | ⟨next, same, admits, e, denies⟩
  · rw [same]
    exact .inl ⟨_, rfl⟩
  · rw [same]
    refine .inr ⟨_, rfl, ⟨.ca e, ?_⟩, fun acceptable => ?_⟩
    · change Prog.map _ (next false >>= _) = _
      rw [denies]
      rfl
    · change Succeeds (Prog.map _ (next true >>= _))
      rw [admits]
      exact succeeds_register ca acceptable

theorem tokenPhase_program (s : CaState) (call : TokenCall) : TokenPhase s call (call.program ca) := by
  cases call with
  | create label expiresAt => exact ⟨trivial, fun token => trivial⟩
  | revoke tokenId => exact .inl rfl
  | enroll request =>
    have presents (op : CaOp) (uses : Uses op) : PresentsOnly (some request.token) op := by
      cases op <;> trivial
    refine .map (.bind (only_bootstrapTokenPolicy request) fun outcome => ?_)
    cases outcome with
    | admitted => exact .bind ((savesLast_register ca _ _ _ _ _ _).uses.mono presents) fun result => trivial
    | deny e => trivial
    | pending id => trivial

end

def admitted [Sha256] (pool : TokenPool) (event : TokenEvent) (after : TokenPool) : List Admission :=
  match event with
  | .start _ => []
  | .act thread op answer => admission thread pool.shared after.shared op answer

/-- What holds of the tokens, of the enrollments that they admitted and of the threads in any run. -/
structure Admitting [Sha256] (start : CaState) (pool : TokenPool) (admissions : List Admission) :
    Prop where
  entries : ∀ a ∈ admissions, ∃ entry request p,
    pool.shared.tokens[a.entry]? = some entry ∧ pool.threads[a.thread]? = some (.enroll request, p) ∧
    entry.hash = Sha256.digest (Text.utf8 request.token) ∧ a.time ≤ entry.expiresAt ∧
    entry.consumed = true ∧ entry.revoked = false
  once : (admissions.map (·.entry)).Nodup
  accounted : ∀ (k : Nat) entry, pool.shared.tokens[k]? = some entry → entry.consumed = true →
    (∃ old, start.tokens[k]? = some old ∧ old.consumed = true) ∨ ∃ a ∈ admissions, a.entry = k
  threads : ∀ (i : Nat) call p, pool.threads[i]? = some (call, p) → TokenPhase pool.shared call p

section Phases
variable {s t : CaState} {op : CaOp} {answer : op.Answer} {call : TokenCall}

theorem TokenPhase.presents {token : String} {next : Bool → CaProg TokenReply}
    (phase : TokenPhase s call (.call (.validateAndConsume token) next)) :
    ∃ request, call = .enroll request ∧ request.token = token := by
  cases call with
  | create label expiresAt => cases phase.1
  | enroll request => exact ⟨request, rfl, Option.some.inj phase.1⟩
  | revoke tokenId =>
    rcases phase with same | ⟨done, last, -⟩
    · cases same
    · cases last

variable [Sha256]

theorem TokenPhase.waits {p : CaProg TokenReply} (phase : TokenPhase s call p)
    (step : exec op s answer t) : TokenPhase t call p := by
  cases call with
  | create label expiresAt => exact phase
  | enroll request => exact phase
  | revoke tokenId =>
    refine phase.imp_right ?_
    rintro ⟨done, last, withheld⟩
    refine ⟨done, last, fun acknowledged => ?_⟩
    obtain ⟨k, withheld⟩ := withheld acknowledged
    exact ⟨k, withheld.kept step⟩

theorem TokenPhase.acts {next : op.Answer → CaProg TokenReply}
    (phase : TokenPhase s call (.call op next)) (step : exec op s answer t) :
    TokenPhase t call (next answer) := by
  cases call with
  | create label expiresAt => exact phase.2 answer
  | enroll request => exact phase.2 answer
  | revoke tokenId =>
    rcases phase with same | ⟨done, last, -⟩
    · cases same
      refine .inr ⟨answer, rfl, ?_⟩
      rintro rfl
      exact exec_revokes step
    · cases last

end Phases

section
variable [Sha256] {start : CaState} {pool : TokenPool} {admissions : List Admission}

theorem Admitting.withheld (admitting : Admitting start pool admissions) {tokenId : String}
    (acknowledged : (.revoke tokenId, .done (.revoked true)) ∈ pool.threads) :
    ∃ k, Withheld tokenId k pool.shared.tokens ∧ ∀ a ∈ admissions, a.entry ≠ k := by
  obtain ⟨i, found⟩ := List.mem_iff_getElem?.mp acknowledged
  rcases admitting.threads i _ _ found with same | ⟨done, same, withheld⟩
  · cases same
  · cases same
    obtain ⟨k, entry, here, own, revoked, unconsumed, first⟩ := withheld rfl
    refine ⟨k, ⟨entry, here, own, revoked, unconsumed, first⟩, ?_⟩
    rintro a member rfl
    obtain ⟨entry', -, -, here', -, -, -, consumed, -⟩ := admitting.entries a member
    cases here.symm.trans here'
    cases unconsumed.symm.trans consumed

theorem Admitting.known (admitting : Admitting start pool admissions) :
    ∀ a ∈ admissions, a.thread < pool.threads.length := by
  intro a member
  obtain ⟨-, request, p, -, caller, -⟩ := admitting.entries a member
  exact (List.getElem?_eq_some_iff.mp caller).1

end

section
variable [Ed25519] [Serde] {ca : NipCaService} {pool : TokenPool}

/-- A token is only consumed for a request that the CA accepts, and an admitted registration finds
its NID free and its serial new. -/
def Unhindered (ca : NipCaService) (pool : TokenPool) : TokenEvent → Prop
  | .act thread (.validateAndConsume _) true =>
    ∀ request p, pool.threads[thread]? = some (.enroll request, p) → Acceptable ca request
  | .act _ (.getByNid nid) _ => pool.shared.certs.getByNid nid = none
  | .act _ (.save record) _ => ∀ other ∈ pool.shared.certs.records, other.serial ≠ record.serial
  | _ => True

variable [Sha256]

theorem Succeeds.acts {thread : Nat} {op : CaOp} {answer : op.Answer} {t : CaState}
    {next : op.Answer → CaProg TokenReply} (succeeds : Succeeds (.call op next))
    (unhindered : Unhindered ca pool (.act thread op answer)) (step : exec op pool.shared answer t) :
    Succeeds (next answer) := by
  cases op with
  | getByNid nid =>
    obtain ⟨rfl, -⟩ := step
    rw [show pool.shared.certs.getByNid nid = none from unhindered]
    exact succeeds
  | save record =>
    obtain ⟨rfl, -⟩ := step
    rw [InMemoryNipCaStore.save_new unhindered]
    exact succeeds
  | now | nextSerial | randomBytes => exact succeeds.2 answer
  | _ => exact succeeds.1.elim

end

section Steps
variable [Ed25519] [Serde] [TimeText] [Sha256] {ca : NipCaService} {start : CaState}
  {pool after : TokenPool} {event : TokenEvent} {admissions : List Admission}

theorem Admitting.step (admitting : Admitting start pool admissions)
    (step : (bootstrap ca).Step pool event after) :
    Admitting start after (admissions ++ admitted pool event after) := by
  have old : ∀ a ∈ admissions, ∃ entry request p,
      after.shared.tokens[a.entry]? = some entry ∧ after.threads[a.thread]? = some (.enroll request, p) ∧
      entry.hash = Sha256.digest (Text.utf8 request.token) ∧ a.time ≤ entry.expiresAt ∧
      entry.consumed = true ∧ entry.revoked = false := by
    intro a member
    obtain ⟨entry, request, p, here, caller, hash, unexpired, consumed, unrevoked⟩ :=
      admitting.entries a member
    obtain ⟨q, later⟩ := step.caller ⟨p, caller⟩
    refine ⟨entry, request, q, ?_, later, hash, unexpired, consumed, unrevoked⟩
    cases step with
    | start call => exact here
    | act acted exec =>
      obtain ⟨aged, there, ages⟩ := exec_ages exec here
      rwa [ages.settled (.inl consumed)] at there
  have threads : ∀ (i : Nat) call p, after.threads[i]? = some (call, p) →
      TokenPhase after.shared call p := by
    intro i call p found
    rcases step.threadAt found with before | ⟨op, next, answer, -, acted, exec, rfl⟩ | ⟨-, rfl⟩
    · cases step with
      | start fresh => exact admitting.threads i call p before
      | act acted exec => exact (admitting.threads i call p before).waits exec
    · exact (admitting.threads i call _ acted).acts exec
    · exact tokenPhase_program ca after.shared call
  cases event with
  | start call =>
    cases step
    change Admitting start _ (admissions ++ [])
    rw [List.append_nil]
    exact ⟨old, admitting.once, admitting.accounted, threads⟩
  | act thread op answer =>
    obtain ⟨call, next, found, exec⟩ : ∃ call next, pool.threads[thread]? = some (call, .call op next) ∧
        exec op pool.shared answer after.shared := by
      cases step with
      | act found exec => exact ⟨_, _, found, exec⟩
    have accounted : ∀ (k : Nat) entry, after.shared.tokens[k]? = some entry → entry.consumed = true →
        (∃ old, start.tokens[k]? = some old ∧ old.consumed = true) ∨
          ∃ a ∈ admissions ++ admitted pool (.act thread op answer) after, a.entry = k := by
      intro k entry here consumed
      rcases exec_consumed thread exec here consumed with ⟨before, there, spent⟩ | ⟨a, member, same⟩
      · refine (admitting.accounted k before there spent).imp_right ?_
        rintro ⟨a, member, same⟩
        exact ⟨a, List.mem_append_left _ member, same⟩
      · exact .inr ⟨a, List.mem_append_right _ member, same⟩
    change Admitting start after (admissions ++ admission thread pool.shared after.shared op answer)
    change ∀ (k : Nat) entry, _ → _ → _ ∨
      ∃ a ∈ admissions ++ admission thread pool.shared after.shared op answer, _ at accounted
    rcases admission_cases thread exec with none | ⟨token, a, fresh, rfl, one, acting, admits⟩
    · rw [none, List.append_nil] at accounted ⊢
      exact ⟨old, admitting.once, accounted, threads⟩
    · rw [one] at accounted ⊢
      refine ⟨?entries, ?once, accounted, threads⟩
      case entries =>
        intro b member
        rcases List.mem_append.mp member with before | new
        · exact old b before
        · cases List.mem_singleton.mp new
          obtain ⟨request, rfl, presented⟩ := (admitting.threads thread call _ found).presents
          obtain ⟨q, later⟩ := step.caller ⟨_, found⟩
          rw [← acting] at later
          refine ⟨_, request, q, admits.taken, later, ?_, admits.unexpired, rfl, admits.unrevoked⟩
          rw [presented]
          exact admits.hash
      case once =>
        rw [List.map_append]
        refine List.nodup_append.mpr ⟨admitting.once, List.nodup_singleton _, ?_⟩
        rintro k first k' second rfl
        obtain ⟨b, member, same⟩ := List.mem_map.mp first
        cases List.mem_singleton.mp second
        obtain ⟨entry, -, -, here, -, -, -, consumed, -⟩ := admitting.entries b member
        rw [same] at here
        cases here.symm.trans admits.here
        cases admits.unconsumed.symm.trans consumed

/-- An enrollment has not consumed its token yet, or it will return a frame. -/
def Serving (ca : NipCaService) (pool : TokenPool) (admissions : List Admission) : Prop :=
  ∀ (i : Nat) request p, pool.threads[i]? = some (.enroll request, p) →
    (Applying ca request p ∧ ∀ a ∈ admissions, a.thread ≠ i) ∨ Succeeds p

theorem Serving.step (serving : Serving ca pool admissions)
    (unhindered : Unhindered ca pool event) (step : (bootstrap ca).Step pool event after)
    (known : ∀ a ∈ admissions, a.thread < pool.threads.length) :
    Serving ca after (admissions ++ admitted pool event after) := by
  intro i request p found
  cases step with
  | start call =>
    change (_ ∧ ∀ a ∈ admissions ++ [], _) ∨ _
    rw [List.append_nil]
    rcases getElem?_concat found with old | ⟨rfl, same⟩
    · exact serving i request p old
    · cases same
      exact .inl ⟨applying_enroll ca request, fun a member => (known a member).ne⟩
  | @act thread call op next answer shared acted exec =>
    rcases getElem?_set_append found with ⟨different, old⟩ | ⟨rfl, same⟩ | ⟨-, -, new⟩
    · refine (serving i request p old).imp_left ?_
      rintro ⟨applying, others⟩
      refine ⟨applying, fun a member => ?_⟩
      rcases List.mem_append.mp member with before | fresh
      · exact others a before
      · have acting : a.thread = thread := admission_thread exec fresh
        exact fun same => different (same.symm.trans acting)
    · cases same
      rcases serving _ request _ acted with ⟨applying, others⟩ | succeeds
      · rcases applying with ⟨e, last⟩ | ⟨next', same, ⟨e, refused⟩, succeeds⟩
        · cases last
        · cases same
          cases answer with
          | false =>
            refine .inl ⟨.inl ⟨e, refused⟩, ?_⟩
            change ∀ a ∈ admissions ++ [], _
            rwa [List.append_nil]
          | true => exact .inr (succeeds (unhindered request _ acted))
      · exact .inr (succeeds.acts unhindered exec)
    · cases new

/-- No token admits two enrollments; one that admits is the token that was presented, and it had
not expired; one whose revocation was acknowledged admits none; and a token that was consumed has
admitted an enrollment that ends, if it ends, with a frame. -/
structure SingleUse (start : CaState) (pool : TokenPool) (admissions : List Admission) : Prop where
  once : (admissions.map (·.entry)).Nodup
  presented : ∀ a ∈ admissions, ∃ entry request p, pool.shared.tokens[a.entry]? = some entry ∧
    pool.threads[a.thread]? = some (.enroll request, p) ∧
    entry.hash = Sha256.digest (Text.utf8 request.token) ∧ a.time ≤ entry.expiresAt
  withheld : ∀ tokenId, (.revoke tokenId, .done (.revoked true)) ∈ pool.threads →
    ∃ k, Withheld tokenId k pool.shared.tokens ∧ ∀ a ∈ admissions, a.entry ≠ k
  returned : ∀ (k : Nat) entry, pool.shared.tokens[k]? = some entry → entry.consumed = true →
    (∃ old, start.tokens[k]? = some old ∧ old.consumed = true) ∨
      ∃ a ∈ admissions, a.entry = k ∧ ∀ call reply,
        pool.threads[a.thread]? = some (call, .done reply) → ∃ frame, reply = .enrolled (.ok frame)

/-- In a run that nothing hinders, tokens are for single use and none is lost. -/
theorem tokens_single_use {events : List TokenEvent}
    (run : Run (Logged admitted (Guarded (Unhindered ca) (bootstrap ca).Step)) (⟨start, []⟩, [])
      events (pool, admissions)) : SingleUse start pool admissions := by
  have initial : Admitting start ⟨start, []⟩ [] ∧ Serving ca ⟨start, []⟩ [] := by
    refine ⟨⟨?_, List.nodup_nil, fun k entry here consumed => .inl ⟨entry, here, consumed⟩, ?_⟩, ?_⟩
    · intro a member
      cases member
    · intro i call p found
      cases found
    · intro i request p found
      cases found
  have both := run.invariant
    (P := fun state => Admitting start state.1 state.2 ∧ Serving ca state.1 state.2)
    (fun {s e t} holds step => ?_) initial
  · obtain ⟨admitting, serving⟩ := both
    refine ⟨admitting.once, fun a member => ?_, fun tokenId => admitting.withheld,
      fun k entry here consumed => ?_⟩
    · obtain ⟨entry, request, p, here, caller, hash, unexpired, -⟩ := admitting.entries a member
      exact ⟨entry, request, p, here, caller, hash, unexpired⟩
    · refine (admitting.accounted k entry here consumed).imp_right ?_
      rintro ⟨a, member, same⟩
      refine ⟨a, member, same, fun call reply found => ?_⟩
      obtain ⟨-, request, p, -, caller, -⟩ := admitting.entries a member
      cases found.symm.trans caller
      rcases serving _ request _ caller with ⟨-, others⟩ | succeeds
      · exact absurd rfl (others a member)
      · exact succeeds
  · obtain ⟨⟨unhindered, step⟩, logs⟩ := step
    obtain ⟨admitting, serving⟩ := holds
    rw [logs]
    exact ⟨admitting.step step, serving.step unhindered step admitting.known⟩

end Steps

namespace OneToken
open Sample

def token : String := "nps-bootstrap-00000000000000000000000000000000"

def request (scopeJson : String) : EnrollmentRequest where
  entityType := "agent"
  identifier := "a1"
  pubKey := ca.getCaPublicKey
  capabilities := ["nwp:query"]
  scopeJson := scopeJson
  metadataJson := none
  enrollmentToken := some token

def moves (scopeJson : String) : List (Move TokenCall) :=
  [.start (.create none (Duration.days 1)), .run 0 1, .start (.enroll (request scopeJson)), .run 1 5]

def played (scopeJson : String) : List TokenEvent × TokenPool :=
  (bootstrap ca).play (handler 0) (moves scopeJson) ⟨{}, []⟩

def unhindered (pool : TokenPool) : TokenEvent → Bool
  | .act thread (.validateAndConsume _) _ =>
    match pool.threads[thread]? with
    | some (.enroll request, _) =>
      (ca.checkCapabilities request.capabilities).isOk && (Serde.fromStr request.scopeJson).isOk
    | _ => true
  | .act _ (.getByNid nid) _ => (pool.shared.certs.getByNid nid).isNone
  | .act _ (.save record) _ => pool.shared.certs.records.all (·.serial != record.serial)
  | _ => true

theorem unhindered_sound (pool : TokenPool) (event : TokenEvent)
    (met : unhindered pool event = true) : Unhindered ca pool event := by
  cases event with
  | start call => trivial
  | act thread op answer =>
    cases op <;> try trivial
    case getByNid nid => exact Option.isNone_iff_eq_none.mp met
    case save record =>
      have fresh : pool.shared.certs.records.all (·.serial != record.serial) = true := met
      change ∀ other ∈ pool.shared.certs.records, _
      simpa using fresh
    case validateAndConsume token =>
      cases answer with
      | false => trivial
      | true =>
        intro request p found
        simp only [unhindered, found] at met
        obtain ⟨allowed, parsed⟩ := Bool.and_eq_true_iff.mp met
        refine ⟨?_, ?_⟩
        · cases checked : ca.checkCapabilities request.capabilities with
          | ok => rfl
          | error e => rw [checked] at allowed; cases allowed
        · cases read : Serde.fromStr request.scopeJson with
          | ok scope => exact ⟨scope, rfl⟩
          | error e => rw [read] at parsed; cases parsed

theorem accepted_single_use : ∃ events pool admissions,
    Run (Logged admitted (Guarded (Unhindered ca) (bootstrap ca).Step)) (⟨{}, []⟩, []) events
      (pool, admissions) ∧ SingleUse {} pool admissions ∧ pool.shared.tokens.map (·.consumed) = [true] := by
  have run : Run (Guarded (Unhindered ca) (bootstrap ca).Step) ⟨{}, []⟩ (played "\x7b\x7d").1
      (played "\x7b\x7d").2 :=
    System.run_play_guarded (handler_faithful 0) unhindered_sound (moves "\x7b\x7d") ⟨{}, []⟩ rfl
  obtain ⟨admissions, run⟩ := run.logged admitted []
  exact ⟨_, _, admissions, run, tokens_single_use run, by decide +kernel⟩

def refused (pool : TokenPool) : Bool :=
  pool.threads.all fun
    | (.enroll _, .done (.enrolled (.error _))) => true
    | (.enroll _, _) => false
    | _ => true

theorem refused_sound {pool : TokenPool} (met : refused pool = true) {request : EnrollmentRequest}
    {p : CaProg TokenReply} (member : (.enroll request, p) ∈ pool.threads) :
    ∃ e, p = .done (.enrolled (.error e)) := by
  have here := List.all_eq_true.mp met _ member
  split at here
  · rename_i same
    cases same
    exact ⟨_, rfl⟩
  · cases here
  · rename_i other
    exact absurd rfl (other _ _)

/-- The scope does not parse, and the token is consumed. -/
theorem refused_consumed : ∃ events pool admissions,
    Run (Logged admitted (bootstrap ca).Step) (⟨{}, []⟩, []) events (pool, admissions) ∧
      ¬ SingleUse {} pool admissions := by
  have run : Run (bootstrap ca).Step ⟨{}, []⟩ (played "\x7b").1 (played "\x7b").2 :=
    System.run_play (handler_faithful 0) (moves "\x7b") _
  obtain ⟨admissions, run⟩ := run.logged admitted []
  have consumed : (played "\x7b").2.shared.tokens[0]?.map (·.consumed) = some true := by decide +kernel
  have refused : refused (played "\x7b").2 = true := by decide +kernel
  refine ⟨_, _, admissions, run, fun single => ?_⟩
  obtain ⟨entry, here, consumed⟩ := Option.map_eq_some_iff.mp consumed
  rcases single.returned 0 entry here consumed with ⟨old, there, -⟩ | ⟨a, member, -, returned⟩
  · cases there
  · obtain ⟨-, request, p, -, caller, -⟩ := single.presented a member
    obtain ⟨e, rfl⟩ := refused_sound refused (List.mem_of_getElem? caller)
    obtain ⟨frame, same⟩ := returned _ _ caller
    cases same

end OneToken
end Nps.Nip.Ca
