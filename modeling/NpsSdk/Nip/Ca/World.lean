import NpsSdk.Nip.Ca.Issuance

/-! The surroundings of the CA: its in-memory stores and the clock, and what each operation
does to them. -/
namespace Nps.Nip.Ca
open Interaction
open Wire (Bytes)

structure TokenEntry where
  id : String
  hash : Bytes
  label : Option String
  createdAt : Instant
  expiresAt : Instant
  consumed : Bool
  revoked : Bool
deriving DecidableEq

namespace InMemoryBootstrapTokenStore

/-- Consume the first live and unexpired token with the hash. -/
def consume (hash : Bytes) (now : Instant) : List TokenEntry → Bool × List TokenEntry
  | [] => (false, [])
  | entry :: rest =>
    if entry.consumed = false ∧ entry.revoked = false ∧ now ≤ entry.expiresAt ∧ entry.hash = hash then
      (true, { entry with consumed := true } :: rest)
    else ((consume hash now rest).1, entry :: (consume hash now rest).2)

/-- Only the first token of the id counts, and only while it is live. -/
def revoke (tokenId : String) : List TokenEntry → Bool × List TokenEntry
  | [] => (false, [])
  | entry :: rest =>
    if entry.id ≠ tokenId then ((revoke tokenId rest).1, entry :: (revoke tokenId rest).2)
    else if entry.consumed ∨ entry.revoked then (false, entry :: rest)
    else (true, { entry with revoked := true } :: rest)

end InMemoryBootstrapTokenStore

namespace InMemoryPendingStore

def settle (id : String) (decide : PendingRegistration → PendingRegistration) :
    List PendingRegistration → Bool × List PendingRegistration
  | [] => (false, [])
  | record :: rest =>
    if record.id = id then
      if record.status = .pending then (true, decide record :: rest) else (false, record :: rest)
    else ((settle id decide rest).1, record :: (settle id decide rest).2)

def approve (id : String) : List PendingRegistration → Bool × List PendingRegistration :=
  settle id fun record => { record with status := .approved }

def reject (id reason : String) : List PendingRegistration → Bool × List PendingRegistration :=
  settle id fun record => { record with status := .rejected, rejectReason := some reason }

variable {id : String} {decide : PendingRegistration → PendingRegistration}
  {queue : List PendingRegistration}

theorem settle_idle
    (settled : ∀ record, queue.find? (·.id == id) = some record → record.status ≠ .pending) :
    settle id decide queue = (false, queue) := by
  induction queue with
  | nil => rfl
  | cons record rest ih =>
    unfold settle
    by_cases same : record.id = id
    · have done : record.status ≠ .pending := settled record (by simp [same])
      rw [if_pos same, if_neg done]
    · have later := ih fun other found => settled other (by simpa [same] using found)
      rw [if_neg same, later]

theorem settle_changes {record : PendingRegistration}
    (found : queue.find? (·.id == id) = some record) (waiting : record.status = .pending)
    (decides : ∀ record, (decide record).status ≠ .pending) :
    (settle id decide queue).2 ≠ queue := by
  induction queue with
  | nil => cases found
  | cons head rest ih =>
    unfold settle
    by_cases same : head.id = id
    · have : head = record := by simpa [same] using found
      subst this
      rw [if_pos same, if_pos waiting]
      intro unchanged
      have kept := (List.cons.inj unchanged).1
      apply decides head
      rw [kept, waiting]
    · rw [if_neg same]
      intro unchanged
      exact ih (by simpa [same] using found) (List.cons.inj unchanged).2

theorem settle_split {record : PendingRegistration}
    (found : queue.find? (·.id == id) = some record)
    (pending : record.status = .pending) : ∃ before after, queue = before ++ record :: after ∧
      (∀ other ∈ before, other.id ≠ id) ∧ record.id = id ∧
      settle id decide queue = (true, before ++ decide record :: after) := by
  induction queue with
  | nil => cases found
  | cons first rest ih =>
    unfold settle
    by_cases same : first.id = id
    · obtain rfl : first = record := by simpa [same] using found
      rw [if_pos same, if_pos pending]
      exact ⟨[], rest, rfl, by simp, same, rfl⟩
    · obtain ⟨before, after, rfl, others, own, settled⟩ := ih (by simpa [same] using found)
      rw [if_neg same, settled]
      exact ⟨first :: before, after, rfl, List.forall_mem_cons.mpr ⟨same, others⟩, own, rfl⟩

theorem settle_length : (settle id decide queue).2.length = queue.length := by
  induction queue with
  | nil => rfl
  | cons first rest ih =>
    unfold settle
    split
    · split <;> rfl
    · exact congrArg (· + 1) ih

end InMemoryPendingStore

structure CaState where
  certs : InMemoryNipCaStore := {}
  tokens : List TokenEntry := []
  pending : List PendingRegistration := []
  clock : Instant := 0
deriving DecidableEq

/-- One operation on the in-memory stores. Time passes as it likes, and only forward. -/
def exec [Sha256] : (op : CaOp) → CaState → op.Answer → CaState → Prop
  | .getByNid nid, s, answer, t => answer = s.certs.getByNid nid ∧ t = s
  | .getByParentNid nid, s, answer, t => answer = s.certs.getByParentNid nid ∧ t = s
  | .list, s, answer, t => answer = s.certs.records ∧ t = s
  | .getRevoked, s, answer, t => answer = s.certs.getRevoked ∧ t = s
  | .save record, s, answer, t =>
    answer = (s.certs.save record).1 ∧ t = { s with certs := (s.certs.save record).2 }
  | .revoke nid reason revokedAt, s, answer, t =>
    answer = (s.certs.revoke nid reason revokedAt).1 ∧
      t = { s with certs := (s.certs.revoke nid reason revokedAt).2 }
  | .nextSerial, s, answer, t =>
    answer = s.certs.nextSerial.1 ∧ t = { s with certs := s.certs.nextSerial.2 }
  | .now, s, answer, t => s.clock ≤ answer ∧ t = { s with clock := answer }
  | .randomBytes _, s, _, t => t = s
  | .createToken label expiresAt, s, answer, t =>
    ∃ (random : { bytes : Bytes // bytes.length = 16 }) (id : String) (now : Instant),
      s.clock ≤ now ∧ answer = "nps-bootstrap-" ++ Hex.encode random.1 ∧
      t = { s with
        clock := now
        tokens := s.tokens ++ [{
          id, label, expiresAt, hash := Sha256.digest (Text.utf8 answer), createdAt := now
          consumed := false, revoked := false }] }
  | .validateAndConsume token, s, answer, t =>
    ∃ now, s.clock ≤ now ∧
      let consumed := InMemoryBootstrapTokenStore.consume (Sha256.digest (Text.utf8 token)) now s.tokens
      answer = consumed.1 ∧ t = { s with clock := now, tokens := consumed.2 }
  | .revokeToken tokenId, s, answer, t =>
    answer = (InMemoryBootstrapTokenStore.revoke tokenId s.tokens).1 ∧
      t = { s with tokens := (InMemoryBootstrapTokenStore.revoke tokenId s.tokens).2 }
  | .enqueue request, s, _, t => t = { s with pending := s.pending ++ [request] }
  | .listPending, s, answer, t => answer = s.pending ∧ t = s
  | .getPending id, s, answer, t => answer = s.pending.find? (·.id == id) ∧ t = s
  | .approve id, s, answer, t =>
    answer = (InMemoryPendingStore.approve id s.pending).1 ∧
      t = { s with pending := (InMemoryPendingStore.approve id s.pending).2 }
  | .reject id reason, s, answer, t =>
    answer = (InMemoryPendingStore.reject id reason s.pending).1 ∧
      t = { s with pending := (InMemoryPendingStore.reject id reason s.pending).2 }
  | .pendingCount, s, answer, t =>
    answer = (s.pending.filter (·.status == .pending)).length ∧ t = s

/-- Surroundings with a clock that stands still once it shows the given instant, and random
bytes that are all zero. -/
def handler [Sha256] (instant : Instant) : (op : CaOp) → CaState → op.Answer × CaState
  | .getByNid nid, s => (s.certs.getByNid nid, s)
  | .getByParentNid nid, s => (s.certs.getByParentNid nid, s)
  | .list, s => (s.certs.records, s)
  | .getRevoked, s => (s.certs.getRevoked, s)
  | .save record, s => ((s.certs.save record).1, { s with certs := (s.certs.save record).2 })
  | .revoke nid reason revokedAt, s =>
    ((s.certs.revoke nid reason revokedAt).1,
      { s with certs := (s.certs.revoke nid reason revokedAt).2 })
  | .nextSerial, s => (s.certs.nextSerial.1, { s with certs := s.certs.nextSerial.2 })
  | .now, s => (max s.clock instant, { s with clock := max s.clock instant })
  | .randomBytes count, s => (⟨List.replicate count 0, List.length_replicate⟩, s)
  | .createToken label expiresAt, s =>
    let raw := "nps-bootstrap-" ++ Hex.encode (List.replicate 16 0)
    (raw, { s with
      tokens := s.tokens ++ [{
        id := Hex.encode (List.replicate 16 0), label, expiresAt
        hash := Sha256.digest (Text.utf8 raw), createdAt := s.clock
        consumed := false, revoked := false }] })
  | .validateAndConsume token, s =>
    let consumed :=
      InMemoryBootstrapTokenStore.consume (Sha256.digest (Text.utf8 token)) s.clock s.tokens
    (consumed.1, { s with tokens := consumed.2 })
  | .revokeToken tokenId, s =>
    ((InMemoryBootstrapTokenStore.revoke tokenId s.tokens).1,
      { s with tokens := (InMemoryBootstrapTokenStore.revoke tokenId s.tokens).2 })
  | .enqueue request, s => ((), { s with pending := s.pending ++ [request] })
  | .listPending, s => (s.pending, s)
  | .getPending id, s => (s.pending.find? (·.id == id), s)
  | .approve id, s =>
    ((InMemoryPendingStore.approve id s.pending).1,
      { s with pending := (InMemoryPendingStore.approve id s.pending).2 })
  | .reject id reason, s =>
    ((InMemoryPendingStore.reject id reason s.pending).1,
      { s with pending := (InMemoryPendingStore.reject id reason s.pending).2 })
  | .pendingCount, s => ((s.pending.filter (·.status == .pending)).length, s)

theorem handler_faithful [Sha256] (instant : Instant) (op : CaOp) (s : CaState) :
    exec op s (handler instant op s).1 (handler instant op s).2 := by
  cases op with
  | now => exact ⟨le_max_left _ _, rfl⟩
  | randomBytes | enqueue => rfl
  | createToken label expiresAt =>
    exact ⟨⟨List.replicate 16 0, List.length_replicate⟩, _, s.clock, le_refl _, rfl, rfl⟩
  | validateAndConsume token => exact ⟨s.clock, le_refl _, rfl, rfl⟩
  | _ => exact ⟨rfl, rfl⟩

def saved : (op : CaOp) → op.Answer → List NipCertRecord
  | .save record, .ok () => [record]
  | _, _ => []

theorem saved_nodup {op : CaOp} {answer : op.Answer} :
    ((saved op answer).map (·.nid)).Nodup := by
  unfold saved
  split
  · exact List.nodup_singleton _
  · exact List.nodup_nil

theorem exec_records [Sha256] {op : CaOp} {s t : CaState} {answer : op.Answer}
    (plain : ∀ nid reason revokedAt, op ≠ .revoke nid reason revokedAt) (step : exec op s answer t) :
    t.certs.records = s.certs.records ++ saved op answer := by
  cases op with
  | save record =>
    obtain ⟨rfl, rfl⟩ := step
    cases accepted : (s.certs.save record).1 with
    | error e =>
      dsimp only
      rw [InMemoryNipCaStore.save_error accepted]
      exact (List.append_nil _).symm
    | ok u => exact InMemoryNipCaStore.save_ok accepted
  | revoke nid reason revokedAt => exact absurd rfl (plain nid reason revokedAt)
  | createToken label expiresAt =>
    obtain ⟨-, -, -, -, -, rfl⟩ := step
    exact (List.append_nil _).symm
  | validateAndConsume token =>
    obtain ⟨-, -, -, rfl⟩ := step
    exact (List.append_nil _).symm
  | randomBytes | enqueue => cases step; exact (List.append_nil _).symm
  | _ => obtain ⟨-, rfl⟩ := step; exact (List.append_nil _).symm

section
variable [Sha256] {α : Type} {s t : CaState} {a : α}

attribute [local simp] exec

@[simp] theorem runs_getByNid {nid : String} {f : Option NipCertRecord → CaProg α} :
    Runs exec (Ask.getByNid nid >>= f) s a t ↔ Runs exec (f (s.certs.getByNid nid)) s a t := by
  simp

@[simp] theorem runs_getPending {id : String} {f : Option PendingRegistration → CaProg α} :
    Runs exec (Ask.getPending id >>= f) s a t ↔
      Runs exec (f (s.pending.find? (·.id == id))) s a t := by
  simp

@[simp] theorem runs_now {f : Instant → CaProg α} :
    Runs exec (Ask.now >>= f) s a t ↔
      ∃ now, s.clock ≤ now ∧ Runs exec (f now) { s with clock := now } a t := by
  simp [and_assoc]

@[simp] theorem runs_randomBytes {count : Nat}
    {f : { bytes : Bytes // bytes.length = count } → CaProg α} :
    Runs exec (Ask.randomBytes count >>= f) s a t ↔ ∃ bytes, Runs exec (f bytes) s a t := by
  simp

@[simp] theorem runs_nextSerial {f : String → CaProg α} :
    Runs exec (Ask.nextSerial >>= f) s a t ↔
      Runs exec (f s.certs.nextSerial.1) { s with certs := s.certs.nextSerial.2 } a t := by
  simp

@[simp] theorem runs_save {record : NipCertRecord} {f : Except StoreError Unit → CaProg α} :
    Runs exec (Ask.save record >>= f) s a t ↔
      Runs exec (f (s.certs.save record).1) { s with certs := (s.certs.save record).2 } a t := by
  simp

@[simp] theorem runs_approve {id : String} {f : Bool → CaProg α} :
    Runs exec (Ask.approve id >>= f) s a t ↔
      Runs exec (f (InMemoryPendingStore.approve id s.pending).1)
        { s with pending := (InMemoryPendingStore.approve id s.pending).2 } a t := by
  simp

@[simp] theorem runs_reject {id reason : String} {f : Bool → CaProg α} :
    Runs exec (Ask.reject id reason >>= f) s a t ↔
      Runs exec (f (InMemoryPendingStore.reject id reason s.pending).1)
        { s with pending := (InMemoryPendingStore.reject id reason s.pending).2 } a t := by
  simp

end

namespace Sample

def key : Key32 := ⟨[
  0xD7, 0x5A, 0x98, 0x01, 0x82, 0xB1, 0x0A, 0xB7, 0xD5, 0x4B, 0xFE, 0xD3, 0xC9, 0x64, 0x07, 0x3A,
  0x0E, 0xE1, 0x72, 0xF3, 0xDA, 0xA6, 0x23, 0x25, 0xAF, 0x02, 0x1A, 0x68, 0xF7, 0x07, 0x51, 0x1A], rfl⟩

def signature : Signature64 := ⟨[
  0x0D, 0x09, 0x9C, 0x23, 0xB6, 0xB1, 0xA5, 0xEA, 0x4D, 0x84, 0xB9, 0xB6, 0x45, 0x7D, 0x6E, 0xF3,
  0x7D, 0xBD, 0xCC, 0x1F, 0xCE, 0x51, 0xBD, 0x1C, 0x24, 0x9C, 0x2F, 0x49, 0x56, 0x38, 0x22, 0x47,
  0xCF, 0xE0, 0xC0, 0xB8, 0xA0, 0x15, 0x55, 0xF2, 0x28, 0x17, 0xA4, 0x2E, 0xB7, 0x18, 0x2D, 0x91,
  0xE2, 0xD9, 0x52, 0xEF, 0x44, 0x90, 0x3E, 0x70, 0x2B, 0xC7, 0x38, 0xD6, 0x4B, 0x22, 0xF4, 0x04], rfl⟩

/-- The signature of a registration at the epoch under the first serial. -/
scoped instance scheme : Ed25519 := .table key fun _ => some signature

scoped instance serde : Serde := .table [("\x7b\x7d", .object [])]

scoped instance times : TimeText := .table [
  (0, "1970-01-01T00:00:00Z"), (Duration.days 25, "1970-01-26T00:00:00Z"),
  (Duration.days 30, "1970-01-31T00:00:00Z"), (Duration.days 31, "1970-02-01T00:00:00Z"),
  (Duration.days 55, "1970-02-25T00:00:00Z")]

scoped instance digest : Sha256 where
  digest bytes := bytes

scoped instance library : X509.CertificateLibrary where
  checkUri _ := .ok ()
  selfSigned _ _ := .error "not used"
  signedBy _ _ _ _ := .error "not used"

def ca : NipCaService where
  opts := { caNid := "urn:nps:ca:example.org:root", baseUrl := "https://ca.example.org" }
  signingKey := ()

def nid : String := "urn:nps:agent:example.org:a1"

def registration : IssuingCall :=
  .register "agent" "a1" ca.getCaPublicKey ["nwp:query"] "\x7b\x7d" none

end Sample
end Nps.Nip.Ca
