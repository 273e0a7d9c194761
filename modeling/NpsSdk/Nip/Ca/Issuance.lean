import NpsSdk.Nip.Ca.Service

/-! What the issuing operations do to their surroundings: each asks, looks one NID up, and saves at
most one record, last, by what it was called with and has found. It returns a frame, for that record,
exactly when the store took it. -/
namespace Nps.Nip.Ca
open Interaction Interaction.Prog Json

def IsFrame (result : Except NipCaError IdentFrame) : Prop := ∃ frame, result = .ok frame

theorem not_isFrame_error (e : NipCaError) : ¬ IsFrame (.error e) := by
  rintro ⟨frame, same⟩
  cases same

section
variable [Ed25519] (ca : NipCaService)

/-- The frame names the CA as its issuer and carries a signature of the CA's signer. -/
def SignedBy (frame : IdentFrame) : Prop :=
  frame.issuedBy = some ca.opts.caNid ∧
    ∃ payload, frame.signature = some (Signer.sign ca.signingKey payload)

/-- A returned frame is signed by the CA and its record has just been saved, live. -/
def SavesFrame (named : String → Prop) :
    (op : CaOp) → op.Answer → Except NipCaError IdentFrame → Prop
  | .save record, .ok (), .ok frame =>
    named record.nid ∧ frame.nid = record.nid ∧ frame.serial = some record.serial ∧
      record.revokedAt = none ∧ SignedBy ca frame
  | _, _, _ => False

/-- Issuing under the names allowed: frames come only from saving their record. -/
abbrev Issues (named : String → Prop) (p : CaProg (Except NipCaError IdentFrame)) : Prop :=
  ReturnsBy (SavesFrame ca named) IsFrame p

/-- Issuing looks NIDs up, asks the clock, the random source and the serials, and saves. -/
def Uses : CaOp → Prop
  | .getByNid _ | .now | .nextSerial | .randomBytes _ | .save _ => True
  | _ => False

/-- What is asked for before a record is saved. -/
def Prepares : CaOp → Prop
  | .getByNid _ | .now | .nextSerial | .randomBytes _ => True
  | _ => False

abbrev Lookup := Option (String × Option NipCertRecord)

/-- One look-up, and then one record that may be saved, last: a frame is returned for it exactly when
it is taken. -/
def SavesLast (may : Lookup → NipCertRecord → Prop) :
    Lookup → CaProg (Except NipCaError IdentFrame) → Prop
  | _, .done result => ¬ IsFrame result
  | seen, .call (.save record) next => may seen record ∧
      (∃ frame, next (.ok ()) = .done (.ok frame) ∧ frame.nid = record.nid ∧
        frame.serial = some record.serial ∧ record.revokedAt = none ∧ SignedBy ca frame) ∧
      ∀ e, ∃ e', next (.error e) = .done (.error e')
  | seen, .call (.getByNid nid) next =>
    seen = none ∧ ∀ found, SavesLast may (some (nid, found)) (next found)
  | seen, .call op next => Prepares op ∧ ∀ answer, SavesLast may seen (next answer)

end

def Claims {α : Type} (nid : String) : CaProg α → Prop
  | .done _ => False
  | .call op next => (∃ record, op = .save record ∧ record.nid = nid) ∨
      op ≠ .getByNid nid ∧ ∃ answer, Claims nid (next answer)

theorem claims_map {α β : Type} {nid : String} {f : α → β} {p : CaProg α} :
    Claims nid (p.map f) ↔ Claims nid p := by
  induction p with
  | done result => exact Iff.rfl
  | call op next ih =>
    exact or_congr_right (and_congr_right fun _ => exists_congr fun answer => ih answer)

theorem Claims.of_next {α : Type} {nid : String} {op : CaOp} {next : op.Answer → CaProg α}
    {answer : op.Answer} (claims : Claims nid (next answer)) (other : op ≠ .getByNid nid) :
    Claims nid (.call op next) := .inr ⟨other, answer, claims⟩

namespace SavesLast
variable [Ed25519] {ca : NipCaService} {may : Lookup → NipCertRecord → Prop} {seen : Lookup}
  {p : CaProg (Except NipCaError IdentFrame)}

theorem ends {record : NipCertRecord} {next : Except StoreError Unit → CaProg (Except NipCaError IdentFrame)}
    (saves : SavesLast ca may seen (.call (.save record) next)) (answer : Except StoreError Unit) :
    ∃ result, next answer = .done result := by
  obtain ⟨-, ⟨frame, taken, -⟩, refused⟩ := saves
  cases answer with
  | ok => exact ⟨_, taken⟩
  | error e => exact (refused e).imp' _ fun e' => id

theorem next {op : CaOp} {next : op.Answer → CaProg (Except NipCaError IdentFrame)}
    (saves : SavesLast ca may seen (.call op next)) (answer : op.Answer) :
    (∃ result, next answer = .done result) ∨ ∃ seen, SavesLast ca may seen (next answer) := by
  cases op with
  | save record => exact .inl (saves.ends answer)
  | getByNid nid => exact .inr ⟨_, saves.2 answer⟩
  | _ => exact .inr ⟨_, saves.2 answer⟩

theorem uses (saves : SavesLast ca may seen p) : Only Uses p := by
  induction p generalizing seen with
  | done result => trivial
  | call op next ih =>
    cases op with
    | save record =>
      refine ⟨trivial, fun answer => ?_⟩
      obtain ⟨result, last⟩ := saves.ends answer
      rw [last]
      trivial
    | getByNid nid => exact ⟨trivial, fun found => ih found (saves.2 found)⟩
    | now | nextSerial | randomBytes => exact ⟨trivial, fun answer => ih answer (saves.2 answer)⟩
    | _ => exact saves.1.elim

theorem issues {named : String → Prop} (saves : SavesLast ca may seen p)
    (names : ∀ seen record, may seen record → named record.nid) : Issues ca named p := by
  induction p generalizing seen with
  | done result => exact saves
  | call op next ih =>
    intro answer
    cases op with
    | save record =>
      obtain ⟨may, ⟨frame, taken, issued⟩, refused⟩ := saves
      cases answer with
      | ok => exact .inl ⟨_, taken, fun _ => ⟨names _ _ may, issued⟩⟩
      | error e =>
        obtain ⟨e', last⟩ := refused e
        exact .inl ⟨_, last, fun frame => absurd frame (not_isFrame_error e')⟩
    | getByNid nid => exact .inr (ih answer (saves.2 answer))
    | _ => exact .inr (ih answer (saves.2 answer))

theorem claims {nid : String} (saves : SavesLast ca may seen p) (claims : Claims nid p) :
    ∃ last record, may last record ∧ record.nid = nid ∧
      (last = seen ∨ ∃ other found, other ≠ nid ∧ last = some (other, found)) := by
  induction p generalizing seen with
  | done result => exact claims.elim
  | call op next ih =>
    rcases claims with ⟨record, rfl, same⟩ | ⟨other, answer, claims⟩
    · exact ⟨seen, record, saves.1, same, .inl rfl⟩
    cases op with
    | save record =>
      obtain ⟨result, last⟩ := saves.ends answer
      rw [last] at claims
      exact claims.elim
    | getByNid target =>
      obtain ⟨last, record, may, same, here | later⟩ := ih answer (saves.2 answer) claims
      · exact ⟨last, record, may, same, .inr ⟨target, answer, fun same => other (same ▸ rfl), here⟩⟩
      · exact ⟨last, record, may, same, .inr later⟩
    | now | nextSerial | randomBytes => exact ih answer (saves.2 answer) claims
    | _ => exact saves.1.elim

theorem error (e : NipCaError) : SavesLast ca may seen (pure (.error e)) := not_isFrame_error e

theorem ask {op : CaOp} {next : op.Answer → CaProg (Except NipCaError IdentFrame)}
    (prepares : Prepares op) (other : ∀ nid, op ≠ .getByNid nid)
    (rest : ∀ answer, SavesLast ca may seen (next answer)) :
    SavesLast ca may seen (perform op >>= next) := by
  cases op with
  | getByNid nid => exact absurd rfl (other nid)
  | now | nextSerial | randomBytes => exact ⟨trivial, rest⟩
  | _ => exact prepares.elim

theorem look {nid : String} {next : Option NipCertRecord → CaProg (Except NipCaError IdentFrame)}
    (rest : ∀ found, SavesLast ca may (some (nid, found)) (next found)) :
    SavesLast ca may none (Ask.getByNid nid >>= next) := ⟨rfl, rest⟩

theorem persist {record : NipCertRecord} {frame : IdentFrame} (saves : may seen record)
    (nid : frame.nid = record.nid) (serial : frame.serial = some record.serial)
    (live : record.revokedAt = none) (signed : SignedBy ca frame) :
    SavesLast ca may seen (NipCaService.persist record frame) :=
  ⟨saves, ⟨frame, rfl, nid, serial, live, signed⟩, fun _ => ⟨_, rfl⟩⟩

end SavesLast

/-- What a registration is called with. -/
structure Enrollment where
  entityType : String
  identifier : String
  pubKey : String
  capabilities : List String
  scopeJson : String

/-- The record certifies the enrollment, for the NID that the CA builds for it. -/
structure Certifies [Ed25519] (ca : NipCaService) (enrollment : Enrollment) (record : NipCertRecord) :
    Prop where
  nid : record.nid = ca.buildNid enrollment.entityType enrollment.identifier
  entityType : record.entityType = enrollment.entityType
  pubKey : record.pubKey = enrollment.pubKey
  capabilities : record.capabilities = enrollment.capabilities
  scopeJson : record.scopeJson = enrollment.scopeJson
  live : record.revokedAt = none
  role : record.nidRole = none

section
variable [Ed25519] [Serde] (ca : NipCaService)

/-- The lineage of a session names its group, and the group's owner. -/
def HasLineage (group record : NipCertRecord) : Prop :=
  ∃ sessionId purpose, record.nid = ca.buildNid "agent" sessionId ∧
    record.lineageJson = some (NipCaService.buildLineageSession group.nid sessionId purpose
      (NipCaService.extractLineageStr group.lineageJson "owner_user_id")
      (NipCaService.extractLineageStr group.lineageJson "owner_key_id")).text

/-- A session record, its scope related to the one of its group. -/
structure SessionOf (scopes : String → String → Prop) (group record : NipCertRecord) : Prop where
  role : record.nidRole = some roleSession
  parent : record.parentNid = some group.nid
  lineage : HasLineage ca group record
  capabilities : record.capabilities ⊆ group.capabilities
  scope : scopes record.scopeJson group.scopeJson
  lifetime : record.expiresAt - record.issuedAt ≤ ca.opts.sessionMaxValidity

end

/-- The operations that issue a frame, with their arguments. -/
inductive IssuingCall where
  | register (entityType identifier pubKey : String) (capabilities : List String)
      (scopeJson : String) (metadataJson : Option String)
  | registerX509 (entityType identifier pubKey : String) (capabilities : List String)
      (scopeJson : String) (assuranceLevel : Option AssuranceLevel) (metadataJson : Option String)
  | registerGroup (identifier : Option String) (pubKey : String) (capabilities : List String)
      (scopeJson : String) (ownerUserId ownerKeyId metadataJson : Option String)
  | issueSession (groupNid sessionPubKey : String) (params : IssueSessionParams)
  | renew (nid : String)

namespace IssuingCall

/-- A renewal issues under the NID it renews; the other calls build a NID of their own. -/
def Named : IssuingCall → String → Prop
  | renew nid => (· = nid)
  | _ => fun _ => True

/-- The call saves under the NID that it looks up; the NID of a session is random. -/
def Looks : IssuingCall → Prop
  | issueSession _ _ _ => False
  | _ => True

/-- What the call may save, by what it has found. -/
def MaySave [Ed25519] [Serde] (ca : NipCaService) :
    IssuingCall → Lookup → NipCertRecord → Prop
  | register entityType identifier pubKey capabilities scopeJson _, seen, record
  | registerX509 entityType identifier pubKey capabilities scopeJson _ _, seen, record =>
    seen = some (record.nid, none) ∧
      Certifies ca ⟨entityType, identifier, pubKey, capabilities, scopeJson⟩ record
  | registerGroup _ _ _ _ _ _ _, seen, record => seen = some (record.nid, none) ∧
      record.nidRole = some roleGroup ∧ ∃ identifier, record.nid = ca.buildNid "agent" identifier
  | issueSession groupNid _ params, seen, record => ∃ group, seen = some (groupNid, some group) ∧
      group.nidRole = some roleGroup ∧ (group.nid = groupNid →
        SessionOf ca (fun scope other => scope = params.scopeJson.getD other) group record)
  | renew nid, seen, record => ∃ old, seen = some (nid, some old) ∧ old.revokedAt = none ∧
      record.nid = nid ∧ record.capabilities = old.capabilities ∧
      record.scopeJson = old.scopeJson ∧ record.nidRole = none

end IssuingCall

theorem checkSession_ok [Ed25519] [TimeText] {ca : NipCaService} {group : NipCertRecord}
    {groupNid : String} {params : IssueSessionParams} {now : Instant} {v : Duration}
    {capabilities : List String} {scope : String}
    (checked : ca.checkSession group groupNid params now = .ok (v, capabilities, scope)) :
    v ≤ ca.opts.sessionMaxValidity ∧ capabilities ⊆ group.capabilities ∧
      scope = params.scopeJson.getD group.scopeJson := by
  unfold NipCaService.checkSession at checked
  extract_lets v' caps expansion at checked
  split_ifs at checked with expired validity expands
  obtain ⟨rfl, rfl, rfl⟩ : v' = v ∧ caps = capabilities ∧
      params.scopeJson.getD group.scopeJson = scope := by
    simpa using checked
  refine ⟨not_lt.mp fun long => validity (.inr long), ?_, rfl⟩
  cases given : params.capabilities with
  | none =>
    have same : caps = group.capabilities := by simp [caps, given]
    rw [same]
    exact List.Subset.refl _
  | some asked =>
    have none : expansion = [] := by
      by_contra wider
      exact expands ⟨by simp [given], wider⟩
    intro capability member
    have kept := List.filter_eq_nil_iff.mp none capability member
    simpa using kept

theorem checkGroup_ok [TimeText] {group : NipCertRecord} {groupNid : String}
    (checked : NipCaService.checkGroup group groupNid = .ok ()) : group.nidRole = some roleGroup := by
  unfold NipCaService.checkGroup at checked
  split_ifs at checked with role
  exact not_not.mp role

section
variable [Ed25519] [Serde] [TimeText] {ca : NipCaService}

theorem issueFrame_spec {issuance : NipCaService.Issuance} {frame : IdentFrame}
    (issued : ca.issueFrame issuance = .ok frame) :
    frame.nid = issuance.nid ∧ frame.serial = some issuance.serial ∧ SignedBy ca frame := by
  unfold NipCaService.issueFrame at issued
  split at issued
  · cases issued
  · cases issued
    exact ⟨rfl, rfl, rfl, _, rfl⟩

variable (ca)

theorem savesLast_register (entityType identifier pubKey : String) (capabilities : List String)
    (scopeJson : String) (metadataJson : Option String) :
    SavesLast ca ((IssuingCall.register entityType identifier pubKey capabilities scopeJson
      metadataJson).MaySave ca) none
      (ca.register entityType identifier pubKey capabilities scopeJson metadataJson) := by
  refine .look fun existing => ?_
  split
  · exact .error _
  rename_i free
  cases Option.not_isSome_iff_eq_none.mp free
  split
  · exact .error _
  refine .ask trivial nofun fun now => .ask trivial nofun fun serial => ?_
  extract_lets
  split
  · exact .error _
  · rename_i issued
    obtain ⟨nid, number, signed⟩ := issueFrame_spec issued
    exact .persist ⟨rfl, rfl, rfl, rfl, rfl, rfl, rfl, rfl⟩ nid number rfl signed

theorem savesLast_registerX509 [X509.CertificateLibrary] (entityType identifier pubKey : String)
    (capabilities : List String) (scopeJson : String) (level : Option AssuranceLevel)
    (metadataJson : Option String) :
    SavesLast ca ((IssuingCall.registerX509 entityType identifier pubKey capabilities scopeJson level
      metadataJson).MaySave ca) none
      (ca.registerX509 entityType identifier pubKey capabilities scopeJson level metadataJson) := by
  refine .look fun existing => ?_
  split
  · exact .error _
  rename_i free
  cases Option.not_isSome_iff_eq_none.mp free
  split
  · exact .error _
  refine .ask trivial nofun fun now => .ask trivial nofun fun serial => ?_
  extract_lets
  split
  · exact .error _
  · rename_i issued
    obtain ⟨nid, number, signed⟩ := issueFrame_spec issued
    split
    · exact .error _
    · exact .persist ⟨rfl, rfl, rfl, rfl, rfl, rfl, rfl, rfl⟩ nid number rfl signed

theorem savesLast_registerGroup (identifier : Option String) (pubKey : String)
    (capabilities : List String) (scopeJson : String)
    (ownerUserId ownerKeyId metadataJson : Option String) :
    SavesLast ca ((IssuingCall.registerGroup identifier pubKey capabilities scopeJson ownerUserId
      ownerKeyId metadataJson).MaySave ca) none
      (ca.registerGroup identifier pubKey capabilities scopeJson ownerUserId ownerKeyId
        metadataJson) := by
  have rest (name : Except NipCaError String) :
      SavesLast ca ((IssuingCall.registerGroup identifier pubKey capabilities scopeJson ownerUserId
        ownerKeyId metadataJson).MaySave ca) none
        (ca.registerNamedGroup name pubKey capabilities scopeJson ownerUserId ownerKeyId
          metadataJson) := by
    unfold NipCaService.registerNamedGroup
    split
    · exact .error _
    refine .look fun existing => ?_
    split
    · exact .error _
    rename_i free
    cases Option.not_isSome_iff_eq_none.mp free
    split
    · exact .error _
    refine .ask trivial nofun fun now => .ask trivial nofun fun serial => ?_
    extract_lets
    split
    · exact .error _
    · rename_i issued
      obtain ⟨nid, number, signed⟩ := issueFrame_spec issued
      exact .persist ⟨rfl, rfl, _, rfl⟩ nid number rfl signed
  unfold NipCaService.registerGroup NipCaService.groupIdentifier
  split
  · exact ⟨trivial, fun random => rest (.ok ("group-" ++ Hex.encode random.1))⟩
  · exact ⟨trivial, fun random => rest (.ok ("group-" ++ Hex.encode random.1))⟩
  · split
    · exact rest (.ok _)
    · exact rest (.error _)

theorem savesLast_issueSession (groupNid sessionPubKey : String) (params : IssueSessionParams) :
    SavesLast ca ((IssuingCall.issueSession groupNid sessionPubKey params).MaySave ca) none
      (ca.issueSession groupNid sessionPubKey params) := by
  refine .look fun group => ?_
  split
  · exact .error _
  rename_i group
  split
  · exact .error _
  rename_i checked
  refine .ask trivial nofun fun checkedAt => ?_
  split
  · exact .error _
  rename_i v sessionCaps sessionScope within
  obtain ⟨bound, subset, scope⟩ := checkSession_ok within
  refine .ask trivial nofun fun named => .ask trivial nofun fun random =>
    .ask trivial nofun fun now => .ask trivial nofun fun serial => ?_
  extract_lets
  split
  · exact .error _
  · rename_i issued
    obtain ⟨nid, number, signed⟩ := issueFrame_spec issued
    refine .persist ⟨group, rfl, checkGroup_ok checked, ?_⟩ nid number rfl signed
    rintro rfl
    exact ⟨rfl, rfl, ⟨_, _, rfl, rfl⟩, subset, scope, (add_sub_cancel_left now v).le.trans bound⟩

theorem savesLast_renew (nid : String) :
    SavesLast ca ((IssuingCall.renew nid).MaySave ca) none (ca.renew nid) := by
  refine .look fun found => ?_
  split
  · exact .error _
  rename_i record
  split
  · exact .error _
  rename_i live
  refine .ask trivial nofun fun now => ?_
  extract_lets
  split
  · exact .error _
  refine .ask trivial nofun fun serial => ?_
  extract_lets
  split
  · exact .error _
  · rename_i issued
    obtain ⟨same, number, signed⟩ := issueFrame_spec issued
    exact .persist ⟨record, rfl, Option.not_isSome_iff_eq_none.mp live, rfl, rfl, rfl, rfl⟩ same
      number rfl signed

end

namespace IssuingCall
section
variable [Ed25519] [Serde] [TimeText] [X509.CertificateLibrary] (ca : NipCaService)

def program : IssuingCall → CaProg (Except NipCaError IdentFrame)
  | register entityType identifier pubKey capabilities scopeJson metadataJson =>
    ca.register entityType identifier pubKey capabilities scopeJson metadataJson
  | registerX509 entityType identifier pubKey capabilities scopeJson level metadataJson =>
    ca.registerX509 entityType identifier pubKey capabilities scopeJson level metadataJson
  | registerGroup identifier pubKey capabilities scopeJson ownerUserId ownerKeyId metadataJson =>
    ca.registerGroup identifier pubKey capabilities scopeJson ownerUserId ownerKeyId metadataJson
  | issueSession groupNid sessionPubKey params => ca.issueSession groupNid sessionPubKey params
  | renew nid => ca.renew nid

theorem savesLast (call : IssuingCall) :
    SavesLast ca (call.MaySave ca) none (call.program ca) := by
  cases call with
  | register => exact savesLast_register ca _ _ _ _ _ _
  | registerX509 => exact savesLast_registerX509 ca _ _ _ _ _ _ _
  | registerGroup => exact savesLast_registerGroup ca _ _ _ _ _ _ _
  | issueSession => exact savesLast_issueSession ca _ _ _
  | renew nid => exact savesLast_renew ca nid

theorem issues (call : IssuingCall) : Issues ca call.Named (call.program ca) := by
  refine (call.savesLast ca).issues fun seen record may => ?_
  cases call with
  | renew =>
    obtain ⟨old, -, -, nid, -⟩ := may
    exact nid
  | _ => trivial

end

theorem claims [Ed25519] [Serde] {ca : NipCaService} {call : IssuingCall} (looks : call.Looks)
    {seen : Lookup} {p : CaProg (Except NipCaError IdentFrame)} {nid : String}
    (saves : SavesLast ca (call.MaySave ca) seen p) (claims : Claims nid p) :
    ∃ found record, seen = some (nid, found) ∧ call.MaySave ca seen record ∧
      ∀ old, found = some old → old.revokedAt = none := by
  obtain ⟨last, record, may, rfl, here⟩ := saves.claims claims
  obtain ⟨found, rfl, live⟩ : ∃ found, last = some (record.nid, found) ∧
      ∀ old, found = some old → old.revokedAt = none := by
    cases call with
    | issueSession => exact looks.elim
    | renew nid =>
      obtain ⟨old, rfl, live, rfl, -⟩ := may
      exact ⟨some old, rfl, fun _ same => Option.some.inj same ▸ live⟩
    | _ => exact ⟨none, may.1, fun _ same => by cases same⟩
  rcases here with rfl | ⟨other, found, different, same⟩
  · exact ⟨found, record, rfl, may, live⟩
  · cases same
    exact absurd rfl different

end IssuingCall
end Nps.Nip.Ca
