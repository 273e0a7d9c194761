import NpsSdk.CaServer.Database
import NpsSdk.Lib.Base64

/-! The CA server's issuing and revoking handlers, as programs over its database. -/
namespace Nps.CaServer
open Interaction Interaction.Prog Json
open Nip (Serde Ed25519)

def padded (width n : Nat) : String := String.ofList (Text.padLeft width '0' (Nat.toDigits 10 n))

/-- Year, month, day, hour, minute and second of a time; days are counted from March 0000. -/
def epochToParts (secs : UInt64) : UInt64 × UInt64 × UInt64 × UInt64 × UInt64 × UInt64 :=
  let sec := secs % 60
  let mins := secs / 60
  let mi := mins % 60
  let hours := mins / 60
  let h := hours % 24
  let days := hours / 24
  let z := days + 719468
  let era := z / 146097
  let doe := z - era * 146097
  let yoe := (doe - doe / 1460 + doe / 36524 - doe / 146096) / 365
  let y := yoe + era * 400
  let doy := doe - (365 * yoe + yoe / 4 - yoe / 100)
  let mp := (5 * doy + 2) / 153
  let d := doy - (153 * mp + 2) / 5 + 1
  let mo := if mp < 10 then mp + 3 else mp - 9
  let y := if mo ≤ 2 then y + 1 else y
  (y, mo, d, h, mi, sec)

def fmtIso (secs : UInt64) : String :=
  let (y, mo, d, h, mi, s) := epochToParts secs
  padded 4 y.toNat ++ "-" ++ padded 2 mo.toNat ++ "-" ++ padded 2 d.toNat ++ "T" ++
    padded 2 h.toNat ++ ":" ++ padded 2 mi.toNat ++ ":" ++ padded 2 s.toNat ++ "Z"

def daysSinceEpoch (y mo d : UInt64) : UInt64 :=
  let (y, mo) := if mo ≤ 2 then (y - 1, mo + 9) else (y, mo - 3)
  let era := y / 400
  let yoe := y - era * 400
  let doy := (153 * mo + 2) / 5 + d - 1
  let doe := yoe * 365 + yoe / 4 - yoe / 100 + doy
  era * 146097 + doe - 719468

def parseU64 (text : String) : Option UInt64 :=
  (Text.parseInt? text).bind fun value =>
    if 0 ≤ value ∧ value < 2 ^ 64 then some (UInt64.ofNat value.toNat) else none

def isoToEpoch (text : String) : UInt64 :=
  let text := Text.trimEnd (· == 'Z') text
  let parts := (Text.split ':' (text.map fun c => if c = 'T' ∨ c = '-' then ':' else c)).filterMap
    parseU64
  match parts with
  | y :: mo :: d :: h :: mi :: sec :: _ => daysSinceEpoch y mo d * 86400 + h * 3600 + mi * 60 + sec
  | _ => 0

example : fmtIso 1779019200 = "2026-05-17T12:00:00Z" := by decide +kernel
example : isoToEpoch "2026-05-17T12:00:00Z" = 1779019200 := by decide +kernel

section
variable [Ed25519]

structure Ca where
  signingKey : Ed25519.SigningKey

structure AppState where
  ca : Ca
  caNid : String
  agentDays : Int64 := 30
  nodeDays : Int64 := 90
  renewalDays : Int64 := 7

/-- The sorted object as text, signed; the signature is standard base64. -/
def signDict (key : Ed25519.SigningKey) (fields : Fields) : String :=
  "ed25519:" ++ Base64.encode .standard .canonical
    (Ed25519.sign key (Text.utf8 (document fields).text)).1

def issueCert (key : Ed25519.SigningKey) (caNid subjectNid subjectPubKey : String)
    (capabilities : List String) (scope : Fields) (validityDays : Int64) (serial : String)
    (metadata : Option Fields) (now : UInt64) : Fields :=
  let issuedAt := fmtIso now
  let expiresAt := fmtIso (now + validityDays.toUInt64 * 86400)
  let unsigned := insert "capabilities" (stringArray capabilities) []
  let unsigned := insert "expires_at" (.string expiresAt) unsigned
  let unsigned := insert "issued_at" (.string issuedAt) unsigned
  let unsigned := insert "issued_by" (.string caNid) unsigned
  let unsigned := insert "nid" (.string subjectNid) unsigned
  let unsigned := insert "pub_key" (.string subjectPubKey) unsigned
  let unsigned := insert "scope" (.object scope) unsigned
  let unsigned := insert "serial" (.string serial) unsigned
  let cert := insert "signature" (.string (signDict key unsigned)) unsigned
  insertSome "metadata" (metadata.map Value.object) cert

end

def generateNid (domain entityType : String) (uid : Wire.Bytes) : String :=
  s!"urn:nps:{entityType}:{domain}:" ++ Hex.encode uid

def caDomain (caNid : String) : String :=
  let parts := Text.split ':' caNid
  if 5 ≤ parts.length then parts.getD (parts.length - 2) "" else "ca.local"

structure RegisterReq where
  nid : Option String := none
  pubKey : String
  capabilities : Option (List String) := none
  scope : Option Fields := none
  metadata : Option Fields := none

inductive Request where
  | registerAgent (req : RegisterReq)
  | registerNode (req : RegisterReq)
  | renew (nid : String)
  | revoke (nid : String) (reason : Option String)

structure Response where
  status : Nat
  body : Value

def refusal (status : Nat) (code message : String) : Response :=
  ⟨status, document [("error_code", .string code), ("message", .string message)]⟩

def notFound (nid : String) : Response := refusal 404 "NIP-CA-NID-NOT-FOUND" s!"{nid} not found"

section
variable [Ed25519] (s : AppState)

def AppState.days (entityType : String) : Int64 :=
  if entityType = "agent" then s.agentDays else s.nodeDays

structure Subject where
  nid : String
  entityType : String
  pubKey : String
  capabilities : List String
  scope : Fields
  metadata : Option Fields

def certText (cert : Fields) (key : String) : String := ((get key cert).bind Value.asStr).getD ""

/-- Take the next serial, issue, insert, and answer whether or not the row went in. Without a
serial the handler panics, and there is no answer. -/
def issue (subject : Subject) (status : Nat) : DbProg (Option Response) := do
  match ← Ask.nextSerial with
  | none => return none
  | some serial =>
    let now ← Ask.now
    let cert := issueCert s.ca.signingKey s.caNid subject.nid subject.pubKey subject.capabilities
      subject.scope (s.days subject.entityType) serial subject.metadata now
    let issuedAt := certText cert "issued_at"
    let expiresAt := certText cert "expires_at"
    let _ ← Ask.insert {
      nid := subject.nid, entityType := subject.entityType, serial, pubKey := subject.pubKey
      capabilities := subject.capabilities, scope := subject.scope, issuedBy := s.caNid
      issuedAt, expiresAt, metadata := subject.metadata }
    return some ⟨status, document [
      ("nid", .string subject.nid), ("serial", .string serial), ("issued_at", .string issuedAt),
      ("expires_at", .string expiresAt), ("ident_frame", .object cert)]⟩

def chooseNid (nid : Option String) (entityType : String) : DbProg String :=
  match nid with
  | some nid => return nid
  | none => do
    let uid ← Ask.fillBytes 8
    return generateNid (caDomain s.caNid) entityType uid.1

def register (req : RegisterReq) (entityType : String) : DbProg (Option Response) := do
  let nid ← chooseNid s req.nid entityType
  let active ← Ask.getActive nid
  if active.isSome then
    return some (refusal 409 "NIP-CA-NID-ALREADY-EXISTS" s!"{nid} already has an active certificate")
  else
    issue s {
      nid, entityType, pubKey := req.pubKey, capabilities := req.capabilities.getD []
      scope := req.scope.getD [], metadata := req.metadata } 201

def daysLeft (expiresAt : String) (now : UInt64) : Nat :=
  ((isoToEpoch expiresAt).toNat - now.toNat) / 86400

def renew (nid : String) : DbProg (Option Response) := do
  match ← Ask.getActive nid with
  | none => return some (notFound nid)
  | some record =>
    let now ← Ask.now
    let left : Int := daysLeft record.expiresAt now
    if left > s.renewalDays.toInt then
      return some (refusal 400 "NIP-CA-RENEWAL-TOO-EARLY"
        s!"Renewal window opens in {left - s.renewalDays.toInt} days")
    else
      issue s {
        nid, entityType := record.entityType, pubKey := record.pubKey, capabilities := record.capabilities
        scope := record.scope, metadata := record.metadata } 200

omit [Ed25519] in
def revokeHandler (nid : String) (reason : Option String) : DbProg (Option Response) := do
  let reason := reason.getD "cessation_of_operation"
  let now ← Ask.now
  let revoked ← Ask.revoke nid reason (fmtIso now)
  if revoked then do
    let now ← Ask.now
    return some ⟨200, document [
      ("nid", .string nid), ("revoked_at", .string (fmtIso now)), ("reason", .string reason)]⟩
  else return some (notFound nid)

def handle : Request → DbProg (Option Response)
  | .registerAgent req => register s req "agent"
  | .registerNode req => register s req "node"
  | .renew nid => renew s nid
  | .revoke nid reason => revokeHandler nid reason

end
end Nps.CaServer
