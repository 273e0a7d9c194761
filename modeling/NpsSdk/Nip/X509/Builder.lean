import Mathlib.Data.Nat.Digits.Defs
import NpsSdk.Nip.Frames

/-! What the CA puts into the X.509 certificates it issues. Encoding and signing the
parameters is left to the certificate library. -/
namespace Nps.Nip.X509
open Wire (Bytes)

abbrev Oid := List Nat

def ekuAgentIdentityOid : Oid := [1, 3, 6, 1, 4, 1, 65715, 1, 1]
def ekuNodeIdentityOid : Oid := [1, 3, 6, 1, 4, 1, 65715, 1, 2]
def nidAssuranceLevelOid : Oid := [1, 3, 6, 1, 4, 1, 65715, 2, 1]
def idNpsNodeRolesOid : Oid := [1, 3, 6, 1, 4, 1, 65715, 2, 2]
def idNpsCapabilitiesOid : Oid := [1, 3, 6, 1, 4, 1, 65715, 2, 3]
def extensionExtendedKeyUsageOid : Oid := [2, 5, 29, 37]

/-- Base 128, most significant group first, with the high bit set on all but the last. -/
def base128 (n : Nat) : Bytes :=
  match Nat.digits 128 n with
  | [] => [0]
  | low :: high => ((UInt8.ofNat low) :: high.map fun d => UInt8.ofNat (d + 128)).reverse

def encodeOidContent : Oid → Bytes
  | first :: second :: rest => UInt8.ofNat (first * 40 + second) :: rest.flatMap base128
  | _ => []

def buildEkuExtensionValue (oid : Oid) : Bytes :=
  let content := encodeOidContent oid
  let tlv := 0x06 :: UInt8.ofNat content.length :: content
  0x30 :: UInt8.ofNat tlv.length :: tlv

def encodeLen (n : Nat) : Bytes :=
  if n < 0x80 then [UInt8.ofNat n]
  else if n < 0x100 then [0x81, UInt8.ofNat n]
  else [0x82, UInt8.ofNat (n / 256), UInt8.ofNat n]

def buildUtf8SequenceExtensionValue (values : List String) : Bytes :=
  let inner := values.flatMap fun value =>
    0x0C :: encodeLen (Text.utf8 value).length ++ Text.utf8 value
  0x30 :: encodeLen inner.length ++ inner

inductive LeafRole where
  | agent | node
deriving DecidableEq

structure CustomExtension where
  oid : Oid
  content : Bytes
  critical : Bool := false
deriving DecidableEq

structure CertificateParams where
  commonName : String
  sanUris : List String
  serialNumber : Bytes
  notBefore : Instant
  notAfter : Instant
  isCa : Bool
  keyUsages : List String
  customExtensions : List CustomExtension
deriving DecidableEq

structure Certificate where
  params : CertificateParams
  der : Bytes

/-- The certificate library: `self_signed` and `signed_by`, and the check of a URI name. -/
class CertificateLibrary [Ed25519] where
  checkUri : String → Except String Unit
  selfSigned : CertificateParams → Ed25519.SigningKey → Except String Bytes
  signedBy : CertificateParams → Key32 → Certificate → Ed25519.SigningKey → Except String Bytes

/-- Whole seconds, not before the epoch. -/
def systemToOffset (instant : Instant) : Instant :=
  if instant < 0 then 0 else Duration.seconds (unixTimestamp instant)

section
variable [Ed25519] [CertificateLibrary]

structure IssueRootOptions where
  caNid : String
  caSigningKey : Ed25519.SigningKey
  notBefore : Instant
  notAfter : Instant
  serialNumber : Bytes

structure IssueLeafOptions where
  subjectNid : String
  subjectPubRaw : Key32
  caSigningKey : Ed25519.SigningKey
  caRootCert : Certificate
  role : LeafRole
  assuranceLevel : AssuranceLevel
  notBefore : Instant
  notAfter : Instant
  serialNumber : Bytes
  attestedNodeRoles : Option (List String)
  attestedCapabilities : Option (List String)

def rootParams (opts : IssueRootOptions) : CertificateParams where
  commonName := opts.caNid
  sanUris := []
  serialNumber := opts.serialNumber
  notBefore := systemToOffset opts.notBefore
  notAfter := systemToOffset opts.notAfter
  isCa := true
  keyUsages := ["keyCertSign", "cRLSign"]
  customExtensions := []

def issueRoot (opts : IssueRootOptions) : Except String Certificate := do
  let params := rootParams opts
  let der ← (CertificateLibrary.selfSigned params opts.caSigningKey).mapError
    ("rcgen self_signed: " ++ ·)
  return { params, der }

def attestation (oid : Oid) (attested : Option (List String)) : List CustomExtension :=
  match attested with
  | some values => [{ oid, content := buildUtf8SequenceExtensionValue values }]
  | none => []

def leafParams (opts : IssueLeafOptions) : CertificateParams where
  commonName := opts.subjectNid
  sanUris := [opts.subjectNid]
  serialNumber := opts.serialNumber
  notBefore := systemToOffset opts.notBefore
  notAfter := systemToOffset opts.notAfter
  isCa := false
  keyUsages := ["digitalSignature"]
  customExtensions :=
    let ekuOid := if opts.role = .node then ekuNodeIdentityOid else ekuAgentIdentityOid
    [{ oid := extensionExtendedKeyUsageOid, content := buildEkuExtensionValue ekuOid,
       critical := true },
     { oid := nidAssuranceLevelOid, content := [0x0A, 0x01, UInt8.ofNat opts.assuranceLevel.rank] }] ++
      attestation idNpsNodeRolesOid opts.attestedNodeRoles ++
      attestation idNpsCapabilitiesOid opts.attestedCapabilities

def issueLeaf (opts : IssueLeafOptions) : Except String Certificate := do
  (CertificateLibrary.checkUri opts.subjectNid).mapError ("SAN URI: " ++ ·)
  let params := leafParams opts
  let der ← (CertificateLibrary.signedBy params opts.subjectPubRaw opts.caRootCert
    opts.caSigningKey).mapError ("rcgen signed_by: " ++ ·)
  return { params, der }

end
end Nps.Nip.X509
