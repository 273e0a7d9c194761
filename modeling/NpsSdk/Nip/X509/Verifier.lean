import NpsSdk.Nip.Ca.Signer
import NpsSdk.Nip.X509.Der

/-! Verification of X.509 identity chains: the leaf's key usage, subject and assurance
level, and the signature links up to a trusted root. -/
namespace Nps.Nip.X509
open Wire (Bytes)

structure Extension where
  /-- The components, when the encoded identifier can be split into them. -/
  oid : Option Oid
  critical : Bool
  value : Bytes
  /-- The other purposes of an extended key usage the parser understood. -/
  ekuOther : Option (List (Option Oid)) := none
deriving DecidableEq

structure X509Certificate where
  raw : Bytes
  tbsCertificate : Bytes
  signatureValue : Bytes
  subjectPublicKey : Bytes
  commonNames : List (Option String)
  extensions : List Extension
  /-- The URIs of the subject alternative name, when there is exactly one such extension. -/
  sanUris : Option (List String)
  notBefore : Instant
  notAfter : Instant
  isCa : Bool
deriving DecidableEq

/-- The certificate parser, with the message of a refusal. -/
class CertificateParser where
  fromDer : Bytes → Except String X509Certificate

structure VerifyResult where
  valid : Bool
  errorCode : Option ErrorCode
  message : Option String
  leafDer : Option Bytes

structure VerifyOptions where
  certChainB64uDer : List String
  assertedNid : String
  assertedAssuranceLevel : Option AssuranceLevel
  trustedRootCertsDer : List Bytes

def ok (leafDer : Bytes) : VerifyResult :=
  { valid := true, errorCode := none, message := none, leafDer := some leafDer }

structure Refusal where
  code : ErrorCode
  message : String
deriving DecidableEq

def fail (refusal : Refusal) : VerifyResult :=
  { valid := false, errorCode := some refusal.code, message := some refusal.message, leafDer := none }

/-- Unpadded base64url, or else padded. -/
def base64UrlDecode (text : String) : Except String Bytes :=
  match Base64.decode .urlSafe .none text with
  | .ok bytes => .ok bytes
  | .error _ => (Base64.decode .urlSafe .canonical text).mapError Base64.DecodeError.describe

def oidEquals (parsed : Option Oid) (expected : Oid) : Bool := parsed == some expected

/-- The identifiers of a raw sequence, `left` bytes of which belong to it. -/
def rawSeqWalk (expected : Bytes) : (fuel : Nat) → (rest : Bytes) → (left : Nat) → Bool
  | 0, _, _ => false
  | fuel + 1, rest, left =>
    if left < 2 then false
    else if rest.headD 0 ≠ 0x06 then false
    else match Der.readLen rest.tail with
      | none => false
      | some (len, header) =>
        if 1 + header + len > rest.length then false
        else if (rest.drop (1 + header)).take len = expected then true
        else rawSeqWalk expected fuel (rest.drop (1 + header + len)) (left - (1 + header + len))

def rawSeqContainsOid (value : Bytes) (expected : Oid) : Bool :=
  if value.length < 2 ∨ value.headD 0 ≠ 0x30 then false
  else match Der.readLen value.tail with
    | none => false
    | some (len, header) =>
      if 1 + header + len > value.length then false
      else rawSeqWalk (encodeOidContent expected) value.length (value.drop (1 + header)) len

def identityOid (oid : Option Oid) : Bool :=
  oidEquals oid ekuAgentIdentityOid || oidEquals oid ekuNodeIdentityOid

/-- Only the first extended key usage counts; it must be critical and name an identity. -/
def checkLeafEku (leaf : X509Certificate) : Except Refusal Unit :=
  match leaf.extensions.find? fun ext => oidEquals ext.oid extensionExtendedKeyUsageOid with
  | none => .error ⟨.certEkuMissing, "leaf has no ExtendedKeyUsage extension"⟩
  | some ext =>
    if !ext.critical then
      .error ⟨.certEkuMissing, "ExtendedKeyUsage extension is not marked critical"⟩
    else
      let contains := match ext.ekuOther with
        | some others => others.any identityOid
        | none =>
          rawSeqContainsOid ext.value ekuAgentIdentityOid ||
            rawSeqContainsOid ext.value ekuNodeIdentityOid
      if contains then .ok ()
      else .error ⟨.certEkuMissing,
        "ExtendedKeyUsage does not contain agent-identity or node-identity OID"⟩

def checkSubjectNid (leaf : X509Certificate) (assertedNid : String) : Except Refusal Unit :=
  if leaf.commonNames.contains (some assertedNid) then
    if (leaf.sanUris.getD []).contains assertedNid then .ok ()
    else .error ⟨.certSubjectNidMismatch, "no SAN URI matches asserted NID"⟩
  else .error ⟨.certSubjectNidMismatch,
    "leaf subject CN does not match asserted NID (" ++ assertedNid ++ ")"⟩

def levelOfRank (rank : UInt8) : Option AssuranceLevel :=
  [AssuranceLevel.anonymous, .attested, .verified].find? fun level => level.rank == rank.toNat

/-- A certificate without the extension attests no level and passes. -/
def checkAssuranceLevel (leaf : X509Certificate) (asserted : Option AssuranceLevel) :
    Except Refusal Unit :=
  match asserted with
  | none => .ok ()
  | some asserted =>
    match leaf.extensions.find? fun ext => oidEquals ext.oid nidAssuranceLevelOid with
    | none => .ok ()
    | some ext =>
      match ext.value with
      | [0x0A, 0x01, rank] =>
        match levelOfRank rank with
        | none => .error ⟨.assuranceUnknown,
            s!"assurance-level extension contains unknown value: {rank.toNat}"⟩
        | some level =>
          if level = asserted then .ok ()
          else .error ⟨.assuranceMismatch, "cert assurance-level (" ++ level.wire ++
            ") does not match asserted (" ++ asserted.wire ++ ")"⟩
      | value => .error ⟨.certFormatInvalid,
          "malformed assurance-level extension: " ++ Hex.encode value⟩

section
variable [Ed25519] [CertificateParser]

def verifySignedBy (child issuer : X509Certificate) : Except String Unit :=
  match Signer.sized 32 issuer.subjectPublicKey with
  | none =>
    .error s!"issuer pubkey is not 32 bytes ({issuer.subjectPublicKey.length} bytes)"
  | some key =>
    match Ed25519.fromBytes key with
    | .error e => .error ("issuer Ed25519 pubkey parse: " ++ e)
    | .ok verifyingKey =>
      match Signer.sized 64 child.signatureValue with
      | none => .error ("child signature parse: " ++ Ed25519.sizeMessage)
      | some signature =>
        if Ed25519.verify verifyingKey child.tbsCertificate signature then .ok ()
        else .error ("Ed25519 verify failed: " ++ Ed25519.mismatchMessage)

/-- Each certificate is signed by its successor. -/
def checkLinks (index : Nat) : List X509Certificate → Except Refusal Unit
  | child :: issuer :: rest =>
    match verifySignedBy child issuer with
    | .error e => .error ⟨.certFormatInvalid, s!"chain link {index} signature did not verify: {e}"⟩
    | .ok () => checkLinks (index + 1) (issuer :: rest)
  | _ => .ok ()

/-- The last certificate is a trusted root itself or signed by one. -/
def anchors (last : X509Certificate) (trustedRootsDer : List Bytes) : Bool :=
  trustedRootsDer.any fun root =>
    last.raw == root ||
      match CertificateParser.fromDer root with
      | .ok issuer => (verifySignedBy last issuer).isOk
      | .error _ => false

def checkChainSignature (chain : List X509Certificate) (trustedRootsDer : List Bytes) :
    Except Refusal Unit := do
  if trustedRootsDer = [] then throw ⟨.certFormatInvalid, "no trusted X.509 roots configured"⟩
  checkLinks 0 chain
  match chain.getLast? with
  | none => return ()
  | some last =>
    if anchors last trustedRootsDer then return ()
    else throw ⟨.certFormatInvalid, "chain does not anchor to any trusted root"⟩

def decodeChain (index : Nat) : List String → Except Refusal (List Bytes)
  | [] => .ok []
  | text :: rest => do
    let der ← (base64UrlDecode text).mapError fun e =>
      ⟨.certFormatInvalid, s!"chain[{index}] base64url decode: {e}"⟩
    let others ← decodeChain (index + 1) rest
    return der :: others

def parseChain (index : Nat) : List Bytes → Except Refusal (List X509Certificate)
  | [] => .ok []
  | der :: rest => do
    let certificate ← (CertificateParser.fromDer der).mapError fun e =>
      ⟨.certFormatInvalid, s!"chain[{index}] DER parse: {e}"⟩
    let others ← parseChain (index + 1) rest
    return certificate :: others

def checkChain (opts : VerifyOptions) : Except Refusal Bytes := do
  let chainDer ← decodeChain 0 opts.certChainB64uDer
  let chain ← parseChain 0 chainDer
  match chain, chainDer with
  | leaf :: _, leafDer :: _ => do
    checkLeafEku leaf
    checkSubjectNid leaf opts.assertedNid
    checkAssuranceLevel leaf opts.assertedAssuranceLevel
    checkChainSignature chain opts.trustedRootCertsDer
    return leafDer
  | _, _ => throw ⟨.certFormatInvalid, "cert_chain is empty"⟩

def verify (opts : VerifyOptions) : VerifyResult :=
  match checkChain opts with
  | .ok leafDer => ok leafDer
  | .error refusal => fail refusal

end
end Nps.Nip.X509
