import Licensing.Keys.KeyStore
import Licensing.Tokens.SigningInputs

-- The hierarchy of keys: root keys attest signing keys, which are rotated.

namespace Licensing

-- What a backend generates, with the outcome of the conversion of the private half.
structure Generated where
  publicPem  : String
  publicRaw  : List UInt8
  privateDER : Except Error (Option (List UInt8))

-- The signature backends and the sealing of private keys. Random numbers are of the type `ρ`, the
-- handles of imported private keys of the type `κ`.
structure KeyBackends (ρ κ : Type) where
  get           : KeyAlg → Except Error Unit
  generate      : KeyAlg → String → ρ → Except Error Generated
  wrap          : List UInt8 → String → ρ → Except Error String
  unwrap        : String → String → Except Error (List UInt8)
  importPrivate : KeyAlg → List UInt8 → String → Except Error κ
  sign          : KeyAlg → κ → List UInt8 → ρ → Except Error (List UInt8)
  importPublic  : KeyAlg → String → Except Error Unit
  verify        : KeyAlg → String → List UInt8 → List UInt8 → Except Error Bool
  publicRaw     : KeyAlg → String → Except Error (List UInt8)

-- The calls of the store that a rotation makes, in their order.
inductive StoreCall
  | listActive
  | demote
  | listExisting
  | findRoot
  | put
  | link
  deriving DecidableEq

-- What one call finds: a new id, the clock, random numbers, and failures of the store.
structure Draw (ρ : Type) where
  id           : String
  rotatedAt    : String := ""
  now          : String
  generateSeed : ρ
  wrapSeed     : ρ
  signSeed     : ρ
  fault        : StoreCall → Option Error := fun _ => none

def Draw.storing {ρ α : Type} (d : Draw ρ) (c : StoreCall) (x : Except Error α) : Except Error α :=
  match d.fault c with
  | some e => .error e
  | none   => x

-- What the ports do differently: the texts of their errors, the encoding of strings, and which kids
-- stand for none.
structure HierarchyPort where
  malformed            : String → Error
  kidInUse             : String → Error
  noRootPassphrase     : Error
  noPassphrase         : Error
  symmetric            : Error
  activeExists         : String → KeyAlg → Error
  severalActive        : Nat → String → KeyAlg → Error
  unknownRoot          : String → Error
  notRoot              : String → KeyRole → Error
  rootAlgMismatch      : KeyAlg → KeyAlg → Error
  suppliedKid          : Option String → Option String
  attestationCanonical : String → KeyAlg → List UInt8 → String → Option String → Except Error (List UInt8)
  base64urlEncode      : List UInt8 → String
  base64urlDecode      : String → Except Error (List UInt8)
  undecodable          : Error → Except Error Bool

structure KeyHierarchy (ρ κ : Type) where
  port     : HierarchyPort
  backends : KeyBackends ρ κ
  makeKid  : KeyRole → String → String

structure GenerateRootOptions where
  scopeId    : Option String
  alg        : KeyAlg
  passphrase : String
  notAfter   : Option String := none
  kid        : Option String := none
  meta_      : Json.Object := []

structure IssueSigningOptions where
  scopeId           : Option String
  alg               : KeyAlg
  rootKid           : String
  rootPassphrase    : String
  signingPassphrase : String
  notAfter          : Option String := none
  kid               : Option String := none

-- `retireOutgoingAt` is `none` if the outgoing key keeps its end.
structure RotateSigningOptions where
  scopeId           : Option String
  alg               : KeyAlg
  rootKid           : String
  rootPassphrase    : String
  signingPassphrase : String
  retireOutgoingAt  : Option (Option String) := none
  kid               : Option String := none

structure RotateResult where
  outgoing : LicenseKey
  incoming : LicenseKey

def scopeDescription (scopeId : Option String) : String :=
  scopeId.getD "global"

-- The filter of the active signing keys of a scope.
def activeSigning (scopeId : Option String) (alg : KeyAlg) : KeyStoreFilter where
  scopeId := some scopeId
  role    := some .signing
  state   := some .active
  alg     := some alg

def rootAttestation (rootKid signature : String) : Json.Object :=
  [("root_attestation", .obj [("root_kid", .str rootKid), ("signature", .str signature)])]

namespace KeyHierarchy

variable {ρ κ : Type} (h : KeyHierarchy ρ κ) (d : Draw ρ)

def ensureAsymmetricAlg (alg : KeyAlg) : Except Error Unit :=
  if alg = .hs256 then .error h.port.symmetric else .ok ()

def kid (supplied : Option String) (role : KeyRole) (id : String) : String :=
  (h.port.suppliedKid supplied).getD (h.makeKid role id)

-- The private half, sealed with the passphrase.
def sealPrivate (g : Generated) (passphrase : String) : Except Error (Option String) := do
  match ← g.privateDER with
  | none     => return none
  | some der => return some (← h.backends.wrap der passphrase d.wrapSeed)

def rootRecord (opts : GenerateRootOptions) : Except Error LicenseKey := do
  if opts.passphrase = "" then .error h.port.noRootPassphrase
  else do
    let _          ← h.ensureAsymmetricAlg opts.alg
    let _          ← h.backends.get opts.alg
    let g          ← h.backends.generate opts.alg opts.passphrase d.generateSeed
    let privateEnc ← h.sealPrivate d g opts.passphrase
    return {
      id            := d.id
      scopeId       := opts.scopeId
      kid           := h.kid opts.kid .root d.id
      alg           := opts.alg
      role          := .root
      state         := .active
      publicPem     := g.publicPem
      privatePemEnc := privateEnc
      rotatedFrom   := none
      rotatedAt     := none
      notBefore     := d.now
      notAfter      := opts.notAfter
      meta_         := opts.meta_
      createdAt     := d.now
      updatedAt     := d.now }

def store (record : LicenseKey) (s : KeyStore) : Except Error LicenseKey × KeyStore :=
  match d.storing .put (s.put h.port.kidInUse record) with
  | .error e => (.error e, s)
  | .ok s    => (.ok record, s)

def generateRoot (opts : GenerateRootOptions) (s : KeyStore) : Except Error LicenseKey × KeyStore :=
  match h.rootRecord d opts with
  | .error e    => (.error e, s)
  | .ok record  => h.store d record s

def requireRoot (rootKid : String) (alg : KeyAlg) (scopeId : Option String) (s : KeyStore) :
    Except Error LicenseKey := do
  match ← d.storing .findRoot (.ok (s.findByKid rootKid)) with
  | none      => .error (h.port.unknownRoot rootKid)
  | some root =>
    if root.role ≠ .root then .error (h.port.notRoot rootKid root.role)
    else if root.alg ≠ alg then .error (h.port.rootAlgMismatch root.alg alg)
    else if root.scopeId ≠ scopeId then
      .error (h.port.malformed ("root scope (" ++ scopeDescription root.scopeId ++
        ") ≠ requested scope (" ++ scopeDescription scopeId ++ ")"))
    else .ok root

def attestSigning (root : LicenseKey) (passphrase kid : String) (alg : KeyAlg)
    (publicRaw : List UInt8) (notBefore : String) (notAfter : Option String) :
    Except Error (List UInt8) :=
  match root.privatePemEnc with
  | none     => .error (h.port.malformed ("root " ++ root.kid ++ " holds only public material"))
  | some enc => do
    let _         ← h.backends.get root.alg
    let der       ← h.backends.unwrap enc passphrase
    let priv      ← h.backends.importPrivate root.alg der root.publicPem
    let canonical ← h.port.attestationCanonical kid alg publicRaw notBefore notAfter
    h.backends.sign root.alg priv canonical d.signSeed

-- The record of a new signing key, before it is stored.
def signingRecord (opts : IssueSigningOptions) (s : KeyStore) : Except Error LicenseKey := do
  if opts.signingPassphrase = "" then .error h.port.noPassphrase
  else if opts.rootPassphrase = "" then .error h.port.noPassphrase
  else do
    let _        ← h.ensureAsymmetricAlg opts.alg
    let existing ← d.storing .listExisting (.ok (s.list (activeSigning opts.scopeId opts.alg)))
    if existing ≠ [] then .error (h.port.activeExists (scopeDescription opts.scopeId) opts.alg)
    else do
      let root        ← h.requireRoot d opts.rootKid opts.alg opts.scopeId s
      let _           ← h.backends.get opts.alg
      let g           ← h.backends.generate opts.alg opts.signingPassphrase d.generateSeed
      let kid         := h.kid opts.kid .signing d.id
      let privateEnc  ← h.sealPrivate d g opts.signingPassphrase
      let signature   ← h.attestSigning d root opts.rootPassphrase kid opts.alg g.publicRaw d.now
        opts.notAfter
      return {
        id            := d.id
        scopeId       := opts.scopeId
        kid           := kid
        alg           := opts.alg
        role          := .signing
        state         := .active
        publicPem     := g.publicPem
        privatePemEnc := privateEnc
        rotatedFrom   := none
        rotatedAt     := none
        notBefore     := d.now
        notAfter      := opts.notAfter
        meta_         := rootAttestation root.kid (h.port.base64urlEncode signature)
        createdAt     := d.now
        updatedAt     := d.now }

def issueSigning (opts : IssueSigningOptions) (s : KeyStore) : Except Error LicenseKey × KeyStore :=
  match h.signingRecord d opts s with
  | .error e   => (.error e, s)
  | .ok record => h.store d record s

-- What the outgoing key becomes.
def retiring (opts : RotateSigningOptions) (outgoing : LicenseKey) : LicenseKey :=
  { outgoing with
    state     := .retiring
    notAfter  := opts.retireOutgoingAt.getD outgoing.notAfter
    rotatedAt := some d.rotatedAt
    updatedAt := d.rotatedAt }

def issueOptions (opts : RotateSigningOptions) : IssueSigningOptions where
  scopeId           := opts.scopeId
  alg               := opts.alg
  rootKid           := opts.rootKid
  rootPassphrase    := opts.rootPassphrase
  signingPassphrase := opts.signingPassphrase
  kid               := opts.kid

-- The outgoing key is retired before the incoming one is issued.
def rotateSigning (opts : RotateSigningOptions) (s : KeyStore) : Except Error RotateResult × KeyStore :=
  match d.storing .listActive (.ok (s.list (activeSigning opts.scopeId opts.alg))) with
  | .error e => (.error e, s)
  | .ok []   =>
    (.error (h.port.malformed ("no active signing key to rotate for scope=" ++
      scopeDescription opts.scopeId ++ " alg=" ++ opts.alg.toString)), s)
  | .ok (_ :: _ :: rest) =>
    (.error (h.port.severalActive (rest.length + 2) (scopeDescription opts.scopeId) opts.alg), s)
  | .ok [outgoing] =>
    match d.storing .demote (s.update h.port.malformed outgoing.id (retiring d opts outgoing)) with
    | .error e => (.error e, s)
    | .ok s    =>
      match h.issueSigning d (issueOptions opts) s with
      | (.error e, s)     => (.error e, s)
      | (.ok incoming, s) =>
        let linked := { incoming with rotatedFrom := some outgoing.id, updatedAt := d.rotatedAt }
        match d.storing .link (s.update h.port.malformed incoming.id linked) with
        | .error e => (.error e, s)
        | .ok s    => (.ok ⟨retiring d opts outgoing, linked⟩, s)

-- The two texts of an attestation.
def attestation? (k : LicenseKey) : Option (String × String) :=
  match k.meta_.get? "root_attestation" with
  | some (.obj ms) =>
    match ms.lookup "root_kid", ms.lookup "signature" with
    | some (.str rootKid), some (.str signature) =>
      if rootKid = "" ∨ signature = "" then none else some (rootKid, signature)
    | _, _ => none
  | _ => none

def verifyAttestation (signingKid : String) (s : KeyStore) : Except Error Bool :=
  match s.findByKid signingKid with
  | none         => .ok false
  | some signing =>
    if signing.role ≠ .signing then .ok false
    else match attestation? signing with
    | none                      => .ok false
    | some (rootKid, signature) =>
      match s.findByKid rootKid with
      | none      => .ok false
      | some root =>
        if root.role ≠ .root ∨ root.alg ≠ signing.alg then .ok false
        else do
          let _         ← h.backends.get signing.alg
          let _         ← h.backends.importPublic signing.alg root.publicPem
          let publicRaw ← h.backends.publicRaw signing.alg signing.publicPem
          let canonical ← h.port.attestationCanonical signing.kid signing.alg publicRaw
            signing.notBefore signing.notAfter
          match h.port.base64urlDecode signature with
          | .error e => h.port.undecodable e
          | .ok sig  => h.backends.verify signing.alg root.publicPem canonical sig

end KeyHierarchy

-- What names the active signing key of a scope in an error.
def activeSigningKey (scope : String) (alg : KeyAlg) : String :=
  scope ++ "/" ++ alg.toString

def symmetricText : String :=
  "symmetric algorithms (hs256) are not supported by the key hierarchy; " ++
    "manage HMAC secrets outside this layer"

namespace Go

def defaultMakeKid (role : KeyRole) (id : String) : String :=
  match id.toList.splitOn '-' with
  | time :: time' :: _ :: random :: _ =>
    role.toString ++ "-" ++ .ofList time ++ .ofList time' ++ "-" ++ .ofList random
  | _ => role.toString ++ "-" ++ id

def hierarchy : HierarchyPort where
  malformed          := tokenMalformed
  kidInUse kid       := newError .uniqueConstraintViolation
    ("kid already in use by another key: " ++ kid)
  noRootPassphrase   := newError .missingKeyPassphrase "GenerateRoot requires a non-empty passphrase"
  noPassphrase       := newError .missingKeyPassphrase
    "IssueSigning requires non-empty root and signing passphrases"
  symmetric          := newError .unsupportedAlgorithm symmetricText
  activeExists scope alg := newError .uniqueConstraintViolation
    ("an active signing key already exists for scope=" ++ scope ++ " alg=" ++ alg.toString)
  severalActive n scope alg := newError .uniqueConstraintViolation
    ("invariant violation: " ++ toString n ++ " active signing keys for scope=" ++ scope ++ " alg=" ++
      alg.toString)
  unknownRoot kid    := newError .unknownKid ("unknown root kid: " ++ kid)
  notRoot kid role   :=
    tokenMalformed ("kid " ++ kid ++ " is not a root key (role=" ++ role.toString ++ ")")
  rootAlgMismatch expected actual := newError .algorithmMismatch
    ("root alg " ++ expected.toString ++ " does not match requested alg " ++ actual.toString)
  suppliedKid kid    := kid.filter (· ≠ "")
  attestationCanonical kid alg publicRaw notBefore notAfter :=
    attestationCanonical (Bytes.ofString kid) (Bytes.ofString alg.toString) publicRaw
      (Bytes.ofString notBefore) (notAfter.map Bytes.ofString)
  base64urlEncode    := base64urlEncode
  base64urlDecode s  := base64urlDecode s.toList
  undecodable _      := .ok false

end Go

namespace Ts

def missingKeyPassphrase : Error :=
  newError .missingKeyPassphrase "key passphrase is required and must not be empty"

-- The segments of an id that are missing are read as `undefined`.
def defaultMakeKid (role : KeyRole) (id : String) : String :=
  let part (n : Nat) : String := ((id.toList.splitOn '-')[n]?).elim "undefined" .ofList
  role.toString ++ "-" ++ part 0 ++ part 1 ++ "-" ++ part 3

def hierarchy : HierarchyPort where
  malformed          := tokenMalformed
  kidInUse           := uniqueConstraintViolation "kid"
  noRootPassphrase   := missingKeyPassphrase
  noPassphrase       := missingKeyPassphrase
  symmetric          := unsupportedAlgorithm symmetricText
  activeExists scope alg :=
    uniqueConstraintViolation "active_signing_per_scope" (activeSigningKey scope alg)
  severalActive n scope alg := uniqueConstraintViolation "active_signing_per_scope"
    (activeSigningKey scope alg ++ " (found " ++ toString n ++ ")")
  unknownRoot kid    := newError .unknownKid ("unknown kid: " ++ kid)
  notRoot kid _      := tokenMalformed ("kid " ++ kid ++ " is not a root key")
  rootAlgMismatch expected actual := newError .algorithmMismatch
    ("alg mismatch for kid: expected " ++ expected.toString ++ ", got " ++ actual.toString)
  suppliedKid        := id
  attestationCanonical kid alg publicRaw notBefore notAfter :=
    attestationCanonical (.ofString kid) (.ofString alg.toString) publicRaw
      (.ofString notBefore) (notAfter.map .ofString)
  base64urlEncode    := base64urlEncode
  base64urlDecode s  := base64urlDecode s.toList
  undecodable        := .error

end Ts

end Licensing
