import Atlax.Model.Frame

/-!
# The certificate of the relay and its rotation

At boot the relay checks the certificate file, loads the pair for the TLS configuration and later
starts `WatchForRotation` (pkg/auth/certs_impl.go), which takes the fingerprint of the certificate
file and then looks at it at every tick: when the fingerprint is another one, the pair is loaded
again and handed to `Reload`. Handshakes get the certificate that was stored last.

Each read of a file is a step of its own, and both files may change between any two of them. What
`crypto/tls`, `encoding/pem` and SHA-256 compute of file contents is a parameter.
-/

set_option autoImplicit false

namespace Atlax.Model

/-- What the libraries make of file contents. -/
structure CertFormat (φ : Type) where
  /-- how many CERTIFICATE blocks `pem.Decode` finds -/
  certificates : Bytes → ℕ
  /-- the error of `tls.X509KeyPair`, if any -/
  keyPair : Bytes → Bytes → Option String
  /-- the SHA-256 sum in hex -/
  fingerprint : Bytes → φ

/-- What `os.ReadFile` gives. -/
inductive FileContents
  | unreadable (err : String)
  | data (b : Bytes)
  deriving DecidableEq

/-- What is wrong with a certificate file.
SOURCE: certs_impl.go:71-100 -/
inductive ChainError
  | read (path err : String)
  | noCertificates (path : String)
  | singleCertificate (path : String)
  deriving DecidableEq

/-- SOURCE: certs_impl.go:73, 90, 93-98 -/
def ChainError.text : ChainError → String
  | .read path err => s!"auth: validate chain: read {path}: {err}"
  | .noCertificates path => s!"auth: validate chain: no certificates found in {path}"
  | .singleCertificate path =>
    s!"auth: validate chain: {path} contains a single certificate " ++
      "(bare leaf, no intermediate CA). " ++
      "atlax requires a chain cert: concatenate the leaf and intermediate CA into a single file " ++
      "(e.g. `cat leaf.crt intermediate.crt > chain.crt`) and point cert_file at the chain"

/-- Why the relay does not start.
SOURCE: main.go:52-54, 79-82 -/
inductive CertBootError
  | validate (err : ChainError)
  | load (err : String)
  | clientCA (err : String)
  deriving DecidableEq

/-- SOURCE: main.go:53, 81; mtls.go:115, 121; certs_impl.go:57 -/
def CertBootError.text : CertBootError → String
  | .validate err => s!"validate cert: {err.text}"
  | .load err => s!"create TLS config: auth: server tls: auth: load certificate: {err}"
  | .clientCA err => s!"create TLS config: auth: server tls: client CA: {err}"

/-- What `WatchForRotation` returns.
SOURCE: certs_impl.go:128, 137 -/
inductive WatchError
  | initialFingerprint (err : String)
  | ctx
  deriving DecidableEq

/-- SOURCE: certs_impl.go:128, 137 -/
def WatchError.text : WatchError → String
  | .initialFingerprint err => s!"auth: watch: initial fingerprint: {err}"
  | .ctx => "context canceled"

/-- Where the relay stands with its certificate. At boot: before the preflight check, before the
read of the certificate, of the key and of the client CAs, and before the watcher's first read. In
the loop: at its select; before the fingerprint of a tick, the read of the certificate and of the
key, and before `reload`. -/
inductive RotationPc (φ : Type)
  | validate
  | loadCert
  | loadKey (cert : Bytes)
  | loadCA
  | start
  | wait
  | check
  | reloadCert (fp : φ)
  | reloadKey (fp : φ) (cert : Bytes)
  | reload (fp : φ) (cert key : Bytes)
  | failed (err : CertBootError)
  | returned (err : WatchError)
  deriving DecidableEq

/-- The two files, the watcher, and the pair that `GetCertificate` gives.
SOURCE: mtls.go:72-82; certs_impl.go:126 -/
structure Rotation (φ : Type) where
  certPath : String
  cert : FileContents
  key : FileContents
  pc : RotationPc φ := .validate
  currentCert : Option (Bytes × Bytes) := none
  lastFingerprint : Option φ := none
  deriving DecidableEq

/-- The steps of a rotation. -/
inductive RotationAction
  /-- a file changes -/
  | writeCert (f : FileContents)
  | writeKey (f : FileContents)
  /-- boot or the watcher runs its next section -/
  | run
  /-- `LoadCertificateAuthority` returns -/
  | loadCA (err : Option String)
  | tick
  | ctxDone
  deriving DecidableEq

/-- SOURCE: certs_impl.go:70-101 -/
def validateChainCertFile {φ : Type} (fmt : CertFormat φ) (path : String) :
    FileContents → Option ChainError
  | .unreadable err => some (.read path err)
  | .data b =>
    if fmt.certificates b = 0 then some (.noCertificates path)
    else if fmt.certificates b = 1 then some (.singleCertificate path)
    else none

namespace Rotation

variable {φ : Type} [DecidableEq φ] (fmt : CertFormat φ) (s : Rotation φ)

/-- The next section: of boot up to the watcher's first read, or of a tick, at which a file that
cannot be read and a pair that does not fit are logged and left to the next one.
SOURCE: main.go:52-82; mtls.go:113-117; certs_impl.go:126-129, 138-158 -/
def runNext : RotationPc φ → Option (Rotation φ)
  | .validate =>
    match validateChainCertFile fmt s.certPath s.cert with
    | some err => some { s with pc := .failed (.validate err) }
    | none => some { s with pc := .loadCert }
  | .loadCert =>
    match s.cert with
    | .unreadable err => some { s with pc := .failed (.load err) }
    | .data cert => some { s with pc := .loadKey cert }
  | .loadKey cert =>
    match s.key with
    | .unreadable err => some { s with pc := .failed (.load err) }
    | .data key =>
      match fmt.keyPair cert key with
      | some err => some { s with pc := .failed (.load err) }
      | none => some { s with currentCert := some (cert, key), pc := .loadCA }
  | .start =>
    match s.cert with
    | .unreadable err => some { s with pc := .returned (.initialFingerprint err) }
    | .data cert => some { s with lastFingerprint := some (fmt.fingerprint cert), pc := .wait }
  | .check =>
    match s.cert with
    | .unreadable _ => some { s with pc := .wait }
    | .data cert =>
      if s.lastFingerprint = some (fmt.fingerprint cert) then some { s with pc := .wait }
      else some { s with pc := .reloadCert (fmt.fingerprint cert) }
  | .reloadCert fp =>
    match s.cert with
    | .unreadable _ => some { s with pc := .wait }
    | .data cert => some { s with pc := .reloadKey fp cert }
  | .reloadKey fp cert =>
    match s.key with
    | .unreadable _ => some { s with pc := .wait }
    | .data key =>
      match fmt.keyPair cert key with
      | some _ => some { s with pc := .wait }
      | none => some { s with pc := .reload fp cert key }
  | .reload fp cert key =>
    some { s with lastFingerprint := some fp, currentCert := some (cert, key), pc := .wait }
  | .loadCA | .wait | .failed _ | .returned _ => none

/-- One step. -/
def step : RotationAction → Option (Rotation φ)
  | .writeCert f => some { s with cert := f }
  | .writeKey f => some { s with key := f }
  | .run => s.runNext fmt s.pc
  | .loadCA err =>
    if s.pc = .loadCA then
      match err with
      | some err => some { s with pc := .failed (.clientCA err) }
      | none => some { s with pc := .start }
    else none
  | .tick => if s.pc = .wait then some { s with pc := .check } else none
  | .ctxDone => if s.pc = .wait then some { s with pc := .returned .ctx } else none

end Rotation

/-- The relay starts. -/
def newRotation (φ : Type) (certPath : String) (cert key : FileContents) : Rotation φ where
  certPath := certPath
  cert := cert
  key := key

end Atlax.Model
