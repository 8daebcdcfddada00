namespace Licensing

inductive ErrorCode
  | canonicalJSONInvalidType
  | canonicalJSONInvalidNumber
  | canonicalJSONInvalidUTF8
  | canonicalJSONInvalidTopLevel
  | canonicalJSONDuplicateKey
  | canonicalJSONUnknownField
  | unsupportedTokenFormat
  | tokenMalformed
  | tokenSignatureInvalid
  | tokenExpired
  | tokenNotYetValid
  | unsupportedAlgorithm
  | algorithmAlreadyRegistered
  | algorithmMismatch
  | unknownKid
  | insufficientKeyStrength
  | missingKeyPassphrase
  | keyDecryptionFailed
  | licenseKeyConflict
  | licenseNotFound
  | licenseRevoked
  | licenseSuspended
  | licenseExpired
  | illegalLifecycleTransition
  | seatLimitExceeded
  | fingerprintRejected
  | invalidLicenseKey
  | immutableAuditLog
  | uniqueConstraintViolation
  | templateCycle
  | trialAlreadyIssued
  | graceExpired
  | unauthenticated
  | rateLimited
  deriving DecidableEq, Repr

def ErrorCode.toString : ErrorCode → String
  | canonicalJSONInvalidType     => "CanonicalJSONInvalidType"
  | canonicalJSONInvalidNumber   => "CanonicalJSONInvalidNumber"
  | canonicalJSONInvalidUTF8     => "CanonicalJSONInvalidUTF8"
  | canonicalJSONInvalidTopLevel => "CanonicalJSONInvalidTopLevel"
  | canonicalJSONDuplicateKey    => "CanonicalJSONDuplicateKey"
  | canonicalJSONUnknownField    => "CanonicalJSONUnknownField"
  | unsupportedTokenFormat       => "UnsupportedTokenFormat"
  | tokenMalformed               => "TokenMalformed"
  | tokenSignatureInvalid        => "TokenSignatureInvalid"
  | tokenExpired                 => "TokenExpired"
  | tokenNotYetValid             => "TokenNotYetValid"
  | unsupportedAlgorithm         => "UnsupportedAlgorithm"
  | algorithmAlreadyRegistered   => "AlgorithmAlreadyRegistered"
  | algorithmMismatch            => "AlgorithmMismatch"
  | unknownKid                   => "UnknownKid"
  | insufficientKeyStrength      => "InsufficientKeyStrength"
  | missingKeyPassphrase         => "MissingKeyPassphrase"
  | keyDecryptionFailed          => "KeyDecryptionFailed"
  | licenseKeyConflict           => "LicenseKeyConflict"
  | licenseNotFound              => "LicenseNotFound"
  | licenseRevoked               => "LicenseRevoked"
  | licenseSuspended             => "LicenseSuspended"
  | licenseExpired               => "LicenseExpired"
  | illegalLifecycleTransition   => "IllegalLifecycleTransition"
  | seatLimitExceeded            => "SeatLimitExceeded"
  | fingerprintRejected          => "FingerprintRejected"
  | invalidLicenseKey            => "InvalidLicenseKey"
  | immutableAuditLog            => "ImmutableAuditLog"
  | uniqueConstraintViolation    => "UniqueConstraintViolation"
  | templateCycle                => "TemplateCycle"
  | trialAlreadyIssued           => "TrialAlreadyIssued"
  | graceExpired                 => "GraceExpired"
  | unauthenticated              => "Unauthenticated"
  | rateLimited                  => "RateLimited"

-- An error of the licensing taxonomy, or an error of a library underneath that passes through.
inductive Error
  | licensing (code : ErrorCode) (message : String)
  | other (message : String)
  deriving DecidableEq, Repr

def newError (code : ErrorCode) (message : String) : Error :=
  .licensing code message

def Error.HasCode (e : Error) (code : ErrorCode) : Prop :=
  ∃ message, e = .licensing code message

theorem hasCode_newError (code : ErrorCode) (message : String) :
    (newError code message).HasCode code :=
  ⟨message, rfl⟩

def Ts.uniqueConstraintViolation (constraint value : String) : Error :=
  newError .uniqueConstraintViolation
    ("unique constraint violated: " ++ constraint ++ " = " ++ value)

@[simp]
theorem ok_bind {ε α β : Type} (a : α) (f : α → Except ε β) : (Except.ok a >>= f) = f a :=
  rfl

theorem bind_eq_ok_iff {ε α β : Type} {x : Except ε α} {f : α → Except ε β} {b : β} :
    x >>= f = .ok b ↔ ∃ a, x = .ok a ∧ f a = .ok b := by
  cases x <;> simp [bind, Except.bind]

theorem map_eq_ok_iff {ε α β : Type} {x : Except ε α} {f : α → β} {b : β} :
    x.map f = .ok b ↔ ∃ a, x = .ok a ∧ f a = b := by
  cases x <;> simp [Except.map]

theorem ok_of_mapM {ε α β : Type} {f : α → Except ε β} {as : List α} {bs : List β}
    (h : as.mapM f = .ok bs) : ∀ a ∈ as, ∃ b, f a = .ok b := by
  induction as generalizing bs
  case nil => simp
  case cons a as ih =>
    rw [List.mapM_cons] at h
    obtain ⟨b, ha, h⟩ := bind_eq_ok_iff.mp h
    obtain ⟨bs', has, _⟩ := bind_eq_ok_iff.mp h
    exact List.forall_mem_cons.mpr ⟨⟨b, ha⟩, ih has⟩

-- A computation succeeds if the condition holds, and fails with an error of the class otherwise.
structure Settles (code : ErrorCode) {α : Type} (clean : Prop) (a : α) (x : Except Error α) : Prop where
  accepted : clean → x = .ok a
  rejected : ¬clean → ∃ e, x = .error e ∧ e.HasCode code

namespace Settles

variable {code : ErrorCode} {α β : Type} {clean clean' : Prop} {a : α} {b : β}
  {x : Except Error α}

theorem ok (a : α) (h : clean) : Settles code clean a (.ok a) :=
  ⟨fun _ => rfl, fun hn => absurd h hn⟩

theorem iff (h : Settles code clean a x) (hs : clean' ↔ clean) : Settles code clean' a x :=
  ⟨fun hs' => h.accepted (hs.mp hs'), fun hn => h.rejected (hn ∘ hs.mpr)⟩

theorem map (h : Settles code clean a x) (f : α → β) : Settles code clean (f a) (x.map f) where
  accepted hs := by rw [h.accepted hs]; rfl
  rejected hn := by
    have ⟨e, hx, he⟩ := h.rejected hn
    exact ⟨e, by rw [hx]; rfl, he⟩

theorem bind (h : Settles code clean a x) {f : α → Except Error β} (hf : Settles code clean' b (f a)) :
    Settles code (clean ∧ clean') b (x >>= f) where
  accepted := by
    rintro ⟨hs, hs'⟩
    rw [h.accepted hs]
    exact hf.accepted hs'
  rejected hn := by
    by_cases hs : clean
    case pos =>
      rw [h.accepted hs]
      exact hf.rejected fun hs' => hn ⟨hs, hs'⟩
    case neg =>
      have ⟨e, hx, he⟩ := h.rejected hs
      exact ⟨e, by rw [hx]; rfl, he⟩

theorem mapM {f : α → Except Error β} {g : α → β} {clean : α → Prop} {as : List α}
    (h : ∀ a ∈ as, Settles code (clean a) (g a) (f a)) :
    Settles code (∀ a ∈ as, clean a) (as.map g) (as.mapM f) := by
  induction as
  case nil => exact .ok _ (by simp)
  case cons a as ih =>
    rw [List.forall_mem_cons] at h
    rw [List.mapM_cons, List.forall_mem_cons, List.map_cons]
    simp only [bind_pure_comp]
    exact h.1.bind <| (ih h.2).map (g a :: ·)

end Settles

end Licensing
