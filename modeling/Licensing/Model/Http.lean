import Licensing.Model.Entities
import Licensing.Model.Errors

-- Responses, and the checks of request bodies.

namespace Licensing

structure Response where
  status : Nat
  body   : Option Json
  deriving Repr

namespace Response

def ok (data : Json) (status : Nat := 200) : Response where
  status := status
  body   := some (.obj [("success", .bool true), ("data", data)])

def noContent : Response where
  status := 204
  body   := none

def err (status : Nat) (code message : String) : Response where
  status := status
  body   := some (.obj [
    ("success", .bool false),
    ("error", .obj [("code", .str code), ("message", .str message)])])

def IsSuccess (r : Response) : Prop :=
  200 ≤ r.status ∧ r.status < 300

theorem isSuccess_ok (data : Json) : (ok data).IsSuccess :=
  ⟨Nat.le_refl 200, by simp [ok]⟩

theorem not_isSuccess_err {status : Nat} (h : 300 ≤ status) (code message : String) :
    ¬(err status code message).IsSuccess :=
  fun hs => Nat.lt_irrefl _ (Nat.lt_of_lt_of_le hs.right h)

end Response

-- The table of both ports, which differ in `TrialAlreadyIssued`.
def errorStatus (trialAlreadyIssued : Nat) : ErrorCode → Nat
  | .canonicalJSONInvalidType | .canonicalJSONInvalidNumber | .canonicalJSONInvalidUTF8
  | .canonicalJSONInvalidTopLevel | .canonicalJSONDuplicateKey | .canonicalJSONUnknownField
  | .tokenMalformed | .unsupportedTokenFormat => 400
  | .unauthenticated | .tokenSignatureInvalid | .tokenExpired | .tokenNotYetValid => 401
  | .fingerprintRejected | .licenseSuspended | .licenseRevoked | .licenseExpired | .graceExpired => 403
  | .invalidLicenseKey | .licenseNotFound | .unknownKid => 404
  | .licenseKeyConflict | .uniqueConstraintViolation | .seatLimitExceeded
  | .illegalLifecycleTransition | .templateCycle => 409
  | .trialAlreadyIssued => trialAlreadyIssued
  | .unsupportedAlgorithm | .algorithmAlreadyRegistered | .algorithmMismatch
  | .insufficientKeyStrength | .missingKeyPassphrase | .keyDecryptionFailed => 422
  | .rateLimited => 429
  | .immutableAuditLog => 500

theorem le_errorStatus {trialAlreadyIssued : Nat} (h : 300 ≤ trialAlreadyIssued) (c : ErrorCode) :
    300 ≤ errorStatus trialAlreadyIssued c := by
  cases c <;> simp [errorStatus, h]

-- An error of the taxonomy keeps its code and its text, any other is opaque.
def errorResponse (errorStatus : ErrorCode → Nat) : Error → Response
  | .licensing code message => .err (errorStatus code) code.toString message
  | .other _                => .err 500 "InternalError" "an unexpected error occurred"

namespace Go

-- `TrialAlreadyIssued` is missing in the table.
def errorStatus : ErrorCode → Nat :=
  Licensing.errorStatus 500

def writeErrorFromLicensing : Error → Response :=
  errorResponse errorStatus

end Go

namespace Ts

def errorStatus : ErrorCode → Nat :=
  Licensing.errorStatus 409

def errFromLicensing : Error → Response :=
  errorResponse errorStatus

theorem not_isSuccess_errFromLicensing (e : Error) : ¬(errFromLicensing e).IsSuccess := by
  cases e
  case licensing c m => exact Response.not_isSuccess_err (le_errorStatus (by decide) c) _ _
  case other => exact Response.not_isSuccess_err (by decide) _ _

def badRequest (message : String) : Response :=
  .err 400 "BadRequest" message

def requireJsonObject : Option Json → Except Response Json.Object
  | none          => .error (badRequest "request body is required")
  | some (.obj o) => .ok o
  | some _        => .error (badRequest "request body must be a JSON object")

def requireString (o : Json.Object) (key : String) : Except Response String :=
  match o.get? key with
  | some (.str s) =>
    if s = "" then .error (badRequest ("missing or empty string field: " ++ key)) else .ok s
  | _ => .error (badRequest ("missing or empty string field: " ++ key))

-- Absent, null and empty are the same.
def optionalString (o : Json.Object) (key : String) : Except Response (Option String) :=
  match o.get? key with
  | none | some .null => .ok none
  | some (.str s)     => .ok (if s = "" then none else some s)
  | some _            => .error (badRequest ("field must be a string or null: " ++ key))

-- A check that fails answers with a bad request.
def Rejects {α : Type} (check : Except Response α) : Prop :=
  ∀ r, check = .error r → ∃ message, r = badRequest message

namespace Rejects

variable {α β : Type}

theorem ok (a : α) : Rejects (.ok a) :=
  fun _ h => nomatch h

theorem badRequest (message : String) : Rejects (.error (badRequest message) : Except Response α) :=
  fun _ h => ⟨message, (Except.error.inj h).symm⟩

theorem bind {c : Except Response α} {f : α → Except Response β} (hc : Rejects c)
    (hf : ∀ a, Rejects (f a)) : Rejects (c >>= f) := by
  match c with
  | .ok a    => exact hf a
  | .error _ => exact fun _ h => hc _ (congrArg _ (Except.error.inj h))

theorem not_isSuccess {c : Except Response α} (hc : Rejects c) {r : Response} (h : c = .error r) :
    ¬r.IsSuccess := by
  have ⟨message, hr⟩ := hc r h
  exact hr ▸ Response.not_isSuccess_err (by decide) _ _

end Rejects

theorem requireJsonObject_rejects (body : Option Json) : Rejects (requireJsonObject body) := by
  unfold requireJsonObject
  split
  · exact .badRequest _
  · exact .ok _
  · exact .badRequest _

theorem requireString_rejects (o : Json.Object) (key : String) : Rejects (requireString o key) := by
  unfold requireString
  split
  · split
    · exact .badRequest _
    · exact .ok _
  · exact .badRequest _

theorem optionalString_rejects (o : Json.Object) (key : String) : Rejects (optionalString o key) := by
  unfold optionalString
  split
  · exact .ok _
  · exact .ok _
  · exact .ok _
  · exact .badRequest _

end Ts

end Licensing
