import Licensing.Client.Exchange
import Licensing.Http.Endpoints
import Licensing.Model.KeyText

-- The requests of the clients, and what they make of the answers of the issuer.

namespace Licensing

-- A body that cannot be read to its end, one that is not JSON, or a value.
inductive HttpBody
  | unreadable
  | other
  | json (v : Json)

structure HttpAnswer where
  status     : Nat
  retryAfter : Option String := none
  body       : HttpBody

-- Without an answer the request has failed on its way.
abbrev Delivery :=
  Option HttpAnswer

-- The seconds of `Retry-After` are of the type `ν`.
structure IssuerError (ν : Type) where
  error         : ClientError
  httpStatus    : Option Nat := none
  retryAfterSec : Option ν := none

-- The same map in both ports.
def issuerCodeMap : List (String × ClientErrorCode) :=
  [ ("InvalidLicenseKey",    .invalidLicenseKey),
    ("FingerprintRejected",  .fingerprintMismatch),
    ("SeatLimitExceeded",    .seatLimitExceeded),
    ("LicenseRevoked",       .licenseRevoked),
    ("LicenseSuspended",     .licenseSuspended),
    ("LicenseExpired",       .tokenExpired),
    ("RateLimited",          .rateLimited),
    ("UnknownKid",           .unknownKid),
    ("AlgorithmMismatch",    .algorithmMismatch),
    ("UnsupportedAlgorithm", .unsupportedAlgorithm) ]

-- That the grace has expired is for the device to say.
def OfIssuer {ν α : Type} (x : Except (IssuerError ν) α) : Prop :=
  ∀ e, x = .error e → ¬e.error.HasCode .graceExpired

namespace OfIssuer

variable {ν α α' : Type} {x x' : Except (IssuerError ν) α}

theorem ok (a : α) : OfIssuer (.ok a : Except (IssuerError ν) α) :=
  nofun

theorem error {e : IssuerError ν} (h : ¬e.error.HasCode .graceExpired) :
    OfIssuer (.error e : Except (IssuerError ν) α) := by
  rintro _ ⟨⟩
  exact h

theorem bind {f : α → Except (IssuerError ν) α'} (h : OfIssuer x) (hf : ∀ a, OfIssuer (f a)) : OfIssuer (x >>= f) := by
  cases x with
  | ok a    => exact hf a
  | error e => exact fun _ he => h _ (congrArg _ (Except.error.inj he))

theorem ite {p : Prop} [Decidable p] (h : OfIssuer x) (h' : OfIssuer x') : OfIssuer (if p then x else x') := by
  split <;> assumption

end OfIssuer

theorem issuerCodeMap_ne {code : String} {known : ClientErrorCode} (h : issuerCodeMap.lookup code = some known) :
    known ≠ .graceExpired := by
  obtain ⟨l, r, he, _⟩ := List.lookup_eq_some_iff.mp h
  have codes : ∀ entry ∈ issuerCodeMap, entry.2 ≠ .graceExpired := by decide
  exact codes (code, known) (by simp [he])

def issuerUnreachable (message : String) : ClientError :=
  .client .issuerUnreachable message

namespace Go

-- `strconv.Atoi`, for which an `int` has 64 bits.
def atoi (s : String) : Option Int :=
  let (negative, ds) :=
    match s.toList with
    | '-' :: ds => (true, ds)
    | '+' :: ds => (false, ds)
    | ds        => (false, ds)
  if ds = [] ∨ ¬ds.all Char.isDigit then none
  else
    let n : Int := if negative then -Binary64.digitsValue ds else Binary64.digitsValue ds
    if -2 ^ 63 ≤ n ∧ n < 2 ^ 63 then some n else none

def parseRetryAfter (header : Option String) : Int :=
  match atoi (header.getD "") with
  | none     => 60
  | some sec => if sec ≤ 0 then 60 else min sec 86400

def fromIssuerCode (code message : String) (httpStatus : Nat) : IssuerError Int :=
  match issuerCodeMap.lookup code with
  | some known => { error := .client known message, httpStatus := httpStatus }
  | none       => {
      error      := .client .issuerProtocolError ("unknown issuer error [" ++ code ++ "]: " ++ message)
      httpStatus := httpStatus }

-- A member is for a field whose name it folds to. The long s and the sign of the kelvin fold to letters of ASCII.
def foldName (name : String) : List Char :=
  name.toList.map fun c => if c = '\u017f' then 's' else if c = '\u212a' then 'k' else lower c

-- The members of a struct are decoded one after the other; `null` leaves it as it is.
def unmarshalStruct {α : Type} (zero : α) (field : α → List Char → Json → Option α) : Json → Option α
  | .null   => some zero
  | .obj ms => ms.foldlM (fun a (k, v) => field a (foldName k) v) zero
  | _       => none

def stringField (old : String) : Json → Option String
  | .null  => some old
  | .str s => some s
  | _      => none

structure IssuerErrorBody where
  code    : String := ""
  message : String := ""

def IssuerErrorBody.field (e : IssuerErrorBody) (name : List Char) (v : Json) : Option IssuerErrorBody :=
  if name = "code".toList then (stringField e.code v).map ({ e with code := · })
  else if name = "message".toList then (stringField e.message v).map ({ e with message := · })
  else some e

structure IssuerResponse where
  error   : Option IssuerErrorBody := none
  data    : Option Json := none
  success : Bool := false

def IssuerResponse.field (r : IssuerResponse) (name : List Char) (v : Json) : Option IssuerResponse :=
  if name = "error".toList then
    if v matches .null then some { r with error := none }
    else (unmarshalStruct (r.error.getD {}) IssuerErrorBody.field v).map ({ r with error := some · })
  else if name = "data".toList then some { r with data := some v }
  else if name = "success".toList then
    match v with
    | .null   => some r
    | .bool b => some { r with success := b }
    | _       => none
  else some r

-- `decode` is the decoding of the data into a struct.
def postJSON {α : Type} (decode : Json → Option α) : Delivery → Except (IssuerError Int) α
  | none        => .error { error := issuerUnreachable "issuer is unreachable" }
  | some answer =>
    if answer.status = 429 then .error {
      error         := .client .rateLimited "rate limited by issuer"
      httpStatus    := some 429
      retryAfterSec := some (parseRetryAfter answer.retryAfter) }
    else match answer.body with
    | .unreadable => .error { error := issuerUnreachable "failed to read response body" }
    | .other      => .error { error := issuerUnreachable "non-JSON response from issuer" }
    | .json v     =>
      match unmarshalStruct {} IssuerResponse.field v with
      | none          => .error { error := issuerUnreachable "non-JSON response from issuer" }
      | some envelope =>
        if ¬envelope.success then
          match envelope.error with
          | some e => .error (fromIssuerCode e.code e.message answer.status)
          | none   => .error { error := issuerUnreachable "issuer returned unsuccessful response" }
        else match envelope.data.bind decode with
          | none        => .error { error := issuerUnreachable "failed to decode response data" }
          | some result => .ok result

theorem fromIssuerCode_ne (code message : String) (httpStatus : Nat) :
    ¬(fromIssuerCode code message httpStatus).error.HasCode .graceExpired := by
  rintro ⟨text, he⟩
  unfold fromIssuerCode at he
  split at he
  case h_1 known hk => exact issuerCodeMap_ne hk (ClientError.client.inj he).left
  case h_2          => simp at he

theorem ofIssuer_postJSON {α : Type} {decode : Json → Option α} (delivery : Delivery) :
    OfIssuer (postJSON decode delivery) := by
  have unreachable (message : String) :
      OfIssuer (.error { error := issuerUnreachable message } : Except (IssuerError Int) α) :=
    .error (by rintro ⟨_, ⟨⟩⟩)
  unfold postJSON
  split
  case h_1 => exact unreachable _
  case h_2 answer =>
    apply OfIssuer.ite
    case h  => exact .error (by rintro ⟨_, ⟨⟩⟩)
    case h' =>
      split
      case h_3 =>
        split
        case h_1 => exact unreachable _
        case h_2 envelope _ =>
          apply OfIssuer.ite
          case h =>
            split
            case h_1 e _ => exact .error (fromIssuerCode_ne e.code e.message answer.status)
            case h_2     => exact unreachable _
          case h' => split <;> [exact unreachable _; exact .ok _]
      all_goals exact unreachable _

-- The one field of the answer to a refresh.
def refreshResponse : Json → Option String :=
  unmarshalStruct "" fun token name v => if name = "token".toList then stringField token v else some token

-- The surroundings of a device whose issuer is asked over HTTP.
def viaHttp {β κ : Type} (http : GoString → Delivery) (w : Surroundings GoString β κ Int64 GoString) :
    Surroundings GoString β κ Int64 GoString :=
  { w with postRefresh := fun token =>
      match postJSON refreshResponse (http token) with
      | .error e  => .error e.error
      | .ok token => .ok (Bytes.ofString token) }

end Go

namespace Ts

def digitsPrefix (cs : List Char) : Option Binary64 :=
  match cs.takeWhile Char.isDigit with
  | [] => none
  | ds => some (.rounded false (Binary64.digitsValue ds * Binary64.one) 1)

-- `Number.parseInt(header, 10)`; `none` is NaN.
def parseInt10 (header : String) : Option Binary64 :=
  match header.toList.dropWhile isSpace with
  | '-' :: cs => (digitsPrefix cs).map Binary64.neg
  | '+' :: cs => digitsPrefix cs
  | cs        => digitsPrefix cs

def parseRetryAfter (header : Option String) : Binary64 :=
  match header.bind parseInt10 with
  | none   => .ofInt 60
  | some n => if n.isFinite ∧ zero.le n then n else .ofInt 60

-- The names that an object has from its prototype.
def inheritedNames : List String :=
  [ "constructor", "__defineGetter__", "__defineSetter__", "hasOwnProperty", "__lookupGetter__", "__lookupSetter__",
    "isPrototypeOf", "propertyIsEnumerable", "toString", "valueOf", "__proto__", "toLocaleString" ]

-- What is inherited is taken for a code, though it is none of the taxonomy.
def fromIssuerCode (code message : String) (httpStatus : Nat) : IssuerError Binary64 :=
  match issuerCodeMap.lookup code with
  | some known => { error := .client known message, httpStatus := httpStatus }
  | none       =>
    if code ∈ inheritedNames then { error := .other message, httpStatus := httpStatus }
    else {
      error      := issuerUnreachable ("unrecognized issuer error code " ++ code ++ ": " ++ message)
      httpStatus := httpStatus }

-- A property of a parsed value, of which the last member of the name counts. `none` is `undefined`.
def property (key : String) : Json → Option Json
  | .obj ms => ms.reverse.lookup key
  | _       => none

-- `x ?? y`
def coalesce (y : Json) : Option Json → Json
  | none | some .null => y
  | some x            => x

def truthy : Json → Bool
  | .null    => false
  | .bool b  => b
  | .num lit => Binary64.ofLiteral lit.toList ∉ [.finite false 0, .finite true 0]
  | .str s   => s ≠ ""
  | _        => true

def unreachable (message : String) : IssuerError Binary64 where
  error := issuerUnreachable message

-- `toText` is the conversion of a value to a string, which may throw.
def textOf (toText : Json → Option String) (v : Json) : Except (IssuerError Binary64) String :=
  match toText v with
  | some s => .ok s
  | none   => .error { error := .other "TypeError" }

def postJson (toText : Json → Option String) (url : String) :
    Delivery → Except (IssuerError Binary64) (Option Json)
  | none        => .error (unreachable ("POST " ++ url ++ " failed at the transport layer"))
  | some answer =>
    let status := toString answer.status
    if answer.status = 429 then do
      let message := match answer.body with
        | .json v => ((property "error" v).bind (property "message")).filter truthy
        | _       => none
      let message ← textOf toText (message.getD (.str "issuer rate-limited this client"))
      .error {
        error         := .client .rateLimited message
        httpStatus    := some 429
        retryAfterSec := some (parseRetryAfter answer.retryAfter) }
    else match answer.body with
    | .unreadable | .other =>
      .error (unreachable ("POST " ++ url ++ " returned non-JSON body (status " ++ status ++ ")"))
    | .json v =>
      match property "success" v with
      | none =>
        .error (unreachable ("POST " ++ url ++ " returned an envelope missing \"success\" (status " ++ status ++ ")"))
      | some (.bool true) => .ok (property "data" v)
      | some _            => do
        let error    := property "error" v
        let unnamed  := "issuer returned success=false without a message (status " ++ status ++ ")"
        let code     ← textOf toText (coalesce (.str "Unknown") (error.bind (property "code")))
        let message  ← textOf toText (coalesce (.str unnamed) (error.bind (property "message")))
        .error (fromIssuerCode code message answer.status)

theorem fromIssuerCode_ne (code message : String) (httpStatus : Nat) :
    ¬(fromIssuerCode code message httpStatus).error.HasCode .graceExpired := by
  rintro ⟨text, he⟩
  unfold fromIssuerCode at he
  split at he
  case h_1 known hk => exact issuerCodeMap_ne hk (ClientError.client.inj he).left
  case h_2          => split at he <;> simp [issuerUnreachable] at he

theorem ofIssuer_textOf {toText : Json → Option String} (v : Json) : OfIssuer (textOf toText v) := by
  unfold textOf
  split
  case h_1 => exact .ok _
  case h_2 => exact .error (by rintro ⟨_, ⟨⟩⟩)

theorem ofIssuer_unreachable {α : Type} (message : String) :
    OfIssuer (.error (unreachable message) : Except (IssuerError Binary64) α) :=
  .error (by rintro ⟨_, ⟨⟩⟩)

theorem ofIssuer_postJson {toText : Json → Option String} {url : String} (delivery : Delivery) :
    OfIssuer (postJson toText url delivery) := by
  unfold postJson
  split
  case h_1 => exact ofIssuer_unreachable _
  case h_2 answer =>
    apply OfIssuer.ite
    case h  => exact (ofIssuer_textOf _).bind fun _ => .error (by rintro ⟨_, ⟨⟩⟩)
    case h' =>
      split
      case h_3 =>
        split
        case h_1 => exact ofIssuer_unreachable _
        case h_2 => exact .ok _
        case h_3 =>
          exact (ofIssuer_textOf _).bind fun code => (ofIssuer_textOf _).bind fun message =>
            .error (fromIssuerCode_ne code message answer.status)
      all_goals exact ofIssuer_unreachable _

-- The values that `JSON.parse` builds. Of members of one name the last one counts.
mutual

def Value.ofJson : Json → Value
  | .null    => .null
  | .bool b  => .boolean b
  | .num lit => .number (.ofLiteral lit.toList)
  | .str s   => .string (.ofString s)
  | .arr xs  => .array (ofElements xs)
  | .obj ms  => .object (ofMembers ms).reverse none

def Value.ofElements : List Json → List Value
  | []      => []
  | x :: xs => Value.ofJson x :: Value.ofElements xs

def Value.ofMembers : List (String × Json) → List (JsString × Value)
  | []           => []
  | (k, v) :: ms => (.ofString k, Value.ofJson v) :: Value.ofMembers ms

end

def viaHttp {β κ : Type} (toText : Json → Option String) (url : String) (http : JsString → Delivery)
    (w : Surroundings JsString β κ Binary64 Value) : Surroundings JsString β κ Binary64 Value :=
  { w with postRefresh := fun token =>
      match postJson toText url (http token) with
      | .error e   => .error e.error
      | .ok none   => .ok (.other "undefined")
      | .ok (some data) => .ok (.ofJson data) }

end Ts

end Licensing
