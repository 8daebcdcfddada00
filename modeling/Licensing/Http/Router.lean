import Licensing.Http.Endpoints
import Licensing.Library.Bytes
import Licensing.Library.Routes

-- The router of the TypeScript port, its tables of routes, and the middleware that checks bearer tokens.

namespace Licensing

namespace Ts.Http

open Routes

-- What an escape stands for is a byte of the text in UTF-8.
def unescape : List Char → List UInt8 → Option (List Char)
  | [],        bytes => (Bytes.toString? bytes).map String.toList
  | '%' :: cs, bytes =>
    match cs with
    | a :: b :: cs =>
      match hexDigit? a, hexDigit? b with
      | some x, some y => unescape cs (bytes ++ [.ofNat (x * 16 + y)])
      | _, _           => none
    | _ => none
  | c :: cs,   bytes => do
    let before ← Bytes.toString? bytes
    let rest ← unescape cs []
    return before.toList ++ c :: rest
where
  hexDigit? (c : Char) : Option Nat :=
    if '0' ≤ c ∧ c ≤ '9' then some (c.toNat - '0'.toNat)
    else if 'a' ≤ c ∧ c ≤ 'f' then some (c.toNat - 'a'.toNat + 10)
    else if 'A' ≤ c ∧ c ≤ 'F' then some (c.toNat - 'A'.toNat + 10)
    else none

-- `none` is an error that is thrown.
def decodeURIComponent (part : String) : Option String :=
  (unescape part.toList []).map String.ofList

structure HandlerRequest where
  method     : HttpMethod
  path       : String
  query      : String → List String
  headers    : String → Option String
  body       : Option Json
  remoteAddr : String
  subject    : Option String := none

inductive Outcome
  | reply (response : Response)
  | threw
  | call (endpoint : Endpoint) (req : HandlerRequest) (params : Params String)

abbrev Handler := HandlerRequest → Outcome

abbrev Middleware := HandlerRequest → Handler → Outcome

structure Route where
  method   : HttpMethod
  pattern  : String
  handler  : Endpoint
  isPublic : Bool := false

def nonEmptyParts (path : String) : List String :=
  (splitPath path).filter (· ≠ "")

def compilePart (part : String) : Segment String :=
  match part.toList with
  | ':' :: name => .param (.ofList name)
  | _           => .static part

def compileRoute (route : Route) : Routes.Route String HttpMethod (Endpoint × Bool) where
  method   := route.method
  segments := (nonEmptyParts route.pattern).map compilePart
  handler  := (route.handler, route.isPublic)

def publicHeader : String := "x-licensing-route-public"

def HandlerRequest.withHeader (req : HandlerRequest) (name value : String) : HandlerRequest :=
  { req with headers := fun n => if n = name then some value else req.headers n }

def createRouter (routes : List Route) (middleware : List Middleware) : Handler := fun req =>
  match find decodeURIComponent req.method (nonEmptyParts req.path) (routes.map compileRoute) false with
  | .failed         => .threw
  | .methodMismatch => .reply (methodNotAllowed req.method.toString req.path)
  | .missing        => .reply (notFound req.method.toString req.path)
  | .found (endpoint, isPublic) params =>
    let enrichedReq := if isPublic then req.withHeader publicHeader "1" else req
    let final : Handler := fun r => .call endpoint r params
    middleware.foldr (fun mw next r => mw r next) final enrichedReq

def clientRoutes (p : String) : List Route :=
  [ { method := .get,  pattern := p ++ "/health",     handler := .health,     isPublic := true },
    { method := .post, pattern := p ++ "/activate",   handler := .activate,   isPublic := true },
    { method := .post, pattern := p ++ "/refresh",    handler := .refresh,    isPublic := true },
    { method := .post, pattern := p ++ "/heartbeat",  handler := .heartbeat,  isPublic := true },
    { method := .post, pattern := p ++ "/deactivate", handler := .deactivate, isPublic := true } ]

def adminRoutes (p : String) : List Route :=
  [ { method := .get,    pattern := p ++ "/admin/licenses",                handler := .listLicenses },
    { method := .post,   pattern := p ++ "/admin/licenses",                handler := .createLicense },
    { method := .get,    pattern := p ++ "/admin/licenses/:id",            handler := .getLicense },
    { method := .patch,  pattern := p ++ "/admin/licenses/:id",            handler := .updateLicense },
    { method := .delete, pattern := p ++ "/admin/licenses/:id",            handler := .deleteLicense },
    { method := .post,   pattern := p ++ "/admin/licenses/:id/suspend",    handler := .suspendLicense },
    { method := .post,   pattern := p ++ "/admin/licenses/:id/resume",     handler := .resumeLicense },
    { method := .post,   pattern := p ++ "/admin/licenses/:id/revoke",     handler := .revokeLicense },
    { method := .post,   pattern := p ++ "/admin/licenses/:id/renew",      handler := .renewLicense },
    { method := .post,   pattern := p ++ "/admin/licenses/:id/rotate-key", handler := .rotateLicenseKey },
    { method := .get,    pattern := p ++ "/admin/scopes",                  handler := .listScopes },
    { method := .post,   pattern := p ++ "/admin/scopes",                  handler := .createScope },
    { method := .get,    pattern := p ++ "/admin/scopes/:id",              handler := .getScope },
    { method := .patch,  pattern := p ++ "/admin/scopes/:id",              handler := .updateScope },
    { method := .delete, pattern := p ++ "/admin/scopes/:id",              handler := .deleteScope },
    { method := .get,    pattern := p ++ "/admin/templates",               handler := .listTemplates },
    { method := .post,   pattern := p ++ "/admin/templates",               handler := .createTemplate },
    { method := .get,    pattern := p ++ "/admin/templates/:id",           handler := .getTemplate },
    { method := .patch,  pattern := p ++ "/admin/templates/:id",           handler := .updateTemplate },
    { method := .delete, pattern := p ++ "/admin/templates/:id",           handler := .deleteTemplate },
    { method := .get,    pattern := p ++ "/admin/usages",                  handler := .listUsages },
    { method := .get,    pattern := p ++ "/admin/usages/:id",              handler := .getUsage },
    { method := .post,   pattern := p ++ "/admin/usages/:id/revoke",       handler := .revokeUsage },
    { method := .get,    pattern := p ++ "/admin/keys",                    handler := .listKeys },
    { method := .post,   pattern := p ++ "/admin/keys",                    handler := .createKey },
    { method := .post,   pattern := p ++ "/admin/keys/:id/rotate",         handler := .rotateKey },
    { method := .get,    pattern := p ++ "/admin/audit",                   handler := .listAudit },
    { method := .get,    pattern := p ++ "/admin/stats/licenses",          handler := .getLicenseStats } ]

def allRoutes (p : String) : List Route :=
  clientRoutes p ++ adminRoutes p

structure AuthIdentity where
  subject : String

-- Accepts, rejects or throws.
abbrev BearerVerifier := String → Except Unit (Option AuthIdentity)

-- No other characters than letters of ASCII have a lower case that is in the name of the scheme.
def bearerOf (header : String) : Option String :=
  let trimmed := trim header.toList
  if trimmed.length < 7 then none
  else if (trimmed.take 7).map lower ≠ "bearer ".toList then none
  else
    let token := trim (trimmed.drop 7)
    if token = [] then none else some (.ofList token)

def parseBearer (req : HandlerRequest) : Option String :=
  (req.headers "authorization").bind bearerOf

def unauthenticated (message : String) : Outcome :=
  .reply (.err 401 "Unauthenticated" message)

def bearerAuth (verify : BearerVerifier) : Middleware := fun req next =>
  if req.headers publicHeader = some "1" then next req
  else
    match parseBearer req with
    | none       => unauthenticated "missing or malformed Authorization header"
    | some token =>
      match verify token with
      | .error ()            => unauthenticated "credential verification failed"
      | .ok none             => unauthenticated "invalid credentials"
      | .ok (some identity) => next (req.withHeader "x-licensing-auth-subject" identity.subject)

-- A middleware that answers a request or passes it on, such as the rate limit.
def gate (refuses : HandlerRequest → Option Response) : Middleware := fun req next =>
  match refuses req with
  | some response => .reply response
  | none          => next req

-- Names are compared in lower case, and several values are joined.
def normalizeHeaders (raw : List (String × List String)) (name : String) : Option String :=
  (raw.reverse.find? fun (k, _) => String.ofList (k.toList.map lower) = name).map fun (_, v) => ", ".intercalate v

-- The name, the kind and the identifier of who acts.
def HandlerRequest.adminActor (req : HandlerRequest) (action : Option String) : String × ActorKind × Option String :=
  (action.elim "admin" ("admin:" ++ ·), .admin, req.subject)

def server (p : String) (verify : BearerVerifier) (before after : List (HandlerRequest → Option Response)) : Handler :=
  createRouter (allRoutes p) (before.map gate ++ bearerAuth verify :: after.map gate)

section Table

-- A text that begins with a slash has parts of its own.
theorem nonEmptyParts_append (a : String) {b : String} (h : b.toList.head? = some '/') :
    nonEmptyParts (a ++ b) = nonEmptyParts a ++ nonEmptyParts b := by
  obtain ⟨cs, hb⟩ : ∃ cs, b.toList = '/' :: cs := by
    cases hb : b.toList
    case nil => simp [hb] at h
    case cons c cs =>
      rw [hb] at h
      exact ⟨cs, congrArg (· :: cs) (Option.some.inj h)⟩
  have cut : ('/' :: cs).splitOn '/' = [] :: cs.splitOn '/' := by
    show ([] ++ '/' :: cs).splitOn '/' = _
    rw [List.splitOn_append_cons_self, List.splitOn_nil]
    rfl
  rw [nonEmptyParts, nonEmptyParts, nonEmptyParts, splitPath, splitPath, splitPath, String.toList_append, hb,
    List.splitOn_append_cons_self, cut]
  simp

def prefixed (p : String) (route : Routes.Route String HttpMethod (Endpoint × Bool)) :
    Routes.Route String HttpMethod (Endpoint × Bool) :=
  { route with segments := (nonEmptyParts p).map compilePart ++ route.segments }

theorem compileRoute_append (p : String) {route : Route} (h : route.pattern.toList.head? = some '/') :
    compileRoute { route with pattern := p ++ route.pattern } = prefixed p (compileRoute route) := by
  rw [compileRoute, compileRoute, prefixed, nonEmptyParts_append p h, List.map_append]

def Route.under (p : String) (route : Route) : Route :=
  { route with pattern := p ++ route.pattern }

theorem clientRoutes_eq (p : String) : clientRoutes p = (clientRoutes "").map (·.under p) := by
  simp [clientRoutes, Route.under]

theorem adminRoutes_eq (p : String) : adminRoutes p = (adminRoutes "").map (·.under p) := by
  simp [adminRoutes, Route.under]

theorem allRoutes_eq (p : String) : allRoutes p = (allRoutes "").map (·.under p) := by
  rw [allRoutes, clientRoutes_eq, adminRoutes_eq, allRoutes, List.map_append]

theorem compileRoute_under (p : String) {routes : List Route} (sub : routes ⊆ allRoutes "") :
    (routes.map (·.under p)).map compileRoute = (routes.map compileRoute).map (prefixed p) := by
  have rooted : ∀ route ∈ allRoutes "", route.pattern.toList.head? = some '/' := by decide +kernel
  rw [List.map_map, List.map_map]
  exact List.map_congr_left fun route h => compileRoute_append p (rooted route (sub h))

abbrev CompiledRoute := Routes.Route String HttpMethod (Endpoint × Bool)

def compiled (method : HttpMethod) (segments : List (Segment String)) (e : Endpoint) : CompiledRoute :=
  ⟨method, segments, (e, e.IsPublic)⟩

def collection (name : String) : List (Segment String) :=
  [.static "admin", .static name]

def entity (name : String) : List (Segment String) :=
  [.static "admin", .static name, .param "id"]

def action (name action : String) : List (Segment String) :=
  [.static "admin", .static name, .param "id", .static action]

def crudTable (name : String) (list create get update delete : Endpoint) : List CompiledRoute :=
  [ compiled .get (collection name) list,
    compiled .post (collection name) create,
    compiled .get (entity name) get,
    compiled .patch (entity name) update,
    compiled .delete (entity name) delete ]

def clientTable : List CompiledRoute :=
  [ compiled .get [.static "health"] .health,
    compiled .post [.static "activate"] .activate,
    compiled .post [.static "refresh"] .refresh,
    compiled .post [.static "heartbeat"] .heartbeat,
    compiled .post [.static "deactivate"] .deactivate ]

def adminTable : List CompiledRoute :=
  crudTable "licenses" .listLicenses .createLicense .getLicense .updateLicense .deleteLicense ++
  [ compiled .post (action "licenses" "suspend") .suspendLicense,
    compiled .post (action "licenses" "resume") .resumeLicense,
    compiled .post (action "licenses" "revoke") .revokeLicense,
    compiled .post (action "licenses" "renew") .renewLicense,
    compiled .post (action "licenses" "rotate-key") .rotateLicenseKey ] ++
  crudTable "scopes" .listScopes .createScope .getScope .updateScope .deleteScope ++
  crudTable "templates" .listTemplates .createTemplate .getTemplate .updateTemplate .deleteTemplate ++
  [ compiled .get (collection "usages") .listUsages,
    compiled .get (entity "usages") .getUsage,
    compiled .post (action "usages" "revoke") .revokeUsage,
    compiled .get (collection "keys") .listKeys,
    compiled .post (collection "keys") .createKey,
    compiled .post (action "keys" "rotate") .rotateKey,
    compiled .get (collection "audit") .listAudit,
    compiled .get [.static "admin", .static "stats", .static "licenses"] .getLicenseStats ]

theorem compiled_clientRoutes : (clientRoutes "").map compileRoute = clientTable := by
  rfl

theorem compiled_adminRoutes : (adminRoutes "").map compileRoute = adminTable := by
  rfl

theorem orderly_allRoutes (p : String) : Orderly ((allRoutes p).map compileRoute) := by
  have plain : Orderly ((allRoutes "").map compileRoute) := by
    rw [allRoutes, List.map_append, compiled_clientRoutes, compiled_adminRoutes]
    constructor
    case apart   => decide +kernel
    case decodes => decide +kernel
  rw [allRoutes_eq, compileRoute_under p (List.Subset.refl _)]
  constructor
  case apart =>
    refine List.pairwise_map.mpr (plain.apart.imp fun h same => ?_)
    rw [prefixed, prefixed, apart_append]
    exact h same
  case decodes =>
    refine List.pairwise_map.mpr (plain.decodes.imp fun h => ?_)
    rw [prefixed, prefixed, decodesFor_append]
    exact h

end Table

section Auth

variable {p : String} {verify : BearerVerifier} {before after : List (HandlerRequest → Option Response)}
variable {req req' : HandlerRequest} {e : Endpoint} {params : Params String}

theorem gates_call_iff {gates : List (HandlerRequest → Option Response)} {final : Handler} :
    (gates.map gate).foldr (fun mw next r => mw r next) final req = .call e req' params ↔
      (∀ g ∈ gates, g req = none) ∧ final req = .call e req' params := by
  induction gates
  case nil => simp
  case cons g gates ih =>
    rw [List.map_cons, List.foldr_cons, gate]
    cases hg : g req
    case none   => simp [hg, ih]
    case some r => simp [hg]

-- What the middleware passes on.
inductive Admits (verify : BearerVerifier) (req : HandlerRequest) : HandlerRequest → Prop
  | flagged (flag : req.headers publicHeader = some "1") : Admits verify req req
  | verified {token : String} {identity : AuthIdentity} (unflagged : req.headers publicHeader ≠ some "1")
    (bearer : parseBearer req = some token) (accepted : verify token = .ok (some identity)) :
    Admits verify req (req.withHeader "x-licensing-auth-subject" identity.subject)

theorem bearerAuth_call_iff {next : Handler} :
    bearerAuth verify req next = .call e req' params ↔
      ∃ r, Admits verify req r ∧ next r = .call e req' params := by
  rw [bearerAuth]
  by_cases flag : req.headers publicHeader = some "1"
  case pos =>
    rw [if_pos flag]
    constructor
    case mp  => exact fun h => ⟨req, .flagged flag, h⟩
    case mpr =>
      rintro ⟨r, admits, h⟩
      cases admits
      case flagged                => exact h
      case verified unflagged _ _ => exact absurd flag unflagged
  case neg =>
    rw [if_neg flag]
    constructor
    case mp =>
      intro h
      cases hb : parseBearer req
      case none => simp [hb, unauthenticated] at h
      case some token =>
        simp only [hb] at h
        cases hv : verify token
        case error => simp [hv, unauthenticated] at h
        case ok identity =>
          simp only [hv] at h
          cases identity
          case none          => simp [unauthenticated] at h
          case some identity => exact ⟨_, .verified flag hb hv, h⟩
    case mpr =>
      rintro ⟨r, admits, h⟩
      cases admits
      case flagged flag'                       => exact absurd flag' flag
      case verified unflagged bearer accepted => simpa [bearer, accepted] using h

theorem isPublic_of_mem {route : Route} (h : route ∈ allRoutes p) : route.isPublic = route.handler.IsPublic := by
  rw [allRoutes_eq] at h
  obtain ⟨plain, hp, e⟩ := List.mem_map.mp h
  have same : ∀ route ∈ allRoutes "", route.isPublic = route.handler.IsPublic := by decide +kernel
  exact e ▸ same plain hp

-- The request that the middleware sees.
def enriched (e : Endpoint) (req : HandlerRequest) : HandlerRequest :=
  if e.IsPublic then req.withHeader publicHeader "1" else req

-- The request is one for the endpoint.
def RequestFor (p : String) (e : Endpoint) (req : HandlerRequest) (params : Params String) : Prop :=
  ∃ route ∈ allRoutes p, route.handler = e ∧ route.method = req.method ∧
    Matched decodeURIComponent (compileRoute route).segments (nonEmptyParts req.path) params

theorem find_eq_found_iff_requestFor {isPublic : Bool} :
    find decodeURIComponent req.method (nonEmptyParts req.path) ((allRoutes p).map compileRoute) false =
      .found (e, isPublic) params ↔ isPublic = e.IsPublic ∧ RequestFor p e req params := by
  rw [find_eq_found_iff (orderly_allRoutes p)]
  constructor
  case mp =>
    rintro ⟨r, hr, same, handler, matched⟩
    obtain ⟨route, hm, compiled⟩ := List.mem_map.mp hr
    subst compiled
    cases handler
    exact ⟨isPublic_of_mem hm, route, hm, rfl, same, matched⟩
  case mpr =>
    rintro ⟨isPublic, route, hm, handler, same, matched⟩
    refine ⟨compileRoute route, List.mem_map_of_mem hm, same, ?_, matched⟩
    rw [isPublic, ← handler, ← isPublic_of_mem hm]
    rfl

theorem chain_call_iff {e' : Endpoint} {params' : Params String} :
    (before.map gate ++ bearerAuth verify :: after.map gate).foldr (fun mw next r => mw r next)
        (fun r => .call e' r params') req = .call e req' params ↔
      e' = e ∧ params' = params ∧ (∀ g ∈ before, g req = none) ∧ Admits verify req req' ∧
        ∀ g ∈ after, g req' = none := by
  rw [List.foldr_append, gates_call_iff, List.foldr_cons, bearerAuth_call_iff]
  simp only [gates_call_iff, Outcome.call.injEq]
  constructor
  case mp =>
    rintro ⟨passes, r, admits, passes', he, hr, hp⟩
    exact ⟨he, hp, passes, hr ▸ admits, hr ▸ passes'⟩
  case mpr =>
    rintro ⟨he, hp, passes, admits, passes'⟩
    exact ⟨passes, req', admits, passes', he, rfl, hp⟩

theorem call_iff :
    server p verify before after req = .call e req' params ↔ RequestFor p e req params ∧
      (∀ g ∈ before, g (enriched e req) = none) ∧ Admits verify (enriched e req) req' ∧ ∀ g ∈ after, g req' = none := by
  rw [server, createRouter]
  constructor
  case mp =>
    intro h
    cases hf : find decodeURIComponent req.method (nonEmptyParts req.path) ((allRoutes p).map compileRoute) false
    case found handler params' =>
      obtain ⟨e', isPublic⟩ := handler
      simp only [hf] at h
      obtain ⟨he, hp, rest⟩ := chain_call_iff.mp h
      obtain ⟨same, requests⟩ := find_eq_found_iff_requestFor.mp hf
      subst he hp same
      exact ⟨requests, rest⟩
    all_goals simp [hf] at h
  case mpr =>
    rintro ⟨requests, rest⟩
    rw [find_eq_found_iff_requestFor.mpr ⟨rfl, requests⟩]
    exact chain_call_iff.mpr ⟨rfl, rfl, rest⟩

-- An endpoint for operators is reached by whoever has presented a token that is accepted, and by whoever has set the
-- header himself. Who acts is not known afterwards.
theorem reaches_admin_iff {e : Endpoint} (admin : e.IsPublic = false) (action : Option String) :
    (server p verify before after req = .call e req' params ↔
      RequestFor p e req params ∧ (∀ g ∈ before, g req = none) ∧
      (req.headers publicHeader = some "1" ∧ req' = req ∨
        req.headers publicHeader ≠ some "1" ∧ ∃ token identity, parseBearer req = some token ∧
          verify token = .ok (some identity) ∧ req' = req.withHeader "x-licensing-auth-subject" identity.subject) ∧
      ∀ g ∈ after, g req' = none) ∧
    (server p verify before after req = .call e req' params → (req'.adminActor action).2.2 = req.subject) := by
  have same : enriched e req = req := by simp [enriched, admin]
  have admits : Admits verify req req' ↔ req.headers publicHeader = some "1" ∧ req' = req ∨
      req.headers publicHeader ≠ some "1" ∧ ∃ token identity, parseBearer req = some token ∧
        verify token = .ok (some identity) ∧ req' = req.withHeader "x-licensing-auth-subject" identity.subject := by
    constructor
    case mp =>
      intro h
      cases h
      case flagged flag                       => exact .inl ⟨flag, rfl⟩
      case verified unflagged bearer accepted => exact .inr ⟨unflagged, _, _, bearer, accepted, rfl⟩
    case mpr =>
      intro h
      cases h
      case inl h =>
        rw [h.right]
        exact .flagged h.left
      case inr h =>
        obtain ⟨unflagged, token, identity, bearer, accepted, e⟩ := h
        exact e ▸ .verified unflagged bearer accepted
  rw [call_iff, same, admits]
  refine ⟨.rfl, fun h => ?_⟩
  cases h.right.right.left
  case inl h => rw [h.right]; rfl
  case inr h =>
    obtain ⟨_, _, _, _, _, e⟩ := h
    rw [e]
    rfl

def forged : HandlerRequest where
  method     := .delete
  path       := "/api/licensing/v1/admin/licenses/l1"
  query      := fun _ => []
  headers    := normalizeHeaders [("X-Licensing-Route-Public", ["1"])]
  body       := none
  remoteAddr := "203.0.113.9"

-- A client without a token deletes a license.
theorem forged_reaches_deleteLicense :
    server "/api/licensing/v1" (fun _ => .ok none) [] [] forged = .call .deleteLicense forged [("id", "l1")] := by
  have requests : RequestFor "/api/licensing/v1" .deleteLicense forged [("id", "l1")] := by
    refine ⟨{ method := .delete, pattern := "/api/licensing/v1/admin/licenses/:id", handler := .deleteLicense }, ?_,
      rfl, rfl, matchSegments_iff.mp (by rfl)⟩
    simp [allRoutes, clientRoutes, adminRoutes]
  have flag : forged.headers publicHeader = some "1" := by decide +kernel
  exact (reaches_admin_iff rfl none).left.mpr ⟨requests, by simp, .inl ⟨flag, rfl⟩, by simp⟩

end Auth

end Ts.Http

end Licensing
