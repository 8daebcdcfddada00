import Licensing.Http.Endpoints

-- The handlers of the Go port, which find the endpoint of a request themselves, and the middleware that checks bearer
-- tokens.

namespace Licensing

-- The answer of a router: a response of its own, or the endpoint with the identifier from the path.
inductive Routed
  | refused (response : Response)
  | reached (endpoint : Endpoint) (id : Option String)

namespace Go.Http

def refuseNotFound (method path : String) : Routed :=
  .refused (notFound method path)

def refuseMethod (method path : String) : Routed :=
  .refused (methodNotAllowed method path)

-- An endpoint that takes one method.
def only (allowed : String) (endpoint : Endpoint) (id : Option String) (method path : String) : Routed :=
  if method ≠ allowed then refuseMethod method path else .reached endpoint id

def hasPrefix (path p : String) : Bool :=
  p.toList.isPrefixOf path.toList

def trimPrefix (path p : String) : String :=
  .ofList (path.toList.drop p.toList.length)

def ClientHandler.serveHTTP (p method path : String) : Routed :=
  if ¬hasPrefix path p then refuseNotFound method path
  else
    match trimPrefix path p with
    | "/health"     => only "GET" .health none method path
    | "/activate"   => only "POST" .activate none method path
    | "/refresh"    => only "POST" .refresh none method path
    | "/heartbeat"  => only "POST" .heartbeat none method path
    | "/deactivate" => only "POST" .deactivate none method path
    | _             => refuseNotFound method path

-- Without an identifier or an action the texts are empty.
def parseIDAndAction : List String → Option (String × String)
  | []           => some ("", "")
  | [id]         => if id = "" then some ("", "") else some (id, "")
  | [id, action] => if id = "" ∨ action = "" then none else some (id, action)
  | _            => none

-- The methods of a collection.
def routeCollection (list create : Endpoint) (method path : String) : Routed :=
  match method with
  | "GET"  => .reached list none
  | "POST" => .reached create none
  | _      => refuseMethod method path

-- The methods of one of its entities.
def routeEntity (get update delete : Endpoint) (id method path : String) : Routed :=
  match method with
  | "GET"    => .reached get (some id)
  | "PATCH"  => .reached update (some id)
  | "DELETE" => .reached delete (some id)
  | _        => refuseMethod method path

def routeLicenses (segs : List String) (method path : String) : Routed :=
  match parseIDAndAction segs with
  | none              => refuseNotFound method path
  | some (id, action) =>
    if id = "" then routeCollection .listLicenses .createLicense method path
    else if action = "" then routeEntity .getLicense .updateLicense .deleteLicense id method path
    else if method ≠ "POST" then refuseMethod method path
    else
      match action with
      | "suspend"    => .reached .suspendLicense (some id)
      | "resume"     => .reached .resumeLicense (some id)
      | "revoke"     => .reached .revokeLicense (some id)
      | "renew"      => .reached .renewLicense (some id)
      | "rotate-key" => .reached .rotateLicenseKey (some id)
      | _            => refuseNotFound method path

-- Entities without actions.
def routeCrud (list create get update delete : Endpoint) (segs : List String) (method path : String) : Routed :=
  match parseIDAndAction segs with
  | none              => refuseNotFound method path
  | some (id, action) =>
    if action ≠ "" then refuseNotFound method path
    else if id = "" then routeCollection list create method path
    else routeEntity get update delete id method path

def routeScopes : List String → String → String → Routed :=
  routeCrud .listScopes .createScope .getScope .updateScope .deleteScope

def routeTemplates : List String → String → String → Routed :=
  routeCrud .listTemplates .createTemplate .getTemplate .updateTemplate .deleteTemplate

def routeUsages (segs : List String) (method path : String) : Routed :=
  match parseIDAndAction segs with
  | none              => refuseNotFound method path
  | some (id, action) =>
    if id = "" then only "GET" .listUsages none method path
    else if action = "" then only "GET" .getUsage (some id) method path
    else if action = "revoke" then only "POST" .revokeUsage (some id) method path
    else refuseNotFound method path

def routeKeys (segs : List String) (method path : String) : Routed :=
  match parseIDAndAction segs with
  | none              => refuseNotFound method path
  | some (id, action) =>
    if id = "" then routeCollection .listKeys .createKey method path
    else if action = "rotate" then only "POST" .rotateKey (some id) method path
    else refuseNotFound method path

def routeAudit (segs : List String) (method path : String) : Routed :=
  if segs.head?.any (· ≠ "") then refuseNotFound method path
  else only "GET" .listAudit none method path

def routeStats (segs : List String) (method path : String) : Routed :=
  if segs ≠ ["licenses"] then refuseNotFound method path
  else only "GET" .getLicenseStats none method path

-- The first of the segments is the resource.
def routeResource (segs : List String) (method path : String) : Routed :=
  match segs with
  | "licenses" :: segs  => routeLicenses segs method path
  | "scopes" :: segs    => routeScopes segs method path
  | "templates" :: segs => routeTemplates segs method path
  | "usages" :: segs    => routeUsages segs method path
  | "keys" :: segs      => routeKeys segs method path
  | "audit" :: segs     => routeAudit segs method path
  | "stats" :: segs     => routeStats segs method path
  | _                   => refuseNotFound method path

def AdminHandler.serveHTTP (p method path : String) : Routed :=
  if ¬hasPrefix path p then refuseNotFound method path
  else
    let rest := trimPrefix path p
    if ¬hasPrefix rest "/admin/" then refuseNotFound method path
    else routeResource (splitPath (trimPrefix rest "/admin/")) method path

end Go.Http

end Licensing
