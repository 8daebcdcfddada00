import Licensing.Model.Http
import Licensing.Model.LicenseKey

-- The endpoints of the issuer, and the requests for them.

namespace Licensing

inductive HttpMethod
  | get
  | post
  | patch
  | delete
  deriving DecidableEq

def HttpMethod.toString : HttpMethod → String
  | get    => "GET"
  | post   => "POST"
  | patch  => "PATCH"
  | delete => "DELETE"

-- An endpoint stands for the handler of its route.
inductive Endpoint
  | health
  | activate
  | refresh
  | heartbeat
  | deactivate
  | listLicenses
  | createLicense
  | getLicense
  | updateLicense
  | deleteLicense
  | suspendLicense
  | resumeLicense
  | revokeLicense
  | renewLicense
  | rotateLicenseKey
  | listScopes
  | createScope
  | getScope
  | updateScope
  | deleteScope
  | listTemplates
  | createTemplate
  | getTemplate
  | updateTemplate
  | deleteTemplate
  | listUsages
  | getUsage
  | revokeUsage
  | listKeys
  | createKey
  | rotateKey
  | listAudit
  | getLicenseStats
  deriving DecidableEq

-- The endpoints for clients, which present a license key or a token in the body.
def Endpoint.IsPublic : Endpoint → Bool
  | health | activate | refresh | heartbeat | deactivate => true
  | _ => false

-- The lower case of the letters of ASCII.
def lower (c : Char) : Char :=
  if 0x41 ≤ c.toNat ∧ c.toNat ≤ 0x5a then .ofNat (c.toNat + 0x20) else c

def splitPath (path : String) : List String :=
  (path.toList.splitOn '/').map String.ofList

def notFound (method path : String) : Response :=
  .err 404 "NotFound" ("no handler for " ++ method ++ " " ++ path)

def methodNotAllowed (method path : String) : Response :=
  .err 405 "MethodNotAllowed" ("method " ++ method ++ " not allowed for " ++ path)

end Licensing
