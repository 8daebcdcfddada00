import Licensing.Library.Prog
import Licensing.Model.Errors
import Licensing.Model.Stats

-- The handle on a storage: every operation of it, inside a transaction or outside.

namespace Licensing

inductive StorageOp
  | createLicense (input : LicenseInput)
  | getLicense (id : String)
  | getLicenseByKey (licenseKey : String)
  | listLicenses (filter : LicenseFilter) (page : PageRequest)
  | findLicensesByLicensable (query : FindByLicensableQuery)
  | updateLicense (id : String) (patch : LicensePatch)
  | deleteLicense (id : String)
  | createScope (input : LicenseScopeInput)
  | getScope (id : String)
  | getScopeBySlug (slug : String)
  | listScopes (filter : LicenseScopeFilter) (page : PageRequest)
  | updateScope (id : String) (patch : LicenseScopePatch)
  | deleteScope (id : String)
  | createTemplate (input : LicenseTemplateInput)
  | getTemplate (id : String)
  | listTemplates (filter : LicenseTemplateFilter) (page : PageRequest)
  | updateTemplate (id : String) (patch : LicenseTemplatePatch)
  | deleteTemplate (id : String)
  | createUsage (input : LicenseUsageInput)
  | getUsage (id : String)
  | listUsages (filter : LicenseUsageFilter) (page : PageRequest)
  | updateUsage (id : String) (patch : LicenseUsagePatch)
  | createKey (input : LicenseKeyInput)
  | getKey (id : String)
  | getKeyByKid (kid : String)
  | listKeys (filter : LicenseKeyFilter) (page : PageRequest)
  | updateKey (id : String) (patch : LicenseKeyPatch)
  | appendAudit (input : AuditLogInput)
  | getAudit (id : String)
  | listAudit (filter : AuditLogFilter) (page : PageRequest)
  | recordTrialIssuance (input : TrialIssuanceInput)
  | findTrialIssuance (query : TrialIssuanceLookup)
  | deleteTrialIssuance (id : String)
  | getLicenseStats (filter : LicenseStatsFilter)

@[reducible]
def StorageOp.Res : StorageOp → Type
  | createLicense _ | updateLicense _ _   => License
  | getLicense _ | getLicenseByKey _      => Option License
  | listLicenses _ _                      => Page License
  | findLicensesByLicensable _            => List License
  | createScope _ | updateScope _ _       => LicenseScope
  | getScope _ | getScopeBySlug _         => Option LicenseScope
  | listScopes _ _                        => Page LicenseScope
  | createTemplate _ | updateTemplate _ _ => LicenseTemplate
  | getTemplate _                         => Option LicenseTemplate
  | listTemplates _ _                     => Page LicenseTemplate
  | createUsage _ | updateUsage _ _       => LicenseUsage
  | getUsage _                            => Option LicenseUsage
  | listUsages _ _                        => Page LicenseUsage
  | createKey _ | updateKey _ _           => LicenseKey
  | getKey _ | getKeyByKid _              => Option LicenseKey
  | listKeys _ _                          => Page LicenseKey
  | appendAudit _                         => AuditLogEntry
  | getAudit _                            => Option AuditLogEntry
  | listAudit _ _                         => Page AuditLogEntry
  | recordTrialIssuance _                 => TrialIssuance
  | findTrialIssuance _                   => Option TrialIssuance
  | deleteLicense _ | deleteScope _ | deleteTemplate _ | deleteTrialIssuance _ => Unit
  | getLicenseStats _                     => LicenseStats

-- An operation that fails has an error instead of a result.
abbrev StorageOp.Ans (o : StorageOp) : Type :=
  Except Error o.Res

abbrev StorageProg := Prog StorageOp StorageOp.Ans Error

end Licensing
