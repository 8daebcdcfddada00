import Licensing.Library.Prog
import Licensing.Model.Entities
import Licensing.Model.Errors

namespace Licensing

-- The operations of a storage transaction. A miss is `none`, not an error.
inductive TxOp
  | getLicense (id : String)
  | getLicenseByKey (licenseKey : String)
  | updateLicense (id : String) (patch : LicensePatch)
  | createUsage (input : LicenseUsageInput)
  | getUsage (id : String)
  | listUsages (filter : LicenseUsageFilter) (page : PageRequest)
  | updateUsage (id : String) (patch : LicenseUsagePatch)
  | getKeyByKid (kid : String)
  | listKeys (filter : LicenseKeyFilter) (page : PageRequest)
  | getScope (id : String)
  | appendAudit (input : AuditLogInput)

@[reducible]
def TxOp.Res : TxOp → Type
  | getLicense _ | getLicenseByKey _ => Option License
  | updateLicense _ _                => License
  | createUsage _                    => LicenseUsage
  | getUsage _                       => Option LicenseUsage
  | listUsages _ _                   => Page LicenseUsage
  | updateUsage _ _                  => LicenseUsage
  | getKeyByKid _                    => Option LicenseKey
  | listKeys _ _                     => Page LicenseKey
  | getScope _                       => Option LicenseScope
  | appendAudit _                    => AuditLogEntry

-- What the code of a transaction calls: its storage handle, the clock and the key generator.
inductive Op
  | tx (o : TxOp)
  | nowISO
  | generateLicenseKey

@[reducible]
def Op.Ans : Op → Type
  | tx o               => Except Error o.Res
  | nowISO             => String
  | generateLicenseKey => String

abbrev Tx := Prog Op Op.Ans Error

namespace Tx

-- Passes an error of the storage on.
def perform (o : TxOp) : Tx o.Res :=
  .call (.tx o) fun
    | .ok a    => .pure a
    | .error e => .throw e

def getLicense (id : String) : Tx (Option License) := perform (.getLicense id)

def getLicenseByKey (licenseKey : String) : Tx (Option License) :=
  perform (.getLicenseByKey licenseKey)

def updateLicense (id : String) (patch : LicensePatch) : Tx License :=
  perform (.updateLicense id patch)

def createUsage (input : LicenseUsageInput) : Tx LicenseUsage := perform (.createUsage input)

def getUsage (id : String) : Tx (Option LicenseUsage) := perform (.getUsage id)

def listUsages (filter : LicenseUsageFilter) (page : PageRequest) : Tx (Page LicenseUsage) :=
  perform (.listUsages filter page)

def updateUsage (id : String) (patch : LicenseUsagePatch) : Tx LicenseUsage :=
  perform (.updateUsage id patch)

def getKeyByKid (kid : String) : Tx (Option LicenseKey) := perform (.getKeyByKid kid)

def listKeys (filter : LicenseKeyFilter) (page : PageRequest) : Tx (Page LicenseKey) :=
  perform (.listKeys filter page)

def getScope (id : String) : Tx (Option LicenseScope) := perform (.getScope id)

def appendAudit (input : AuditLogInput) : Tx AuditLogEntry := perform (.appendAudit input)

def nowISO : Tx String := .call .nowISO .pure

def generateLicenseKey : Tx String := .call .generateLicenseKey .pure

end Tx

end Licensing
