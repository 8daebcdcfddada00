import Licensing.Library.Atomic
import Licensing.Model.Storage

-- What the operations of a store do to its licenses and its seats, whatever the store.

namespace Licensing

@[ext]
structure Contents where
  license?   : String → Option License
  usage?     : String → Option LicenseUsage
  license_id : ∀ {id l}, license? id = some l → l.id = id
  usage_id   : ∀ {id u}, usage? id = some u → u.id = id

namespace Contents

def status? (v : Contents) (id : String) : Option LicenseStatus :=
  (v.license? id).map License.status

def putLicense (v : Contents) (l : License) : Contents where
  license?   := Function.update v.license? l.id (some l)
  usage?     := v.usage?
  license_id := by
    intro id l' h
    by_cases hid : id = l.id
    case pos => simp_all
    case neg => exact v.license_id (by simpa [hid] using h)
  usage_id   := v.usage_id

def putUsage (v : Contents) (u : LicenseUsage) : Contents where
  license?   := v.license?
  usage?     := Function.update v.usage? u.id (some u)
  license_id := v.license_id
  usage_id   := by
    intro id u' h
    by_cases hid : id = u.id
    case pos => simp_all
    case neg => exact v.usage_id (by simpa [hid] using h)

variable {v : Contents} {l : License} {u : LicenseUsage} {id : String}

theorem license?_putLicense :
    (v.putLicense l).license? id = if id = l.id then some l else v.license? id :=
  Function.update_apply ..

theorem usage?_putUsage :
    (v.putUsage u).usage? id = if id = u.id then some u else v.usage? id :=
  Function.update_apply ..

@[simp]
theorem usage?_putLicense : (v.putLicense l).usage? = v.usage? := rfl

@[simp]
theorem license?_putUsage : (v.putUsage u).license? = v.license? := rfl

end Contents

structure LicensePatch.Patched (p : LicensePatch) (l l' : License) : Prop where
  id         : l'.id = l.id
  status     : l'.status = p.status.getD l.status
  maxUsages  : l'.maxUsages = p.maxUsages.getD l.maxUsages
  licenseKey : l'.licenseKey = p.licenseKey.getD l.licenseKey

structure LicenseUsagePatch.Patched (p : LicenseUsagePatch) (u u' : LicenseUsage) : Prop where
  id          : u'.id = u.id
  licenseId   : u'.licenseId = u.licenseId
  fingerprint : u'.fingerprint = u.fingerprint
  status      : u'.status = p.status.getD u.status

structure LicenseUsageInput.Inserted (i : LicenseUsageInput) (u : LicenseUsage) : Prop where
  licenseId   : u.licenseId = i.licenseId
  fingerprint : u.fingerprint = i.fingerprint
  status      : u.status = i.status

def LicenseUsageFilter.accepts (f : LicenseUsageFilter) (u : LicenseUsage) : Bool :=
  f.licenseId.all (· = u.licenseId) && f.fingerprint.all (· = u.fingerprint) &&
    (f.status.isEmpty || f.status.contains u.status)

-- An operation that fails does nothing.
inductive Acts (v : Contents) : (o : Op) → o.Ans → Contents → Prop
  | failed (o : TxOp) (e : Error) : Acts v (.tx o) (.error e) v
  | getLicense (id : String) : Acts v (.tx (.getLicense id)) (.ok (v.license? id)) v
  | getLicenseByKey {l : License} (row : v.license? l.id = some l) :
      Acts v (.tx (.getLicenseByKey l.licenseKey)) (.ok (some l)) v
  | noLicenseByKey {key : String} (free : ∀ id l, v.license? id = some l → l.licenseKey ≠ key) :
      Acts v (.tx (.getLicenseByKey key)) (.ok none) v
  | updateLicense {id : String} {p : LicensePatch} {l l' : License} (row : v.license? id = some l)
      (patched : p.Patched l l')
      (unique : ∀ key, p.licenseKey = some key → ∀ id' l, v.license? id' = some l → id' ≠ id →
        l.licenseKey ≠ key) :
      Acts v (.tx (.updateLicense id p)) (.ok l') (v.putLicense l')
  | createUsage {i : LicenseUsageInput} {u : LicenseUsage} (inserted : i.Inserted u) :
      Acts v (.tx (.createUsage i)) (.ok u) (v.putUsage u)
  | getUsage (id : String) : Acts v (.tx (.getUsage id)) (.ok (v.usage? id)) v
  | listUsages {f : LicenseUsageFilter} {p : PageRequest} {page : Page LicenseUsage}
      (rows : ∀ u ∈ page.items, v.usage? u.id = some u ∧ f.accepts u) :
      Acts v (.tx (.listUsages f p)) (.ok page) v
  | updateUsage {id : String} {p : LicenseUsagePatch} {u u' : LicenseUsage}
      (row : v.usage? id = some u) (patched : p.Patched u u') :
      Acts v (.tx (.updateUsage id p)) (.ok u') (v.putUsage u')
  | getKeyByKid (kid : String) (k : Option LicenseKey) : Acts v (.tx (.getKeyByKid kid)) (.ok k) v
  | listKeys (f : LicenseKeyFilter) (p : PageRequest) (page : Page LicenseKey) :
      Acts v (.tx (.listKeys f p)) (.ok page) v
  | getScope (id : String) (s : Option LicenseScope) : Acts v (.tx (.getScope id)) (.ok s) v
  | appendAudit (i : AuditLogInput) (e : AuditLogEntry) : Acts v (.tx (.appendAudit i)) (.ok e) v
  | nowISO (now : String) : Acts v .nowISO now v
  | generateLicenseKey (key : String) : Acts v .generateLicenseKey key v

-- A store whose operations happen at once.
structure AtomicStore (σ Ω : Type) where
  exec     : Ω → (o : Op) → σ → o.Ans × σ
  contents : σ → Contents
  acts     : ∀ ω o s, Acts (contents s) o (exec ω o s).1 (contents (exec ω o s).2)

namespace Acts

variable {v v' : Contents} {o : Op} {a : o.Ans} {id : String}

-- The status of a license changes only to what an update of this license sets.
theorem status? (h : Acts v o a v') (id : String) : v'.status? id = v.status? id ∨
    ∃ p b, o = .tx (.updateLicense id p) ∧ p.status = some b ∧ v'.status? id = some b := by
  cases h
  case updateLicense id' p l l' row patched _ =>
    have hl : l'.id = id' := patched.id.trans (v.license_id row)
    by_cases hid : id = l'.id
    case neg => exact .inl (by simp [Contents.status?, Contents.license?_putLicense, hid])
    case pos =>
      subst hl hid
      have hs : (v.putLicense l').status? l'.id = some (p.status.getD l.status) := by
        simp [Contents.status?, Contents.license?_putLicense, patched.status]
      cases hp : p.status
      case none => exact .inl (by rw [hs, hp, Contents.status?, row]; rfl)
      case some b => exact .inr ⟨p, b, rfl, hp, by rw [hs, hp]; rfl⟩
  all_goals exact .inl rfl

end Acts

end Licensing
