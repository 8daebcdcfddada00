import Mathlib.Data.List.Sort
import Licensing.Library.Rows
import Licensing.Model.AtomicStore
import Licensing.Model.Cursor

-- The adapters that keep the rows in memory.

namespace Licensing

namespace Memory

structure State where
  licenses  : Table License.id := .ofList [] List.nodup_nil
  scopes    : Table LicenseScope.id := .ofList [] List.nodup_nil
  templates : Table LicenseTemplate.id := .ofList [] List.nodup_nil
  usages    : Table LicenseUsage.id := .ofList [] List.nodup_nil
  keys      : Table LicenseKey.id := .ofList [] List.nodup_nil
  audit     : Table AuditLogEntry.id := .ofList [] List.nodup_nil

-- The clock and the random numbers that an operation finds.
structure Env where
  clock      : String := ""
  freshId    : String := ""
  licenseKey : String := ""

-- Sorts the rows in descending order and returns those that follow the cursor.
def paginate {α : Type} (cursors : Cursors) (tuple : α → CursorTuple) (limit : Nat) (cursor : String)
    (rows : List α) : Page α :=
  let sorted := rows.insertionSort fun a b => cursors.keyOf (tuple b) ≤ cursors.keyOf (tuple a)
  let rest :=
    match cursors.decode cursor with
    | none   => sorted
    | some c => sorted.dropWhile fun r => ¬cursors.keyOf (tuple r) < cursors.keyOf c
  let items := rest.take limit
  { items  := items
    cursor := if items.length < rest.length then items.getLast?.elim "" (cursors.encode ∘ tuple) else "" }

def getLicense (id : String) (s : State) : Option License :=
  s.licenses.find id

def getLicenseByKey (licenseKey : String) (s : State) : Option License :=
  s.licenses.rows.find? (·.licenseKey = licenseKey)

def patchedLicense (now : String) (patch : LicensePatch) (l : License) : License :=
  { l with
    status      := patch.status.getD l.status
    maxUsages   := patch.maxUsages.getD l.maxUsages
    licenseKey  := patch.licenseKey.getD l.licenseKey
    activatedAt := patch.activatedAt.getD l.activatedAt
    expiresAt   := patch.expiresAt.getD l.expiresAt
    graceUntil  := patch.graceUntil.getD l.graceUntil
    meta_       := patch.meta_.getD l.meta_
    scopeId     := patch.scopeId.getD l.scopeId
    templateId  := patch.templateId.getD l.templateId
    updatedAt   := now }

def updateLicense (unique : String → String → Error) (now id : String) (patch : LicensePatch)
    (s : State) : Except Error License × State :=
  match getLicense id s with
  | none     => (.error (newError .licenseNotFound ("license not found: " ++ id)), s)
  | some cur =>
    match patch.licenseKey.filter fun key => s.licenses.rows.any fun l => l.id ≠ id ∧ l.licenseKey = key with
    | some key => (.error (unique "license_key" key), s)
    | none     =>
      let next := patchedLicense now patch cur
      (.ok next, { s with licenses := s.licenses.replace next })

def isActiveSeat (licenseId fingerprint : String) (u : LicenseUsage) : Bool :=
  u.licenseId = licenseId ∧ u.fingerprint = fingerprint ∧ u.status = .active

def createUsage (unique : String → String → Error) (ω : Env) (input : LicenseUsageInput)
    (s : State) : Except Error LicenseUsage × State :=
  if input.status = .active ∧ s.usages.rows.any (isActiveSeat input.licenseId input.fingerprint) then
    (.error (unique "license_fingerprint_active" (input.licenseId ++ ":" ++ input.fingerprint)), s)
  else
    let row : LicenseUsage := {
      id           := ω.freshId
      licenseId    := input.licenseId
      fingerprint  := input.fingerprint
      status       := input.status
      registeredAt := input.registeredAt
      revokedAt    := input.revokedAt
      lastSeenAt   := input.registeredAt
      clientMeta   := input.clientMeta
      createdAt    := ω.clock
      updatedAt    := ω.clock }
    (.ok row, { s with usages := s.usages.put row })

def getUsage (id : String) (s : State) : Option LicenseUsage :=
  s.usages.find id

def patchedUsage (now : String) (patch : LicenseUsagePatch) (u : LicenseUsage) : LicenseUsage :=
  { u with
    status     := patch.status.getD u.status
    revokedAt  := patch.revokedAt.getD u.revokedAt
    lastSeenAt := patch.lastSeenAt.getD u.lastSeenAt
    clientMeta := patch.clientMeta.getD u.clientMeta
    updatedAt  := now }

def updateUsage (unique : String → String → Error) (now id : String) (patch : LicenseUsagePatch)
    (s : State) : Except Error LicenseUsage × State :=
  match getUsage id s with
  | none     => (.error (unique "pk" id), s)
  | some cur =>
    if patch.status = some .active ∧ cur.status ≠ .active ∧
        s.usages.rows.any fun u => u.id ≠ id ∧ isActiveSeat cur.licenseId cur.fingerprint u then
      (.error (unique "license_fingerprint_active" (cur.licenseId ++ ":" ++ cur.fingerprint)), s)
    else
      let next := patchedUsage now patch cur
      (.ok next, { s with usages := s.usages.replace next })

def acceptsKey (f : LicenseKeyFilter) (k : LicenseKey) : Bool :=
  f.scopeId.all (· = k.scopeId) && f.kid.all (· = k.kid) && f.alg.all (· = k.alg) &&
    f.role.all (· = k.role) && f.state.all (· = k.state)

def appendAudit (ω : Env) (input : AuditLogInput) (s : State) : AuditLogEntry × State :=
  let row : AuditLogEntry := {
    id         := ω.freshId
    licenseId  := input.licenseId
    scopeId    := input.scopeId
    actor      := input.actor
    actorKind  := resolveActorKind input
    actorId    := input.actorId
    event      := input.event
    priorState := input.priorState
    newState   := input.newState
    occurredAt := input.occurredAt }
  (row, { s with audit := s.audit.put row })

-- What the ports do differently: the text of a violated constraint and the pages.
structure Port where
  unique  : String → String → Error
  limit   : Int → Nat
  cursors : Cursors

variable (port : Port)

def Port.listUsages (filter : LicenseUsageFilter) (page : PageRequest) (s : State) :
    Page LicenseUsage :=
  paginate port.cursors (fun u => ⟨u.createdAt, u.id⟩) (port.limit page.limit) page.cursor
    (s.usages.rows.filter filter.accepts)

def Port.listKeys (filter : LicenseKeyFilter) (page : PageRequest) (s : State) : Page LicenseKey :=
  paginate port.cursors (fun k => ⟨k.createdAt, k.id⟩) (port.limit page.limit) page.cursor
    (s.keys.rows.filter (acceptsKey filter))

def Port.exec (ω : Env) : (o : Op) → State → o.Ans × State
  | .tx (.getLicense id),         s => (.ok (getLicense id s), s)
  | .tx (.getLicenseByKey key),   s => (.ok (getLicenseByKey key s), s)
  | .tx (.updateLicense id patch), s => updateLicense port.unique ω.clock id patch s
  | .tx (.createUsage input),     s => createUsage port.unique ω input s
  | .tx (.getUsage id),           s => (.ok (getUsage id s), s)
  | .tx (.listUsages f page),     s => (.ok (port.listUsages f page s), s)
  | .tx (.updateUsage id patch),  s => updateUsage port.unique ω.clock id patch s
  | .tx (.getKeyByKid kid),       s => (.ok (s.keys.rows.find? (·.kid = kid)), s)
  | .tx (.listKeys f page),       s => (.ok (port.listKeys f page s), s)
  | .tx (.getScope id),           s => (.ok (s.scopes.find id), s)
  | .tx (.appendAudit input),     s => let (row, s) := appendAudit ω input s; (.ok row, s)
  | .nowISO,                      s => (ω.clock, s)
  | .generateLicenseKey,          s => (ω.licenseKey, s)

def contents (s : State) : Contents where
  license? id := getLicense id s
  usage? id   := getUsage id s
  license_id  := Table.key_of_find
  usage_id    := Table.key_of_find

variable {port : Port} {s : State} {ω : Env}

theorem contents_putLicense {l : License} (row : getLicense l.id s = some l') :
    contents { s with licenses := s.licenses.replace l } = (contents s).putLicense l := by
  refine Contents.ext (funext fun _ => ?_) rfl
  rw [Contents.license?_putLicense]
  exact Table.find_replace row

theorem contents_putUsage {u : LicenseUsage} (row : getUsage u.id s = some u') :
    contents { s with usages := s.usages.replace u } = (contents s).putUsage u := by
  refine Contents.ext rfl (funext fun _ => ?_)
  rw [Contents.usage?_putUsage]
  exact Table.find_replace row

theorem contents_newUsage {u : LicenseUsage} :
    contents { s with usages := s.usages.put u } = (contents s).putUsage u := by
  refine Contents.ext rfl (funext fun _ => ?_)
  rw [Contents.usage?_putUsage]
  exact Table.find_put

theorem mem_of_mem_paginate {α : Type} {cursors : Cursors} {tuple : α → CursorTuple} {limit : Nat}
    {cursor : String} {rows : List α} {a : α}
    (h : a ∈ (paginate cursors tuple limit cursor rows).items) : a ∈ rows := by
  have h := List.mem_of_mem_take h
  have hs : a ∈ rows.insertionSort fun a b =>
      cursors.keyOf (tuple b) ≤ cursors.keyOf (tuple a) := by
    split at h
    · exact h
    · exact (List.dropWhile_suffix _).subset h
  exact (List.mem_insertionSort _).mp hs

theorem getLicenseByKey_acts (key : String) :
    Acts (contents s) (.tx (.getLicenseByKey key)) (.ok (getLicenseByKey key s)) (contents s) := by
  match h : getLicenseByKey key s with
  | some l =>
    have hk : l.licenseKey = key := by simpa using List.find?_some h
    exact hk ▸ .getLicenseByKey (Table.find_of_mem (List.mem_of_find?_eq_some h))
  | none =>
    refine .noLicenseByKey fun id l hl => ?_
    simpa using List.find?_eq_none.mp h l (Rows.mem_of_find hl)

theorem updateLicense_acts {unique : String → String → Error} {now id : String} {patch : LicensePatch} :
    Acts (contents s) (.tx (.updateLicense id patch)) (updateLicense unique now id patch s).1
      (contents (updateLicense unique now id patch s).2) := by
  unfold updateLicense
  cases row : getLicense id s
  case none   => exact .failed _ _
  case some l =>
    simp only
    split
    case h_1 => exact .failed _ _
    case h_2 hu =>
      have hid : l.id = id := Table.key_of_find row
      have row' : getLicense (patchedLicense now patch l).id s = some l := hid.symm ▸ row
      rw [contents_putLicense row']
      refine .updateLicense row ⟨rfl, rfl, rfl, rfl⟩ fun key hk id' l' hl' hne he => ?_
      have hf := Option.filter_eq_none_iff.mp hu key hk
      refine hf (List.any_eq_true.mpr ⟨l', Rows.mem_of_find hl', ?_⟩)
      simpa [Table.key_of_find hl', he] using hne

theorem createUsage_acts {unique : String → String → Error} {input : LicenseUsageInput} :
    Acts (contents s) (.tx (.createUsage input)) (createUsage unique ω input s).1
      (contents (createUsage unique ω input s).2) := by
  unfold createUsage
  split
  case isTrue => exact .failed _ _
  case isFalse =>
    simp only [contents_newUsage]
    exact .createUsage ⟨rfl, rfl, rfl⟩

theorem updateUsage_acts {unique : String → String → Error} {now id : String}
    {patch : LicenseUsagePatch} :
    Acts (contents s) (.tx (.updateUsage id patch)) (updateUsage unique now id patch s).1
      (contents (updateUsage unique now id patch s).2) := by
  unfold updateUsage
  cases row : getUsage id s
  case none   => exact .failed _ _
  case some u =>
    simp only
    split
    case isTrue => exact .failed _ _
    case isFalse =>
      have hid : u.id = id := Table.key_of_find row
      have row' : getUsage (patchedUsage now patch u).id s = some u := hid.symm ▸ row
      rw [contents_putUsage row']
      exact .updateUsage row ⟨rfl, rfl, rfl, rfl⟩

theorem listUsages_acts {filter : LicenseUsageFilter} {page : PageRequest} :
    Acts (contents s) (.tx (.listUsages filter page)) (.ok (port.listUsages filter page s))
      (contents s) :=
  .listUsages fun _ hu =>
    have ⟨hm, hf⟩ := List.mem_filter.mp (mem_of_mem_paginate hu)
    ⟨Table.find_of_mem hm, hf⟩

theorem Port.acts (port : Port) (ω : Env) (s : State) : (o : Op) →
    Acts (contents s) o (port.exec ω o s).1 (contents (port.exec ω o s).2)
  | .tx (.getLicense id)       => .getLicense id
  | .tx (.getLicenseByKey key) => getLicenseByKey_acts key
  | .tx (.updateLicense _ _)   => updateLicense_acts
  | .tx (.createUsage _)       => createUsage_acts
  | .tx (.getUsage id)         => .getUsage id
  | .tx (.listUsages _ _)      => listUsages_acts
  | .tx (.updateUsage _ _)     => updateUsage_acts
  | .tx (.getKeyByKid kid)     => .getKeyByKid kid _
  | .tx (.listKeys f page)     => .listKeys f page _
  | .tx (.getScope id)         => .getScope id _
  | .tx (.appendAudit input)   => .appendAudit input _
  | .nowISO                    => .nowISO _
  | .generateLicenseKey        => .generateLicenseKey _

def Port.store (port : Port) : AtomicStore State Env where
  exec         := port.exec
  contents     := contents
  acts ω o s   := port.acts ω s o

end Memory

namespace Go

def memory : Memory.Port where
  unique constraint key := newError .uniqueConstraintViolation
    ("unique constraint violated: " ++ constraint ++ "=" ++ key)
  limit n := if n ≤ 0 ∨ 500 < n then 500 else n.toNat
  cursors := cursors

end Go

namespace Ts

def memory : Memory.Port where
  unique constraint value := newError .uniqueConstraintViolation
    ("unique constraint violated: " ++ constraint ++ " = " ++ value)
  limit n := (max 1 (min n 500)).toNat
  cursors := cursors

end Ts

end Licensing
