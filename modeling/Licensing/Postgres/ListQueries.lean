import Licensing.Keys.ScopeService
import Licensing.Library.Placeholders
import Licensing.Model.Cursor
import Licensing.Tokens.IssueToken

-- The list queries of the TypeScript adapter: the texts that it builds, the parameters that it sends
-- beside them, and what each query is to ask.

namespace Licensing.Postgres.Lists

open Placeholders

inductive Value
  | null
  | text (s : String)
  | texts (ss : List String)
  deriving DecidableEq, Repr

-- The two arrays that a builder appends to.
structure Where where
  where_ : List String := ["1=1"]
  params : List Value := []

structure Sent where
  sql    : String
  params : List Value

def Where.add (w : Where) (predicate : String) : Where :=
  { w with where_ := w.where_ ++ [predicate] }

-- The value is pushed first, so the length of the array is its number.
def Where.push (w : Where) (pre : String) (v : Value) (post : String) : Where :=
  let params := w.params ++ [v]
  { where_ := w.where_ ++ [pre ++ placeholder params.length ++ post], params }

def Where.test (w : Where) (pre : String) : Option Value → Where
  | none   => w
  | some v => w.push pre v ""

def Where.nullable (w : Where) (column : String) : Option (Option String) → Where
  | none          => w
  | some none     => w.add (column ++ " IS NULL")
  | some (some v) => w.push (column ++ " = ") (.text v) ""

def Where.any (w : Where) (column : String) (vs : List String) : Where :=
  if vs = [] then w else w.push (column ++ " = ANY(") (.texts vs) ")"

-- Here the values are pushed after the predicate.
def Where.oneOf (w : Where) (column : String) (vs : List String) : Where where
  where_ := w.where_ ++ [column ++ " IN (" ++ ",".intercalate (vs.mapIdx fun i _ =>
    placeholder (w.params.length + i + 1)) ++ ")"]
  params := w.params ++ vs.map .text

def Where.joined (w : Where) : String :=
  " AND ".intercalate w.where_

def limitClause (page : PageRequest) : String :=
  "LIMIT " ++ toString (max 1 (min page.limit 500) + 1)

def cursorParams : Option CursorTuple → List Value
  | none        => []
  | some cursor => [.text cursor.createdAt, .text cursor.id]

def cursorClause (columns : String) (paramsUsed : Nat) : Option CursorTuple → String
  | none   => ""
  | some _ => " AND " ++ columns ++ " < (" ++ placeholder (paramsUsed + 1) ++ ", " ++
    placeholder (paramsUsed + 2) ++ ")"

-- `head` goes up to WHERE, and `order` stands between the cursor and the limit.
def Where.send (w : Where) (head columns order : String) (page : PageRequest) (tail : String) : Sent :=
  let cursor := Ts.decodeCursor page.cursor
  { sql := head ++ w.joined ++ cursorClause columns w.params.length cursor ++ order ++ limitClause page ++ tail
    params := w.params ++ cursorParams cursor }

def Where.sendPage (w : Where) (table : String) (page : PageRequest) : Sent :=
  w.send ("SELECT * FROM " ++ table ++ "\n       WHERE ") "(created_at, id)"
    "\n       ORDER BY created_at DESC, id DESC\n       " page ""

def buildLicenseWhere (filter : LicenseFilter) : Where :=
  ({} : Where)
    |>.nullable "scope_id" filter.scopeId
    |>.any "status" (filter.status.map LicenseStatus.toString)
    |>.test "licensable_type = " (filter.licensableType.map .text)
    |>.test "licensable_id = " (filter.licensableId.map .text)
    |>.nullable "template_id" filter.templateId

def listLicenses (filter : LicenseFilter) (page : PageRequest) : Sent :=
  (buildLicenseWhere filter).send "\n      SELECT * FROM licenses\n      WHERE " "(created_at, id)"
    "\n      ORDER BY created_at DESC, id DESC\n      " page "\n    "

def findLicensesByLicensable (query : FindByLicensableQuery) : Sent :=
  let w : Where := {
    where_ := ["licensable_type = $1", "licensable_id = $2"]
    params := [.text query.type, .text query.id] }
  let w := w.nullable "scope_id" query.scopeId
  { sql := "SELECT * FROM licenses\n                 WHERE " ++ w.joined ++
      "\n                 ORDER BY created_at DESC, id DESC"
    params := w.params }

def listScopes (filter : LicenseScopeFilter) (page : PageRequest) : Sent :=
  ({} : Where)
    |>.test "slug = " (filter.slug.map .text)
    |>.sendPage "license_scopes" page

-- The scope is pushed before the branch on null.
def templateScope (w : Where) : Option (Option String) → Where
  | none         => w
  | some scopeId =>
    let params := w.params ++ [scopeId.elim .null .text]
    match scopeId with
    | none   => { where_ := w.where_ ++ ["scope_id IS NULL"], params }
    | some _ => { where_ := w.where_ ++ ["scope_id = " ++ placeholder params.length], params }

def listTemplates (filter : LicenseTemplateFilter) (page : PageRequest) : Sent :=
  (templateScope {} filter.scopeId)
    |>.test "name = " (filter.name.map .text)
    |>.nullable "parent_id" filter.parentId
    |>.sendPage "license_templates" page

def listUsages (filter : LicenseUsageFilter) (page : PageRequest) : Sent :=
  ({} : Where)
    |>.test "license_id = " (filter.licenseId.map .text)
    |>.test "fingerprint = " (filter.fingerprint.map .text)
    |>.any "status" (filter.status.map UsageStatus.toString)
    |>.sendPage "license_usages" page

def listKeys (filter : LicenseKeyFilter) (page : PageRequest) : Sent :=
  ({} : Where)
    |>.nullable "scope_id" filter.scopeId
    |>.test "kid = " (filter.kid.map .text)
    |>.test "alg = " (filter.alg.map fun a => .text a.toString)
    |>.test "role = " (filter.role.map fun r => .text r.toString)
    |>.test "state = " (filter.state.map fun s => .text s.toString)
    |>.sendPage "license_keys" page

-- One field of the filter is an event or a list of events.
def eventsOf (filter : AuditLogFilter) : Option (List String) :=
  filter.events <|> filter.event.map ([·])

def fromClause (filter : AuditLogFilter) : String :=
  if filter.licensableType.isSome ∨ filter.licensableId.isSome then
    "audit_logs a INNER JOIN licenses l ON l.id = a.license_id"
  else "audit_logs a"

def auditHead (filter : AuditLogFilter) : String :=
  "SELECT a.* FROM " ++ fromClause filter ++ "\n       WHERE "

-- Nothing is asked for an empty list of events.
def whereEvents (w : Where) : Option (List String) → Option Where
  | none        => some w
  | some []     => none
  | some events => some (w.oneOf "a.event" events)

def listAudit (filter : AuditLogFilter) (page : PageRequest) : Option Sent := do
  let w := ({} : Where)
    |>.nullable "a.license_id" filter.licenseId
    |>.nullable "a.scope_id" filter.scopeId
  let w ← whereEvents w (eventsOf filter)
  return w
    |>.test "a.actor = " (filter.actor.map .text)
    |>.test "a.occurred_at >= " (filter.since.map .text)
    |>.test "a.occurred_at < " (filter.until_.map .text)
    |>.test "l.licensable_type = " (filter.licensableType.map .text)
    |>.test "l.licensable_id = " (filter.licensableId.map .text)
    |>.send (auditHead filter) "(a.occurred_at, a.id)"
      "\n       ORDER BY a.occurred_at DESC, a.id DESC\n       " page ""

inductive ListQuery
  | licenses (filter : LicenseFilter) (page : PageRequest)
  | byLicensable (query : FindByLicensableQuery)
  | scopes (filter : LicenseScopeFilter) (page : PageRequest)
  | templates (filter : LicenseTemplateFilter) (page : PageRequest)
  | usages (filter : LicenseUsageFilter) (page : PageRequest)
  | keys (filter : LicenseKeyFilter) (page : PageRequest)
  | audit (filter : AuditLogFilter) (page : PageRequest)

def ListQuery.sent : ListQuery → Option Sent
  | licenses filter page  => listLicenses filter page
  | byLicensable query    => findLicensesByLicensable query
  | scopes filter page    => listScopes filter page
  | templates filter page => listTemplates filter page
  | usages filter page    => listUsages filter page
  | keys filter page      => listKeys filter page
  | audit filter page     => listAudit filter page

-- What the queries are to ask: each predicate with the value of its own field in it.
section Asked

def isNull (column : String) : Text Value :=
  lit (column ++ " IS NULL")

def asks (pre : String) (v : Option Value) : List (Text Value) :=
  v.toList.map fun v => list pre "," [v] ""

def asksNullable (column : String) (v : Option (Option String)) : List (Text Value) :=
  v.toList.map fun v => v.elim (isNull column) fun v => list (column ++ " = ") "," [.text v] ""

def asksAny (column : String) (vs : List String) : List (Text Value) :=
  if vs = [] then [] else [list (column ++ " = ANY(") "," [.texts vs] ")"]

def asksOneOf (column : String) (vs : Option (List String)) : List (Text Value) :=
  vs.toList.map fun vs => list (column ++ " IN (") "," (vs.map .text) ")"

def conjunction (first : Text Value) (rest : List (Text Value)) : Text Value :=
  first ++ rest.flatMap fun t => lit " AND " ++ t

def beyond (columns : String) (page : PageRequest) : Text Value :=
  (Ts.decodeCursor page.cursor).elim [] fun cursor =>
    list (" AND " ++ columns ++ " < (") ", " [.text cursor.createdAt, .text cursor.id] ")"

def query (head : String) (predicates : List (Text Value)) (columns order : String) (page : PageRequest)
    (tail : String) : Text Value :=
  conjunction (lit (head ++ "1=1")) predicates ++ beyond columns page ++
    lit (order ++ limitClause page ++ tail)

def pageQuery (table : String) (predicates : List (Text Value)) (page : PageRequest) : Text Value :=
  query ("SELECT * FROM " ++ table ++ "\n       WHERE ") predicates "(created_at, id)"
    "\n       ORDER BY created_at DESC, id DESC\n       " page ""

def ListQuery.asked : ListQuery → Text Value
  | licenses f page =>
    query "\n      SELECT * FROM licenses\n      WHERE "
      (asksNullable "scope_id" f.scopeId ++
        asksAny "status" (f.status.map LicenseStatus.toString) ++
        asks "licensable_type = " (f.licensableType.map .text) ++
        asks "licensable_id = " (f.licensableId.map .text) ++
        asksNullable "template_id" f.templateId)
      "(created_at, id)" "\n      ORDER BY created_at DESC, id DESC\n      " page "\n    "
  | byLicensable q =>
    conjunction
      (lit "SELECT * FROM licenses\n                 WHERE " ++
        list "licensable_type = " "," [.text q.type] "" ++ list " AND licensable_id = " "," [.text q.id] "")
      (asksNullable "scope_id" q.scopeId) ++
    lit "\n                 ORDER BY created_at DESC, id DESC"
  | scopes f page =>
    pageQuery "license_scopes" (asks "slug = " (f.slug.map .text)) page
  | templates f page =>
    pageQuery "license_templates"
      (asksNullable "scope_id" f.scopeId ++
        asks "name = " (f.name.map .text) ++
        asksNullable "parent_id" f.parentId) page
  | usages f page =>
    pageQuery "license_usages"
      (asks "license_id = " (f.licenseId.map .text) ++
        asks "fingerprint = " (f.fingerprint.map .text) ++
        asksAny "status" (f.status.map UsageStatus.toString)) page
  | keys f page =>
    pageQuery "license_keys"
      (asksNullable "scope_id" f.scopeId ++
        asks "kid = " (f.kid.map .text) ++
        asks "alg = " (f.alg.map fun a => .text a.toString) ++
        asks "role = " (f.role.map fun r => .text r.toString) ++
        asks "state = " (f.state.map fun s => .text s.toString)) page
  | audit f page =>
    query (auditHead f)
      (asksNullable "a.license_id" f.licenseId ++
        asksNullable "a.scope_id" f.scopeId ++
        asksOneOf "a.event" (eventsOf f) ++
        asks "a.actor = " (f.actor.map .text) ++
        asks "a.occurred_at >= " (f.since.map .text) ++
        asks "a.occurred_at < " (f.until_.map .text) ++
        asks "l.licensable_type = " (f.licensableType.map .text) ++
        asks "l.licensable_id = " (f.licensableId.map .text))
      "(a.occurred_at, a.id)" "\n       ORDER BY a.occurred_at DESC, a.id DESC\n       " page ""

-- The placeholders in the text are those of the parameters, and with its parameter in each place the
-- text is the query.
structure Sent.Binds (s : Sent) (t : Text Value) : Prop where
  places : ∀ n, n ∈ holes (read s.sql.toList) ↔ 1 ≤ n ∧ n ≤ s.params.length
  filled : fill s.params (read s.sql.toList) = some t

end Asked

-- `k` parameters were pushed without a predicate.
structure Where.Asks (w : Where) (head : String) (k : Nat) (t : Text Value) : Prop where
  ne_nil   : w.where_ ≠ []
  numbered : Numbered k w.params (head ++ w.joined) t

namespace Where.Asks

variable {w : Where} {head : String} {k : Nat} {t : Text Value}

theorem joined_append {ps : List String} (h : ps ≠ []) (p : String) :
    " AND ".intercalate (ps ++ [p]) = " AND ".intercalate ps ++ (" AND " ++ p) := by
  rw [String.intercalate_append_of_ne_nil h (by simp)]
  simp [String.append_assoc]

theorem add (h : w.Asks head k t) (p : String) (hp : '$' ∉ p.toList) :
    (w.add p).Asks head k (t ++ (lit " AND " ++ lit p)) where
  ne_nil   := by simp [Where.add]
  numbered := by
    have hl : Literal (" AND " ++ p) := ⟨by simp [Closed], by simpa using hp⟩
    have := h.numbered.text hl
    simpa [Where.add, joined, joined_append h.ne_nil, String.append_assoc, lit] using this

theorem values (h : w.Asks head k t) (as : List Value) (pre post : String) (hp : '$' ∉ pre.toList)
    (hq : Literal post) :
    ({ where_ := w.where_ ++ [pre ++ ",".intercalate
         ((List.range' (w.params.length + 1) as.length).map placeholder) ++ post]
       params := w.params ++ as } : Where).Asks head k (t ++ (lit " AND " ++ list pre "," as post)) where
  ne_nil   := by simp
  numbered := by
    have hl : Literal (" AND " ++ pre) := ⟨by simp [Closed], by simpa using hp⟩
    have := h.numbered.values as hl (by simp) (⟨by simp [Closed], by simp⟩ : Literal ",") (by simp) hq
    simpa [joined, joined_append h.ne_nil, String.append_assoc, lit, list] using this

theorem push (h : w.Asks head k t) (pre : String) (v : Value) (post : String) (hp : '$' ∉ pre.toList)
    (hq : Literal post) : (w.push pre v post).Asks head k (t ++ (lit " AND " ++ list pre "," [v] post)) := by
  simpa [Where.push] using h.values [v] pre post hp hq

theorem test (h : w.Asks head k t) (pre : String) (hp : '$' ∉ pre.toList) (v : Option Value) :
    (w.test pre v).Asks head k (conjunction t (asks pre v)) := by
  cases v
  case none => simpa [Where.test, conjunction, asks] using h
  case some v => simpa [Where.test, conjunction, asks] using h.push pre v "" hp .empty

theorem nullable (h : w.Asks head k t) (column : String) (hc : '$' ∉ column.toList)
    (v : Option (Option String)) :
    (w.nullable column v).Asks head k (conjunction t (asksNullable column v)) := by
  rcases v with _ | _ | v
  case none => simpa [Where.nullable, conjunction, asksNullable] using h
  case some.none =>
    have := h.add (column ++ " IS NULL") (by simpa using hc)
    simpa [Where.nullable, conjunction, asksNullable, isNull] using this
  case some.some =>
    have := h.push (column ++ " = ") (.text v) "" (by simpa using hc) .empty
    simpa [Where.nullable, conjunction, asksNullable] using this

theorem any (h : w.Asks head k t) (column : String) (hc : '$' ∉ column.toList) (vs : List String) :
    (w.any column vs).Asks head k (conjunction t (asksAny column vs)) := by
  by_cases hv : vs = []
  case pos => simpa [Where.any, conjunction, asksAny, hv] using h
  case neg =>
    have := h.push (column ++ " = ANY(") (.texts vs) ")" (by simpa using hc) ⟨by simp [Closed], by simp⟩
    simpa [Where.any, conjunction, asksAny, hv] using this

theorem oneOf (h : w.Asks head k t) (column : String) (hc : '$' ∉ column.toList) (vs : List String) :
    (w.oneOf column vs).Asks head k (conjunction t (asksOneOf column (some vs))) := by
  have hi : (vs.mapIdx fun i _ => placeholder (w.params.length + i + 1)) =
      (List.range' (w.params.length + 1) vs.length).map placeholder := by
    apply List.ext_getElem (by simp)
    intro i hi hi'
    simp [Nat.add_right_comm]
  have := h.values (vs.map .text) (column ++ " IN (") ")" (by simpa using hc) ⟨by simp [Closed], by simp⟩
  simpa [Where.oneOf, conjunction, asksOneOf, hi] using this

theorem whereEvents (h : w.Asks head k t) (es : Option (List String)) (w' : Where)
    (hw : Lists.whereEvents w es = some w') : w'.Asks head k (conjunction t (asksOneOf "a.event" es)) := by
  rcases es with _ | _ | ⟨e, es⟩
  case none =>
    cases hw
    simpa [conjunction, asksOneOf] using h
  case some.nil => cases hw
  case some.cons =>
    cases hw
    exact h.oneOf "a.event" (by simp) (e :: es)

theorem start (head : String) (hh : '$' ∉ head.toList) (params : List Value) :
    ({ params } : Where).Asks head params.length (lit (head ++ "1=1")) where
  ne_nil   := by simp
  numbered := by simpa [Where.joined] using Numbered.start params (head ++ "1=1") (by simpa using hh)

theorem repr_plain (i : Int) : '$' ∉ i.repr.toList := by
  have hn (n : Nat) : '$' ∉ Nat.toDigits 10 n := fun h =>
    absurd (Nat.isDigit_of_mem_toDigits (by decide) (by decide) h) (by decide)
  cases i <;> simp [Int.repr, hn]

theorem send (h : w.Asks head k t) (columns order tail : String) (hc : '$' ∉ columns.toList)
    (ho : Literal order) (hn : order ≠ "") (ht : '$' ∉ tail.toList) (page : PageRequest) :
    Numbered k (w.send head columns order page tail).params (w.send head columns order page tail).sql
      (t ++ beyond columns page ++ lit (order ++ limitClause page ++ tail)) := by
  have hl : Literal (order ++ limitClause page ++ tail) := by
    constructor
    case closed =>
      have := ho.append hn ((limitClause page).toList ++ tail.toList)
      simpa [Closed] using this
    case plain => simp [limitClause, repr_plain, ho.plain, ht]
  simp only [Where.send, beyond]
  cases Ts.decodeCursor page.cursor
  case none => simpa [cursorClause, cursorParams, String.append_assoc] using h.numbered.text hl
  case some cursor =>
    have hp : Literal (" AND " ++ columns ++ " < (") := ⟨by simp [Closed], by simpa using hc⟩
    have := (h.numbered.values [.text cursor.createdAt, .text cursor.id] hp (by simp)
      (⟨by simp [Closed], by simp⟩ : Literal ", ") (by simp) (⟨by simp [Closed], by simp⟩ : Literal ")")).text hl
    simpa [cursorClause, cursorParams, String.append_assoc, List.range'] using this

theorem sendPage (h : w.Asks ("SELECT * FROM " ++ table ++ "\n       WHERE ") k
      (conjunction (lit ("SELECT * FROM " ++ table ++ "\n       WHERE " ++ "1=1")) ps)) (page : PageRequest) :
    Numbered k (w.sendPage table page).params (w.sendPage table page).sql (pageQuery table ps page) :=
  h.send "(created_at, id)" "\n       ORDER BY created_at DESC, id DESC\n       " "" (by simp)
    ⟨by simp [Closed], by simp⟩ (by simp) (by simp) page

theorem templateScope (hh : '$' ∉ head.toList) (v : Option (Option String)) :
    (Lists.templateScope {} v).Asks head (if v = some none then 1 else 0)
      (conjunction (lit (head ++ "1=1")) (asksNullable "scope_id" v)) := by
  rcases v with _ | _ | v
  case some.none => exact (start head hh [.null]).nullable "scope_id" (by simp) (some none)
  case none => exact (start head hh []).nullable "scope_id" (by simp) none
  case some.some =>
    simpa [Lists.templateScope, Where.nullable, Where.push] using
      (start head hh []).nullable "scope_id" (by simp) (some (some v))

theorem byLicensable (head : String) (hh : '$' ∉ head.toList) (type id : String) :
    ({ where_ := ["licensable_type = $1", "licensable_id = $2"]
       params := [.text type, .text id] } : Where).Asks head 0
      (lit head ++ list "licensable_type = " "," [.text type] "" ++
        list " AND licensable_id = " "," [.text id] "") where
  ne_nil   := by simp
  numbered := by
    have h₁ : placeholder 1 = "$1" := rfl
    have h₂ : placeholder 2 = "$2" := rfl
    have hs : Literal "," := ⟨by simp [Closed], by simp⟩
    have ht : Literal "licensable_type = " := ⟨by simp [Closed], by simp⟩
    have hi : Literal " AND licensable_id = " := ⟨by simp [Closed], by simp⟩
    have := Numbered.start ([] : List Value) head hh
      |>.values [.text type] ht (by simp) hs (by simp) .empty
      |>.values [.text id] hi (by simp) hs (by simp) .empty
    simpa [joined, h₁, h₂, String.append_assoc] using this

end Where.Asks

theorem conjunction_conjunction (t : Text Value) (ps qs : List (Text Value)) :
    conjunction (conjunction t ps) qs = conjunction t (ps ++ qs) := by
  simp [conjunction]

def ListQuery.OfNullScope : ListQuery → Prop
  | templates filter _ => filter.scopeId = some none
  | _                  => False

instance : DecidablePred ListQuery.OfNullScope := fun q => by
  cases q <;> unfold ListQuery.OfNullScope <;> infer_instance

theorem auditHead_plain (f : AuditLogFilter) : '$' ∉ (auditHead f).toList := by
  have hf : '$' ∉ (fromClause f).toList := by
    unfold fromClause
    split <;> simp
  show '$' ∉ ("SELECT a.* FROM " ++ fromClause f ++ "\n       WHERE ").toList
  simpa using hf

theorem numbered (q : ListQuery) (s : Sent) (h : s ∈ q.sent) :
    Numbered (if q.OfNullScope then 1 else 0) s.params s.sql q.asked := by
  cases q
  case licenses f page =>
    cases h
    refine Where.Asks.send (k := 0) ?_ _ _ _ (by simp) ⟨by simp [Closed], by simp⟩ (by simp) (by simp) page
    simp only [← conjunction_conjunction]
    exact Where.Asks.start _ (by simp) []
      |>.nullable "scope_id" (by simp) _
      |>.any "status" (by simp) _
      |>.test "licensable_type = " (by simp) _
      |>.test "licensable_id = " (by simp) _
      |>.nullable "template_id" (by simp) _
  case byLicensable q =>
    cases h
    have := Where.Asks.byLicensable "SELECT * FROM licenses\n                 WHERE " (by simp) q.type q.id
      |>.nullable "scope_id" (by simp) q.scopeId
    exact this.numbered.text ⟨by simp [Closed], by simp⟩
  case scopes f page =>
    cases h
    refine Where.Asks.sendPage (k := 0) ?_ page
    exact Where.Asks.start _ (by simp) [] |>.test "slug = " (by simp) _
  case templates f page =>
    cases h
    refine Where.Asks.sendPage ?_ page
    simp only [← conjunction_conjunction]
    exact Where.Asks.templateScope (by simp) f.scopeId
      |>.test "name = " (by simp) _
      |>.nullable "parent_id" (by simp) _
  case usages f page =>
    cases h
    refine Where.Asks.sendPage (k := 0) ?_ page
    simp only [← conjunction_conjunction]
    exact Where.Asks.start _ (by simp) []
      |>.test "license_id = " (by simp) _
      |>.test "fingerprint = " (by simp) _
      |>.any "status" (by simp) _
  case keys f page =>
    cases h
    refine Where.Asks.sendPage (k := 0) ?_ page
    simp only [← conjunction_conjunction]
    exact Where.Asks.start _ (by simp) []
      |>.nullable "scope_id" (by simp) _
      |>.test "kid = " (by simp) _
      |>.test "alg = " (by simp) _
      |>.test "role = " (by simp) _
      |>.test "state = " (by simp) _
  case audit f page =>
    obtain ⟨w, hw, hs⟩ := Option.bind_eq_some_iff.mp h
    cases hs
    refine Where.Asks.send (k := 0) ?_ _ _ _ (by simp) ⟨by simp [Closed], by simp⟩ (by simp) (by simp) page
    simp only [← conjunction_conjunction]
    exact Where.Asks.start _ (auditHead_plain f) []
      |>.nullable "a.license_id" (by simp) _
      |>.nullable "a.scope_id" (by simp) _
      |>.whereEvents _ w hw
      |>.test "a.actor = " (by simp) _
      |>.test "a.occurred_at >= " (by simp) _
      |>.test "a.occurred_at < " (by simp) _
      |>.test "l.licensable_type = " (by simp) _
      |>.test "l.licensable_id = " (by simp) _

example : listKeys { scopeId := some none, kid := some "k" } { limit := 0 } = {
    sql := "SELECT * FROM license_keys\n       WHERE 1=1 AND scope_id IS NULL AND kid = $1" ++
      "\n       ORDER BY created_at DESC, id DESC\n       LIMIT 2"
    params := [.text "k"] } := rfl

-- The null is sent, but no predicate refers to it.
theorem ListQuery.OfNullScope.not_binds {q : ListQuery} (hq : q.OfNullScope) {s : Sent} (hs : s ∈ q.sent) :
    ¬s.Binds q.asked := by
  intro h
  have hn := numbered q s hs
  rw [if_pos hq] at hn
  have first := (h.places 1).mpr ⟨Nat.le_refl 1, hn.le⟩
  have := (hn.mem_holes 1).mp first
  omega

-- A query binds its parameters unless it lists the templates of no scope.
theorem binds_iff (q : ListQuery) : (∀ s ∈ q.sent, s.Binds q.asked) ↔ ¬q.OfNullScope := by
  constructor
  case mp =>
    intro h hq
    cases q
    case templates f page => exact hq.not_binds rfl (h _ rfl)
    all_goals exact hq
  case mpr =>
    intro hq s hs
    have hn := numbered q s hs
    rw [if_neg hq] at hn
    exact ⟨hn.mem_holes, hn.filled⟩

theorem not_binds_templates :
    ¬∀ s ∈ (ListQuery.templates { scopeId := some none } { limit := 10 }).sent,
      s.Binds (ListQuery.templates { scopeId := some none } { limit := 10 }).asked := by
  intro h
  have hq : (ListQuery.templates { scopeId := some none } { limit := 10 }).OfNullScope := rfl
  exact hq.not_binds rfl (h _ rfl)

end Licensing.Postgres.Lists
