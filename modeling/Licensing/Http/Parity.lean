import Licensing.Http.Handlers
import Licensing.Http.Router

-- Which requests the two ports route to the same endpoint.

namespace Licensing

open Routes Ts.Http

-- What a router of the TypeScript port answers, `none` being an error that is thrown.
def Ts.Http.Outcome.routed : Outcome → Option Routed
  | reply response => some (.refused response)
  | threw          => none
  | call e _ params => some (.reached e (params.lookup "id"))

def respond (method path : String) : Search String (Endpoint × Bool) → Option Routed
  | .failed                => none
  | .methodMismatch        => some (.refused (methodNotAllowed method path))
  | .missing               => some (.refused (notFound method path))
  | .found (e, _) params => some (.reached e (params.lookup "id"))

theorem routed_createRouter {routes : List Ts.Http.Route} {req : HandlerRequest} :
    (createRouter routes [] req).routed = respond req.method.toString req.path
      (find decodeURIComponent req.method (nonEmptyParts req.path) (routes.map compileRoute) false) := by
  rw [createRouter]
  cases find decodeURIComponent req.method (nonEmptyParts req.path) (routes.map compileRoute) false <;> rfl

-- A segment that both ports take as it is.
structure PlainSegment (seg : String) : Prop where
  nonempty  : seg ≠ ""
  separated : '/' ∉ seg.toList
  unescaped : '%' ∉ seg.toList

section Decode

theorem unescape_eq {cs : List Char} (h : '%' ∉ cs) : unescape cs [] = some cs := by
  induction cs
  case nil => rfl
  case cons c cs ih =>
    have hc : '%' ≠ c := List.ne_of_not_mem_cons h
    have hcs : '%' ∉ cs := List.not_mem_of_not_mem_cons h
    have first : unescape (c :: cs) [] = do
        let before ← Bytes.toString? []
        let rest ← unescape cs []
        return before.toList ++ c :: rest := by
      rw [unescape]
      exact fun e => hc e.symm
    have empty : Bytes.toString? [] = some "" := Bytes.toString?_ofString ""
    rw [first, ih hcs, empty]
    rfl

theorem PlainSegment.decode {seg : String} (h : PlainSegment seg) : decodeURIComponent seg = some seg := by
  simp [decodeURIComponent, unescape_eq h.unescaped]

end Decode

section Tables

variable {list create get update delete : Endpoint} {method : HttpMethod} {path : String} {rest : List String}

-- The routes of a resource, after its name.
def entityTable (list create get update delete : Endpoint) : List CompiledRoute :=
  [ compiled .get [] list,
    compiled .post [] create,
    compiled .get [.param "id"] get,
    compiled .patch [.param "id"] update,
    compiled .delete [.param "id"] delete ]

def search (method : HttpMethod) (path : String) (rest : List String) (table : List CompiledRoute) : Option Routed :=
  respond method.toString path (find decodeURIComponent method rest table false)

theorem search_crud (plain : ∀ seg ∈ rest, PlainSegment seg) :
    search method path rest (entityTable list create get update delete) =
      some (Go.Http.routeCrud list create get update delete rest method.toString path) := by
  cases rest
  case nil =>
    cases method <;>
      simp [search, find, entityTable, compiled, matchSegments, matchParts, respond, Go.Http.routeCrud,
        Go.Http.parseIDAndAction, Go.Http.routeCollection, HttpMethod.toString, Go.Http.refuseMethod]
  case cons id rest =>
    have hid := plain id (by simp)
    cases rest
    case nil =>
      cases method <;>
        simp [search, find, entityTable, compiled, matchSegments, matchParts, respond, Go.Http.routeCrud,
          Go.Http.parseIDAndAction, Go.Http.routeEntity, HttpMethod.toString, Go.Http.refuseMethod, hid.nonempty,
          hid.decode, Except.map]
    case cons action rest =>
      have ha := plain action (by simp)
      cases rest <;>
        simp [search, find, entityTable, compiled, matchSegments, respond, Go.Http.routeCrud, Go.Http.parseIDAndAction,
          Go.Http.refuseNotFound, hid.nonempty, ha.nonempty]

def licenseActions : List String :=
  ["suspend", "resume", "revoke", "renew", "rotate-key"]

def licenseTable : List CompiledRoute :=
  entityTable .listLicenses .createLicense .getLicense .updateLicense .deleteLicense ++
  [ compiled .post [.param "id", .static "suspend"] .suspendLicense,
    compiled .post [.param "id", .static "resume"] .resumeLicense,
    compiled .post [.param "id", .static "revoke"] .revokeLicense,
    compiled .post [.param "id", .static "renew"] .renewLicense,
    compiled .post [.param "id", .static "rotate-key"] .rotateLicenseKey ]

-- An action on a license that does not exist, asked for with another method than `POST`.
def UnknownAction (method : HttpMethod) (rest : List String) : Prop :=
  ∃ id action, rest = [id, action] ∧ action ∉ licenseActions ∧ method ≠ .post

variable (method) in
theorem search_unknown {id action : String} (plain : ∀ seg ∈ [id, action], PlainSegment seg)
    (unknown : action ∉ licenseActions) (path : String) :
    search method path [id, action] licenseTable = some (Go.Http.refuseNotFound method.toString path) ∧
      (method = .post →
        Go.Http.routeLicenses [id, action] method.toString path = Go.Http.refuseNotFound method.toString path) ∧
      (method ≠ .post →
        Go.Http.routeLicenses [id, action] method.toString path = Go.Http.refuseMethod method.toString path) := by
  have hid := plain id (by simp)
  have ha := plain action (by simp)
  simp only [licenseActions, List.mem_cons, List.not_mem_nil, or_false, not_or] at unknown
  obtain ⟨h₁, h₂, h₃, h₄, h₅⟩ := unknown
  refine ⟨?search, ?post, ?other⟩
  case search =>
    simp [search, find, licenseTable, entityTable, compiled, matchSegments, matchParts, respond, hid.decode,
      Except.map, Ne.symm h₁, Ne.symm h₂, Ne.symm h₃, Ne.symm h₄, Ne.symm h₅, Go.Http.refuseNotFound]
  all_goals
    cases method <;>
      simp [Go.Http.routeLicenses, Go.Http.parseIDAndAction, HttpMethod.toString, hid.nonempty, ha.nonempty]

theorem search_licenses (plain : ∀ seg ∈ rest, PlainSegment seg) :
    search method path rest licenseTable = some (Go.Http.routeLicenses rest method.toString path) ↔
      ¬UnknownAction method rest := by
  cases rest
  case nil =>
    cases method <;>
      simp [search, find, licenseTable, entityTable, compiled, matchSegments, matchParts, respond,
        Go.Http.routeLicenses, Go.Http.parseIDAndAction, Go.Http.routeCollection, HttpMethod.toString,
        Go.Http.refuseMethod, UnknownAction]
  case cons id rest =>
    have hid := plain id (by simp)
    cases rest
    case nil =>
      cases method <;>
        simp [search, find, licenseTable, entityTable, compiled, matchSegments, matchParts, respond,
          Go.Http.routeLicenses, Go.Http.parseIDAndAction, Go.Http.routeEntity, HttpMethod.toString,
          Go.Http.refuseMethod, hid.nonempty, hid.decode, Except.map, UnknownAction]
    case cons action rest =>
      have ha := plain action (by simp)
      cases rest
      case cons =>
        simp [search, find, licenseTable, entityTable, compiled, matchSegments, respond, Go.Http.routeLicenses,
          Go.Http.parseIDAndAction, Go.Http.refuseNotFound, UnknownAction]
      case nil =>
        by_cases known : action ∈ licenseActions
        case pos =>
          simp only [licenseActions, List.mem_cons, List.not_mem_nil, or_false] at known
          obtain e | e | e | e | e := known
          all_goals
            subst e
            cases method <;>
              simp [search, find, licenseTable, entityTable, compiled, matchSegments, matchParts, respond,
                Go.Http.routeLicenses, Go.Http.parseIDAndAction, HttpMethod.toString, Go.Http.refuseMethod,
                hid.nonempty, hid.decode, Except.map, UnknownAction, licenseActions]
        case neg =>
          obtain ⟨missing, post, other⟩ := search_unknown method plain known path
          have unknown : UnknownAction method [id, action] ↔ method ≠ .post := by
            simp [UnknownAction, known]
          rw [missing, unknown]
          by_cases hm : method = .post
          case pos =>
            rw [post hm]
            simp [hm, Go.Http.refuseNotFound]
          case neg =>
            rw [other hm]
            simp [hm, Go.Http.refuseNotFound, Go.Http.refuseMethod, notFound, methodNotAllowed, Response.err]

def usageTable : List CompiledRoute :=
  [ compiled .get [] .listUsages,
    compiled .get [.param "id"] .getUsage,
    compiled .post [.param "id", .static "revoke"] .revokeUsage ]

theorem search_usages (plain : ∀ seg ∈ rest, PlainSegment seg) :
    search method path rest usageTable = some (Go.Http.routeUsages rest method.toString path) := by
  cases rest
  case nil =>
    cases method <;>
      simp [search, find, usageTable, compiled, matchSegments, matchParts, respond, Go.Http.routeUsages,
        Go.Http.parseIDAndAction, Go.Http.only, HttpMethod.toString, Go.Http.refuseMethod]
  case cons id rest =>
    have hid := plain id (by simp)
    cases rest
    case nil =>
      cases method <;>
        simp [search, find, usageTable, compiled, matchSegments, matchParts, respond, Go.Http.routeUsages,
          Go.Http.parseIDAndAction, Go.Http.only, HttpMethod.toString, Go.Http.refuseMethod, hid.nonempty, hid.decode,
          Except.map]
    case cons action rest =>
      have ha := plain action (by simp)
      cases rest
      case cons =>
        simp [search, find, usageTable, compiled, matchSegments, respond, Go.Http.routeUsages, Go.Http.parseIDAndAction,
          Go.Http.refuseNotFound]
      case nil =>
        by_cases revoke : action = "revoke"
        case pos =>
          subst revoke
          cases method <;>
            simp [search, find, usageTable, compiled, matchSegments, matchParts, respond, Go.Http.routeUsages,
              Go.Http.parseIDAndAction, Go.Http.only, HttpMethod.toString, Go.Http.refuseMethod, hid.nonempty,
              hid.decode, Except.map]
        case neg =>
          simp [search, find, usageTable, compiled, matchSegments, matchParts, respond, Go.Http.routeUsages,
            Go.Http.parseIDAndAction, Go.Http.refuseNotFound, hid.nonempty, hid.decode, ha.nonempty, Except.map, revoke,
            Ne.symm revoke]

def keyTable : List CompiledRoute :=
  [ compiled .get [] .listKeys,
    compiled .post [] .createKey,
    compiled .post [.param "id", .static "rotate"] .rotateKey ]

theorem search_keys (plain : ∀ seg ∈ rest, PlainSegment seg) :
    search method path rest keyTable = some (Go.Http.routeKeys rest method.toString path) := by
  cases rest
  case nil =>
    cases method <;>
      simp [search, find, keyTable, compiled, matchSegments, matchParts, respond, Go.Http.routeKeys,
        Go.Http.parseIDAndAction, Go.Http.routeCollection, HttpMethod.toString, Go.Http.refuseMethod]
  case cons id rest =>
    have hid := plain id (by simp)
    cases rest
    case nil =>
      simp [search, find, keyTable, compiled, matchSegments, respond, Go.Http.routeKeys, Go.Http.parseIDAndAction,
        Go.Http.refuseNotFound, hid.nonempty]
    case cons action rest =>
      have ha := plain action (by simp)
      cases rest
      case cons =>
        simp [search, find, keyTable, compiled, matchSegments, respond, Go.Http.routeKeys, Go.Http.parseIDAndAction,
          Go.Http.refuseNotFound]
      case nil =>
        by_cases rotate : action = "rotate"
        case pos =>
          subst rotate
          cases method <;>
            simp [search, find, keyTable, compiled, matchSegments, matchParts, respond, Go.Http.routeKeys,
              Go.Http.parseIDAndAction, Go.Http.only, HttpMethod.toString, Go.Http.refuseMethod, hid.nonempty,
              hid.decode, Except.map]
        case neg =>
          simp [search, find, keyTable, compiled, matchSegments, matchParts, respond, Go.Http.routeKeys,
            Go.Http.parseIDAndAction, Go.Http.refuseNotFound, hid.nonempty, hid.decode, ha.nonempty, Except.map, rotate,
            Ne.symm rotate]

theorem search_audit (plain : ∀ seg ∈ rest, PlainSegment seg) :
    search method path rest [compiled .get [] .listAudit] = some (Go.Http.routeAudit rest method.toString path) := by
  cases rest
  case nil =>
    cases method <;>
      simp [search, find, compiled, matchSegments, matchParts, respond, Go.Http.routeAudit, Go.Http.only,
        HttpMethod.toString, Go.Http.refuseMethod]
  case cons seg rest =>
    have hs := plain seg (by simp)
    simp [search, find, compiled, matchSegments, respond, Go.Http.routeAudit, Go.Http.refuseNotFound, hs.nonempty]

theorem search_stats :
    search method path rest [compiled .get [.static "licenses"] .getLicenseStats] =
      some (Go.Http.routeStats rest method.toString path) := by
  by_cases licenses : rest = ["licenses"]
  case pos =>
    subst licenses
    cases method <;>
      simp [search, find, compiled, matchSegments, matchParts, respond, Go.Http.routeStats, Go.Http.only,
        HttpMethod.toString, Go.Http.refuseMethod]
  case neg =>
    have none : matchSegments decodeURIComponent [.static "licenses"] rest = .ok none := by
      rw [matchSegments]
      split
      case isTrue => rfl
      case isFalse one =>
        obtain ⟨seg, e⟩ := List.length_eq_one_iff.mp (not_not.mp one).symm
        subst e
        have other : "licenses" ≠ seg := fun e => licenses (by rw [e])
        simp [matchParts, other]
    simp [search, find, compiled, none, respond, Go.Http.routeStats, Go.Http.refuseNotFound, licenses]

def resources : List String :=
  ["licenses", "scopes", "templates", "usages", "keys", "audit", "stats"]

def resourceTable : List CompiledRoute :=
  adminTable.filterMap (·.after "admin")

theorem search_after {resource : String} {table : List CompiledRoute}
    (h : resourceTable.filterMap (·.after resource) = table) :
    search method path (resource :: rest) resourceTable = search method path rest table := by
  have static : ∀ r ∈ resourceTable, r.IsStatic := by
    simp [resourceTable, adminTable, crudTable, compiled, collection, entity, action, Routes.Route.after,
      Routes.Route.IsStatic]
  rw [search, find_after static, h]
  rfl

theorem routeResource_of_unknown {resource method : String} (unknown : resource ∉ resources) :
    Go.Http.routeResource (resource :: rest) method path = Go.Http.refuseNotFound method path := by
  rw [Go.Http.routeResource]
  all_goals
    intro segs e
    cases e
    exact unknown (by decide)

-- The tables of the two ports, resource by resource.
theorem search_resource {resource : String} (plain : ∀ seg ∈ rest, PlainSegment seg) :
    search method path (resource :: rest) resourceTable =
        some (Go.Http.routeResource (resource :: rest) method.toString path) ↔
      ¬(resource = "licenses" ∧ UnknownAction method rest) := by
  have agrees {name : String} {table : List CompiledRoute} {routed : Routed}
      (after : resourceTable.filterMap (·.after name) = table)
      (route : Go.Http.routeResource (name :: rest) method.toString path = routed) (other : name ≠ "licenses")
      (same : search method path rest table = some routed) :
      search method path (name :: rest) resourceTable =
          some (Go.Http.routeResource (name :: rest) method.toString path) ↔
        ¬(name = "licenses" ∧ UnknownAction method rest) := by
    rw [search_after after, same, route]
    simp [other]
  by_cases known : resource ∈ resources
  case pos =>
    simp only [resources, List.mem_cons, List.not_mem_nil, or_false] at known
    obtain e | e | e | e | e | e | e := known
    all_goals subst e
    · have after : resourceTable.filterMap (·.after "licenses") = licenseTable := rfl
      have route : Go.Http.routeResource ("licenses" :: rest) method.toString path =
        Go.Http.routeLicenses rest method.toString path := rfl
      rw [search_after after, route]
      simpa using search_licenses plain
    · exact agrees rfl rfl (by decide) (search_crud plain)
    · exact agrees rfl rfl (by decide) (search_crud plain)
    · exact agrees rfl rfl (by decide) (search_usages plain)
    · exact agrees rfl rfl (by decide) (search_keys plain)
    · exact agrees rfl rfl (by decide) (search_audit plain)
    · exact agrees rfl rfl (by decide) search_stats
  case neg =>
    have none : resourceTable.filterMap (·.after resource) = [] := by
      have unknown := known
      simp only [resources, List.mem_cons, List.not_mem_nil, or_false, not_or] at unknown
      obtain ⟨h₁, h₂, h₃, h₄, h₅, h₆, h₇⟩ := unknown
      simp [resourceTable, adminTable, crudTable, compiled, collection, entity, action, Routes.Route.after,
        Ne.symm h₁, Ne.symm h₂, Ne.symm h₃, Ne.symm h₄, Ne.symm h₅, Ne.symm h₆, Ne.symm h₇]
    have other : resource ≠ "licenses" := fun e => known (e ▸ by decide)
    exact agrees none (routeResource_of_unknown known) other rfl

end Tables

section Paths

variable {p path : String} {segs : List String}

def pathOf (p : String) (segs : List String) : String :=
  p ++ "/" ++ "/".intercalate segs

theorem toList_pathOf : (pathOf p segs).toList = p.toList ++ '/' :: ['/'].intercalate (segs.map String.toList) := by
  simp [pathOf, String.toList_intercalate]

theorem splitPath_intercalate (plain : ∀ seg ∈ segs, PlainSegment seg) (h : segs ≠ []) :
    splitPath ("/".intercalate segs) = segs := by
  have separated : ∀ l ∈ segs.map String.toList, '/' ∉ l := by
    intro l hl
    obtain ⟨seg, hs, e⟩ := List.mem_map.mp hl
    exact e ▸ (plain seg hs).separated
  rw [splitPath, String.toList_intercalate]
  have cut : (['/'].intercalate (segs.map String.toList)).splitOn '/' = segs.map String.toList :=
    List.splitOn_intercalate '/' separated (by simpa using h)
  rw [show "/".toList = ['/'] from rfl, cut, List.map_map]
  simp [Function.comp_def]

theorem nonEmptyParts_pathOf (plain : ∀ seg ∈ segs, PlainSegment seg) :
    nonEmptyParts (pathOf p segs) = nonEmptyParts p ++ segs := by
  have cut : splitPath (pathOf p segs) = splitPath p ++ splitPath ("/".intercalate segs) := by
    rw [splitPath, splitPath, splitPath, toList_pathOf, String.toList_intercalate]
    exact (congrArg (List.map String.ofList) (List.splitOn_append_cons_self ..)).trans List.map_append
  rw [nonEmptyParts, nonEmptyParts, cut, List.filter_append]
  apply congrArg ((splitPath p).filter (· ≠ "") ++ ·)
  by_cases h : segs = []
  case pos => rw [h]; rfl
  case neg =>
    rw [splitPath_intercalate plain h]
    exact List.filter_eq_self.mpr fun seg hs => by simpa using (plain seg hs).nonempty

theorem hasPrefix_pathOf : Go.Http.hasPrefix (pathOf p segs) p := by
  rw [Go.Http.hasPrefix, toList_pathOf]
  simp

theorem trimPrefix_pathOf : (Go.Http.trimPrefix (pathOf p segs) p).toList = '/' :: ("/".intercalate segs).toList := by
  rw [Go.Http.trimPrefix, toList_pathOf, List.drop_left, String.toList_ofList, String.toList_intercalate]
  rfl

theorem takeWhile_separated {cs w : List Char} (separated : '/' ∉ cs) :
    (cs ++ '/' :: w).takeWhile (· ≠ '/') = cs := by
  have inside : ∀ c ∈ cs, decide (c ≠ '/') := by
    intro c hc
    have ne : c ≠ '/' := fun e => separated (e ▸ hc)
    simpa using ne
  rw [List.takeWhile_append_of_pos inside]
  simp

theorem toList_admin : "/admin/".toList = '/' :: ("admin".toList ++ '/' :: []) := by
  rfl

theorem prefix_admin_iff {a : String} (separated : '/' ∉ a.toList) {w : List Char} :
    "/admin/".toList <+: '/' :: (a.toList ++ '/' :: w) ↔ a = "admin" := by
  rw [toList_admin]
  constructor
  case mp =>
    rintro ⟨t, h⟩
    have rest : "admin".toList ++ '/' :: t = a.toList ++ '/' :: w := by simpa using (List.cons.inj h).right
    have same := congrArg (List.takeWhile (· ≠ '/')) rest
    rw [takeWhile_separated (by decide), takeWhile_separated separated] at same
    exact String.toList_inj.mp same.symm
  case mpr =>
    intro e
    subst e
    exact ⟨w, by simp⟩

theorem intercalate_cons {a b : String} : ("/".intercalate (a :: b :: segs)).toList =
    a.toList ++ '/' :: ("/".intercalate (b :: segs)).toList := by
  simp [String.toList_intercalate, List.intercalate]

theorem serveHTTP_eq {method : String} :
    Go.Http.AdminHandler.serveHTTP p method (pathOf p segs) =
      if Go.Http.hasPrefix (Go.Http.trimPrefix (pathOf p segs) p) "/admin/" then
        Go.Http.routeResource (splitPath (Go.Http.trimPrefix (Go.Http.trimPrefix (pathOf p segs) p) "/admin/")) method
          (pathOf p segs)
      else Go.Http.refuseNotFound method (pathOf p segs) := by
  rw [Go.Http.AdminHandler.serveHTTP, hasPrefix_pathOf]
  by_cases h : Go.Http.hasPrefix (Go.Http.trimPrefix (pathOf p segs) p) "/admin/" <;> simp [h]

theorem serveHTTP_admin {resource method : String} (plain : ∀ seg ∈ resource :: segs, PlainSegment seg) :
    Go.Http.AdminHandler.serveHTTP p method (pathOf p ("admin" :: resource :: segs)) =
      Go.Http.routeResource (resource :: segs) method (pathOf p ("admin" :: resource :: segs)) := by
  have rest : (Go.Http.trimPrefix (pathOf p ("admin" :: resource :: segs)) p).toList =
      "/admin/".toList ++ ("/".intercalate (resource :: segs)).toList := by
    rw [trimPrefix_pathOf, intercalate_cons]
    rfl
  have admin : Go.Http.hasPrefix (Go.Http.trimPrefix (pathOf p ("admin" :: resource :: segs)) p) "/admin/" := by
    rw [Go.Http.hasPrefix, rest]
    simp
  have tail : Go.Http.trimPrefix (Go.Http.trimPrefix (pathOf p ("admin" :: resource :: segs)) p) "/admin/" =
      "/".intercalate (resource :: segs) := by
    rw [Go.Http.trimPrefix, rest, List.drop_left, String.ofList_toList]
  rw [serveHTTP_eq, if_pos admin, tail, splitPath_intercalate plain (by simp)]

theorem serveHTTP_other {method : String} (plain : ∀ seg ∈ segs, PlainSegment seg)
    (other : ∀ resource rest, segs ≠ "admin" :: resource :: rest) :
    Go.Http.AdminHandler.serveHTTP p method (pathOf p segs) = Go.Http.refuseNotFound method (pathOf p segs) := by
  have outside : ¬Go.Http.hasPrefix (Go.Http.trimPrefix (pathOf p segs) p) "/admin/" := by
    rw [Go.Http.hasPrefix, trimPrefix_pathOf, List.isPrefixOf_iff_prefix]
    cases segs
    case nil => decide
    case cons a segs =>
      have ha := (plain a List.mem_cons_self).separated
      cases segs
      case nil =>
        rw [toList_admin]
        rintro ⟨t, h⟩
        have inside : "admin".toList ++ '/' :: t = a.toList := by
          simpa [String.toList_intercalate] using (List.cons.inj h).right
        exact ha (by simp [← inside])
      case cons resource rest =>
        rw [intercalate_cons, prefix_admin_iff ha]
        intro e
        exact other resource rest (by rw [e])
  rw [serveHTTP_eq, if_neg outside]

end Paths

section Agreement

variable {p : String} {segs : List String} {req : HandlerRequest}

theorem find_routes {routes : List Ts.Http.Route} {table : List CompiledRoute}
    (compiled : routes.map compileRoute = table.map (prefixed p))
    (literal : ∀ part ∈ nonEmptyParts p, part.toList.head? ≠ some ':') (plain : ∀ seg ∈ segs, PlainSegment seg)
    (path : req.path = pathOf p segs) :
    (createRouter routes [] req).routed = search req.method req.path segs table := by
  have static : (nonEmptyParts p).map compilePart = (nonEmptyParts p).map .static := by
    refine List.map_congr_left fun part hp => ?_
    have h := literal part hp
    rw [compilePart]
    split
    case h_1 e => simp [e] at h
    case h_2   => rfl
  rw [routed_createRouter, compiled, path, nonEmptyParts_pathOf plain, search]
  have same : prefixed p = fun r : CompiledRoute =>
      { r with segments := (nonEmptyParts p).map .static ++ r.segments } := by
    funext r
    rw [prefixed, static]
  rw [same, find_prefixed]

theorem search_admin {path : String} {method : HttpMethod} :
    search method path ("admin" :: segs) adminTable = search method path segs resourceTable := by
  have static : ∀ r ∈ adminTable, r.IsStatic := by
    simp [adminTable, crudTable, compiled, collection, entity, action, Routes.Route.IsStatic]
  rw [search, find_after static]
  rfl

theorem search_other {path : String} {method : HttpMethod}
    (other : ∀ resource rest, segs ≠ "admin" :: resource :: rest) :
    search method path segs adminTable = some (Go.Http.refuseNotFound method.toString path) := by
  have admin : ∀ r ∈ adminTable, ∃ s segments, r.segments = .static "admin" :: s :: segments := by
    simp [adminTable, crudTable, compiled, collection, entity, action]
  have none : ∀ r ∈ adminTable, matchSegments decodeURIComponent r.segments segs = .ok none := by
    intro r hr
    obtain ⟨s, segments, e⟩ := admin r hr
    rw [matchSegments]
    split
    case isTrue => rfl
    case isFalse same =>
      rw [not_not, e] at same
      cases segs
      case nil => simp at same
      case cons a segs =>
        cases segs
        case nil => simp at same
        case cons resource rest =>
          have ne : "admin" ≠ a := fun e => other resource rest (by rw [e])
          simp [e, matchParts, ne]
  rw [search, find_eq_missing none]
  rfl

theorem agree_admin (literal : ∀ part ∈ nonEmptyParts p, part.toList.head? ≠ some ':')
    (plain : ∀ seg ∈ segs, PlainSegment seg) (path : req.path = pathOf p segs) :
    (createRouter (adminRoutes p) [] req).routed =
        some (Go.Http.AdminHandler.serveHTTP p req.method.toString req.path) ↔
      ¬∃ rest, segs = "admin" :: "licenses" :: rest ∧ UnknownAction req.method rest := by
  have table : (adminRoutes p).map compileRoute = adminTable.map (prefixed p) := by
    rw [adminRoutes_eq, compileRoute_under p (List.subset_append_right _ _), compiled_adminRoutes]
  rw [find_routes table literal plain path, path]
  by_cases admin : ∃ resource rest, segs = "admin" :: resource :: rest
  case pos =>
    obtain ⟨resource, rest, e⟩ := admin
    subst e
    have plain' : ∀ seg ∈ resource :: rest, PlainSegment seg := fun seg h => plain seg (List.mem_cons_of_mem _ h)
    rw [search_admin, serveHTTP_admin plain',
      search_resource fun seg h => plain' seg (List.mem_cons_of_mem _ h)]
    simp
  case neg =>
    have other (resource : String) (rest : List String) : segs ≠ "admin" :: resource :: rest :=
      fun e => admin ⟨resource, rest, e⟩
    rw [search_other other, serveHTTP_other plain other]
    simp [other]

theorem answers_unknown {rest : List String} (literal : ∀ part ∈ nonEmptyParts p, part.toList.head? ≠ some ':')
    (plain : ∀ seg ∈ segs, PlainSegment seg) (path : req.path = pathOf p segs)
    (licenses : segs = "admin" :: "licenses" :: rest) (unknown : UnknownAction req.method rest) :
    Go.Http.AdminHandler.serveHTTP p req.method.toString req.path =
        .refused (methodNotAllowed req.method.toString req.path) ∧
      (createRouter (adminRoutes p) [] req).routed = some (.refused (notFound req.method.toString req.path)) := by
  have table : (adminRoutes p).map compileRoute = adminTable.map (prefixed p) := by
    rw [adminRoutes_eq, compileRoute_under p (List.subset_append_right _ _), compiled_adminRoutes]
  obtain ⟨id, action, e, other, method⟩ := unknown
  subst licenses e
  have plain' : ∀ seg ∈ ["licenses", id, action], PlainSegment seg :=
    fun seg h => plain seg (List.mem_cons_of_mem _ h)
  have action_plain : ∀ seg ∈ [id, action], PlainSegment seg := fun seg h => plain' seg (List.mem_cons_of_mem _ h)
  obtain ⟨missing, -, refused⟩ := search_unknown req.method action_plain other req.path
  constructor
  case left =>
    rw [path, serveHTTP_admin plain', ← path]
    exact refused method
  case right =>
    have after : resourceTable.filterMap (·.after "licenses") = licenseTable := rfl
    rw [find_routes table literal plain path, search_admin, search_after after]
    exact missing

theorem eq_singleton_of_trimPrefix {name : String} (plain : ∀ seg ∈ segs, PlainSegment seg) (hn : PlainSegment name)
    (h : Go.Http.trimPrefix (pathOf p segs) p = "/" ++ name) : segs = [name] := by
  have same : "/".intercalate segs = name := by
    have e := congrArg String.toList h
    rw [trimPrefix_pathOf, String.toList_append] at e
    exact String.toList_inj.mp (List.cons.inj e).right
  by_cases empty : segs = []
  case pos =>
    rw [empty] at same
    exact absurd same.symm hn.nonempty
  case neg =>
    have alone : splitPath ("/".intercalate [name]) = [name] :=
      splitPath_intercalate (fun seg h => List.mem_singleton.mp h ▸ hn) (by simp)
    rw [← splitPath_intercalate plain empty, same]
    simpa using alone

def clientNames : List String :=
  ["health", "activate", "refresh", "heartbeat", "deactivate"]

theorem agree_client (literal : ∀ part ∈ nonEmptyParts p, part.toList.head? ≠ some ':')
    (plain : ∀ seg ∈ segs, PlainSegment seg) (path : req.path = pathOf p segs) :
    (createRouter (clientRoutes p) [] req).routed =
      some (Go.Http.ClientHandler.serveHTTP p req.method.toString req.path) := by
  have table : (clientRoutes p).map compileRoute = clientTable.map (prefixed p) := by
    rw [clientRoutes_eq, compileRoute_under p (List.subset_append_left _ _), compiled_clientRoutes]
  rw [find_routes table literal plain path, path]
  by_cases known : ∃ name ∈ clientNames, segs = [name]
  case pos =>
    obtain ⟨name, hn, e⟩ := known
    subst e
    simp only [clientNames, List.mem_cons, List.not_mem_nil, or_false] at hn
    have rest : Go.Http.trimPrefix (pathOf p [name]) p = "/" ++ name := by
      apply String.toList_inj.mp
      rw [trimPrefix_pathOf, String.toList_append]
      simp
    rw [Go.Http.ClientHandler.serveHTTP, hasPrefix_pathOf, rest]
    obtain e | e | e | e | e := hn
    all_goals
      subst e
      cases req.method <;>
        simp [search, find, clientTable, compiled, matchSegments, matchParts, respond, Go.Http.only,
          HttpMethod.toString, Go.Http.refuseMethod]
  case neg =>
    have named : ∀ name ∈ clientNames, PlainSegment name := by
      simp only [clientNames, List.mem_cons, List.not_mem_nil, or_false]
      rintro name (e | e | e | e | e)
      all_goals
        subst e
        exact ⟨by decide, by decide, by decide⟩
    have other : ∀ name ∈ clientNames, Go.Http.trimPrefix (pathOf p segs) p ≠ "/" ++ name :=
      fun name hn e => known ⟨name, hn, eq_singleton_of_trimPrefix plain (named name hn) e⟩
    have single : ∀ r ∈ clientTable, ∃ name ∈ clientNames, r.segments = [.static name] := by
      simp [clientTable, clientNames, compiled]
    have none : ∀ r ∈ clientTable, matchSegments decodeURIComponent r.segments segs = .ok none := by
      intro r hr
      obtain ⟨name, hn, e⟩ := single r hr
      rw [matchSegments]
      split
      case isTrue => rfl
      case isFalse same =>
        rw [not_not, e] at same
        obtain ⟨seg, hs⟩ := List.length_eq_one_iff.mp same.symm
        have ne : name ≠ seg := fun e => known ⟨name, hn, by rw [hs, e]⟩
        simp [e, hs, matchParts, ne]
    have missing : Go.Http.ClientHandler.serveHTTP p req.method.toString (pathOf p segs) =
        Go.Http.refuseNotFound req.method.toString (pathOf p segs) := by
      rw [Go.Http.ClientHandler.serveHTTP, hasPrefix_pathOf, if_neg (by simp)]
      split
      case h_1 e => exact absurd e (other "health" (by decide))
      case h_2 e => exact absurd e (other "activate" (by decide))
      case h_3 e => exact absurd e (other "refresh" (by decide))
      case h_4 e => exact absurd e (other "heartbeat" (by decide))
      case h_5 e => exact absurd e (other "deactivate" (by decide))
      case h_6   => rfl
    rw [search, find_eq_missing none, missing]
    rfl

-- The two ports route the paths made of plain segments alike, but for actions on licenses that do not exist: there Go
-- looks at the method first, and refuses it.
theorem routes_agree (literal : ∀ part ∈ nonEmptyParts p, part.toList.head? ≠ some ':')
    (plain : ∀ seg ∈ segs, PlainSegment seg) (path : req.path = pathOf p segs) :
    ((createRouter (adminRoutes p) [] req).routed =
        some (Go.Http.AdminHandler.serveHTTP p req.method.toString req.path) ↔
      ¬∃ rest, segs = "admin" :: "licenses" :: rest ∧ UnknownAction req.method rest) ∧
    (∀ rest, segs = "admin" :: "licenses" :: rest → UnknownAction req.method rest →
      Go.Http.AdminHandler.serveHTTP p req.method.toString req.path =
          .refused (methodNotAllowed req.method.toString req.path) ∧
        (createRouter (adminRoutes p) [] req).routed = some (.refused (notFound req.method.toString req.path))) ∧
    (createRouter (clientRoutes p) [] req).routed =
      some (Go.Http.ClientHandler.serveHTTP p req.method.toString req.path) :=
  ⟨agree_admin literal plain path, fun _ => answers_unknown literal plain path, agree_client literal plain path⟩

def unknownAction : HandlerRequest where
  method     := .get
  path       := pathOf "/api/licensing/v1" ["admin", "licenses", "l1", "archive"]
  query      := fun _ => []
  headers    := fun _ => none
  body       := none
  remoteAddr := "203.0.113.9"

-- Go answers that the method is not allowed, and TypeScript that there is no such path.
theorem unknownAction_differs :
    Go.Http.AdminHandler.serveHTTP "/api/licensing/v1" unknownAction.method.toString unknownAction.path =
        .refused (methodNotAllowed "GET" unknownAction.path) ∧
      (createRouter (adminRoutes "/api/licensing/v1") [] unknownAction).routed =
        some (.refused (notFound "GET" unknownAction.path)) ∧
      (createRouter (clientRoutes "/api/licensing/v1") [] unknownAction).routed =
        some (Go.Http.ClientHandler.serveHTTP "/api/licensing/v1" unknownAction.method.toString
          unknownAction.path) := by
  have literal : ∀ part ∈ nonEmptyParts "/api/licensing/v1", part.toList.head? ≠ some ':' := by decide +kernel
  have plain : ∀ seg ∈ ["admin", "licenses", "l1", "archive"], PlainSegment seg := by
    simp only [List.mem_cons, List.not_mem_nil, or_false]
    rintro seg (e | e | e | e)
    all_goals
      subst e
      exact ⟨by decide, by decide, by decide⟩
  obtain ⟨-, differ, client⟩ :=
    @routes_agree "/api/licensing/v1" ["admin", "licenses", "l1", "archive"] unknownAction literal plain rfl
  obtain ⟨go, ts⟩ := differ ["l1", "archive"] rfl ⟨"l1", "archive", rfl, by decide, by decide⟩
  exact ⟨go, ts, client⟩

end Agreement

end Licensing
