import Licensing.Model.Registration
import Licensing.Postgres.Sessions

-- The registrations of both ports as sessions, and the statements that they may send.

namespace Licensing.Postgres

open Prog ReadCommitted

structure Registration where
  port  : Port
  fuel  : Nat
  input : RegisterUsageInput
  actor : Option String

def Registration.body (r : Registration) : Tx Unit := do
  let _ ← registerUsage r.fuel r.input r.actor

def registrations (db : Tables) (rs : Nat → Registration) : Sessions :=
  .initial (.initial db) fun t => (rs t).port.withTransaction (rs t).body

namespace Trace

def countedIn (licenseId : String) : Event Session Session.Ans Store → List UsageRow
  | ⟨.stmt (.selectUsages f _ n), _, .ok rows⟩ =>
    if f.Counts licenseId then rows.take (n - 1) else []
  | _ => []

-- The seats of a license on the pages that have been counted.
def counted (h : Trace) (licenseId : String) : List UsageRow :=
  h.flatMap (countedIn licenseId)

def Open (h : Trace) : Prop :=
  ∀ e ∈ h, ∃ q, e.op = .stmt q

def Inserted (h : Trace) : Prop :=
  ∃ e ∈ h, ∃ v, e.op = .stmt (.insertUsage v)

-- The row lock on the license was granted.
def Granted (h : Trace) (licenseId : String) : Prop :=
  ∃ s, (⟨.stmt (.selectLicenseForUpdate licenseId), s, .ok ()⟩ : Event Session Session.Ans Store) ∈ h

-- The contract of a registration, on the level of statements.
def MaySend (h : Trace) : Stmt → Prop
  | .selectLicenseForUpdate id =>
    ¬h.Inserted ∧ ∃ r, h.Read id r ∧ ((h.counted id).length : Int) < r.maxUsages
  | .insertUsage v               => ¬h.Inserted ∧ h.Granted v.licenseId ∧ v.status = .active
  | .updateLicense _ set         => set.maxUsages = none
  | .updateUsage _ _             => False
  | _                            => True

def MayRegister (h : Trace) : Session → Prop
  | .stmt q => h.Open ∧ h.MaySend q
  | _       => True

end Trace

section Contract

variable {cfg : Config} {t : Nat} {h : History} {h' h'' : Trace}

-- What the operations have read, counted and created is what the statements have.
structure Tallies (h : History) (h' : Trace) : Prop where
  read     : ∀ id l, h.Got id l → ∃ r, h'.Read id r ∧ r.maxUsages = l.maxUsages
  counted  : ∀ id, (h.counted id).length = (h'.counted id).length
  «open»   : h'.Open
  inserted : h'.Inserted → h.Created

namespace Tallies

theorem initial : Tallies [] [] where
  read _ _ h := absurd h List.not_mem_nil
  counted _  := rfl
  «open» _ h := absurd h List.not_mem_nil
  inserted   := fun ⟨_, h, _⟩ => absurd h List.not_mem_nil

theorem append (tl : Tallies h h') (es : Trace) {e : Event Licensing.Op Op.Ans Unit}
    (op : ∀ x ∈ es, ∃ q, x.op = .stmt q)
    (read : ∀ id l, e = ⟨.tx (.getLicense id), (), .ok (some l)⟩ →
      ∃ r, es.Read id r ∧ r.maxUsages = l.maxUsages)
    (counted : ∀ id, (History.countedIn id e).length = (es.counted id).length)
    (inserted : es.Inserted → ∃ i, e.op = .tx (.createUsage i)) : Tallies (e :: h) (es ++ h') where
  read id l hg := by
    cases List.mem_cons.mp hg
    case inl hg =>
      have ⟨r, ⟨s, hm⟩, hr⟩ := read id l hg.symm
      exact ⟨r, ⟨s, List.mem_append_left _ hm⟩, hr⟩
    case inr hg =>
      have ⟨r, ⟨s, hm⟩, hr⟩ := tl.read id l hg
      exact ⟨r, ⟨s, List.mem_append_right _ hm⟩, hr⟩
  counted id := by
    have hc := tl.counted id
    simp only [History.counted, Trace.counted, List.flatMap_cons, List.flatMap_append,
      List.length_append] at hc counted ⊢
    rw [hc, counted id]
  «open» x hx := (List.mem_append.mp hx).elim (op x) (tl.open x)
  inserted hi := by
    obtain ⟨x, hx, v, hv⟩ := hi
    cases List.mem_append.mp hx
    case inl hx =>
      obtain ⟨i, hi⟩ := inserted ⟨x, hx, v, hv⟩
      exact ⟨e, List.mem_cons_self, i, hi⟩
    case inr hx =>
      obtain ⟨e, he, i, hi⟩ := tl.inserted ⟨x, hx, v, hv⟩
      exact ⟨e, List.mem_cons_of_mem _ he, i, hi⟩

-- Statements that count no seats, for an operation that neither reads a license nor counts seats.
theorem aside (tl : Tallies h h') (es : Trace) {e : Event Licensing.Op Op.Ans Unit}
    (op : ∀ x ∈ es, ∃ q, x.op = .stmt q ∧ ∀ f c n, q ≠ .selectUsages f c n)
    (read : ∀ id, e.op ≠ .tx (.getLicense id)) (count : ∀ f p, e.op ≠ .tx (.listUsages f p))
    (inserted : es.Inserted → ∃ i, e.op = .tx (.createUsage i)) : Tallies (e :: h) (es ++ h') := by
  refine tl.append es (fun x hx => (op x hx).imp fun _ hq => hq.left) (fun id l he => ?_) (fun id => ?_)
    inserted
  · exact absurd (congrArg Event.op he) (read id)
  · have hz : es.counted id = [] := by
      refine List.flatMap_eq_nil_iff.mpr fun x hx => ?_
      have ⟨q, hq, hn⟩ := op x hx
      unfold Trace.countedIn
      split
      · exact absurd (ReadCommitted.Op.stmt.inj hq).symm (hn _ _ _)
      · rfl
    rw [hz]
    unfold History.countedIn
    split
    · exact absurd rfl (count _ _)
    · rfl

end Tallies

-- A single statement of an operation that neither reads a license nor counts or creates seats.
theorem query_obeys {o : Licensing.Op} {q : Stmt} {f : q.Res → o.Ans} (tl : Tallies h h')
    (hq : h'.MaySend q) (hc : ∀ f c n, q ≠ .selectUsages f c n) (hi : ∀ v, q ≠ .insertUsage v)
    (hr : ∀ id, o ≠ .tx (.getLicense id)) (hl : ∀ f p, o ≠ .tx (.listUsages f p)) {answers} :
    ((query q f).translate inject).Obeys answers Trace.MayRegister (fun h'' r =>
      ∃ s a, r = .ok a ∧ History.Answers s o a ∧ Tallies (⟨o, s, a⟩ :: h) h'') h' := by
  refine ⟨⟨tl.open, hq⟩, fun s a _ => ⟨(), f a, rfl, History.answers_of_ne hr _, ?_⟩⟩
  refine tl.aside [⟨.stmt q, s, a⟩] (fun x hx => ?_) hr hl fun ⟨x, hx, v, hv⟩ => ?_
  · exact ⟨q, congrArg Event.op (List.mem_singleton.mp hx), hc⟩
  · rw [List.mem_singleton.mp hx] at hv
    exact absurd (ReadCommitted.Op.stmt.inj hv) (hi v)

theorem getLicense_obeys {id : String}
    {f : Except PgError (Option LicenseRow) → Except Error (Option License)} (tl : Tallies h h')
    (scanned : ∀ {a l}, f a = .ok (some l) → ∃ r, a = .ok (some r) ∧ License.Scanned l r) :
    ((query (.selectLicense id) f).translate inject).Obeys (Threads.Answers (engine cfg).step t)
      Trace.MayRegister (fun h'' r => ∃ s a, r = .ok a ∧
        History.Answers s (.tx (.getLicense id)) a ∧ Tallies (⟨.tx (.getLicense id), s, a⟩ :: h) h'')
      h' := by
  refine ⟨⟨tl.open, trivial⟩, fun s a ha => ⟨(), f a, rfl, ?_, ?_⟩⟩
  case refine_1 =>
    match hf : f a with
    | .ok (some l) =>
      have ⟨r, hr, hl⟩ := scanned hf
      exact hl.id_of_answers (hr ▸ ha)
    | .ok none | .error _ => trivial
  case refine_2 =>
    refine tl.append [⟨.stmt (.selectLicense id), s, a⟩] (fun x hx => ?_) (fun id' l he => ?_)
      (fun _ => rfl) fun ⟨x, hx, v, hv⟩ => ?_
    · exact ⟨_, congrArg Event.op (List.mem_singleton.mp hx)⟩
    · generalize hf : f a = b at he
      cases he
      have ⟨r, hr, hl⟩ := scanned hf
      exact ⟨r, ⟨s, hr ▸ List.mem_singleton_self _⟩, hl.maxUsages.symm⟩
    · rw [List.mem_singleton.mp hx] at hv
      cases hv

theorem listUsages_obeys {filter : LicenseUsageFilter} {page : PageRequest} {cursor : Cursor}
    {limit : Nat} {f : Except PgError (List UsageRow) → Except Error (Page LicenseUsage)}
    (tl : Tallies h h') (failed : ∀ e, ∃ e', f (.error e) = .error e')
    (items : ∀ rows, ∃ p, f (.ok rows) = .ok p ∧ p.items.length = (rows.take limit).length) {answers} :
    ((query (.selectUsages filter cursor (limit + 1)) f).translate inject).Obeys answers
      Trace.MayRegister (fun h'' r => ∃ s a, r = .ok a ∧
        History.Answers s (.tx (.listUsages filter page)) a ∧
          Tallies (⟨.tx (.listUsages filter page), s, a⟩ :: h) h'') h' := by
  refine ⟨⟨tl.open, trivial⟩, fun s a _ => ⟨(), f a, rfl, trivial, ?_⟩⟩
  refine tl.append [⟨.stmt (.selectUsages filter cursor (limit + 1)), s, a⟩] (fun x hx => ?_)
    (fun _ _ he => ?_) (fun id => ?_) fun ⟨x, hx, v, hv⟩ => ?_
  · exact ⟨_, congrArg Event.op (List.mem_singleton.mp hx)⟩
  · have hop := congrArg Event.op he
    cases hop
  · match a with
    | .error e =>
      have ⟨e', hf⟩ := failed e
      rw [hf]
      rfl
    | .ok rows =>
      have ⟨p, hf, hp⟩ := items rows
      rw [hf]
      by_cases hc : filter.Counts id
      case pos => simpa [History.countedIn, Trace.counted, Trace.countedIn, hc] using hp
      case neg => simp [History.countedIn, Trace.counted, Trace.countedIn, hc]
  · rw [List.mem_singleton.mp hx] at hv
    cases hv

section CreateUsage

variable {i : LicenseUsageInput} {f : Except PgError UsageRow → Except Error LicenseUsage}

-- The statements that precede the insertion of a seat.
def Preparing (i : LicenseUsageInput) (es : Trace) : Prop :=
  ∀ x ∈ es, x.op = .stmt .newUUID ∨ x.op = .stmt (.selectLicenseForUpdate i.licenseId)

namespace Preparing

variable {es : Trace}

theorem nil : Preparing i [] :=
  fun _ h => nomatch h

theorem newUUID (pr : Preparing i es) (s : Store) (a : String) :
    Preparing i (⟨.stmt .newUUID, s, a⟩ :: es) :=
  fun x hx => (List.mem_cons.mp hx).elim (fun he => .inl (congrArg Event.op he)) (pr x)

theorem lock (pr : Preparing i es) (s : Store) (a : Except PgError Unit) :
    Preparing i (⟨.stmt (.selectLicenseForUpdate i.licenseId), s, a⟩ :: es) :=
  fun x hx => (List.mem_cons.mp hx).elim (fun he => .inr (congrArg Event.op he)) (pr x)

theorem stmt (pr : Preparing i es) : ∀ x ∈ es, ∃ q, x.op = .stmt q ∧
    (∀ f c n, q ≠ .selectUsages f c n) ∧ ∀ v, q ≠ .insertUsage v := by
  intro x hx
  cases pr x hx
  case inl h => exact ⟨_, h, nofun, nofun⟩
  case inr h => exact ⟨_, h, nofun, nofun⟩

theorem counted (pr : Preparing i es) :
    Trace.counted (es ++ h') i.licenseId = h'.counted i.licenseId := by
  have hz : es.counted i.licenseId = [] := by
    refine List.flatMap_eq_nil_iff.mpr fun x hx => ?_
    have ⟨q, hq, hn, _⟩ := pr.stmt x hx
    unfold Trace.countedIn
    split
    · exact absurd (ReadCommitted.Op.stmt.inj hq).symm (hn _ _ _)
    · rfl
  rw [Trace.counted, List.flatMap_append]
  exact congrArg (· ++ _) hz

theorem not_inserted (pr : Preparing i es) (tl : Tallies h h') (fresh : ¬h.Created) :
    ¬Trace.Inserted (es ++ h') := by
  intro ⟨x, hx, v, hv⟩
  cases List.mem_append.mp hx
  case inl hx =>
    have ⟨q, hq, _, hn⟩ := pr.stmt x hx
    exact hn v (ReadCommitted.Op.stmt.inj (hq.symm.trans hv))
  case inr hx => exact fresh (tl.inserted ⟨x, hx, v, hv⟩)

theorem «open» (pr : Preparing i es) (tl : Tallies h h') : Trace.Open (es ++ h') :=
  fun x hx => (List.mem_append.mp hx).elim (fun hx => (pr.stmt x hx).imp fun _ h => h.left) (tl.open x)

-- The lock may be asked for.
theorem mayLock (pr : Preparing i es) (tl : Tallies h h')
    (hm : h.MayRegister (.tx (.createUsage i))) :
    Trace.MayRegister (es ++ h') (.stmt (.selectLicenseForUpdate i.licenseId)) := by
  have ⟨fresh, _, l, hg, hn⟩ := hm
  have ⟨r, ⟨s, hr⟩, hl⟩ := tl.read _ l hg
  refine ⟨pr.open tl, pr.not_inserted tl fresh, r, ⟨s, List.mem_append_right _ hr⟩, ?_⟩
  rw [pr.counted, ← tl.counted, hl]
  exact hn

-- Once the lock is granted, the seat may be inserted.
theorem mayInsert (pr : Preparing i es) (tl : Tallies h h')
    (hm : h.MayRegister (.tx (.createUsage i))) {s : Store} {v : UsageValues} (hv : v.For i)
    (granted : ⟨.stmt (.selectLicenseForUpdate i.licenseId), s, .ok ()⟩ ∈ es) :
    Trace.MayRegister (es ++ h') (.stmt (.insertUsage v)) := by
  have ⟨fresh, active, _⟩ := hm
  have hg : Trace.Granted (es ++ h') v.licenseId := ⟨s, hv.left ▸ List.mem_append_left _ granted⟩
  exact ⟨pr.open tl, pr.not_inserted tl fresh, hg, hv.right.right.trans active⟩

-- The operation has failed before the insertion.
theorem failed (pr : Preparing i es) (tl : Tallies h h') (a : Except Error LicenseUsage) :
    Tallies (⟨.tx (.createUsage i), (), a⟩ :: h) (es ++ h') :=
  tl.aside es (fun x hx => (pr.stmt x hx).imp fun _ h => ⟨h.left, h.right.left⟩) nofun nofun
    fun _ => ⟨i, rfl⟩

theorem inserted (pr : Preparing i es) (tl : Tallies h h') {v : UsageValues} (s : Store)
    (r : Except PgError UsageRow) (a : Except Error LicenseUsage) :
    Tallies (⟨.tx (.createUsage i), (), a⟩ :: h) (⟨.stmt (.insertUsage v), s, r⟩ :: (es ++ h')) := by
  refine tl.aside (⟨.stmt (.insertUsage v), s, r⟩ :: es) (fun x hx => ?_) nofun nofun
    fun _ => ⟨i, rfl⟩
  cases List.mem_cons.mp hx
  case inl hx => exact ⟨_, congrArg Event.op hx, nofun⟩
  case inr hx => exact (pr.stmt x hx).imp fun _ h => ⟨h.left, h.right.left⟩

end Preparing

theorem createUsage_obeys {p : Sql (Except Error LicenseUsage)} {answers}
    (hs : Sends (.tx (.createUsage i)) p) (tl : Tallies h h')
    (hm : h.MayRegister (.tx (.createUsage i))) :
    (p.translate inject).Obeys answers Trace.MayRegister (fun h'' r => ∃ s a, r = .ok a ∧
      History.Answers s (.tx (.createUsage i)) a ∧ Tallies (⟨.tx (.createUsage i), s, a⟩ :: h) h'')
      h' := by
  cases hs with
  | @createUsageAfterLock _ v next f values failed locked =>
    refine ⟨Preparing.nil.mayLock tl hm, fun s a _ => ?_⟩
    change ((next a).translate inject).Obeys _ _ _ _
    have pr := Preparing.nil.lock (i := i) s a
    match a with
    | .error e =>
      have ⟨a, ha⟩ := failed e
      rw [ha]
      exact ⟨(), a, rfl, trivial, pr.failed tl a⟩
    | .ok () =>
      rw [locked]
      refine ⟨⟨pr.open tl, trivial⟩, fun s' id _ => ?_⟩
      have pr' := pr.newUUID s' id
      have may := pr'.mayInsert tl hm (values id) (List.mem_cons_of_mem _ List.mem_cons_self)
      exact ⟨may, fun s'' r _ => ⟨(), f r, rfl, trivial, pr'.inserted tl s'' r (f r)⟩⟩
  | @createUsageBeforeLock _ v next f values failed locked =>
    refine ⟨⟨tl.open, trivial⟩, fun s' id _ => ?_⟩
    have pr' := Preparing.nil.newUUID (i := i) s' id
    refine ⟨pr'.mayLock tl hm, fun s a _ => ?_⟩
    change ((next id a).translate inject).Obeys _ _ _ _
    have pr := pr'.lock s a
    match a with
    | .error e =>
      have ⟨a, ha⟩ := failed id e
      rw [ha]
      exact ⟨(), a, rfl, trivial, pr.failed tl a⟩
    | .ok () =>
      rw [show next id (.ok ()) = _ from locked id]
      have may := pr.mayInsert tl hm (values id) List.mem_cons_self
      exact ⟨may, fun s'' r _ => ⟨(), f r, rfl, trivial, pr.inserted tl s'' r (f r)⟩⟩
  | lookup op _ => exact op.elim

end CreateUsage

theorem appendAudit_obeys {i : AuditLogInput} {v : String → AuditValues} {answers}
    {f : Except PgError AuditRow → Except Error AuditLogEntry} (tl : Tallies h h') :
    ((.call .newUUID fun id => query (.insertAudit (v id)) f : Sql _).translate inject).Obeys answers
      Trace.MayRegister (fun h'' r => ∃ s a, r = .ok a ∧ History.Answers s (.tx (.appendAudit i)) a ∧
        Tallies (⟨.tx (.appendAudit i), s, a⟩ :: h) h'') h' := by
  refine ⟨⟨tl.open, trivial⟩, fun s id _ => ?_⟩
  have ho : Trace.Open (⟨.stmt .newUUID, s, id⟩ :: h') := fun x hx =>
    (List.mem_cons.mp hx).elim (fun hx => ⟨_, congrArg Event.op hx⟩) (tl.open x)
  refine ⟨⟨ho, trivial⟩, fun s' r _ => ⟨(), f r, rfl, trivial, ?_⟩⟩
  have op : ∀ x ∈ ([⟨.stmt (.insertAudit (v id)), s', r⟩, ⟨.stmt .newUUID, s, id⟩] : Trace),
      ∃ q, x.op = .stmt q ∧ (∀ f c n, q ≠ .selectUsages f c n) ∧
        ∀ v, q ≠ .insertUsage v := by
    intro x hx
    cases List.mem_cons.mp hx
    case inl hx => exact ⟨_, congrArg Event.op hx, nofun, nofun⟩
    case inr hx => exact ⟨_, congrArg Event.op (List.mem_singleton.mp hx), nofun, nofun⟩
  refine tl.aside _ (fun x hx => (op x hx).imp fun _ h => ⟨h.left, h.right.left⟩) nofun nofun ?_
  intro ⟨x, hx, w, hw⟩
  have ⟨q, hq, _, hn⟩ := op x hx
  exact absurd (ReadCommitted.Op.stmt.inj (hq.symm.trans hw)) (hn w)

theorem sends_obeys {o : Licensing.Op} {p : Sql o.Ans} (hs : Sends o p) (tl : Tallies h h')
    (hm : h.MayRegister o) :
    (p.translate inject).Obeys (Threads.Answers (engine cfg).step t) Trace.MayRegister (fun h'' r =>
      ∃ s a, r = .ok a ∧ History.Answers s o a ∧ Tallies (⟨o, s, a⟩ :: h) h'') h' := by
  cases hs with
  | getLicense scanned => exact getLicense_obeys tl scanned
  | listUsages failed items => exact listUsages_obeys tl failed items
  | createUsageAfterLock values failed locked =>
    exact createUsage_obeys (.createUsageAfterLock values failed locked) tl hm
  | createUsageBeforeLock values failed locked =>
    exact createUsage_obeys (.createUsageBeforeLock values failed locked) tl hm
  | @updateLicense _ _ set _ _ maxUsages =>
    have may : set.maxUsages = none := maxUsages.trans hm
    refine query_obeys tl ?_ (by nofun) (by nofun) (by nofun) (by nofun)
    exact may
  | updateUsage => exact hm.elim
  | @lookup o q f op stmt =>
    have may : h'.MaySend q := by cases q <;> first | exact stmt.elim | trivial
    have count (f c n) : q ≠ .selectUsages f c n := fun hq => by
      subst hq
      exact stmt
    have insert (v) : q ≠ .insertUsage v := fun hq => by
      subst hq
      exact stmt
    cases o <;> first | exact op.elim | exact query_obeys tl may count insert (by nofun) (by nofun)
  | appendAudit => exact appendAudit_obeys tl
  | nowISO =>
    exact query_obeys (o := .nowISO) (q := .nowISO) (f := id) tl trivial nofun nofun nofun nofun
  | generateLicenseKey =>
    exact query_obeys (o := .generateLicenseKey) (q := .generateLicenseKey) (f := id) tl trivial
      nofun nofun nofun nofun

theorem registration_obeys (r : Registration) :
    (r.port.withTransaction r.body).Obeys (Threads.Answers (engine cfg).step t) Trace.MayRegister
      (fun _ _ => True) [] :=
  r.port.obeys Tallies sends_obeys (fun _ => trivial) (fun _ => trivial) .initial <|
    Obeys.bind <| (registerUsage_registers r.fuel r.input r.actor).mono fun _ r _ => by
      cases r <;> trivial

end Contract

end Licensing.Postgres
