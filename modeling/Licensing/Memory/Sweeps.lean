import Licensing.Library.Machine
import Licensing.Memory.Transitions
import Licensing.Model.Time

-- Sweeps that revoke the seats without a heartbeat. The seats are collected in one transaction and each is
-- revoked in another one, with the transactions of other callers in between.

namespace Licensing

namespace Sweep

open Go Machine Memory Prog

-- The fraction of a duration in units of `10 ^ prec` nanoseconds, without the zeros at its end.
def fraction (prec n : Nat) : List Char :=
  match ((Decimal.digits prec n).reverse.dropWhile (· = '0')).reverse with
  | [] => []
  | ds => '.' :: ds

-- What `%s` prints of a `time.Duration`.
def durationText (d : Int) : String :=
  let n := d.natAbs
  let sign := if d < 0 then "-" else ""
  let frac (prec : Nat) : String := toString (n / 10 ^ prec) ++ .ofList (fraction prec n)
  if n = 0 then "0s"
  else if n < 10 ^ 3 then sign ++ frac 0 ++ "ns"
  else if n < 10 ^ 6 then sign ++ frac 3 ++ "µs"
  else if n < 10 ^ 9 then sign ++ frac 6 ++ "ms"
  else
    let sec := n / 10 ^ 9
    let seconds := toString (sec % 60) ++ .ofList (fraction 9 n) ++ "s"
    if sec / 60 = 0 then sign ++ seconds
    else if sec / 3600 = 0 then sign ++ toString (sec / 60) ++ "m" ++ seconds
    else sign ++ toString (sec / 3600) ++ "h" ++ toString (sec / 60 % 60) ++ "m" ++ seconds

-- The durations count nanoseconds.
structure SweepInactiveUsagesOptions where
  licenseId   : Option String := none
  actor       : Option String := none
  inactiveFor : Int
  dryRun      : Bool := false

structure SweepInactiveUsagesResult where
  stale   : List String := []
  revoked : List String := []
  scanned : Nat := 0

-- A seat whose last heartbeat cannot be read is not stale.
def isStale (cutoff : Int) (u : LicenseUsage) : Bool :=
  (Go.parseTime u.lastSeenAt).any (· < cutoff)

def collectFrom (licenseId : Option String) (cutoff : Int) : Nat → String → List String → Nat →
    Tx (List String × Nat)
  | 0,        _,      _,     _       => .throw outOfFuel
  | fuel + 1, cursor, stale, scanned => do
    let page ← Tx.listUsages { licenseId := licenseId, status := [.active] } { limit := 500, cursor := cursor }
    let stale := stale ++ (page.items.filter (isStale cutoff)).map LicenseUsage.id
    let scanned := scanned + page.items.length
    if page.cursor = "" then return (stale, scanned)
    else collectFrom licenseId cutoff fuel page.cursor stale scanned

-- What a sweep calls: the clock, and one transaction after the other.
inductive Call
  | nowISO
  | collect (licenseId : Option String) (cutoff : Int)
  | revokeUsage (usageId : String) (opts : RevokeUsageOptions)

@[reducible]
def Call.Ans : Call → Type
  | nowISO          => String
  | collect _ _     => Except Error (List String × Nat)
  | revokeUsage _ _ => Except Error LicenseUsage

abbrev Sweeping := Prog Call Call.Ans Error

def revokeAll (actor : Option String) : List String → SweepInactiveUsagesResult → Sweeping SweepInactiveUsagesResult
  | [],        result => return result
  | id :: ids, result => do
    let _ ← (.call (.revokeUsage id { actor := actor }) .ofExcept : Sweeping _)
    revokeAll actor ids { result with revoked := result.revoked ++ [id] }

def sweepBefore (opts : SweepInactiveUsagesOptions) (cutoff : Int) : Sweeping SweepInactiveUsagesResult := do
  let (stale, scanned) ← (.call (.collect opts.licenseId cutoff) .ofExcept : Sweeping _)
  let result : SweepInactiveUsagesResult := { stale := stale, scanned := scanned }
  if opts.dryRun then return result
  revokeAll opts.actor stale result

def sweepInactiveUsages (opts : SweepInactiveUsagesOptions) : Sweeping SweepInactiveUsagesResult := do
  if opts.inactiveFor ≤ 0 then
    .throw (.other ("licensing: SweepInactiveUsages requires a positive InactiveFor, got " ++
      durationText opts.inactiveFor))
  else
    let nowISO ← (.call .nowISO .pure : Sweeping _)
    match Go.parseTime nowISO with
    | some now => sweepBefore opts (now - opts.inactiveFor)
    | none     =>
      -- The text goes on with the instant, which is read again, and with what is wrong with it.
      let _ ← (.call .nowISO .pure : Sweeping _)
      .throw (.other "licensing: clock returned an unparseable instant")

-- A heartbeat, after the token has been verified.
def heartbeat (licenseId usageId : String) : Tx Unit := do
  match ← Tx.getLicense licenseId with
  | none   => .throw (newError .licenseNotFound ("license not found: " ++ licenseId))
  | some l =>
    if l.status = .revoked then .throw (newError .licenseRevoked "license is revoked")
    if l.status = .suspended then .throw (newError .licenseSuspended "license is suspended")
    match ← Tx.getUsage usageId with
    | none   => .throw (newError .licenseRevoked ("usage " ++ usageId ++ " is no longer active"))
    | some u =>
      if u.status ≠ .active then .throw (newError .licenseRevoked ("usage " ++ usageId ++ " is no longer active"))
      let seen ← Tx.nowISO
      let _ ← Tx.updateUsage usageId { lastSeenAt := some seen }

-- The transactions of others.
inductive SeatCall
  | heartbeat (licenseId usageId : String)
  | registerUsage (fuel : Nat) (input : RegisterUsageInput) (actor : Option String)
  | revokeUsage (usageId : String) (opts : RevokeUsageOptions)

def SeatCall.perform (ω : Nat → Env) (s : Store) : SeatCall → Store
  | heartbeat licenseId usageId    => (transact ω (Sweep.heartbeat licenseId usageId) s).2
  | registerUsage fuel input actor => (transact ω (Licensing.registerUsage fuel input actor) s).2
  | revokeUsage usageId opts       => (transact ω (Licensing.revokeUsage usageId opts) s).2

-- One call of the sweep. A storage that fails it has done nothing.
def exec (fuel : Nat) (ω : Nat → Env) (fault : Option Error) : (o : Call) → Store → o.Ans × Store
  | .nowISO,              s => ((ω 0).clock, s)
  | .collect id cutoff,   s =>
    match fault with
    | some e => (.error e, s)
    | none   => transact ω (collectFrom id cutoff fuel "" [] 0) s
  | .revokeUsage id opts, s =>
    match fault with
    | some e => (.error e, s)
    | none   => transact ω (revokeUsage id opts) s

inductive Turn
  | other (c : SeatCall) (ω : Nat → Env)
  | sweep (fuel : Nat) (ω : Nat → Env) (fault : Option Error)

-- A sweep among others. What it has changed from active to revoked are the rows as they were before, and
-- what it reports are the seats that it has put on its list.
structure World where
  store    : Store
  sweep    : Sweeping SweepInactiveUsagesResult
  cutoff   : Option Int := none
  changed  : List LicenseUsage := []
  reported : List String := []
  wrote    : Prop := False

-- The seats that are active in the first store and revoked in the second one.
def turned (s s' : Store) : List LicenseUsage :=
  s.usages.rows.filter fun u => u.status = .active ∧ (s'.usages.find u.id).any (·.status = .revoked)

def lists : (o : Call) → o.Ans → List String
  | .revokeUsage id _, .ok _ => [id]
  | _, _                     => []

def cutoffOf : Call → Option Int
  | .collect _ cutoff => some cutoff
  | _                 => none

def step (w : World) : Turn → World
  | .other c ω          => { w with store := c.perform ω w.store }
  | .sweep fuel ω fault =>
    match w.sweep with
    | .call o next =>
      let (a, s) := exec fuel ω fault o w.store
      { store    := s
        sweep    := next a
        cutoff   := (cutoffOf o).or w.cutoff
        changed  := w.changed ++ turned w.store s
        reported := w.reported ++ lists o a
        wrote    := w.wrote ∨ s ≠ w.store }
    | _ => w

def start (opts : SweepInactiveUsagesOptions) (s : Store) : World where
  store := s
  sweep := sweepInactiveUsages opts

-- The seats that the sweep revokes are stale then, its list is what it has changed, and a dry run writes nothing.
structure Lawful (opts : SweepInactiveUsagesOptions) (w : World) : Prop where
  stale    : ∀ u ∈ w.changed, ∀ cutoff, w.cutoff = some cutoff → isStale cutoff u
  nodup    : w.reported.Nodup
  reported : ∀ id, id ∈ w.reported ↔ ∃ u ∈ w.changed, u.id = id
  result   : ∀ result, w.sweep = .pure result → result.revoked = w.reported
  dryRun   : opts.dryRun → ¬w.wrote

-- When its turn has come to be revoked, the seat is still active and stale, and it is not on the list yet.
def StillStale (w : World) : Turn → Prop
  | .other _ _       => True
  | .sweep _ _ fault => ∀ id opts next u, w.sweep = .call (.revokeUsage id opts) next → fault = none →
    w.store.usages.find id = some u → u.status = .active ∧
      (∀ cutoff, w.cutoff = some cutoff → isStale cutoff u) ∧ id ∉ w.reported

section Transactions

variable {ω : Nat → Env} {s : Store} {id : String} {u : LicenseUsage}

theorem collectFrom_calls (licenseId : Option String) (cutoff : Int) : (fuel : Nat) → (cursor : String) →
    (stale : List String) → (scanned : Nat) → (collectFrom licenseId cutoff fuel cursor stale scanned).Calls ReadsRows
  | 0,        _, _, _ => trivial
  | fuel + 1, _, _, _ => by
    apply Calls.bind _ (perform_calls trivial)
    intro page
    dsimp only
    split
    case isTrue  => trivial
    case isFalse => exact collectFrom_calls licenseId cutoff fuel _ _ _

-- A transaction that reads leaves the rows as they are.
theorem transact_of_reads {α : Type} {p : Tx α} (h : p.Calls ReadsRows) : (transact ω p s).2 = s := by
  have finds : p.Finds execOp (fun _ _ => True) ω s := Finds.all (fun _ _ => trivial) p ω s
  rcases (reads_wp h).transact finds with ⟨a, s', he, hs⟩ | ⟨e, s', he, _⟩
  case inl => rw [transact, he, hs]
  case inr => rw [transact, he]

theorem transact_revokeUsage_none (h : s.usages.find id = none) (opts : RevokeUsageOptions) :
    ∃ e, transact ω (revokeUsage id opts) s = (.error e, s) := by
  simp only [transact, Atomic.transact, revokeUsage, Tx.getUsage, Tx.perform, call_bind, eval, execOp, onState,
    Port.exec, getUsage, h]
  exact ⟨_, rfl⟩

theorem transact_revokeUsage_revoked (h : s.usages.find id = some u) (hr : u.status = .revoked)
    (opts : RevokeUsageOptions) : transact ω (revokeUsage id opts) s = (.ok u, s) := by
  simp [transact, Atomic.transact, revokeUsage, Tx.getUsage, Tx.perform, eval, execOp, onState, Port.exec, getUsage,
    h, hr]

theorem transact_revokeUsage_active (h : s.usages.find id = some u) (ha : u.status = .active)
    (opts : RevokeUsageOptions) : ∃ next s', transact ω (revokeUsage id opts) s = (.ok next, s') ∧
      next.id = id ∧ next.status = .revoked ∧ s'.usages = s.usages.replace next := by
  have hid : u.id = id := Table.key_of_find h
  simp [transact, Atomic.transact, revokeUsage, Tx.getUsage, Tx.perform, eval, execOp, onState, Port.exec, getUsage,
    h, ha, Tx.nowISO, Tx.updateUsage, updateUsage, owningLicense, Tx.appendAudit, appendAudit]
  exact ⟨hid, rfl⟩

theorem turned_self : turned s s = [] := by
  apply List.filter_eq_nil_iff.mpr
  intro u hu
  have hf : s.usages.find u.id = some u := Table.find_of_mem hu
  cases hs : u.status <;> simp [hf, hs]

theorem mem_turned {s' : Store} {next : LicenseUsage} (h : s.usages.find next.id = some u) (ha : u.status = .active)
    (hr : next.status = .revoked) (hs : s'.usages = s.usages.replace next) (r : LicenseUsage) :
    r ∈ turned s s' ↔ r = u := by
  have hf : ∀ k, s'.usages.find k = if k = next.id then some next else s.usages.find k := by
    intro k
    rw [hs, Table.find_replace h]
  have hu := Table.key_of_find h
  simp only [turned, List.mem_filter, decide_eq_true_eq]
  apply Iff.intro
  case mp =>
    rintro ⟨hm, hra, ht⟩
    have hrf : s.usages.find r.id = some r := Table.find_of_mem hm
    rw [hf] at ht
    by_cases hk : r.id = next.id
    case pos => exact Option.some.inj (hrf.symm.trans (hk ▸ h))
    case neg => simp [hk, hrf, hra] at ht
  case mpr =>
    rintro rfl
    refine ⟨Rows.mem_of_find h, ha, ?_⟩
    simp [hf, hu, hr]

end Transactions

section Shape

variable {opts : SweepInactiveUsagesOptions} {fuel : Nat} {ω : Nat → Env} {fault : Option Error} {s : Store}
  {o : Call} {next : o.Ans → Sweeping SweepInactiveUsagesResult} {reported : List String}

def IsScan : Call → Prop
  | .revokeUsage _ _ => False
  | _                => True

-- What a sweep still does, by what it has put on its list.
inductive Shape (opts : SweepInactiveUsagesOptions) : Sweeping SweepInactiveUsagesResult → List String → Prop
  | starts : Shape opts (sweepInactiveUsages opts) []
  | misread {next : Call.Ans .nowISO → Sweeping SweepInactiveUsagesResult} (fails : ∀ a, ∃ e, next a = .throw e) :
    Shape opts (.call .nowISO next) []
  | collects (cutoff : Int) : Shape opts (sweepBefore opts cutoff) []
  | revokes (ids : List String) (result : SweepInactiveUsagesResult) (live : opts.dryRun = false) :
    Shape opts (revokeAll opts.actor ids result) result.revoked
  | ends (result : SweepInactiveUsagesResult) : Shape opts (.pure result) result.revoked
  | fails (e : Error) (reported : List String) : Shape opts (.throw e) reported

theorem Shape.kind (h : Shape opts (.call o next) reported) :
    (IsScan o ∧ reported = []) ∨ (¬IsScan o ∧ opts.dryRun = false) := by
  generalize hp : (Prog.call o next : Sweeping _) = p at h
  cases h
  case starts =>
    rw [sweepInactiveUsages] at hp
    split at hp
    case isTrue  => cases hp
    case isFalse => cases hp; exact .inl ⟨trivial, rfl⟩
  case misread  => cases hp; exact .inl ⟨trivial, rfl⟩
  case collects => cases hp; exact .inl ⟨trivial, rfl⟩
  case revokes ids result live =>
    cases ids
    case nil  => cases hp
    case cons => cases hp; exact .inr ⟨id, live⟩
  case ends  => cases hp
  case fails => cases hp

theorem Shape.answer (h : Shape opts (.call o next) reported) (a : o.Ans) :
    Shape opts (next a) (reported ++ lists o a) := by
  generalize hp : (Prog.call o next : Sweeping _) = p at h
  cases h
  case starts =>
    rw [sweepInactiveUsages] at hp
    split at hp
    case isTrue  => cases hp
    case isFalse =>
      cases hp
      simp only [lists, List.append_nil]
      change Shape opts (match parseTime a with | some now => _ | none => _) []
      cases parseTime a
      case some now => exact .collects _
      case none     => exact .misread fun a => ⟨_, rfl⟩
  case misread fails =>
    cases hp
    obtain ⟨e, he⟩ := fails a
    exact he ▸ .fails e _
  case collects cutoff =>
    cases hp
    cases a
    case error e => exact .fails e _
    case ok a =>
      simp only [lists, List.append_nil, ofExcept_ok]
      change Shape opts (if opts.dryRun then _ else _) []
      split
      case isTrue      => exact .ends { stale := a.1, scanned := a.2 }
      case isFalse hd => exact .revokes a.1 { stale := a.1, scanned := a.2 } (by simpa using hd)
  case revokes ids result live =>
    cases ids
    case nil => cases hp
    case cons id ids =>
      cases hp
      cases a
      case error e => exact .fails e _
      case ok u    => exact .revokes ids { result with revoked := result.revoked ++ [id] } live
  case ends  => cases hp
  case fails => cases hp

theorem Shape.revoked {result : SweepInactiveUsagesResult} (h : Shape opts (.pure result) reported) :
    result.revoked = reported := by
  generalize hp : (Prog.pure result : Sweeping _) = p at h
  cases h
  case starts =>
    rw [sweepInactiveUsages] at hp
    split at hp <;> cases hp
  case revokes ids result live =>
    cases ids
    case nil  => cases hp; rfl
    case cons => cases hp
  all_goals cases hp
  rfl

theorem exec_scan (h : IsScan o) : (exec fuel ω fault o s).2 = s := by
  cases o
  case nowISO => rfl
  case collect id cutoff =>
    cases fault
    case none => exact transact_of_reads (collectFrom_calls id cutoff fuel "" [] 0)
    case some => rfl
  case revokeUsage => exact h.elim

theorem lists_scan (h : IsScan o) (a : o.Ans) : lists o a = [] := by
  cases o
  case revokeUsage => exact h.elim
  all_goals rfl

end Shape

section Step

variable {opts : SweepInactiveUsagesOptions} {w : World} {turn : Turn} {fuel : Nat} {ω : Nat → Env}
  {fault : Option Error}

def Shaped (opts : SweepInactiveUsagesOptions) (w : World) : Prop :=
  Shape opts w.sweep w.reported

theorem step_call {o : Call} {next : o.Ans → Sweeping SweepInactiveUsagesResult} (h : w.sweep = .call o next) :
    step w (.sweep fuel ω fault) =
      { store    := (exec fuel ω fault o w.store).2
        sweep    := next (exec fuel ω fault o w.store).1
        cutoff   := (cutoffOf o).or w.cutoff
        changed  := w.changed ++ turned w.store (exec fuel ω fault o w.store).2
        reported := w.reported ++ lists o (exec fuel ω fault o w.store).1
        wrote    := w.wrote ∨ (exec fuel ω fault o w.store).2 ≠ w.store } := by
  simp [step, h]

theorem step_done (h : ∀ o next, w.sweep ≠ .call o next) : step w (.sweep fuel ω fault) = w := by
  rw [step]
  split
  case h_1 o next he => exact absurd he (h o next)
  case h_2 => rfl

theorem shaped_step (h : Shaped opts w) : Shaped opts (step w turn) := by
  cases turn
  case other => exact h
  case sweep fuel ω fault =>
    by_cases hc : ∃ o next, w.sweep = .call o next
    case pos =>
      obtain ⟨o, next, hc⟩ := hc
      rw [step_call hc]
      rw [Shaped, hc] at h
      exact h.answer _
    case neg =>
      rw [step_done fun o next he => hc ⟨o, next, he⟩]
      exact h

theorem Lawful.changed (l : Lawful opts w) (h : w.reported = []) : w.changed = [] := by
  apply List.eq_nil_iff_forall_not_mem.mpr
  intro u hu
  have hm : u.id ∈ w.reported := (l.reported u.id).mpr ⟨u, hu, rfl⟩
  simp [h] at hm

-- A step that revokes no seat.
theorem Lawful.keep (l : Lawful opts w) {w' : World} (hs : Shaped opts w')
    (stale : ∀ u ∈ w.changed, ∀ cutoff, w'.cutoff = some cutoff → isStale cutoff u)
    (changed : w'.changed = w.changed) (reported : w'.reported = w.reported) (wrote : w'.wrote → w.wrote) :
    Lawful opts w' where
  stale    := changed ▸ stale
  nodup    := reported ▸ l.nodup
  reported := by simpa [changed, reported] using l.reported
  result r h := by
    rw [Shaped, h] at hs
    exact hs.revoked
  dryRun hd h := l.dryRun hd (wrote h)

theorem lawful_start (s : Store) : Lawful opts (start opts s) where
  stale      := by simp [start]
  nodup      := List.nodup_nil
  reported   := by simp [start]
  result r h := by
    have hs : Shaped opts (start opts s) := .starts
    rw [Shaped, h] at hs
    exact hs.revoked
  dryRun _   := id

-- A seat is revoked in the transaction that comes next.
theorem Lawful.revoke {id : String} {revokeOpts : RevokeUsageOptions} {next} (l : Lawful opts w)
    (hs : Shaped opts w) (hc : w.sweep = .call (.revokeUsage id revokeOpts) next) :
    Lawful opts (step w (.sweep fuel ω none)) ↔ StillStale w (.sweep fuel ω none) := by
  have hl : opts.dryRun = false := by
    rw [Shaped, hc] at hs
    simpa [IsScan] using hs.kind
  have hn : Shaped opts (step w (.sweep fuel ω none)) := shaped_step hs
  have still : StillStale w (.sweep fuel ω none) ↔ ∀ u, w.store.usages.find id = some u → u.status = .active ∧
      (∀ cutoff, w.cutoff = some cutoff → isStale cutoff u) ∧ id ∉ w.reported := by
    apply Iff.intro
    case mp => exact fun h u => h id revokeOpts next u hc rfl
    case mpr =>
      intro h id' opts' next' u he _
      cases hc.symm.trans he
      exact h u
  rw [still, step_call hc]
  rw [step_call hc] at hn
  cases hf : w.store.usages.find id
  case none =>
    obtain ⟨e, he⟩ := transact_revokeUsage_none (ω := ω) hf revokeOpts
    simp only [exec, he, lists, turned_self, List.append_nil] at hn ⊢
    apply iff_of_true
    case ha => exact l.keep hn l.stale rfl rfl (by simp)
    case hb => simp
  case some u =>
    cases hu : u.status
    case revoked =>
      simp only [exec, transact_revokeUsage_revoked hf hu, lists, turned_self, List.append_nil]
      apply iff_of_false
      case ha =>
        intro l'
        have hm : id ∈ w.reported := (l.reported id).mpr ((l'.reported id).mp (by simp))
        exact (List.nodup_append.mp l'.nodup).right.right id hm id (by simp) rfl
      case hb => simp [hu]
    case active =>
      obtain ⟨row, s', he, hid, hr, hs'⟩ := transact_revokeUsage_active (ω := ω) hf hu revokeOpts
      have hk : u.id = id := Table.key_of_find hf
      have ht : ∀ r, r ∈ turned w.store s' ↔ r = u := mem_turned (hid ▸ hf) hu hr hs'
      simp only [exec, he, lists] at hn ⊢
      apply Iff.intro
      case mp =>
        rintro l' _ ⟨⟩
        refine ⟨hu, fun cutoff hcut => ?_, fun hm => ?_⟩
        case refine_1 =>
          apply l'.stale u (List.mem_append_right _ ((ht u).mpr rfl)) cutoff
          exact hcut
        case refine_2 => exact (List.nodup_append.mp l'.nodup).right.right id hm id (by simp) rfl
      case mpr =>
        intro h
        obtain ⟨_, stale, fresh⟩ := h u rfl
        refine ⟨?stale, ?nodup, fun k => ?reported, fun r hp => ?result, by simp [hl]⟩
        case stale =>
          intro r hm cutoff hcut
          cases List.mem_append.mp hm
          case inl hm => exact l.stale r hm cutoff hcut
          case inr hm => exact (ht r).mp hm ▸ stale cutoff hcut
        case nodup => simpa [List.nodup_append] using ⟨l.nodup, fun a ha he => fresh (he ▸ ha)⟩
        case reported =>
          simp [l.reported, ht, or_and_right, exists_or, hk, eq_comm]
        case result =>
          rw [Shaped] at hn
          dsimp only at hp hn
          rw [hp] at hn
          exact hn.revoked

-- One step of the sweep or of another caller.
theorem lawful_step (l : Lawful opts w) (hs : Shaped opts w) : Lawful opts (step w turn) ↔ StillStale w turn := by
  have hn : Shaped opts (step w turn) := shaped_step hs
  cases turn
  case other => exact iff_of_true (l.keep hn l.stale rfl rfl id) trivial
  case sweep fuel ω fault =>
    by_cases hc : ∃ o next, w.sweep = .call o next
    case neg =>
      have hd : ∀ o next, w.sweep ≠ .call o next := fun o next he => hc ⟨o, next, he⟩
      rw [step_done hd]
      exact iff_of_true l fun id revokeOpts next u he => absurd he (hd _ _)
    case pos =>
      obtain ⟨o, next, hc⟩ := hc
      have kind := hs
      rw [Shaped, hc] at kind
      rw [step_call hc] at hn
      rcases kind.kind with ⟨scan, hr⟩ | ⟨live, _⟩
      case inl =>
        rw [step_call hc]
        simp only [exec_scan scan, lists_scan scan, turned_self, List.append_nil] at hn ⊢
        apply iff_of_true
        case ha => exact l.keep hn (by simp [l.changed hr]) rfl rfl (by simp)
        case hb =>
          intro id revokeOpts next' u he
          cases hc.symm.trans he
          exact scan.elim
      case inr =>
        cases o
        case revokeUsage id revokeOpts =>
          cases fault
          case none => exact l.revoke hs hc
          case some e =>
            rw [step_call hc]
            simp only [exec, lists, turned_self, List.append_nil] at hn ⊢
            apply iff_of_true
            case ha => exact l.keep hn l.stale rfl rfl (by simp)
            case hb =>
              intro _ _ _ _ _ hf
              cases hf
        all_goals exact absurd trivial live

-- Whatever comes between its transactions, a sweep does as it should just if every seat is still active,
-- stale and not on the list yet when it is revoked.
theorem always_lawful_iff (opts : SweepInactiveUsagesOptions) (s : Store) (turns : List Turn) :
    Always step (Lawful opts) (start opts s) turns ↔ Each step StillStale (start opts s) turns := by
  have shaped : Always step (Shaped opts) (start opts s) turns :=
    Always.of_keeps (fun _ _ => shaped_step) .starts
  have both : Always step (fun w => Lawful opts w ∧ Shaped opts w) (start opts s) turns ↔
      Each step StillStale (start opts s) turns := by
    apply always_iff_each
    case hs => exact ⟨lawful_start s, .starts⟩
    case h =>
      intro w turn h
      rw [← lawful_step h.left h.right]
      exact and_iff_left (shaped_step h.right)
  rw [← both, Always.and]
  exact (and_iff_left shaped).symm

end Step

section Example

def seatedLicense : License where
  id             := "lic_1"
  scopeId        := none
  templateId     := none
  licensableType := "User"
  licensableId   := "u1"
  licenseKey     := "LIC-1"
  status         := .active
  maxUsages      := 1
  activatedAt    := none
  expiresAt      := none
  graceUntil     := none
  meta_          := []
  createdAt      := "2025-01-01T00:00:00.000000Z"
  updatedAt      := "2025-01-01T00:00:00.000000Z"
  isTrial        := false

def seat (lastSeenAt : String) : LicenseUsage where
  id           := "use_1"
  licenseId    := "lic_1"
  fingerprint  := "fp_1"
  status       := .active
  registeredAt := "2025-01-01T00:00:00.000000Z"
  revokedAt    := none
  lastSeenAt   := lastSeenAt
  clientMeta   := []
  createdAt    := "2025-01-01T00:00:00.000000Z"
  updatedAt    := lastSeenAt

def seated : Store where
  licenses := .ofList [seatedLicense]
  usages   := .ofList [seat "2025-01-01T00:00:00.000000Z"]

-- One day.
def daily : SweepInactiveUsagesOptions where
  inactiveFor := 86400000000000

def sweepsNow : Turn :=
  .sweep 2 (fun _ => { clock := "2026-01-01T00:00:00.000000Z" }) none

def beats : Turn :=
  .other (.heartbeat "lic_1" "use_1") fun _ => { clock := "2026-01-01T00:00:00.000000Z" }

-- A seat sends a heartbeat after it has been collected.
theorem not_always_lawful : ¬∀ opts s turns, Always step (Lawful opts) (start opts s) turns := by
  intro h
  have l := (h daily seated [sweepsNow, sweepsNow, beats, sweepsNow]).last
  have hc : (run step (start daily seated) [sweepsNow, sweepsNow, beats, sweepsNow]).cutoff =
      some 1767139200000000000 := by decide +kernel
  have hs := l.stale (seat "2026-01-01T00:00:00.000000Z") (.head _) 1767139200000000000 hc
  exact absurd hs (by decide +kernel)

end Example

end Sweep

end Licensing
