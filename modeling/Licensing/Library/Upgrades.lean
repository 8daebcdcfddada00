import Licensing.Library.Sessions

-- Programs that bring a database up to date: each of them has a list of named scripts, and runs in a transaction of
-- its own every script whose name is not recorded. Any number of them may run at a time, with the scripts of
-- different versions.

namespace Sessions

open Prog

structure Script where
  name : String
  sql  : String
  deriving DecidableEq

structure Failure where
  applied : List String
  message : String
  deriving DecidableEq

abbrev Upgrade := Prog Stmt Stmt.Ans Failure (List String)

-- Sends a statement, and continues with its answer.
def Stmt.send (o : Stmt) (failed : String → Upgrade) (next : o.Res → Upgrade) : Upgrade :=
  .call o fun
    | .error e => failed e
    | .ok r    => next r

-- How far a program has come, where `i` is the script that it has come to.
inductive Phase
  | starting
  | checking (i : Nat)
  | beginning (i : Nat)
  | executing (i : Nat)
  | inserting (i : Nat)
  | committing (i : Nat)
  | stopping

-- A program that takes the scripts in their order, and after an error only gives up what it has not committed.
inductive Follows (scripts : List Script) : Phase → List String → Upgrade → Prop
  | start {next : Stmt.ensureTable.Ans → Upgrade}
      (failed  : ∀ e, Follows scripts .stopping [] (next (.error e)))
      (ensured : Follows scripts (.checking 0) [] (next (.ok ()))) :
      Follows scripts .starting [] (.call .ensureTable next)
  | check {i : Nat} {s : Script} {applied : List String} {next : (Stmt.isRecorded s.name).Ans → Upgrade}
      (script  : scripts[i]? = some s)
      (failed  : ∀ e, Follows scripts .stopping applied (next (.error e)))
      (skipped : Follows scripts (.checking (i + 1)) applied (next (.ok true)))
      (pending : Follows scripts (.beginning i) applied (next (.ok false))) :
      Follows scripts (.checking i) applied (.call (.isRecorded s.name) next)
  | begin {i : Nat} {applied : List String} {next : Stmt.begin.Ans → Upgrade}
      (failed : ∀ e, Follows scripts .stopping applied (next (.error e)))
      (begun  : Follows scripts (.executing i) applied (next (.ok ()))) :
      Follows scripts (.beginning i) applied (.call .begin next)
  | exec {i : Nat} {s : Script} {applied : List String} {next : (Stmt.exec s.sql).Ans → Upgrade}
      (script : scripts[i]? = some s)
      (failed : ∀ e, Follows scripts .stopping applied (next (.error e)))
      (done   : Follows scripts (.inserting i) applied (next (.ok ()))) :
      Follows scripts (.executing i) applied (.call (.exec s.sql) next)
  | insert {i : Nat} {s : Script} {applied : List String} {next : (Stmt.insert s.name).Ans → Upgrade}
      (script   : scripts[i]? = some s)
      (failed   : ∀ e, Follows scripts .stopping applied (next (.error e)))
      (inserted : Follows scripts (.committing i) applied (next (.ok ()))) :
      Follows scripts (.inserting i) applied (.call (.insert s.name) next)
  | commit {i : Nat} {s : Script} {applied : List String} {next : Stmt.commit.Ans → Upgrade}
      (script    : scripts[i]? = some s)
      (failed    : ∀ e, Follows scripts .stopping applied (next (.error e)))
      (committed : Follows scripts (.checking (i + 1)) (applied ++ [s.name]) (next (.ok ()))) :
      Follows scripts (.committing i) applied (.call .commit next)
  | done {i : Nat} {applied : List String} (last : scripts.length ≤ i) :
      Follows scripts (.checking i) applied (.pure applied)
  | rollback {applied : List String} {next : Stmt.rollback.Ans → Upgrade}
      (rest : ∀ a, Follows scripts .stopping applied (next a)) :
      Follows scripts .stopping applied (.call .rollback next)
  | failed {applied : List String} {f : Failure} (reports : f.applied ⊆ applied) :
      Follows scripts .stopping applied (.throw f)

-- A loop over the scripts, each turn of which goes on with the scripts after its own.
theorem Follows.of_turns {scripts : List Script} {loop : List Script → List String → Upgrade}
    (stop : ∀ applied, loop [] applied = .pure applied)
    (turn : ∀ {i s rest applied}, scripts[i]? = some s →
      (∀ applied, Follows scripts (.checking (i + 1)) applied (loop rest applied)) →
      Follows scripts (.checking i) applied (loop (s :: rest) applied)) (applied : List String) :
    Follows scripts (.checking 0) applied (loop scripts applied) := by
  have follows (rest : List Script) : ∀ {past}, scripts = past ++ rest →
      ∀ applied, Follows scripts (.checking past.length) applied (loop rest applied) := by
    induction rest
    case nil =>
      intro past split applied
      rw [stop]
      exact .done (by simp [split])
    case cons s rest ih =>
      intro past split applied
      refine turn (by simp [split]) fun applied => ?_
      have h := ih (split.trans (List.append_cons past s rest)) applied
      rwa [List.length_append] at h
  exact follows scripts (List.nil_append scripts).symm applied

-- The names that a program has reported.
def reported : Upgrade → List String
  | .pure applied => applied
  | .throw f      => f.applied
  | .call _ _     => []

variable {scripts history : List Script} {phase : Phase} {applied : List String} {p : Upgrade}

theorem Follows.reported_subset (h : Follows scripts phase applied p) : reported p ⊆ applied := by
  cases h
  case done           => exact fun _ h => h
  case failed reports => exact reports
  all_goals exact List.nil_subset _

section Runs

variable {Tid σ : Type} [DecidableEq Tid] (runs : String → σ → Except String σ)

def runAll (scripts : List Script) (schema : σ) : Except String σ :=
  scripts.foldlM (fun schema s => runs s.sql schema) schema

variable {runs}

theorem runAll_take_succ {k : Nat} {s : Script} {schema schema' : σ} (script : history[k]? = some s) {schema₀ : σ}
    (h : runAll runs (history.take k) schema₀ = .ok schema) (hs : runs s.sql schema = .ok schema') :
    runAll runs (history.take (k + 1)) schema₀ = .ok schema' := by
  rw [runAll] at h
  rw [runAll, List.take_add_one, script, List.foldlM_append, h]
  simp [Bind.bind, Except.bind, hs, Pure.pure, Except.pure]

theorem getElem?_of_prefix {i : Nat} {s : Script} (ships : scripts <+: history) (script : scripts[i]? = some s) :
    history[i]? = some s := by
  have ⟨hi, hs⟩ := List.getElem?_eq_some_iff.mp script
  rw [List.prefix_iff_getElem?.mp ships i hi, hs]

-- The names of the first scripts, when no two scripts have one name.
theorem mem_names_take (distinct : (history.map Script.name).Nodup) {i k : Nat} {s : Script}
    (script : history[i]? = some s) : s.name ∈ (history.take k).map Script.name ↔ i < k := by
  have name : (history.map Script.name)[i]? = some s.name := by simp [script]
  rw [List.map_take, List.mem_take_iff_getElem]
  constructor
  case mp =>
    intro h
    have ⟨j, hj, e⟩ := h
    have ⟨hk, hl⟩ := Nat.lt_min.mp hj
    have same : (history.map Script.name)[j]? = (history.map Script.name)[i]? :=
      (List.getElem?_eq_some_iff.mpr ⟨hl, e⟩).trans name.symm
    exact ((List.getElem?_inj hl distinct).mp same) ▸ hk
  case mpr =>
    intro h
    have ⟨hl, e⟩ := List.getElem?_eq_some_iff.mp name
    exact ⟨i, Nat.lt_min.mpr ⟨h, hl⟩, e⟩

-- What is known when the first `k` scripts are recorded.
def Phase.Holds (runs : String → σ → Except String σ) (history : List Script) (k : Nat) (db : Database Tid σ)
    (t : Tid) : Phase → Prop
  | starting | stopping      => True
  | checking i | beginning i => i ≤ k
  | executing i              => i ≤ k ∧ db.work t = some {}
  | inserting i              => i ≤ k ∧ ∃ s schema, history[i]? = some s ∧ db.work t = some ⟨some schema, []⟩ ∧
    (i = k → runs s.sql db.schema = .ok schema)
  | committing i             => i = k ∧ ∃ s schema, history[i]? = some s ∧ db.work t = some ⟨some schema, [s.name]⟩ ∧
    runs s.sql db.schema = .ok schema ∧ db.holder s.name = some t ∧ db.table.isSome

variable {k : Nat} {db db' : Database Tid σ} {t t' : Tid}

omit [DecidableEq Tid] in
theorem Phase.Holds.quiet (h : phase.Holds runs history k db t') (quiet : db.Quiet t db') (ne : t' ≠ t) :
    phase.Holds runs history k db' t' := by
  cases phase
  case starting | stopping | checking | beginning => exact h
  case executing =>
    rw [Holds, quiet.work t' ne]
    exact h
  case inserting =>
    rw [Holds, quiet.work t' ne, quiet.schema]
    exact h
  case committing =>
    have ⟨hk, s, schema, hs, hw, hr, hh, ht⟩ := h
    refine ⟨hk, s, schema, hs, ?_, ?_, (quiet.holder t' ne s.name).mpr hh, quiet.table ht⟩
    case refine_1 => rw [quiet.work t' ne]; exact hw
    case refine_2 => rw [quiet.schema]; exact hr

-- The commit of another transaction, which holds the name of the script after the first `k`.
theorem Phase.Holds.commit {s : Script} {schema : σ} (script : history[k]? = some s)
    (holder : db.holder s.name = some t) (h : phase.Holds runs history k db t') (ne : t' ≠ t) :
    phase.Holds runs history (k + 1) (db.commit t ⟨some schema, [s.name]⟩) t' := by
  have work : (db.commit t ⟨some schema, [s.name]⟩).work t' = db.work t' := Function.update_of_ne ne ..
  cases phase
  case starting | stopping  => trivial
  case checking | beginning => exact Nat.le_succ_of_le h
  case executing            => exact ⟨Nat.le_succ_of_le h.left, work.trans h.right⟩
  case inserting i =>
    have ⟨hi, s', schema', hs, hw, _⟩ := h
    exact ⟨Nat.le_succ_of_le hi, s', schema', hs, work.trans hw, fun e => absurd hi (by simp [e])⟩
  case committing i =>
    have ⟨hi, s', _, hs, _, _, hh, _⟩ := h
    have same : s' = s := Option.some.inj (hs.symm.trans (hi ▸ script))
    exact absurd (Option.some.inj ((same ▸ hh).symm.trans holder)) ne

-- The first `k` scripts have run, each in its turn, and `owner` says which of the programs has recorded a name.
structure Upgraded (runs : String → σ → Except String σ) (history : List Script) (scripts : Tid → List Script)
    (schema₀ : σ) (c : Threads Tid (Database Tid σ) Stmt Stmt.Ans Failure (List String)) (k : Nat)
    (owner : String → Option Tid) : Prop where
  schema   : runAll runs (history.take k) schema₀ = .ok c.shared.schema
  recorded : c.shared.recorded = (history.take k).map Script.name
  owned    : ∀ name t, owner name = some t → name ∈ c.shared.recorded
  follows  : ∀ t, ∃ phase applied, Follows (scripts t) phase applied (c.prog t) ∧
    phase.Holds runs history k c.shared t ∧ ∀ name ∈ applied, owner name = some t

namespace Upgraded

variable {versions : Tid → List Script} {schema₀ : σ} {owner : String → Option Tid}
variable {c : Threads Tid (Database Tid σ) Stmt Stmt.Ans Failure (List String)}

-- A step that commits nothing.
theorem quiet (h : Upgraded runs history versions schema₀ c k owner) {o : Stmt} {p : Upgrade} {a : o.Ans}
    (quiet : c.shared.Quiet t db')
    (follows : ∃ phase applied, Follows (versions t) phase applied p ∧ phase.Holds runs history k db' t ∧
      ∀ name ∈ applied, owner name = some t) :
    Upgraded runs history versions schema₀ (c.answer t o p a db') k owner where
  schema   := h.schema.trans (congrArg Except.ok quiet.schema.symm)
  recorded := quiet.recorded.trans h.recorded
  owned    := fun name t e => quiet.recorded ▸ h.owned name t e
  follows  := by
    intro t'
    by_cases ne : t' = t
    case pos => simpa [Threads.answer, ne] using follows
    case neg =>
      obtain ⟨phase, applied, hf, holds, owns⟩ := h.follows t'
      refine ⟨phase, applied, by simpa [Threads.answer, ne] using hf, holds.quiet quiet ne, owns⟩

variable {phase : Phase} {applied : List String} {ω : Fault} {o : Stmt} {next : o.Ans → Upgrade} {a : o.Ans}

-- A statement whose effect is not a commit. After an error the program stops.
theorem send (h : Upgraded runs history versions schema₀ c k owner)
    (owns : ∀ name ∈ applied, owner name = some t)
    (failed : ∀ e, Follows (versions t) .stopping applied (next (.error e)))
    (ha : Database.exec runs t ω o c.shared = some (a, db'))
    (effect : ∀ b, Database.perform runs t o c.shared = some (b, db') → c.shared.Quiet t db' ∧
      ∀ r, b = .ok r → ∃ phase, Follows (versions t) phase applied (next (.ok r)) ∧
        phase.Holds runs history k db' t) :
    Upgraded runs history versions schema₀ (c.answer t o (next a) a db') k owner := by
  have stops {e : String} (he : a = .error e) (quiet : c.shared.Quiet t db') :
      Upgraded runs history versions schema₀ (c.answer t o (next a) a db') k owner :=
    h.quiet quiet ⟨.stopping, applied, he ▸ failed e, trivial, owns⟩
  cases Database.exec_cases ha
  case inl he =>
    have ⟨⟨e, he⟩, hdb⟩ := he
    cases hdb
    case inl same => exact stops he (same ▸ .refl)
    case inr gone => exact stops he (gone ▸ .drop)
  case inr took =>
    have ⟨b, hb, hab⟩ := took
    have ⟨quiet, answered⟩ := effect b hb
    cases hab
    case inr lost => exact stops lost.choose_spec quiet
    case inl same =>
      cases hr : b
      case error e => exact stops (same.trans hr) quiet
      case ok r    =>
        have ⟨phase, follows, holds⟩ := answered r hr
        exact h.quiet quiet ⟨phase, applied, (same.trans hr) ▸ follows, holds, owns⟩

-- The transaction of a program that has inserted the name ends: the next script is recorded.
theorem committed {s : Script} {schema : σ} (h : Upgraded runs history versions schema₀ c k owner)
    (script : history[k]? = some s) (hs : runs s.sql c.shared.schema = .ok schema)
    (holder : c.shared.holder s.name = some t) (table : c.shared.table.isSome) (new : s.name ∉ c.shared.recorded)
    (follows : ∃ phase applied, Follows (versions t) phase applied p ∧
      phase.Holds runs history (k + 1) (c.shared.commit t ⟨some schema, [s.name]⟩) t ∧
      ∀ name ∈ applied, name = s.name ∨ owner name = some t) :
    Upgraded runs history versions schema₀ (c.answer t o p a (c.shared.commit t ⟨some schema, [s.name]⟩)) (k + 1)
      (Function.update owner s.name (some t)) := by
  have recorded : (c.shared.commit t ⟨some schema, [s.name]⟩).recorded = c.shared.recorded ++ [s.name] := by
    obtain ⟨names, hn⟩ := Option.isSome_iff_exists.mp table
    simp [Database.recorded, Database.commit, Database.drop, hn]
  have owned {name : String} {t' : Tid} (e : owner name = some t') :
      Function.update owner s.name (some t) name = some t' := by
    have ne : name ≠ s.name := fun same => new (same ▸ h.owned name t' e)
    rw [Function.update_of_ne ne]
    exact e
  refine ⟨?schema, ?recorded, ?owned, ?follows⟩
  case schema => exact runAll_take_succ script h.schema hs
  case recorded =>
    show Database.recorded (c.shared.commit t ⟨some schema, [s.name]⟩) = _
    rw [recorded, h.recorded, List.take_add_one, script]
    simp
  case owned =>
    intro name t' e
    show name ∈ Database.recorded (c.shared.commit t ⟨some schema, [s.name]⟩)
    rw [recorded]
    by_cases same : name = s.name
    case pos => simp [same]
    case neg =>
      rw [Function.update_of_ne same] at e
      exact List.mem_append_left _ (h.owned name t' e)
  case follows =>
    intro t'
    by_cases ne : t' = t
    case pos =>
      obtain ⟨phase, applied, hf, holds, owns⟩ := follows
      refine ⟨phase, applied, by simpa [Threads.answer, ne] using hf, ne ▸ holds, fun name hn => ?_⟩
      cases owns name hn
      case inl same => simp [same, ne]
      case inr e    => exact ne ▸ owned e
    case neg =>
      obtain ⟨phase, applied, hf, holds, owns⟩ := h.follows t'
      exact ⟨phase, applied, by simpa [Threads.answer, ne] using hf, holds.commit script holder ne,
        fun name hn => owned (owns name hn)⟩

-- A script that runs alters what its transaction sees of the schema.
theorem executed {i : Nat} {s : Script} {next : (Stmt.exec s.sql).Ans → Upgrade} {a : (Stmt.exec s.sql).Ans}
    (h : Upgraded runs history versions schema₀ c k owner) (script : history[i]? = some s)
    (holds : (Phase.executing i).Holds runs history k c.shared t) (owns : ∀ name ∈ applied, owner name = some t)
    (failed : ∀ e, Follows (versions t) .stopping applied (next (.error e)))
    (done : Follows (versions t) (.inserting i) applied (next (.ok ())))
    (ha : Database.exec runs t ω (.exec s.sql) c.shared = some (a, db')) :
    Upgraded runs history versions schema₀ (c.answer t (.exec s.sql) (next a) a db') k owner := by
  refine h.send owns failed ha fun b hb => ?_
  cases Database.perform_exec holds.right hb
  case inl refused =>
    obtain ⟨⟨e, he⟩, same⟩ := refused
    exact ⟨same ▸ .refl, fun r hr => absurd (he.symm.trans hr) (by simp)⟩
  case inr took =>
    obtain ⟨schema, hs, _, hdb⟩ := took
    exact ⟨hdb ▸ .setWork _, fun r _ => ⟨_, done, holds.left, s, schema, script, hdb ▸ Function.update_self ..,
      fun _ => hdb ▸ hs⟩⟩

-- Whoever inserts the name of a script has come to the first that is not recorded.
theorem inserted {i : Nat} {s : Script} {next : (Stmt.insert s.name).Ans → Upgrade} {a : (Stmt.insert s.name).Ans}
    (h : Upgraded runs history versions schema₀ c k owner) (distinct : (history.map Script.name).Nodup)
    (script : history[i]? = some s) (holds : (Phase.inserting i).Holds runs history k c.shared t)
    (owns : ∀ name ∈ applied, owner name = some t)
    (failed : ∀ e, Follows (versions t) .stopping applied (next (.error e)))
    (done : Follows (versions t) (.committing i) applied (next (.ok ())))
    (ha : Database.exec runs t ω (.insert s.name) c.shared = some (a, db')) :
    Upgraded runs history versions schema₀ (c.answer t (.insert s.name) (next a) a db') k owner := by
  obtain ⟨hi, s', schema, hs, hw, run⟩ := holds
  have same : s' = s := Option.some.inj (hs.symm.trans script)
  subst same
  refine h.send owns failed ha fun b hb => ?_
  cases Database.perform_insert hw hb
  case inl refused =>
    obtain ⟨⟨e, he⟩, same⟩ := refused
    exact ⟨same ▸ .refl, fun r hr => absurd (he.symm.trans hr) (by simp)⟩
  case inr took =>
    obtain ⟨free, table, new, _, hdb⟩ := took
    rw [h.recorded, mem_names_take distinct script] at new
    have last : i = k := Nat.le_antisymm hi (Nat.le_of_not_lt new)
    refine ⟨hdb ▸ .record _ free, fun r _ => ⟨_, done, last, s', schema, hs, ?_, ?_, ?_, ?_⟩⟩
    all_goals rw [hdb]
    case refine_1 => simp [Database.record]
    case refine_2 => exact run last
    case refine_3 => exact Function.update_self ..
    case refine_4 => exact table

-- A commit takes effect even if its answer is lost.
theorem commit {i : Nat} {s : Script} {next : Stmt.commit.Ans → Upgrade} {a : Stmt.commit.Ans}
    (h : Upgraded runs history versions schema₀ c k owner) (distinct : (history.map Script.name).Nodup)
    (script : history[i]? = some s) (holds : (Phase.committing i).Holds runs history k c.shared t)
    (owns : ∀ name ∈ applied, owner name = some t)
    (failed : ∀ e, Follows (versions t) .stopping applied (next (.error e)))
    (done : Follows (versions t) (.checking (i + 1)) (applied ++ [s.name]) (next (.ok ())))
    (ha : Database.exec runs t ω .commit c.shared = some (a, db')) :
    ∃ k owner, Upgraded runs history versions schema₀ (c.answer t .commit (next a) a db') k owner := by
  obtain ⟨last, s', schema, hs, hw, run, holder, table⟩ := holds
  have same : s' = s := Option.some.inj (hs.symm.trans script)
  subst same last
  have new : s'.name ∉ c.shared.recorded := by
    rw [h.recorded, mem_names_take distinct hs]
    exact Nat.lt_irrefl i
  cases Database.exec_cases ha
  case inl he =>
    obtain ⟨⟨e, he⟩, hdb⟩ := he
    have quiet : c.shared.Quiet t db' := by
      cases hdb
      case inl same => exact same ▸ .refl
      case inr gone => exact gone ▸ .drop
    exact ⟨i, owner, h.quiet quiet ⟨.stopping, applied, he ▸ failed e, trivial, owns⟩⟩
  case inr took =>
    obtain ⟨b, hb, hab⟩ := took
    obtain ⟨hr, hdb⟩ := Database.perform_commit hw hb
    subst hdb
    refine ⟨i + 1, _, h.committed hs run holder table new ?_⟩
    cases hab
    case inl answered =>
      refine ⟨_, _, (answered.trans hr) ▸ done, Nat.le_refl _, fun name hn => ?_⟩
      cases List.mem_append.mp hn
      case inl hn => exact .inr (owns name hn)
      case inr hn => exact .inl (List.mem_singleton.mp hn)
    case inr lost =>
      obtain ⟨e, he⟩ := lost
      exact ⟨.stopping, applied, he ▸ failed e, trivial, fun name hn => .inr (owns name hn)⟩

variable {guard : Database Tid σ → (Tid → List (Event Stmt Stmt.Ans (Database Tid σ))) → Tid → Stmt → Bool}
variable {c' : Threads Tid (Database Tid σ) Stmt Stmt.Ans Failure (List String)}

theorem step (distinct : (history.map Script.name).Nodup) (ships : ∀ t, versions t <+: history)
    (h : Upgraded runs history versions schema₀ c k owner)
    (e : Threads.Step (Database.exec runs) guard t c c') :
    ∃ k owner, Upgraded runs history versions schema₀ c' k owner := by
  cases e
  case intro ω o next a db hp hg ha =>
  clear hg
  obtain ⟨phase, applied, hf, holds, owns⟩ := h.follows t
  have shipped {i : Nat} {s : Script} (script : (versions t)[i]? = some s) : history[i]? = some s :=
    getElem?_of_prefix (ships t) script
  rw [hp] at hf
  cases hf
  case start failed ensured =>
    refine ⟨k, owner, h.send owns failed ha fun b hb => ?_⟩
    cases hb
    exact ⟨.ensureTable, fun _ _ => ⟨_, ensured, Nat.zero_le k⟩⟩
  case check i s _ script failed skipped pending =>
    refine ⟨k, owner, h.send owns failed ha fun b hb => ?_⟩
    obtain ⟨same, value⟩ := Database.perform_isRecorded hb
    refine ⟨same ▸ .refl, fun r hr => ?_⟩
    have known := mem_names_take distinct (shipped script) (k := k)
    rw [← h.recorded] at known
    cases r
    case true  =>
      exact ⟨_, skipped, known.mp (of_decide_eq_true (value _ hr).symm)⟩
    case false => exact ⟨_, pending, holds⟩
  case begin i failed begun =>
    refine ⟨k, owner, h.send owns failed ha fun b hb => ?_⟩
    cases Database.perform_begin hb
    case inl refused =>
      obtain ⟨⟨e, he⟩, same⟩ := refused
      exact ⟨same ▸ .refl, fun r hr => absurd (he.symm.trans hr) (by simp)⟩
    case inr took =>
      obtain ⟨_, hdb⟩ := took
      exact ⟨hdb ▸ .setWork _, fun r _ => ⟨_, begun, holds, hdb ▸ Function.update_self ..⟩⟩
  case exec i s _ script failed done =>
    exact ⟨k, owner, h.executed (shipped script) holds owns failed done ha⟩
  case insert i s _ script failed done =>
    exact ⟨k, owner, h.inserted distinct (shipped script) holds owns failed done ha⟩
  case commit i s _ script failed done => exact h.commit distinct (shipped script) holds owns failed done ha
  case rollback rest =>
    refine ⟨k, owner, h.send owns (fun e => rest (.error e)) ha fun b hb => ?_⟩
    cases hb
    exact ⟨.drop, fun r _ => ⟨.stopping, rest (.ok r), trivial⟩⟩

end Upgraded

-- In every run of the programs each recorded script has taken effect once, in its turn, and only one program reports
-- it. What a program has come through is recorded.
theorem upgraded_of_run {history : List Script} {versions : Tid → List Script} {schema₀ : σ}
    {guard : Database Tid σ → (Tid → List (Event Stmt Stmt.Ans (Database Tid σ))) → Tid → Stmt → Bool}
    {start : Tid → Upgrade} {c : Threads Tid (Database Tid σ) Stmt Stmt.Ans Failure (List String)}
    (distinct : (history.map Script.name).Nodup) (ships : ∀ t, versions t <+: history)
    (follows : ∀ t, Follows (versions t) .starting [] (start t))
    (run : Threads.Run (Database.exec runs) guard (Threads.initial (Database.initial schema₀) start) c) :
    ∃ k owner, Upgraded runs history versions schema₀ c k owner := by
  apply Threads.Run.keeps (fun c => ∃ k owner, Upgraded runs history versions schema₀ c k owner) run
  case h =>
    refine ⟨0, fun _ => none, ⟨rfl, rfl, ?_, fun t => ?_⟩⟩
    case refine_1 => simp
    case refine_2 => exact ⟨.starting, [], follows t, trivial, fun _ h => absurd h List.not_mem_nil⟩
  case step =>
    intro c₁ c₂ t _ e h
    have ⟨k, owner, h⟩ := h
    exact h.step distinct ships e

section Alone

variable (runs)

-- What scripts do one after the other, up to the first that fails.
structure Advance (σ : Type) where
  done   : List Script
  schema : σ
  failed : Option (Script × String)

def advance : List Script → σ → Advance σ
  | [],        schema => ⟨[], schema, none⟩
  | s :: rest, schema =>
    match runs s.sql schema with
    | .error e   => ⟨[], schema, some (s, e)⟩
    | .ok schema => { advance rest schema with done := s :: (advance rest schema).done }

variable (t)

-- The outcome of a program that nothing interferes with.
def alone : Upgrade → Database Tid σ → Option (Except Failure (List String) × Database Tid σ)
  | .pure applied, db => some (.ok applied, db)
  | .throw f,      db => some (.error f, db)
  | .call o next,  db => (Database.perform runs t o db).bind fun (a, db) => alone (next a) db

-- No transaction is open.
structure Settled (db : Database Tid σ) (names : List String) (schema : σ) : Prop where
  schema : db.schema = schema
  table  : db.table = some names
  work   : ∀ t, db.work t = none
  holder : ∀ name, db.holder name = none

variable {runs t} {names : List String} {schema schema' : σ}

-- A statement that nothing interferes with has its answer.
theorem alone_send {o : Stmt} {r : o.Res} {failed : String → Upgrade} {next : o.Res → Upgrade}
    (h : Database.perform runs t o db = some (.ok r, db')) :
    alone runs t (o.send failed next) db = alone runs t (next r) db' := by
  rw [Stmt.send, alone, h]
  rfl

theorem alone_send_error {o : Stmt} {e : String} {failed : String → Upgrade} {next : o.Res → Upgrade}
    (h : Database.perform runs t o db = some (.error e, db')) :
    alone runs t (o.send failed next) db = alone runs t (failed e) db' := by
  rw [Stmt.send, alone, h]
  rfl

namespace Settled

omit [DecidableEq Tid] in
theorem recorded (h : Settled db names schema) : db.recorded = names := by
  simp [Database.recorded, h.table]

theorem ensureTable (work : ∀ t, db.work t = none) (holder : ∀ name, db.holder name = none) :
    ∃ db', Database.perform runs t .ensureTable db = some (.ok (), db') ∧ Settled db' db.recorded db.schema :=
  ⟨_, rfl, ⟨rfl, rfl, work, holder⟩⟩

theorem isRecorded (h : Settled db names schema) (name : String) :
    Database.perform runs t (.isRecorded name) db = some (.ok (decide (name ∈ names)), db) := by
  rw [Database.perform, h.table]

theorem begin (h : Settled db names schema) :
    Database.perform runs t .begin db = some (.ok (), db.setWork t {}) := by
  rw [Database.perform, h.work t]

theorem drop (h : Settled db names schema) (w : Work σ) : Settled ((db.setWork t w).drop t) names schema := by
  refine ⟨h.schema, h.table, fun t' => ?_, fun name => ?_⟩
  case refine_1 => by_cases ht : t' = t <;> simp [Database.drop, Database.setWork, ht, h.work]
  case refine_2 => simp [Database.drop, Database.setWork, h.holder]

-- A script that fails, and whose transaction is rolled back.
theorem exec_error (h : Settled db names schema) {s : Script} {e : String} (hs : runs s.sql schema = .error e) :
    ∃ db', Database.perform runs t (.exec s.sql) (db.setWork t {}) = some (.error e, db.setWork t {}) ∧
      Database.perform runs t .rollback (db.setWork t {}) = some (.ok (), db') ∧ Settled db' names schema := by
  refine ⟨_, ?_, rfl, h.drop {}⟩
  simp [Database.perform, Database.setWork, h.schema, hs]

-- A script that takes effect, and whose transaction is committed.
theorem exec_ok (h : Settled db names schema) {s : Script} (hs : runs s.sql schema = .ok schema')
    (new : s.name ∉ names) :
    ∃ db₁ db₂ db', Database.perform runs t (.exec s.sql) (db.setWork t {}) = some (.ok (), db₁) ∧
      Database.perform runs t (.insert s.name) db₁ = some (.ok (), db₂) ∧
      Database.perform runs t .commit db₂ = some (.ok (), db') ∧ Settled db' (names ++ [s.name]) schema' := by
  have exec : Database.perform runs t (.exec s.sql) (db.setWork t {}) =
      some (.ok (), (db.setWork t {}).setWork t { schema := some schema' }) := by
    simp [Database.perform, Database.setWork, h.schema, hs]
  have insert : Database.perform runs t (.insert s.name) ((db.setWork t {}).setWork t { schema := some schema' }) =
      some (.ok (), ((db.setWork t {}).setWork t { schema := some schema' }).record t { schema := some schema' }
        s.name) := by
    simp [Database.perform, Database.setWork, h.holder, h.table, new]
  have commit : Database.perform runs t .commit (((db.setWork t {}).setWork t { schema := some schema' }).record t
      { schema := some schema' } s.name) =
      some (.ok (), (((db.setWork t {}).setWork t { schema := some schema' }).record t { schema := some schema' }
        s.name).commit t ⟨some schema', [s.name]⟩) := by
    simp [Database.perform, Database.record]
  refine ⟨_, _, _, exec, insert, commit, ?settled⟩
  case settled =>
    refine ⟨rfl, ?_, fun t' => ?_, fun name => ?_⟩
    case refine_1 => simp [Database.commit, Database.drop, Database.record, Database.setWork, h.table]
    case refine_2 =>
      by_cases ht : t' = t <;> simp [Database.commit, Database.drop, Database.record, Database.setWork, ht, h.work]
    case refine_3 =>
      by_cases hn : name = s.name <;>
        simp [Database.commit, Database.drop, Database.record, Database.setWork, hn, h.holder]

end Settled

-- A turn of a loop over the scripts: a script that is not recorded runs in a transaction, which is rolled back if it
-- fails.
def Turn (s : Script) (failure : String → Failure) (skip next p : Upgrade) : Prop :=
  ∃ unchecked unbegun undo unrecorded uncommitted,
    (∀ e, ∃ kept, undo e = Stmt.rollback.send kept fun _ => .throw (failure e)) ∧
    p = (Stmt.isRecorded s.name).send unchecked fun (recorded : Bool) =>
      if recorded then skip
      else
        Stmt.begin.send unbegun fun _ =>
        (Stmt.exec s.sql).send undo fun _ =>
        (Stmt.insert s.name).send unrecorded fun _ =>
        Stmt.commit.send uncommitted fun _ => next

variable {s : Script} {failure : String → Failure} {skip next p : Upgrade}

theorem Turn.skips (turn : Turn s failure skip next p) (h : Settled db names schema) (known : s.name ∈ names) :
    alone runs t p db = alone runs t skip db := by
  have ⟨_, _, _, _, _, _, e⟩ := turn
  rw [e, alone_send (h.isRecorded s.name)]
  simp [known]

theorem Turn.fails (turn : Turn s failure skip next p) (h : Settled db names schema) (new : s.name ∉ names)
    {e : String} (hs : runs s.sql schema = .error e) :
    ∃ db', alone runs t p db = some (.error (failure e), db') ∧ Settled db' names schema := by
  have ⟨_, _, undo, _, _, undoes, hp⟩ := turn
  have ⟨db', exec, rollback, settled⟩ := h.exec_error (t := t) hs
  have ⟨kept, he⟩ := undoes e
  refine ⟨db', ?_, settled⟩
  rw [hp, alone_send (h.isRecorded s.name)]
  simp only [new, decide_false, Bool.false_eq_true, if_false]
  rw [alone_send h.begin, alone_send_error exec, he, alone_send rollback]
  rfl

theorem Turn.goes_on (turn : Turn s failure skip next p) (h : Settled db names schema) (new : s.name ∉ names)
    (hs : runs s.sql schema = .ok schema') :
    ∃ db', alone runs t p db = alone runs t next db' ∧ Settled db' (names ++ [s.name]) schema' := by
  have ⟨_, _, _, _, _, _, hp⟩ := turn
  have ⟨_, _, db', exec, insert, commit, settled⟩ := h.exec_ok (t := t) hs new
  refine ⟨db', ?_, settled⟩
  rw [hp, alone_send (h.isRecorded s.name)]
  simp only [new, decide_false, Bool.false_eq_true, if_false]
  rw [alone_send h.begin, alone_send exec, alone_send insert, alone_send commit]

-- What a program reports that has come that far.
def Advance.outcome (a : Advance σ) (failure : List String → Script → String → Failure) (applied : List String) :
    Except Failure (List String) :=
  match a.failed with
  | none        => .ok (applied ++ a.done.map Script.name)
  | some (s, e) => .error (failure (applied ++ a.done.map Script.name) s e)

theorem done_of_not_failed {scripts : List Script} {schema : σ} (h : (advance runs scripts schema).failed = none) :
    (advance runs scripts schema).done = scripts := by
  induction scripts generalizing schema
  case nil => rfl
  case cons s rest ih =>
    rw [advance] at h ⊢
    cases hs : runs s.sql schema
    case error e => simp [hs] at h
    case ok schema' =>
      simp only [hs] at h
      simpa using ih h

-- The scripts that are not recorded are run in their order, up to the first that fails.
theorem alone_of_turns {loop : List Script → List String → Upgrade} {failure : List String → Script → String → Failure}
    (stop : ∀ applied, loop [] applied = .pure applied)
    (turn : ∀ s rest applied,
      Turn s (failure applied s) (loop rest applied) (loop rest (applied ++ [s.name])) (loop (s :: rest) applied))
    (scripts : List Script) (distinct : (scripts.map Script.name).Nodup) (h : Settled db names schema)
    (applied : List String) :
    let a := advance runs (scripts.filter (·.name ∉ names)) schema
    ∃ db', alone runs t (loop scripts applied) db = some (a.outcome failure applied, db') ∧
      Settled db' (names ++ a.done.map Script.name) a.schema := by
  induction scripts generalizing db names schema applied
  case nil =>
    refine ⟨db, ?_, by simpa [advance] using h⟩
    rw [stop]
    simp [alone, advance, Advance.outcome]
  case cons s rest ih =>
    have ⟨apart, distinct⟩ := List.nodup_cons.mp distinct
    by_cases known : s.name ∈ names
    case pos =>
      have ⟨db', ran, settled⟩ := ih distinct h applied
      rw [(turn s rest applied).skips h known]
      rw [List.filter_cons_of_neg (by simpa using known)]
      exact ⟨db', ran, settled⟩
    case neg =>
      have pending : (s :: rest).filter (·.name ∉ names) =
          s :: rest.filter (·.name ∉ names ++ [s.name]) := by
        rw [List.filter_cons_of_pos (by simpa using known)]
        refine congrArg (s :: ·) (List.filter_congr fun s' hs' => ?_)
        have other : s'.name ≠ s.name := fun e => apart (e ▸ List.mem_map_of_mem hs')
        simp [other]
      rw [pending]
      cases hs : runs s.sql schema
      case error e =>
        have ⟨db', ran, settled⟩ := (turn s rest applied).fails (t := t) h known hs
        refine ⟨db', ?_, by simpa [advance, hs] using settled⟩
        rw [ran]
        simp [advance, hs, Advance.outcome]
      case ok schema' =>
        have ⟨db₁, ran, settled⟩ := (turn s rest applied).goes_on (t := t) h known hs
        have ⟨db', ran', settled'⟩ := ih distinct settled (applied ++ [s.name])
        refine ⟨db', ?_, by simpa [advance, hs] using settled'⟩
        rw [ran, ran']
        simp [advance, hs, Advance.outcome]

end Alone

end Runs

end Sessions
