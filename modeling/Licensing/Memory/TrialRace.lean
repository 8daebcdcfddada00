import Licensing.Memory.Trials

-- At most one trial of a fingerprint is issued in a cooldown window, as long as the calls for it do not
-- disturb one another.

namespace Licensing

open Machine Memory Prog

namespace Trial

variable {κ Tid : Type}

-- What a call of the issuer does to a store. A storage may fail.
inductive Acts (port : Port κ) (ω : IssuerEnv) (s : Store) : (o : IssuerOp κ) → o.Ans → Store → Prop
  | silent {o a} (silent : IsSilent o) (answers : Answers s.templates o a) : Acts port ω s o a s
  | notLooked {q e} : Acts port ω s (.findTrialIssuance q) (.error e) s
  | notFound {q} (free : ∀ row ∈ s.trialIssuances.rows, ¬IsOf q row) :
    Acts port ω s (.findTrialIssuance q) (.ok none) s
  | found {q row} (mem : row ∈ s.trialIssuances.rows) (isOf : IsOf q row) :
    Acts port ω s (.findTrialIssuance q) (.ok (some row)) s
  | notDeleted {id e} : Acts port ω s (.deleteTrialIssuance id) (.error e) s
  | deleted {id} : Acts port ω s (.deleteTrialIssuance id) (.ok ()) (deleteTrialIssuance id s)
  | notCreated {input opts e} (refused : ω.fault = none → port.refuses input ω s) :
    Acts port ω s (.createLicense input opts) (.error e) s
  | created {input opts l s'} (templates : s'.templates = s.templates)
      (trials : s'.trialIssuances = s.trialIssuances) (changed : s'.licenses ≠ s.licenses) :
    Acts port ω s (.createLicense input opts) (.ok l) s'
  | notRecorded {input e}
      (clash : ω.fault = none → ∃ row ∈ s.trialIssuances.rows, IsOf ⟨input.templateId, input.fingerprintHash⟩ row) :
    Acts port ω s (.recordTrialIssuance input) (.error e) s
  | recorded {input row} (isOf : IsOf ⟨input.templateId, input.fingerprintHash⟩ row)
      (now : row.issuedAt = (ω.env 0).clock) :
    Acts port ω s (.recordTrialIssuance input) (.ok row) { s with trialIssuances := s.trialIssuances.put row }

-- The calls are performed so.
def Port.Correct (port : Port κ) : Prop :=
  ∀ ω s o, Acts port ω s o (port.exec ω o s).1 (port.exec ω o s).2

section Invariant

variable (port : Port κ) (q : TrialIssuanceLookup) (window : Int) (templates : Table LicenseTemplate.id)

-- Every trial that has been issued is known, as of its instant or later.
def Ledger (s : Store) (issued : List Int) : Prop :=
  0 < window → ∀ n ∈ issued, ∃ row ∈ s.trialIssuances.rows, IsOf q row ∧
    ∃ x, port.read row.issuedAt = some x ∧ n ≤ x

-- A call that has looked, and what it has found out.
inductive Inside (s : Store) (time : Int) (issued : List Int) (touched : Prop) : Issuance κ License → Prop
  | judging {row p} (prog : Judging port q window row p) (untouched : ¬touched)
      (mem : row ∈ s.trialIssuances.rows) (isOf : IsOf q row) (ledger : Ledger port q window s issued) :
    Inside s time issued touched p
  | deleting {row p} (prog : Deleting q row p) (untouched : ¬touched) (mem : row ∈ s.trialIssuances.rows)
      (isOf : IsOf q row) (ledger : Ledger port q window s issued)
      (elapsed : ∀ x, port.read row.issuedAt = some x → x + window ≤ time) : Inside s time issued touched p
  | creating {p} (prog : Creating q p) (free : ∀ row ∈ s.trialIssuances.rows, ¬IsOf q row)
      (ledger : ¬touched → Ledger port q window s issued)
      (elapsed : 0 < window → ∀ n ∈ issued, n + window ≤ time) : Inside s time issued touched p
  | recording {p} (prog : Recording q p) (free : ∀ row ∈ s.trialIssuances.rows, ¬IsOf q row)
      (touched' : touched) : Inside s time issued touched p

-- A call that has not looked yet, or has come to its end.
inductive Outside (touched : Prop) : Issuance κ License → Prop
  | early {p} (prog : Early port q window templates p) (untouched : ¬touched) : Outside touched p
  | done (l : License) : Outside touched (.pure l)

def indexed (row : TrialIssuance) : Option (Option String × String) :=
  some (row.templateId, row.fingerprintHash)

structure Orderly (r : Race κ Tid) : Prop where
  unique    : r.store.trialIssuances.Unique indexed
  known     : r.store.templates = templates
  apart     : r.issued.Pairwise fun n m => window ≤ |n - m|
  outside   : ∀ t, r.looked t = false → Outside port q window templates (r.touched t) (r.prog t)
  inside    : ∀ t, r.looked t = true → Inside port q window r.store r.time r.issued (r.touched t) (r.prog t)
  alone     : ∀ t t', r.looked t = true → r.looked t' = true → t = t'
  ledger    : (∀ t, r.looked t = false) → Ledger port q window r.store r.issued

end Invariant

section Steps

variable {port : Port κ} {q : TrialIssuanceLookup} {window : Int} {templates : Table LicenseTemplate.id}
variable {r : Race κ Tid} {k : Tick Tid}

theorem not_touches (s : Store) : ¬Touches s s := by simp [Touches]

theorem IsOf.eq {row row' : TrialIssuance} {s : Store} (h : IsOf q row) (h' : IsOf q row')
    (hu : s.trialIssuances.Unique indexed) (hm : row ∈ s.trialIssuances.rows)
    (hm' : row' ∈ s.trialIssuances.rows) : row = row' := by
  have hi : row.id = row'.id := by
    refine hu row hm row' hm' (q.templateId, q.fingerprintHash) ?_ ?_
    case _ => simp [indexed, h.left, h.right]
    case _ => simp [indexed, h'.left, h'.right]
  have hf := Table.mem_iff_find.mp hm
  rw [hi, Table.mem_iff_find.mp hm'] at hf
  exact (Option.some.inj hf).symm

theorem Inside.later {s : Store} {time time' : Int} {issued : List Int} {touched : Prop}
    {p : Issuance κ License} (h : Inside port q window s time issued touched p) (ht : time ≤ time') :
    Inside port q window s time' issued touched p := by
  match h with
  | .judging prog untouched mem isOf ledger          => exact .judging prog untouched mem isOf ledger
  | .deleting prog untouched mem isOf ledger elapsed =>
    exact .deleting prog untouched mem isOf ledger fun x hx => Int.le_trans (elapsed x hx) ht
  | .creating prog free ledger elapsed               =>
    exact .creating prog free ledger fun hw n hn => Int.le_trans (elapsed hw n hn) ht
  | .recording prog free touched                     => exact .recording prog free touched

-- Nobody else is inside.
theorem Orderly.lone (inv : Orderly port q window templates r) (hk : r.looked k.call = true) (t : Tid)
    (ht : t ≠ k.call) : r.looked t = false := by
  by_contra hn
  exact ht (inv.alone t k.call (by simpa using hn) hk)

theorem Orderly.idle (inv : Orderly port q window templates r) (forward : (∃ t, r.looked t) → r.time ≤ k.instant) :
    Orderly port q window templates { r with time := k.instant } :=
  { inv with inside := fun t ht => (inv.inside t ht).later (forward ⟨t, ht⟩) }

theorem Fits.now {o : IssuerOp κ} (silent : IsSilent o) (h : Fits port r k o) (n : Int)
    (hn : port.now o (port.exec k.env o r.store).1 = some n) : n ≤ k.instant := by
  cases o
  case getTemplate | nowISO | dateNow => exact h n hn
  all_goals exact silent.elim

theorem Orderly.lawful (inv : Orderly port q window templates r) : Lawful window r := by
  refine ⟨inv.apart, fun t e he => ?_⟩
  match ht : r.looked t with
  | false =>
    have hout := inv.outside t ht
    rw [he] at hout
    match hout with
    | .early _ untouched => exact untouched
  | true =>
    have hin := inv.inside t ht
    rw [he] at hin
    match hin with
    | .judging _ untouched _ _ _ => exact untouched

theorem orderly_start {calls : Tid → Issuance κ License} {s : Store} (unique : s.trialIssuances.Unique indexed)
    (early : ∀ t, Early port q window s.templates (calls t)) :
    Orderly port q window s.templates (start port q calls s) where
  unique  := unique
  known   := rfl
  apart   := by
    have hrows : ∀ row ∈ s.trialIssuances.rows.filter (IsOf q ·), row ∈ s.trialIssuances.rows ∧ IsOf q row :=
      fun row hm => ⟨List.mem_of_mem_filter hm, by simpa using List.of_mem_filter hm⟩
    have hnodup : (s.trialIssuances.rows.filter (IsOf q ·)).Nodup :=
      (List.Nodup.of_map _ s.trialIssuances.nodup).filter _
    simp only [start]
    generalize s.trialIssuances.rows.filter (IsOf q ·) = rows at hrows hnodup
    match rows with
    | []               => exact .nil
    | [row]            =>
      rw [List.filterMap_cons]
      split <;> simp
    | row :: row' :: _ =>
      have ⟨hm, hr⟩ := hrows row (by simp)
      have ⟨hm', hr'⟩ := hrows row' (by simp)
      have he := hr.eq hr' unique hm hm'
      simp [he] at hnodup
  outside := fun t _ => .early (early t) (fun h => h)
  inside  := nofun
  alone   := nofun
  ledger  := by
    intro _ _ n hn
    have ⟨row, hm, hx⟩ := List.mem_filterMap.mp hn
    exact ⟨row, List.mem_of_mem_filter hm, by simpa using List.of_mem_filter hm, n, hx, Int.le_refl n⟩

variable [DecidableEq Tid]

-- A call that writes nothing, while another one may be inside.
theorem Orderly.aside (inv : Orderly port q window templates r) (forward : (∃ t, r.looked t) → r.time ≤ k.instant)
    (hout : r.looked k.call = false) {o : IssuerOp κ} {a : o.Ans} {p : Issuance κ License}
    (silent : IsSilent o) (hp : Outside port q window templates (r.touched k.call) p) :
    Orderly port q window templates (r.answered k o a p r.store) := by
  have hi : issues o a = false := by cases o <;> first | rfl | exact silent.elim
  have hl : isLookup o = false := by cases o <;> first | rfl | exact silent.elim
  have looked : ∀ t, (r.answered k o a p r.store).looked t = r.looked t := by
    intro t
    by_cases ht : t = k.call
    case pos => simp [Race.answered, ht, hout, hl]
    case neg => simp [Race.answered, ht]
  have issued : (r.answered k o a p r.store).issued = r.issued := by simp [Race.answered, hi]
  have other : ∀ {t}, t ≠ k.call → (r.answered k o a p r.store).prog t = r.prog t ∧
      (r.answered k o a p r.store).touched t = r.touched t :=
    fun h => ⟨by simp [Race.answered, h], by simp [Race.answered, h]⟩
  refine ⟨inv.unique, inv.known, issued ▸ inv.apart, ?outside, ?inside, ?alone, ?ledger⟩
  case outside =>
    intro t ht
    by_cases hk : t = k.call
    case pos => simpa [Race.answered, hk, not_touches] using hp
    case neg =>
      rw [(other hk).left, (other hk).right]
      exact inv.outside t (looked t ▸ ht)
  case inside =>
    intro t ht
    rw [looked] at ht
    have hk : t ≠ k.call := fun he => by simp [he, hout] at ht
    rw [(other hk).left, (other hk).right, issued]
    exact (inv.inside t ht).later (forward ⟨t, ht⟩)
  case alone => exact fun t t' ht ht' => inv.alone t t' (looked t ▸ ht) (looked t' ▸ ht')
  case ledger =>
    intro h
    rw [issued]
    exact inv.ledger fun t => looked t ▸ h t

-- The state after a step of the only call that is inside, or looks.
theorem Orderly.solo (inv : Orderly port q window templates r) (hlone : ∀ t, t ≠ k.call → r.looked t = false)
    {o : IssuerOp κ} {a : o.Ans} {p : Issuance κ License} {s : Store} (hlook : (r.looked k.call || isLookup o) = true)
    (unique : s.trialIssuances.Unique indexed) (same : s.templates = r.store.templates)
    (apart : (r.answered k o a p s).issued.Pairwise fun n m => window ≤ |n - m|)
    (next : ended p = true ∧ Outside port q window templates (r.touched k.call ∨ Touches r.store s) p ∧
        Ledger port q window s (r.answered k o a p s).issued ∨
      ended p = false ∧
        Inside port q window s k.instant (r.answered k o a p s).issued (r.touched k.call ∨ Touches r.store s) p) :
    Orderly port q window templates (r.answered k o a p s) := by
  have looked : ∀ {t}, t ≠ k.call → (r.answered k o a p s).looked t = false := by
    intro t ht
    simp [Race.answered, ht, hlone t ht]
  have looked' : (r.answered k o a p s).looked k.call = !ended p := by simp [Race.answered, hlook]
  have prog : (r.answered k o a p s).prog k.call = p := by simp [Race.answered]
  have touched : (r.answered k o a p s).touched k.call = (r.touched k.call ∨ Touches r.store s) := by
    simp [Race.answered]
  have own : ∀ t, (r.answered k o a p s).looked t = true → t = k.call := by
    intro t ht
    by_contra hn
    simp [looked hn] at ht
  refine ⟨unique, same.trans inv.known, apart, ?outside, ?inside, ?alone, ?ledger⟩
  case outside =>
    intro t ht
    by_cases hk : t = k.call
    case pos =>
      subst hk
      rw [prog, touched]
      rw [looked'] at ht
      match next with
      | .inl h => exact h.right.left
      | .inr h => simp [h.left] at ht
    case neg =>
      have hout := inv.outside t (hlone t hk)
      simpa [Race.answered, hk] using hout
  case inside =>
    intro t ht
    have hk := own t ht
    subst hk
    rw [prog, touched]
    rw [looked'] at ht
    match next with
    | .inl h => simp [h.left] at ht
    | .inr h => exact h.right
  case alone => exact fun t t' ht ht' => (own t ht).trans (own t' ht').symm
  case ledger =>
    intro h
    have hk := h k.call
    rw [looked'] at hk
    match next with
    | .inl h => exact h.right.right
    | .inr h => simp [h.left] at hk

theorem Fails.failed {β : Type} {next : Except Error β → Issuance κ License} (h : Fails next) (e : Error) :
    ended (next (.error e)) = true ∧ Early port q window templates (next (.error e)) := by
  have ⟨e', he⟩ := h e
  exact ⟨by rw [he]; rfl, by rw [he]; exact .failed e'⟩

-- A call that fails, and has changed nothing.
theorem Orderly.fails (inv : Orderly port q window templates r) (hlone : ∀ t, t ≠ k.call → r.looked t = false)
    {o : IssuerOp κ} {a : o.Ans} {p : Issuance κ License} (hlook : (r.looked k.call || isLookup o) = true)
    (hi : issues o a = false) (hp : ended p = true ∧ Early port q window templates p)
    (untouched : ¬r.touched k.call) (ledger : Ledger port q window r.store r.issued) :
    Orderly port q window templates (r.answered k o a p r.store) := by
  have issued : (r.answered k o a p r.store).issued = r.issued := by simp [Race.answered, hi]
  refine inv.solo hlone hlook inv.unique rfl (issued ▸ inv.apart) (.inl ⟨hp.left, ?_, issued ▸ ledger⟩)
  exact .early hp.right fun h => h.elim untouched (not_touches _)

theorem Creating.not_ended {p : Issuance κ License} (h : Creating q p) : ended p = false := by
  cases h
  rfl

theorem Recording.not_ended {p : Issuance κ License} (h : Recording q p) : ended p = false := by
  cases h
  rfl

theorem Orderly.looks (inv : Orderly port q window templates r) (hlone : ∀ t, r.looked t = false)
    (untouched : ¬r.touched k.call) {next : Except Error (Option TrialIssuance) → Issuance κ License}
    (fails : Fails next) (first : Creating q (next (.ok none)))
    (judges : ∀ row, Judging port q window row (next (.ok (some row)))) {a : Except Error (Option TrialIssuance)}
    {s : Store} (acts : Acts port k.env r.store (.findTrialIssuance q) a s) :
    Orderly port q window templates (r.answered k (.findTrialIssuance q) a (next a) s) := by
  have hlook : (r.looked k.call || isLookup (.findTrialIssuance q : IssuerOp κ)) = true := by simp [isLookup]
  have ledger := inv.ledger hlone
  have untouched' : ¬(r.touched k.call ∨ Touches r.store r.store) :=
    fun h => h.elim untouched (not_touches _)
  match acts with
  | .silent silent _ => exact silent.elim
  | .notLooked       => exact inv.fails (fun t _ => hlone t) hlook rfl (fails.failed _) untouched ledger
  | .notFound free   =>
    refine inv.solo (fun t _ => hlone t) hlook inv.unique rfl inv.apart (.inr ⟨first.not_ended, ?_⟩)
    refine .creating first free (fun _ => ledger) fun hw n hn => ?_
    have ⟨row, hm, hr, _⟩ := ledger hw n hn
    exact absurd hr (free row hm)
  | @Acts.found _ _ _ _ _ row mem isOf =>
    have hj := judges row
    match hn : next (.ok (some row)) with
    | .throw e =>
      exact inv.fails (fun t _ => hlone t) hlook rfl ⟨rfl, .failed e⟩ untouched ledger
    | .pure l  =>
      rw [hn] at hj
      cases hj
    | .call o f =>
      rw [hn] at hj
      refine inv.solo (fun t _ => hlone t) hlook inv.unique rfl inv.apart (.inr ⟨rfl, ?_⟩)
      exact .judging hj untouched' mem isOf ledger

theorem Orderly.judges (inv : Orderly port q window templates r) (hk : r.looked k.call = true)
    (untouched : ¬r.touched k.call) {row : TrialIssuance} (mem : row ∈ r.store.trialIssuances.rows)
    (isOf : IsOf q row) (ledger : Ledger port q window r.store r.issued) {o : IssuerOp κ} (silent : IsSilent o)
    {a : o.Ans} {p : Issuance κ License} (hnow : ∀ n, port.now o a = some n → n ≤ k.instant)
    (judges : (∃ e, p = .throw e) ∨ Deleting q row p ∧
      ∀ issued, port.read row.issuedAt = some issued → ∃ n, port.now o a = some n ∧ issued + window ≤ n) :
    Orderly port q window templates (r.answered k o a p r.store) := by
  have hlook : (r.looked k.call || isLookup o) = true := by simp [hk]
  have hi : issues o a = false := by cases o <;> first | rfl | exact silent.elim
  have issued : (r.answered k o a p r.store).issued = r.issued := by simp [Race.answered, hi]
  match judges with
  | .inl ⟨e, he⟩ =>
    subst he
    exact inv.fails (inv.lone hk) hlook hi ⟨rfl, .failed e⟩ untouched ledger
  | .inr ⟨deleting, elapsed⟩ =>
    refine inv.solo (inv.lone hk) hlook inv.unique rfl (issued ▸ inv.apart) (.inr ⟨by cases deleting; rfl, ?_⟩)
    refine .deleting deleting (fun h => h.elim untouched (not_touches _)) mem isOf (issued ▸ ledger) ?_
    intro x hx
    have ⟨n, hn, hle⟩ := elapsed x hx
    exact Int.le_trans hle (hnow n hn)

theorem Orderly.deletes (inv : Orderly port q window templates r) (hk : r.looked k.call = true)
    (untouched : ¬r.touched k.call) {row : TrialIssuance} (mem : row ∈ r.store.trialIssuances.rows)
    (isOf : IsOf q row) (ledger : Ledger port q window r.store r.issued)
    (elapsed : ∀ x, port.read row.issuedAt = some x → x + window ≤ k.instant)
    {next : Except Error Unit → Issuance κ License} (fails : Fails next) (deleted : Creating q (next (.ok ())))
    {a : Except Error Unit} {s : Store} (acts : Acts port k.env r.store (.deleteTrialIssuance row.id) a s) :
    Orderly port q window templates (r.answered k (.deleteTrialIssuance row.id) a (next a) s) := by
  have hlook : (r.looked k.call || isLookup (.deleteTrialIssuance row.id : IssuerOp κ)) = true := by simp [hk]
  match acts with
  | .silent silent _ => exact silent.elim
  | .notDeleted      => exact inv.fails (inv.lone hk) hlook rfl (fails.failed _) untouched ledger
  | .deleted         =>
    have touches : Touches r.store (deleteTrialIssuance row.id r.store) := by
      refine .inr (.inr fun he => ?_)
      have hm : row ∈ (deleteTrialIssuance row.id r.store).trialIssuances.rows := he.symm ▸ mem
      exact (Table.mem_erase.mp hm).right rfl
    refine inv.solo (inv.lone hk) hlook inv.unique.erase rfl inv.apart (.inr ⟨deleted.not_ended, ?_⟩)
    refine .creating deleted ?free (fun h => absurd (.inr touches) h) ?elapsed
    case free =>
      intro row' hm' hr'
      have ⟨hm', hne⟩ := Table.mem_erase.mp hm'
      exact hne (congrArg _ (hr'.eq isOf inv.unique hm' mem))
    case elapsed =>
      intro hw n hn
      have ⟨row', hm', hr', x, hx, hle⟩ := ledger hw n hn
      have he := hr'.eq isOf inv.unique hm' mem
      have := elapsed x (he ▸ hx)
      omega

theorem Orderly.creates (inv : Orderly port q window templates r) (hk : r.looked k.call = true)
    (healthy : r.touched k.call → k.env.fault = none)
    (free : ∀ row ∈ r.store.trialIssuances.rows, ¬IsOf q row)
    (ledger : ¬r.touched k.call → Ledger port q window r.store r.issued)
    (elapsed : 0 < window → ∀ n ∈ r.issued, n + window ≤ k.instant) {input : κ} {opts : CreateLicenseOptions}
    (admitted : r.touched k.call → ¬port.refuses input k.env r.store)
    {next : Except Error License → Issuance κ License} (fails : Fails next)
    (created : ∀ l, Recording q (next (.ok l))) {a : Except Error License} {s : Store}
    (acts : Acts port k.env r.store (.createLicense input opts) a s) :
    Orderly port q window templates (r.answered k (.createLicense input opts) a (next a) s) := by
  have hlook : (r.looked k.call || isLookup (.createLicense input opts)) = true := by simp [hk]
  match acts with
  | .silent silent _     => exact silent.elim
  | .notCreated refused  =>
    have untouched : ¬r.touched k.call := fun h => admitted h (refused (healthy h))
    exact inv.fails (inv.lone hk) hlook rfl (fails.failed _) untouched (ledger untouched)
  | .created (l := l) templates trials changed =>
    refine inv.solo (inv.lone hk) hlook (trials ▸ inv.unique) templates ?apart (.inr ⟨?_, ?_⟩)
    case apart =>
      refine List.pairwise_cons.mpr ⟨fun m hm => ?_, inv.apart⟩
      by_cases hw : 0 < window
      case pos =>
        have := elapsed hw m hm
        have := le_abs_self (k.instant - m)
        omega
      case neg => exact Int.le_trans (Int.not_lt.mp hw) (abs_nonneg _)
    case _ => exact (created l).not_ended
    case _ => exact .recording (created l) (trials ▸ free) (.inr (.inl changed))

theorem Orderly.records (inv : Orderly port q window templates r) (hk : r.looked k.call = true)
    (healthy : k.env.fault = none) (free : ∀ row ∈ r.store.trialIssuances.rows, ¬IsOf q row)
    (later : ∃ n, port.read (k.env.env 0).clock = some n ∧ ∀ m ∈ r.issued, m ≤ n)
    {next : Except Error TrialIssuance → Issuance κ License} (ends : ∀ row, ∃ l, next (.ok row) = .pure l)
    {a : Except Error TrialIssuance} {s : Store}
    (acts : Acts port k.env r.store (.recordTrialIssuance ⟨q.templateId, q.fingerprintHash⟩) a s) :
    Orderly port q window templates (r.answered k (.recordTrialIssuance ⟨q.templateId, q.fingerprintHash⟩) a
      (next a) s) := by
  have hlook : (r.looked k.call || isLookup (.recordTrialIssuance ⟨q.templateId, q.fingerprintHash⟩ : IssuerOp κ)) =
      true := by simp [hk]
  match acts with
  | .silent silent _    => exact silent.elim
  | .notRecorded clash  =>
    have ⟨row, hm, hr⟩ := clash healthy
    exact absurd hr (free row hm)
  | @Acts.recorded _ _ _ _ _ row isOf now =>
    have ⟨l, hl⟩ := ends row
    have hw : r.store.trialIssuances.Writes row (r.store.trialIssuances.put row) := Table.writes_put
    refine inv.solo (inv.lone hk) hlook ?unique rfl inv.apart (.inl ⟨by rw [hl]; rfl, by rw [hl]; exact .done l, ?_⟩)
    case unique =>
      apply (hw.unique_iff inv.unique).mpr
      intro row' hm' _ b hb hb'
      have he := hb.trans hb'.symm
      simp only [indexed, Option.some.injEq, Prod.mk.injEq] at he
      exact free row' hm' ⟨he.left.symm.trans isOf.left, he.right.symm.trans isOf.right⟩
    case _ =>
      have ⟨n, hn, hle⟩ := later
      intro _ m hm
      exact ⟨row, (hw row).mpr (.inl rfl), isOf, n, now ▸ hn, hle m hm⟩

theorem Acts.of_silent {ω : IssuerEnv} {s s' : Store} {o : IssuerOp κ} {a : o.Ans} (silent : IsSilent o)
    (acts : Acts port ω s o a s') : s' = s ∧ Answers s.templates o a := by
  cases acts
  case silent answers => exact ⟨rfl, answers⟩
  all_goals exact silent.elim

theorem Orderly.step (inv : Orderly port q window templates r) (correct : port.Correct)
    (u : Undisturbed port r k) : Orderly port q window templates (step port r k) := by
  match hp : r.prog k.call with
  | .pure l | .throw e =>
    simp only [Trial.step, hp]
    exact inv.idle u.forward
  | .call o next =>
    have hstep : Trial.step port r k = r.answered k o (port.exec k.env o r.store).1
        (next (port.exec k.env o r.store).1) (port.exec k.env o r.store).2 := by simp [Trial.step, hp]
    have acts := correct k.env r.store o
    have fits := u.fits o next hp
    rw [hstep]
    match hk : r.looked k.call with
    | false =>
      have hout := inv.outside k.call hk
      rw [hp] at hout
      match hout with
      | .early (.ask silent next') untouched =>
        have ⟨hs, ha⟩ := acts.of_silent silent
        rw [hs]
        exact inv.aside u.forward hk silent (.early (next' _ (inv.known ▸ ha)) untouched)
      | .early (.look fails first found) untouched =>
        refine inv.looks (fun t => ?_) untouched fails first found acts
        by_cases ht : t = k.call
        case pos => exact ht ▸ hk
        case neg => exact fits t ht
    | true =>
      have hin := inv.inside k.call hk
      have forward := u.forward ⟨k.call, hk⟩
      rw [hp] at hin
      match hin.later forward with
      | .judging (.ask silent judges) untouched mem isOf ledger =>
        have ⟨hs, _⟩ := acts.of_silent silent
        rw [hs]
        exact inv.judges hk untouched mem isOf ledger silent (fits.now silent) (judges _)
      | .deleting (.delete fails deleted) untouched mem isOf ledger elapsed =>
        exact inv.deletes hk untouched mem isOf ledger elapsed fails deleted acts
      | .creating (.create fails created) free ledger elapsed =>
        exact inv.creates hk u.healthy free ledger elapsed fits fails created acts
      | .recording (.record fails ends) free touched =>
        exact inv.records hk (u.healthy touched) free fits ends acts

-- Calls that are not disturbed keep the law, one answer after the other.
theorem lawful_of_undisturbed (correct : port.Correct) {calls : Tid → Issuance κ License} {s : Store}
    (unique : s.trialIssuances.Unique indexed) (early : ∀ t, Early port q window s.templates (calls t))
    {ks : List (Tick Tid)} (hu : Each (Trial.step port) (Undisturbed port) (start port q calls s) ks) :
    Always (Trial.step port) (Lawful window) (start port q calls s) ks := by
  have h : Always (Trial.step port) (Orderly port q window s.templates) (start port q calls s) ks :=
    hu.always (fun _ _ inv u => inv.step correct u) (orderly_start unique early)
  exact h.mono fun _ inv => inv.lawful

end Steps

end Trial

end Licensing
