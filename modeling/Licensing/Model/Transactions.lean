import Licensing.Model.UsageService

-- The transactions that change the status of a license.

namespace Licensing

open Prog

inductive Transition
  | activate
  | suspend
  | resume
  | revoke
  | renew

namespace Transition

-- The status changes that a transition is meant to make.
def Legal : Transition → LicenseStatus → LicenseStatus → Prop
  | activate, a, b => a = .pending ∧ b = .active
  | suspend,  a, b => a ≠ .revoked ∧ b = .suspended
  | resume,   a, b => a = .suspended ∧ b = .active
  | revoke,   a, b => a ≠ .revoked ∧ b = .revoked
  | renew,    a, b => a ≠ .revoked ∧ a ≠ .suspended ∧ b = .active

-- The statuses of the licenses for which a transition succeeds, which it may leave as they are.
def Admits : Transition → LicenseStatus → Prop
  | activate, a => a = .pending ∨ a = .active
  | suspend,  a => a ≠ .revoked
  | resume,   a => a = .suspended
  | revoke,   _ => True
  | renew,    a => a ≠ .revoked ∧ a ≠ .suspended

instance : (t : Transition) → (a b : LicenseStatus) → Decidable (t.Legal a b)
  | activate, _, _ | suspend, _, _ | resume, _, _ | revoke, _, _ | renew, _, _ => by
    unfold Legal
    infer_instance

theorem Legal.not_revoked {t : Transition} (l : t.Legal a b) : a ≠ .revoked := by
  cases t <;> simp [Legal] at l <;> simp [l]

end Transition

-- A status before and after something that may change it.
def Changes (legal : LicenseStatus → LicenseStatus → Prop) (x y : Option LicenseStatus) : Prop :=
  x = y ∨ ∃ a b, x = some a ∧ y = some b ∧ legal a b

theorem Changes.keeps_revoked {tr : Transition} (h : Changes tr.Legal x y) (hx : x = some .revoked) :
    y = some .revoked := by
  cases h
  case inl he => exact he ▸ hx
  case inr hc =>
    have ⟨_, _, ha, _, hl⟩ := hc
    exact absurd (Option.some.inj (ha.symm.trans hx)) hl.not_revoked

inductive Transaction
  | suspend (id : String) (opts : TransitionOptions)
  | resume (id : String) (opts : TransitionOptions)
  | revoke (id : String) (opts : TransitionOptions)
  | renew (id : String) (opts : RenewOptions)
  | registerUsage (fuel : Nat) (input : RegisterUsageInput) (actor : Option String)

-- The admin handlers read the license inside the transaction and hand it to the transition.
def lifecycle (id : String) (fn : License → Tx License) : Tx License := do
  match ← Tx.getLicense id with
  | none   => .throw (newError .licenseNotFound ("license not found: " ++ id))
  | some l => fn l

namespace Transaction

def body : Transaction → Tx Unit
  | suspend id opts                => do let _ ← lifecycle id (Licensing.suspend · opts)
  | resume id opts                 => do let _ ← lifecycle id (Licensing.resume · opts)
  | revoke id opts                 => do let _ ← lifecycle id (Licensing.revoke · opts)
  | renew id opts                  => do let _ ← lifecycle id (Licensing.renew · opts)
  | registerUsage fuel input actor => do let _ ← Licensing.registerUsage fuel input actor

def transition : Transaction → Transition
  | suspend _ _         => .suspend
  | resume _ _          => .resume
  | revoke _ _          => .revoke
  | renew _ _           => .renew
  | registerUsage _ _ _ => .activate

end Transaction

abbrev History := List (Event Op Op.Ans Unit)

namespace History

-- The license was read, with this outcome.
def Got (h : History) (id : String) (l : License) : Prop :=
  (⟨.tx (.getLicense id), (), .ok (some l)⟩ : Event Op Op.Ans Unit) ∈ h

-- A license that is read has the identifier it was asked for.
def Answers (_ : Unit) : (o : Op) → o.Ans → Prop
  | .tx (.getLicense id), .ok (some l) => l.id = id
  | _,                    _            => True

-- The status is only written after a read from whose status the change is legal.
def MayUpdate (legal : LicenseStatus → LicenseStatus → Prop) (h : History) : Op → Prop
  | .tx (.updateLicense id patch) =>
    ∀ b, patch.status = some b → ∃ l, h.Got id l ∧ legal l.status b
  | _ => True

theorem answers_of_ne {o : Op} (h : ∀ id, o ≠ .tx (.getLicense id)) (a : o.Ans) :
    Answers () o a := by
  unfold Answers
  split
  · exact absurd rfl (h _)
  · trivial

end History

def Op.IsRead : Op → Prop
  | .tx (.updateLicense _ _) => False
  | _                        => True

theorem perform_calls {kind : Op → Prop} {o : TxOp} (h : kind (.tx o)) :
    (Tx.perform o).Calls kind :=
  ⟨h, fun a => by cases a <;> trivial⟩

theorem nowISO_calls {kind : Op → Prop} (h : kind .nowISO) : Tx.nowISO.Calls kind :=
  ⟨h, fun _ => trivial⟩

-- The calls of the functions that do not write licenses.
section Calls

variable {kind : Op → Prop}

theorem assertUsable_calls (l : License) : (assertUsable l).Calls kind := by
  unfold assertUsable
  split
  all_goals trivial

theorem findActiveUsageFrom_calls {licenseId fingerprint : String}
    (h : ∀ page, kind (.tx (.listUsages
      { licenseId := some licenseId, fingerprint := some fingerprint, status := [.active] } page))) :
    (fuel : Nat) → (cursor : String) →
      (findActiveUsageFrom licenseId fingerprint fuel cursor).Calls kind
  | 0,        _ => trivial
  | fuel + 1, _ => (perform_calls (h _)).bind fun _ => by
    split
    · trivial
    · split
      · trivial
      · exact findActiveUsageFrom_calls h fuel _

theorem countActiveUsagesFrom_calls {licenseId : String}
    (h : ∀ page, kind (.tx (.listUsages { licenseId := some licenseId, status := [.active] } page))) :
    (fuel : Nat) → (cursor : String) → (count : Nat) →
      (countActiveUsagesFrom licenseId fuel cursor count).Calls kind
  | 0,        _, _ => trivial
  | fuel + 1, _, _ => (perform_calls (h _)).bind fun _ => by
    dsimp only
    split
    · trivial
    · exact countActiveUsagesFrom_calls h fuel _ _

end Calls

-- What a transaction may do, given what it has done so far.
def Permitted {α : Type} (legal : LicenseStatus → LicenseStatus → Prop) (p : Tx α) (h : History) :
    Prop :=
  p.Obeys History.Answers (History.MayUpdate legal) (fun _ _ => True) h

namespace Permitted

variable {legal : LicenseStatus → LicenseStatus → Prop} {h : History} {α β : Type}
variable {p : Tx α} {f : α → Tx β} {l : License}

theorem pure (a : α) : Permitted legal (.pure a : Tx α) h := trivial

theorem throw (e : Error) : Permitted legal (.throw e : Tx α) h := trivial

theorem bind_reads (hp : p.Calls Op.IsRead) (hf : ∀ a h', h <:+ h' → Permitted legal (f a) h') :
    Permitted legal (p >>= f) h := by
  refine Obeys.bind <| (hp.obeys h).imp (fun _ _ _ h => h) (fun h o ho => ?_) fun h' r hs => ?_
  · cases o <;> try trivial
    case tx o => cases o <;> trivial
  · have ⟨es, he, _⟩ := hs
    cases r
    case ok a => exact hf a h' (he ▸ List.suffix_append es h)
    case error => trivial

theorem bind (hp : Permitted legal p h) (hf : ∀ a h', Permitted legal (f a) h') :
    Permitted legal (p >>= f) h :=
  Obeys.bind <| hp.mono fun h' r _ => by
    cases r
    case ok a => exact hf a h'
    case error => trivial

theorem getLicense {id : String} {f : Option License → Tx β} (none : Permitted legal (f none)
      (⟨.tx (.getLicense id), (), .ok .none⟩ :: h))
    (some : ∀ l h', l.id = id → h'.Got id l → Permitted legal (f (some l)) h') :
    Permitted legal (Tx.getLicense id >>= f) h := by
  refine ⟨trivial, fun _ a ha => ?_⟩
  match a with
  | .ok .none     => exact none
  | .ok (.some l) => exact some l _ ha List.mem_cons_self
  | .error _      => trivial

end Permitted

-- A transition writes no status but one that is legal from the status of its license.
def Op.Within (tr : Transition) (l : License) : Op → Prop
  | .tx (.updateLicense id patch) => id = l.id ∧ ∀ b, patch.status = some b → tr.Legal l.status b
  | _                             => True

-- It has a result only for a license that it admits.
def Transitions (tr : Transition) (l : License) (p : Tx License) : Prop :=
  ∀ h : History, p.Obeys (fun _ _ _ => True) (fun h' o => h <:+ h' ∧ o.Within tr l)
    (fun _ r => ∀ l', r = .ok l' → tr.Admits l.status) h

namespace Transitions

variable {tr : Transition} {l : License}

theorem pure (ha : tr.Admits l.status) (l' : License) : Transitions tr l (.pure l') :=
  fun _ _ _ => ha

theorem throw (e : Error) : Transitions tr l (.throw e) :=
  fun _ _ h => nomatch h

theorem ite {c : Prop} [Decidable c] {p q : Tx License} (hp : c → Transitions tr l p)
    (hq : ¬c → Transitions tr l q) : Transitions tr l (if c then p else q) := by
  split
  case isTrue h  => exact hp h
  case isFalse h => exact hq h

theorem assertNotRevoked_bind {f : Unit → Tx License}
    (hf : l.status ≠ .revoked → Transitions tr l (f ())) :
    Transitions tr l (assertNotRevoked l >>= f) := by
  unfold assertNotRevoked
  split
  case isTrue     => exact throw _
  case isFalse hr => exact hf hr

-- The common tail of the transitions.
theorem update {b : LicenseStatus} {patch : String → LicensePatch} {event : String}
    {opts : TransitionOptions} (ha : tr.Admits l.status) (hl : tr.Legal l.status b)
    (hp : ∀ now, (patch now).status = some b) :
    Transitions tr l (do
      let now ← Tx.nowISO
      let updated ← Tx.updateLicense l.id (patch now)
      writeLifecycleAudit l updated event now opts
      return updated) := by
  refine fun h => ⟨⟨List.suffix_rfl, trivial⟩, fun _ now _ => ⟨⟨List.suffix_cons _ _, rfl, ?_⟩, ?_⟩⟩
  case refine_1 =>
    intro b' hb
    exact Option.some.inj ((hp now).symm.trans hb) ▸ hl
  case refine_2 =>
    intro _ a _
    match a with
    | .error e => exact fun _ he => nomatch he
    | .ok l'   =>
      have hs : h <:+ ⟨.tx (.updateLicense l.id (patch now)), (), .ok l'⟩ :: ⟨.nowISO, (), now⟩ :: h :=
        (List.suffix_cons _ _).trans (List.suffix_cons _ _)
      refine ⟨⟨hs, trivial⟩, fun _ a _ => ?_⟩
      cases a
      case ok    => exact fun _ _ => ha
      case error => exact fun _ he => nomatch he

theorem permitted {p : Tx License} {h : History} (ht : Transitions tr l p) (hg : h.Got l.id l) :
    Permitted tr.Legal p h := by
  refine (ht h).imp (fun _ _ _ _ => trivial) (fun h' o hw => ?_) fun _ _ _ => trivial
  cases o <;> try trivial
  case tx o =>
    cases o <;> try trivial
    case updateLicense =>
      have ⟨hs, hid, hl⟩ := hw
      exact fun b hb => ⟨l, hid ▸ hs.subset hg, hl b hb⟩

end Transitions

theorem suspend_transitions (l : License) (opts : TransitionOptions) :
    Transitions .suspend l (suspend l opts) := by
  refine .assertNotRevoked_bind fun hr => .ite (fun _ => ?_) fun _ => ?_
  · have ha : Transition.suspend.Admits l.status := hr
    exact .pure ha l
  · exact .update hr ⟨hr, rfl⟩ fun _ => rfl

theorem resume_transitions (l : License) (opts : TransitionOptions) :
    Transitions .resume l (resume l opts) := by
  refine .assertNotRevoked_bind fun _ => .ite (fun _ => .throw _) fun hs => ?_
  have hs := not_not.mp hs
  exact .update hs ⟨hs, rfl⟩ fun _ => rfl

theorem revoke_transitions (l : License) (opts : TransitionOptions) :
    Transitions .revoke l (revoke l opts) := by
  refine .ite (fun _ => ?_) fun hr => ?_
  · have ha : Transition.revoke.Admits l.status := trivial
    exact .pure ha l
  · exact .update trivial ⟨hr, rfl⟩ fun _ => rfl

theorem renew_transitions (l : License) (opts : RenewOptions) :
    Transitions .renew l (renew l opts) := by
  refine .assertNotRevoked_bind fun hr => .ite (fun _ => .throw _) fun hs => ?_
  exact .update ⟨hr, hs⟩ ⟨hr, hs, rfl⟩ fun _ => rfl

theorem activate_transitions (l : License) (opts : TransitionOptions) :
    Transitions .activate l (activate l opts) := by
  refine .assertNotRevoked_bind fun _ => .ite (fun ha => ?_) fun _ =>
    .ite (fun _ => .throw _) fun hp => ?_
  · have ha : Transition.activate.Admits l.status := .inr ha
    exact .pure ha l
  · have hp := not_not.mp hp
    exact .update (.inl hp) ⟨hp, rfl⟩ fun _ => rfl

section Transactions

variable {h : History} {l : License}

theorem lifecycle_permitted {id : String} {tr : Transition} {fn : License → Tx License}
    (hf : ∀ l, Transitions tr l (fn l)) : Permitted tr.Legal (lifecycle id fn) h :=
  .getLicense (.throw _) fun l _ hid hg => (hf l).permitted (hid ▸ hg)

theorem insertSeat_permitted (hg : h.Got l.id l) (input : RegisterUsageInput) (activeCount : Nat)
    (actor : Option String) :
    Permitted Transition.activate.Legal (insertSeat l input activeCount actor) h := by
  refine .bind_reads (nowISO_calls trivial) fun now h₁ hs₁ => ?_
  refine .bind_reads (perform_calls trivial) fun usage h₂ hs₂ => ?_
  refine .bind_reads (perform_calls trivial) fun _ h₃ hs₃ => ?_
  have hg := (hs₁.trans (hs₂.trans hs₃)).subset hg
  split
  · exact .bind ((activate_transitions l _).permitted hg) fun _ _ => .pure _
  · exact .pure _

theorem registerUsage_permitted (fuel : Nat) (input : RegisterUsageInput) (actor : Option String) :
    Permitted Transition.activate.Legal (registerUsage fuel input actor) h := by
  refine .getLicense (.throw _) fun l h₁ hid hg => ?_
  refine .bind_reads (assertUsable_calls l) fun _ h₂ hs₂ => ?_
  refine .bind_reads (findActiveUsageFrom_calls (fun _ => trivial) _ _) fun existing h₃ hs₃ => ?_
  split
  · exact .pure _
  refine .bind_reads (countActiveUsagesFrom_calls (fun _ => trivial) _ _ _) fun _ h₄ hs₄ => ?_
  split
  · exact .throw _
  have hg := (hs₂.trans (hs₃.trans hs₄)).subset hg
  exact insertSeat_permitted (hid ▸ hg) _ _ _

-- Every transaction changes a status only from one it has read, and only if the change is legal.
theorem Transaction.permitted : (tx : Transaction) → Permitted tx.transition.Legal tx.body h
  | suspend _ opts => .bind (lifecycle_permitted (suspend_transitions · opts)) fun _ _ => .pure _
  | resume _ opts  => .bind (lifecycle_permitted (resume_transitions · opts)) fun _ _ => .pure _
  | revoke _ opts  => .bind (lifecycle_permitted (revoke_transitions · opts)) fun _ _ => .pure _
  | renew _ opts   => .bind (lifecycle_permitted (renew_transitions · opts)) fun _ _ => .pure _
  | registerUsage fuel input actor =>
    .bind (registerUsage_permitted fuel input actor) fun _ _ => .pure _

end Transactions

end Licensing
