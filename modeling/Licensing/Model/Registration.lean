import Licensing.Model.Transactions

-- What a registration has counted before it creates a seat.

namespace Licensing

open Prog

-- The filter that counts the active seats of a license.
def LicenseUsageFilter.Counts (f : LicenseUsageFilter) (licenseId : String) : Prop :=
  f.licenseId = some licenseId ∧ f.fingerprint = none ∧ f.status = [.active]

instance (f : LicenseUsageFilter) (licenseId : String) : Decidable (f.Counts licenseId) := by
  unfold LicenseUsageFilter.Counts
  infer_instance

namespace History

def countedIn (licenseId : String) : Event Op Op.Ans Unit → List LicenseUsage
  | ⟨.tx (.listUsages f _), _, .ok page⟩ => if f.Counts licenseId then page.items else []
  | _                                    => []

-- The seats of a license on the pages that have been counted.
def counted (h : History) (licenseId : String) : List LicenseUsage :=
  h.flatMap (countedIn licenseId)

def Created (h : History) : Prop :=
  ∃ e ∈ h, ∃ i, e.op = .tx (.createUsage i)

-- One seat is created, of a license that has been read and had more seats than have been counted.
def MayRegister (h : History) : Op → Prop
  | .tx (.createUsage i) => ¬h.Created ∧ i.status = .active ∧
    ∃ l, h.Got i.licenseId l ∧ ((h.counted i.licenseId).length : Int) < l.maxUsages
  | .tx (.updateLicense _ patch) => patch.maxUsages = none
  | .tx (.updateUsage _ _)       => False
  | _                            => True

end History

-- Operations that neither count nor create seats.
def Op.IsPlain : Op → Prop
  | .tx (.createUsage _) | .tx (.updateUsage _ _) => False
  | .tx (.updateLicense _ patch)                  => patch.maxUsages = none
  | .tx (.listUsages f _)                         => f.fingerprint ≠ none
  | _                                             => True

namespace Op.IsPlain

variable {o : Op} {h : History}

theorem mayRegister (p : o.IsPlain) : h.MayRegister o := by
  cases o <;> try trivial
  case tx o => cases o <;> first | exact p.elim | exact p | trivial

theorem countedIn {e : Event Op Op.Ans Unit} (p : e.op.IsPlain) (licenseId : String) :
    History.countedIn licenseId e = [] := by
  unfold History.countedIn
  split
  · exact if_neg fun hc => p hc.right.left
  · rfl

theorem not_createUsage (p : o.IsPlain) (i : LicenseUsageInput) : o ≠ .tx (.createUsage i) := by
  intro he
  subst he
  exact p

end Op.IsPlain

-- A history that has not got to the creation of a seat.
structure History.Counting (h : History) (license : License) (n : Nat) : Prop where
  got     : h.Got license.id license
  counted : (h.counted license.id).length = n
  fresh   : ¬h.Created

namespace History.Counting

variable {h : History} {l : License} {n : Nat}

theorem append {es : History} (c : h.Counting l n) (hp : ∀ e ∈ es, e.op.IsPlain) :
    Counting (es ++ h) l n where
  got     := List.mem_append_right _ c.got
  counted := by
    have hz : es.flatMap (countedIn l.id) = [] :=
      List.flatMap_eq_nil_iff.mpr fun e he => (hp e he).countedIn l.id
    rw [History.counted, List.flatMap_append, hz, List.nil_append]
    exact c.counted
  fresh   := fun ⟨e, he, i, hi⟩ =>
    (List.mem_append.mp he).elim (fun he => (hp e he).not_createUsage i hi) fun he =>
      c.fresh ⟨e, he, i, hi⟩

theorem page {f : LicenseUsageFilter} (c : h.Counting l n) (hf : f.Counts l.id) (p : PageRequest)
    (page : Page LicenseUsage) :
    Counting (⟨.tx (.listUsages f p), (), .ok page⟩ :: h) l (n + page.items.length) where
  got     := List.mem_cons_of_mem _ c.got
  counted := by
    have hc := c.counted
    simp only [History.counted, List.flatMap_cons, countedIn, if_pos hf, List.length_append] at hc ⊢
    omega
  fresh   := fun ⟨e, he, i, hi⟩ => by
    cases List.mem_cons.mp he
    case inl he => exact nomatch he ▸ hi
    case inr he => exact c.fresh ⟨e, he, i, hi⟩

end History.Counting

-- What a registration may do, given what it has done so far.
def Registers {α : Type} (p : Tx α) (h : History) : Prop :=
  p.Obeys History.Answers History.MayRegister (fun _ _ => True) h

namespace Registers

variable {α β : Type} {p : Tx α} {f : α → Tx β} {h : History}

theorem of_plain (hp : p.Calls Op.IsPlain) : Registers p h :=
  (hp.obeys h).imp (fun _ _ _ h => h) (fun _ _ ho => ho.mayRegister) fun _ _ _ => trivial

theorem bind_plain (hp : p.Calls Op.IsPlain)
    (hf : ∀ a es, (∀ e ∈ es, e.op.IsPlain) → Registers (f a) (es ++ h)) : Registers (p >>= f) h := by
  refine Obeys.bind <| (hp.obeys h).imp (fun _ _ _ h => h) (fun _ _ ho => ho.mayRegister) ?_
  intro h' r ⟨es, he, hes⟩
  cases r
  case ok a  => exact he ▸ hf a es hes
  case error => trivial

theorem getLicense {id : String} {f : Option License → Tx β}
    (none : Registers (f none) [⟨.tx (.getLicense id), (), .ok .none⟩])
    (some : ∀ l h', l.id = id → h'.Counting l 0 → Registers (f (some l)) h') :
    Registers (Tx.getLicense id >>= f) [] := by
  refine ⟨trivial, fun _ a ha => ?_⟩
  match a with
  | .error _      => trivial
  | .ok .none     => exact none
  | .ok (.some l) =>
    have hid : l.id = id := ha
    refine some l _ ha ⟨hid ▸ List.mem_singleton_self _, rfl, fun ⟨_, he, _, hi⟩ => ?_⟩
    exact nomatch List.mem_singleton.mp he ▸ hi

-- The result of the count is what has been counted.
theorem countActiveUsagesFrom {l : License} {f : Nat → Tx β}
    (hf : ∀ n h', h'.Counting l n → Registers (f n) h') :
    (fuel : Nat) → (cursor : String) → (n : Nat) → {h : History} → h.Counting l n →
      Registers (countActiveUsagesFrom l.id fuel cursor n >>= f) h
  | 0,        _, _, _, _ => trivial
  | fuel + 1, cursor, n, _, c => by
    refine ⟨trivial, fun _ a _ => ?_⟩
    match a with
    | .error _  => trivial
    | .ok page  =>
      let filter : LicenseUsageFilter := { licenseId := some l.id, status := [.active] }
      have hf' : filter.Counts l.id := ⟨rfl, rfl, rfl⟩
      have c := c.page hf' { limit := 500, cursor := cursor } page
      show Registers ((if page.cursor = "" then _ else _) >>= f) _
      split
      · exact hf _ _ c
      · exact countActiveUsagesFrom hf fuel _ _ c

end Registers

theorem writeLifecycleAudit_plain (prior next : License) (event occurredAt : String)
    (opts : TransitionOptions) :
    (writeLifecycleAudit prior next event occurredAt opts).Calls Op.IsPlain := by
  unfold writeLifecycleAudit
  refine Calls.bind (fun _ => ?_) (perform_calls trivial)
  trivial

theorem activate_plain (l : License) (opts : TransitionOptions) :
    (activate l opts).Calls Op.IsPlain := by
  unfold activate assertNotRevoked
  split
  · trivial
  refine Calls.bind (fun _ => ?_) trivial
  split
  · trivial
  split
  · trivial
  refine Calls.bind (fun now => ?_) (nowISO_calls trivial)
  refine Calls.bind (fun updated => ?_) (perform_calls rfl)
  refine Calls.bind (fun _ => ?_) (writeLifecycleAudit_plain _ _ _ _ _)
  trivial

theorem insertSeat_registers {l : License} {n : Nat} {h : History} (c : h.Counting l n)
    (hn : (n : Int) < l.maxUsages) (input : RegisterUsageInput) (hid : l.id = input.licenseId)
    (actor : Option String) : Registers (insertSeat l input n actor) h := by
  refine .bind_plain (nowISO_calls trivial) fun now es hes => ?_
  have c := c.append hes
  refine Obeys.bind ⟨⟨c.fresh, rfl, l, hid ▸ c.got, ?_⟩, fun _ a _ => ?_⟩
  case refine_1 => exact hid ▸ c.counted.symm ▸ hn
  case refine_2 =>
    match a with
    | .error _  => trivial
    | .ok usage =>
      refine Registers.of_plain (Calls.bind (fun _ => ?_) (perform_calls trivial))
      split
      · refine Calls.bind (fun _ => ?_) (activate_plain l _)
        trivial
      · trivial

theorem registerUsage_registers (fuel : Nat) (input : RegisterUsageInput) (actor : Option String) :
    Registers (registerUsage fuel input actor) [] := by
  refine .getLicense trivial fun l _ hid c => ?_
  refine .bind_plain (assertUsable_calls l) fun _ es hes => ?_
  have c := c.append hes
  have plain : (findActiveUsage fuel input.licenseId input.fingerprint).Calls Op.IsPlain :=
    findActiveUsageFrom_calls (fun _ => nofun) fuel ""
  refine .bind_plain plain fun existing es hes => ?_
  have c := c.append hes
  split
  · trivial
  refine hid ▸ Registers.countActiveUsagesFrom (fun n h' c => ?_) fuel "" 0 c
  split
  · trivial
  case isFalse hn => exact insertSeat_registers c (Int.not_le.mp hn) input hid actor

end Licensing
