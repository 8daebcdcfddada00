import Licensing.Memory.Services

-- What the admin handlers and the services do to a store, one request after the other.

namespace Licensing

open Prog

-- The calls that write no license, and no entry about one.
def IsAside : ServiceOp → Prop
  | .storage (.createLicense _) | .storage (.updateLicense _ _) | .storage (.deleteLicense _) => False
  | .storage (.appendAudit input) => input.licenseId = none
  | _ => True

-- The requests about scopes, templates, seats, keys and trials, and all that only read.
structure Aside where
  body  : Service Unit
  aside : body.Calls IsAside

-- The requests about licenses. A handler that creates one, and the issuer of a trial, end in one of the
-- first two.
inductive AdminRequest
  | createLicense (input : CreateLicenseInput) (opts : CreateLicenseOptions)
  | createLicenseFromTemplate (input : Go.CreateLicenseFromTemplateInput) (opts : CreateLicenseOptions)
  | lifecycle (op : LifecycleOp) (id : String)
  | registerUsage (fuel : Nat) (input : RegisterUsageInput) (actor : Option String)
  | revokeUsage (usageId : String) (opts : RevokeUsageOptions)
  | rotateLicenseKey (fuel : Nat) (id : String) (opts : RotateLicenseKeyOptions)
  | updateLicense (id : String) (body : Go.UpdateLicenseBody)
  | deleteLicense (id : String)
  | aside (a : Aside)

namespace AdminRequest

def program : AdminRequest → (α : Type) × Service α
  | createLicense input opts             => ⟨License, Go.createLicense input opts⟩
  | createLicenseFromTemplate input opts => ⟨License, Go.createLicenseFromTemplate input opts⟩
  | lifecycle op id                      => ⟨License, (Licensing.lifecycle id op.fn).service⟩
  | registerUsage fuel input actor       =>
    ⟨RegisterUsageResult, (Licensing.registerUsage fuel input actor).service⟩
  | revokeUsage usageId opts             => ⟨LicenseUsage, (Licensing.revokeUsage usageId opts).service⟩
  | rotateLicenseKey fuel id opts        =>
    ⟨RotateLicenseKeyResult, (Go.rotateLicenseKey fuel id opts).service⟩
  | updateLicense id body                => ⟨License, Go.handleUpdateLicense id body⟩
  | deleteLicense id                     => ⟨Unit, Go.handleDeleteLicense id⟩
  | aside a                              => ⟨Unit, a.body⟩

-- The requests that do not run in a transaction.
def IsDirect : AdminRequest → Prop
  | updateLicense _ _ | deleteLicense _ | aside _ => True
  | _                                             => False

instance : DecidablePred IsDirect
  | updateLicense _ _ | deleteLicense _ | aside _ => .isTrue trivial
  | createLicense _ _ | createLicenseFromTemplate _ _ | lifecycle _ _ | registerUsage _ _ _
  | revokeUsage _ _ | rotateLicenseKey _ _ _ => .isFalse id

end AdminRequest

namespace Go

open Memory

-- Whether a request fails, and the store that it leaves.
def serve (ω : Nat → Env) (r : AdminRequest) (s : Store) : Except Error Unit × Store :=
  let (a, s') := if r.IsDirect then r.program.2.eval execService ω s else transactService ω r.program.2 s
  (a.map fun _ => (), s')

def adminStep (s : Store) (i : AdminRequest × (Nat → Env)) : Store :=
  (serve i.2 i.1 s).2

-- The environment of every call of the request is one that it may find.
def AdminFinds (may : Env → Store → Prop) (s : Store) (i : AdminRequest × (Nat → Env)) : Prop :=
  i.1.program.2.Finds execService may i.2 s

variable {r : AdminRequest} {ω : Nat → Env} {may : Env → Store → Prop} {s : Store}

theorem serve_of_not_direct (hd : ¬r.IsDirect) : (serve ω r s).2 = (transactService ω r.program.2 s).2 := by
  simp [serve, hd]

theorem serve_of_direct (hd : r.IsDirect) : (serve ω r s).2 = (r.program.2.eval execService ω s).2 := by
  simp [serve, hd]

-- A transaction ends as its program ensures, or it does nothing.
theorem serve_wp {post : Except Error r.program.1 → Store → Prop} (finds : AdminFinds may s (r, ω))
    (h : r.program.2.Wp execService may post s) (hd : ¬r.IsDirect) :
    (∃ a, post (.ok a) (serve ω r s).2) ∨ (serve ω r s).2 = s := by
  rw [serve_of_not_direct hd]
  match h.transact finds with
  | .inl ⟨a, s', he, hp⟩ => exact .inl ⟨a, by rw [transactService, he]; exact hp⟩
  | .inr ⟨e, s', he, _⟩  => exact .inr (by rw [transactService, he])

theorem perform_eval (ω : Nat → Env) (o : StorageOp) (s : Store) :
    (Service.perform o).eval execService ω s = execStorage (ω 0) o s := by
  match hr : execStorage (ω 0) o s with
  | (.ok a, s')    => simp [Service.perform, eval, execService, hr]
  | (.error e, s') => simp [Service.perform, eval, execService, hr]

theorem perform_failed {o : StorageOp} {e : Error}
    (he : ((Service.perform o).eval execService ω s).1 = .error e) :
    ((Service.perform o).eval execService ω s).2 = s := by
  rw [perform_eval] at he ⊢
  exact unchanged s (ω 0, o) e he

-- A request that fails does nothing. One that is none about licenses may have begun with its work.
theorem serve_failed {e : Error} (ha : ∀ a, r ≠ .aside a) (he : (serve ω r s).1 = .error e) :
    (serve ω r s).2 = s := by
  have map_error : ∀ {α : Type} {a : Except Error α}, (a.map fun _ => ()) = .error e → a = .error e := by
    intro α a h
    cases a
    case error => exact congrArg Except.error (Except.error.inj h)
    case ok    => exact nomatch h
  by_cases hd : r.IsDirect
  case neg =>
    have ht : (transactService ω r.program.2 s).1 = .error e := map_error (by simpa [serve, hd] using he)
    rw [serve_of_not_direct hd]
    match Atomic.transact_state execService { env := ω } r.program.2 s with
    | .inl hs           => exact hs
    | .inr ⟨⟨_, ho⟩, _⟩ => exact nomatch ht.symm.trans ho
  case pos =>
    cases r
    case aside a              => exact absurd rfl (ha a)
    case updateLicense id body => exact perform_failed (map_error he)
    case deleteLicense id      => exact perform_failed (map_error he)
    all_goals exact hd.elim

-- A PATCH is refused only if there is no license, and a DELETE if there is none or it has active seats.

theorem serve_updateLicense (ω : Nat → Env) (id : String) (body : UpdateLicenseBody) (s : Store) :
    s.licenses.find id = none ∧ (serve ω (.updateLicense id body) s).2 = s ∨
      ∃ l, s.licenses.find id = some l ∧ (serve ω (.updateLicense id body) s).2 =
        s.replaced (patchedLicense (ω 0).clock body.patch l) := by
  rw [serve_of_direct (r := .updateLicense id body) trivial, AdminRequest.program, handleUpdateLicense,
    perform_eval]
  match hl : s.licenses.find id with
  | none   => simp [execStorage, onState, updateLicense, getLicense, hl]
  | some l =>
    have hk : body.patch.licenseKey = none := rfl
    simp [execStorage, onState, updateLicense, getLicense, hl, hk, Store.replaced]

theorem serve_deleteLicense (ω : Nat → Env) (id : String) (s : Store) :
    ¬Admits s (.deleteLicense id) ∧ (serve ω (.deleteLicense id) s).2 = s ∨
      Admits s (.deleteLicense id) ∧
        (serve ω (.deleteLicense id) s).2 = { s with licenses := s.licenses.erase id } := by
  rw [serve_of_direct (r := .deleteLicense id) trivial, AdminRequest.program, handleDeleteLicense,
    perform_eval]
  have h := execStorage_acts (ω 0) s (.deleteLicense id)
  generalize execStorage (ω 0) (.deleteLicense id) s = x at h
  have ⟨a, s'⟩ := x
  cases h
  case read h               => exact h.elim
  case refused h            => exact .inl ⟨h, rfl⟩
  case deleteLicense admits => exact .inr ⟨admits, rfl⟩

end Go

end Licensing
