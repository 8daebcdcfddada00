import Mathlib.Algebra.Order.Group.Unbundled.Int
import Licensing.Library.Machine
import Licensing.Memory.Issuance

-- Calls of the issuer that ask for trials of one template and fingerprint at the same time. The storage
-- answers them call by call, in any order.

namespace Licensing

open Machine Memory Prog

namespace Trial

-- What the ports do differently: how the calls are performed, how the instant of a trial is read, what
-- an answer tells of the time, and which licenses are refused.
structure Port (κ : Type) where
  exec    : IssuerEnv → (o : IssuerOp κ) → Store → o.Ans × Store
  read    : String → Option Int
  now     : (o : IssuerOp κ) → o.Ans → Option Int
  refuses : κ → IssuerEnv → Store → Prop

-- One call of the storage or a clock, and what the clock of the issuer shows when it is made.
structure Tick (Tid : Type) where
  call    : Tid
  env     : IssuerEnv
  instant : Int

-- A call has looked from its look at the last trial to its end. It has touched the store if it has
-- changed one of the tables that it writes. The instants are those of the licenses that have been issued.
structure Race (κ Tid : Type) where
  store   : Store
  prog    : Tid → Issuance κ License
  looked  : Tid → Bool
  touched : Tid → Prop
  issued  : List Int
  time    : Int := 0

variable {κ Tid : Type}

def isLookup : IssuerOp κ → Bool
  | .findTrialIssuance _ => true
  | _                    => false

def issues : (o : IssuerOp κ) → o.Ans → Bool
  | .createLicense _ _, .ok _ => true
  | _, _                      => false

def ended : Issuance κ License → Bool
  | .call _ _ => false
  | _         => true

def Touches (s s' : Store) : Prop :=
  s'.licenses ≠ s.licenses ∨ s'.audit ≠ s.audit ∨ s'.trialIssuances ≠ s.trialIssuances

-- The trials of a template and a fingerprint.
def IsOf (q : TrialIssuanceLookup) (row : TrialIssuance) : Prop :=
  row.templateId = q.templateId ∧ row.fingerprintHash = q.fingerprintHash

instance (q : TrialIssuanceLookup) (row : TrialIssuance) : Decidable (IsOf q row) :=
  inferInstanceAs (Decidable (_ ∧ _))

section Step

variable [DecidableEq Tid]

-- The state after an answer.
def Race.answered (r : Race κ Tid) (k : Tick Tid) (o : IssuerOp κ) (a : o.Ans) (p : Issuance κ License)
    (s : Store) : Race κ Tid where
  store   := s
  prog    := Function.update r.prog k.call p
  looked  := Function.update r.looked k.call ((r.looked k.call || isLookup o) && !ended p)
  touched := Function.update r.touched k.call (r.touched k.call ∨ Touches r.store s)
  issued  := if issues o a then k.instant :: r.issued else r.issued
  time    := k.instant

variable (port : Port κ)

def step (r : Race κ Tid) (k : Tick Tid) : Race κ Tid :=
  match r.prog k.call with
  | .call o next =>
    let (a, s) := port.exec k.env o r.store
    r.answered k o a (next a) s
  | _ => { r with time := k.instant }

-- The calls before their first step. A trial that has been issued before counts.
def start (q : TrialIssuanceLookup) (calls : Tid → Issuance κ License) (s : Store) : Race κ Tid where
  store   := s
  prog    := calls
  looked  := fun _ => false
  touched := fun _ => False
  issued  := (s.trialIssuances.rows.filter (IsOf q ·)).filterMap fun row => port.read row.issuedAt

-- The trials are issued at least a window apart, and a call that fails has changed nothing.
structure Lawful (window : Int) (r : Race κ Tid) : Prop where
  apart  : r.issued.Pairwise fun n m => window ≤ |n - m|
  failed : ∀ t e, r.prog t = .throw e → ¬r.touched t

-- What a call needs, apart from a storage that does not fail it.
def Fits (r : Race κ Tid) (k : Tick Tid) : IssuerOp κ → Prop
  | .findTrialIssuance _   => ∀ t, t ≠ k.call → r.looked t = false
  | .createLicense input _ => r.touched k.call → ¬port.refuses input k.env r.store
  | .recordTrialIssuance _ => ∃ n, port.read (k.env.env 0).clock = some n ∧ ∀ m ∈ r.issued, m ≤ n
  | o                      => ∀ n, port.now o (port.exec k.env o r.store).1 = some n → n ≤ k.instant

-- The clock does not run backwards while a call is between its look and its end, nobody else looks
-- meanwhile, the clocks agree, and a call that has touched the store is neither refused nor failed.
structure Undisturbed (r : Race κ Tid) (k : Tick Tid) : Prop where
  forward : (∃ t, r.looked t) → r.time ≤ k.instant
  healthy : r.touched k.call → k.env.fault = none
  fits    : ∀ o next, r.prog k.call = .call o next → Fits port r k o

end Step

section Programs

variable (port : Port κ) (q : TrialIssuanceLookup) (window : Int) (templates : Table LicenseTemplate.id)

-- The calls that write nothing, and look at no trial.
def IsSilent : IssuerOp κ → Prop
  | .getTemplate _ | .nowISO | .dateNow => True
  | _                                   => False

-- The templates are what they are, unless the storage fails.
def Answers : (o : IssuerOp κ) → o.Ans → Prop
  | .getTemplate id, .ok t => t = templates.find id
  | _, _                   => True

def Fails {β : Type} (next : Except Error β → Issuance κ License) : Prop :=
  ∀ e, ∃ e', next (.error e) = .throw e'

-- What a call has still to do, from its last part to its first.

inductive Recording : Issuance κ License → Prop
  | record {next} (fails : Fails next) (ends : ∀ row, ∃ l, next (.ok row) = .pure l) :
    Recording (.call (.recordTrialIssuance ⟨q.templateId, q.fingerprintHash⟩) next)

inductive Creating : Issuance κ License → Prop
  | create {input opts next} (fails : Fails next) (created : ∀ l, Recording q (next (.ok l))) :
    Creating (.call (.createLicense input opts) next)

inductive Deleting (row : TrialIssuance) : Issuance κ License → Prop
  | delete {next} (fails : Fails next) (deleted : Creating q (next (.ok ()))) :
    Deleting row (.call (.deleteTrialIssuance row.id) next)

-- The last trial is forgotten if the window has passed, or if nobody knows when it was.
inductive Judging (row : TrialIssuance) : Issuance κ License → Prop
  | failed (e : Error) : Judging row (.throw e)
  | ask {o next} (silent : IsSilent o)
      (judges : ∀ a, (∃ e, next a = .throw e) ∨ Deleting q row (next a) ∧
        ∀ issued, port.read row.issuedAt = some issued → ∃ n, port.now o a = some n ∧ issued + window ≤ n) :
    Judging row (.call o next)

inductive Early : Issuance κ License → Prop
  | failed (e : Error) : Early (.throw e)
  | ask {o next} (silent : IsSilent o) (next' : ∀ a, Answers templates o a → Early (next a)) :
    Early (.call o next)
  | look {next} (fails : Fails next) (first : Creating q (next (.ok none)))
      (found : ∀ row, Judging port q window row (next (.ok (some row)))) :
    Early (.call (.findTrialIssuance q) next)

section Bind

variable {port q window templates}

theorem Early.bind_of_calls {β : Type} {f : β → Issuance κ License}
    (hf : ∀ b, Early port q window templates (f b)) : {p : Issuance κ β} → p.Calls IsSilent →
    Early port q window templates (p >>= f)
  | .pure b,   _ => hf b
  | .throw e,  _ => .failed e
  | .call _ _, c => .ask c.left fun a _ => bind_of_calls hf (c.right a)

theorem ancestors_calls (fuel : Nat) (visited : List String) (cursor : Option String) :
    (ancestors fuel visited cursor : Issuance κ (List LicenseTemplate)).Calls IsSilent := by
  induction fuel generalizing visited cursor
  case zero => trivial
  case succ fuel ih =>
    cases cursor
    case none => trivial
    case some id =>
      rw [ancestors]
      split
      case isTrue  => trivial
      case isFalse =>
        refine ⟨trivial, fun a => ?_⟩
        rcases a with _ | _ | node
        case error   => trivial
        case ok.none => trivial
        case ok.some => exact (ih (id :: visited) node.parentId).bind fun _ => (by trivial)

-- The license is issued from the template that there is.
theorem Early.of_template {templateId : Option String}
    {f : Option (LicenseTemplate × Json.Object) → Issuance κ License}
    (hf : ∀ found, found.map Prod.fst = templateId.bind (templates.find ·) →
      Early port q window templates (f found)) :
    Early port q window templates (findTemplate templateId >>= f) := by
  match templateId with
  | none    => exact hf none rfl
  | some id =>
    refine .ask trivial fun a ha => ?_
    match a with
    | .error e        => exact .failed e
    | .ok none        => exact .failed _
    | .ok (some leaf) =>
      have hc : (resolveTemplate leaf : Issuance κ Json.Object).Calls IsSilent :=
        (ancestors_calls _ _ _).bind fun _ => (by trivial)
      have hb : Early port q window templates
          (resolveTemplate leaf >>= fun entitlements => f (some (leaf, entitlements))) :=
        Early.bind_of_calls (fun entitlements => hf (some (leaf, entitlements)) ha) hc
      have he : (resolveTemplate leaf >>= fun entitlements => f (some (leaf, entitlements))) =
          ((resolveTemplate leaf >>= fun entitlements => Pure.pure (some (leaf, entitlements))) >>= f) := by
        simp only [LawfulMonad.bind_assoc, pure_eq, Prog.pure_bind]
      rw [he] at hb
      exact hb

end Bind

end Programs

end Trial

end Licensing
