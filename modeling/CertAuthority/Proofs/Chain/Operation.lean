import CertAuthority.Chain
import CertAuthority.Proofs.Text.Rules

namespace CertAuthority

theorem Validity.startingAt_decides (now : Instant) (length : Duration) :
    Decides (startingAt now length) ((now.add? length).isSome = true) := by
  unfold startingAt
  cases h : now.add? length with
  | none => exact Or.inr ⟨by simp, _, rfl⟩
  | some last => exact Or.inl ⟨rfl, _, rfl⟩

theorem Validity.startingAt_eq_ok {now : Instant} {length : Duration} {v : Validity} :
    startingAt now length = .ok v ↔ ∃ last, now.add? length = some last ∧ v = ⟨now, last⟩ := by
  unfold startingAt
  cases now.add? length with
  | none => simp
  | some last => simp [eq_comm]

namespace Chain

theorem publicHalf_decides (k : PrivateKey) : Decides (publicHalf k) (k.data.isSome = true) := by
  unfold publicHalf PrivateKey.publicKey
  cases h : k.data with
  | none => exact Or.inr ⟨by simp, _, rfl⟩
  | some key => exact Or.inl ⟨rfl, _, rfl⟩

theorem publicHalf_eq_ok {k : PrivateKey} {publicKey : PublicKey} :
    publicHalf k = .ok publicKey ↔ k.publicKey = some publicKey := by
  unfold publicHalf
  cases k.publicKey with
  | none => simp
  | some p => simp

theorem checkKey_decides (parent : IssuedCertificate) (k : PrivateKey) :
    Decides (checkKey parent k)
      (k.data.isSome = true ∧ k.publicKey = some parent.certificate.publicKey) := by
  apply (publicHalf_decides k).bind
  intro publicKey half
  rw [publicHalf_eq_ok.mp half]
  by_cases same : publicKey = parent.certificate.publicKey
  · rw [if_pos same]
    exact Or.inl ⟨congrArg some same, (), rfl⟩
  · rw [if_neg same]
    exact Or.inr ⟨fun h => same (Option.some.inj h), _, rfl⟩

/-- What is issued under another certificate, with the names for it. -/
inductive Subordinate
  | intermediate (commonName : String)
  | server (dnsNames : List String)
  | client (commonName : String)

namespace Subordinate

/-- Whether the names satisfy the rules of the class: one common name, or DNS names of which there
is at least one. -/
def NamesPass : Subordinate → Prop
  | intermediate commonName => Field.caCommonName.brokenRule? commonName = none
  | server dnsNames => dnsNames ≠ [] ∧ ∀ name ∈ dnsNames, Field.dnsName.brokenRule? name = none
  | client commonName => Field.clientCommonName.brokenRule? commonName = none

/-- What the certificate is to say. -/
def template (r : Request) (validity : Validity) : Subordinate → Template
  | intermediate commonName =>
    authorityTemplate r.serial r.organization commonName validity (some 0)
  | server dnsNames =>
    leafTemplate r.serial r.organization (dnsNames.headD "") validity .serverAuth dnsNames
  | client commonName => leafTemplate r.serial r.organization commonName validity .clientAuth []

def checkNames : Subordinate → Except Fault Unit
  | intermediate commonName => Field.caCommonName.check commonName
  | server [] => .error (.input .noDnsName)
  | server (commonName :: rest) => Field.dnsName.checkAll (commonName :: rest)
  | client commonName => Field.clientCommonName.check commonName

/-- The outcome of the checks: what to sign. -/
def plan (now : Instant) (r : Request) : Subordinate → Except Fault Template
  | intermediate commonName => planIntermediate now r commonName
  | server dnsNames => planServer now r dnsNames
  | client commonName => planClient now r commonName

/-- All classes check the names, then the time and then the key. -/
theorem plan_eq (s : Subordinate) (now : Instant) (r : Request) : s.plan now r = (do
    s.checkNames
    let validity ← Validity.startingAt now r.expiration
    checkKey r.parent r.parentKey
    return s.template r validity) := by
  cases s with
  | intermediate commonName => rfl
  | server dnsNames => cases dnsNames <;> rfl
  | client commonName => rfl

theorem checkNames_decides (s : Subordinate) : Decides s.checkNames s.NamesPass := by
  cases s with
  | intermediate commonName => exact Field.check_decides _ _
  | server dnsNames =>
    cases dnsNames with
    | nil => exact Or.inr ⟨fun h => h.1 rfl, _, rfl⟩
    | cons commonName rest => exact (Field.checkAll_decides _ _).iff (by simp [NamesPass])
  | client commonName => exact Field.check_decides _ _

theorem plan_decides (s : Subordinate) (now : Instant) (r : Request) : Decides (s.plan now r)
    (s.NamesPass ∧ (now.add? r.expiration).isSome = true ∧ (r.parentKey.data.isSome = true
      ∧ r.parentKey.publicKey = some r.parent.certificate.publicKey) ∧ True) := by
  rw [plan_eq]
  apply s.checkNames_decides.bind
  intro _ _
  apply (Validity.startingAt_decides now r.expiration).bind
  intro validity _
  apply (checkKey_decides r.parent r.parentKey).bind
  intro _ _
  exact Decides.ok (s.template r validity)

theorem plan_eq_ok {s : Subordinate} {now : Instant} {r : Request} {t : Template}
    (h : s.plan now r = .ok t) :
    ∃ validity, Validity.startingAt now r.expiration = .ok validity
      ∧ t = s.template r validity := by
  rw [plan_eq] at h
  obtain ⟨_, -, h⟩ := bind_eq_ok.mp h
  obtain ⟨validity, span, h⟩ := bind_eq_ok.mp h
  obtain ⟨_, -, h⟩ := bind_eq_ok.mp h
  exact ⟨validity, span, (Except.ok.inj h).symm⟩

end Subordinate

/-- A call of one of the four operations. -/
inductive Operation
  | root (organization : Organization) (commonName : String) (key : PrivateKey)
    (expiration : Duration)
  | under (request : Request) (subordinate : Subordinate)

namespace Operation

/-- Carries out an operation with a backend. -/
def perform {m : Type → Type} [Monad m] (backend : Backend m) (now : Instant) :
    Operation → ExceptT Fault m IssuedCertificate
  | root organization commonName key expiration =>
    newRoot backend now organization commonName key expiration
  | under r (.intermediate commonName) => newIntermediate backend now r commonName
  | under r (.server dnsNames) => newServer backend now r dnsNames
  | under r (.client commonName) => newClient backend now r commonName

def organization : Operation → Organization
  | root organization _ _ _ => organization
  | under r _ => r.organization

/-- The serial number of the certificate to issue. A root has that of its key. -/
def serial : Operation → SerialNumber
  | root _ _ key _ => key.serial
  | under r _ => r.serial

def signer : Operation → PrivateKey
  | root _ _ key _ => key
  | under r _ => r.parentKey

def expiration : Operation → Duration
  | root _ _ _ expiration => expiration
  | under r _ => r.expiration

/-- The certificate to issue under; a root has none. -/
def parent : Operation → Option IssuedCertificate
  | root _ _ _ _ => none
  | under r _ => some r.parent

def issuer : Operation → Issuer
  | root _ _ _ _ => .selfSigned
  | under r _ => r.parent.asIssuer

/-- The serial number of the certificate to issue under, which for a root is its key's. -/
def signedBy : Operation → SerialNumber
  | root _ _ key _ => key.serial
  | under r _ => r.parent.serial

/-- The key to certify. A root's is that of its own key, if it has data. -/
def subjectKey : Operation → Option PublicKey
  | root _ _ key _ => key.publicKey
  | under r _ => some r.publicKey

def NamesPass : Operation → Prop
  | root _ commonName _ _ => Field.caCommonName.brokenRule? commonName = none
  | under _ s => s.NamesPass

def template (validity : Validity) : Operation → Template
  | root organization commonName key _ =>
    authorityTemplate key.serial organization commonName validity none
  | under r s => s.template r validity

structure Passes (o : Operation) (now : Instant) : Prop where
  names : o.NamesPass
  time : (now.add? o.expiration).isSome = true
  data : o.signer.data.isSome = true
  parent : ∀ p ∈ o.parent, o.signer.publicKey = some p.certificate.publicKey

/-- The outcome of the checks: what to sign and for which key. -/
def plan (now : Instant) : Operation → Except Fault (Template × PublicKey)
  | root organization commonName key expiration =>
    planRoot now organization commonName key expiration
  | under r s => (s.plan now r).map (·, r.publicKey)

theorem planRoot_decides (now : Instant) (organization : Organization) (commonName : String)
    (k : PrivateKey) (expiration : Duration) :
    Decides (planRoot now organization commonName k expiration)
      (Field.caCommonName.brokenRule? commonName = none ∧ k.data.isSome = true
        ∧ (now.add? expiration).isSome = true ∧ True) := by
  apply (Field.check_decides _ _).bind
  intro _ _
  apply (publicHalf_decides k).bind
  intro _ _
  apply (Validity.startingAt_decides now expiration).bind
  intro _ _
  exact Decides.ok _

/-- The checks of an operation come to a plan exactly if all of them pass. -/
theorem plan_decides (o : Operation) (now : Instant) : Decides (o.plan now) (o.Passes now) := by
  cases o with
  | root organization commonName key expiration =>
    -- Here the key is checked before the time.
    apply (planRoot_decides now organization commonName key expiration).iff
    constructor
    · rintro ⟨names, data, time, -⟩
      exact ⟨names, time, data, by simp [parent]⟩
    · rintro ⟨names, time, data, -⟩
      exact ⟨names, data, time, trivial⟩
  | under r s =>
    apply ((s.plan_decides now r).map (·, r.publicKey)).iff
    constructor
    · rintro ⟨names, time, ⟨data, key⟩, -⟩
      refine ⟨names, time, data, ?_⟩
      intro p hp
      cases Option.some.inj hp
      exact key
    · rintro ⟨names, time, data, key⟩
      exact ⟨names, time, ⟨data, key r.parent rfl⟩, trivial⟩

/-- What is planned is the template of the class, from now on, and the key to certify. -/
theorem plan_eq_ok {o : Operation} {now : Instant} {t : Template} {publicKey : PublicKey}
    (h : o.plan now = .ok (t, publicKey)) :
    ∃ validity, Validity.startingAt now o.expiration = .ok validity ∧ t = o.template validity
      ∧ o.subjectKey = some publicKey := by
  cases o with
  | root organization commonName key expiration =>
    obtain ⟨_, -, h⟩ := bind_eq_ok.mp h
    obtain ⟨publicKey', half, h⟩ := bind_eq_ok.mp h
    obtain ⟨validity, span, h⟩ := bind_eq_ok.mp h
    cases Except.ok.inj h
    exact ⟨validity, span, rfl, publicHalf_eq_ok.mp half⟩
  | under r s =>
    obtain ⟨t', planned, same⟩ := map_eq_ok.mp h
    cases same
    obtain ⟨validity, span, rfl⟩ := Subordinate.plan_eq_ok planned
    exact ⟨validity, span, rfl, rfl⟩

/-- The answer to an operation of which the certificate was signed and read, or could not be
read. -/
def conclude (o : Operation) : Except Fault Certificate → Except Fault IssuedCertificate
  | .error e => .error (.parseAfterCreation e)
  | .ok certificate => .ok ⟨o.organization.id, o.signedBy, certificate⟩

theorem conclude_eq_ok {o : Operation} {x : Except Fault Certificate} {c : IssuedCertificate} :
    o.conclude x = .ok c
      ↔ ∃ certificate, x = .ok certificate ∧ c = ⟨o.organization.id, o.signedBy, certificate⟩ := by
  cases x with
  | error e => simp [conclude]
  | ok certificate => simp [conclude, eq_comm]

theorem conclude_eq_error {o : Operation} {x : Except Fault Certificate} {e : Fault} :
    o.conclude x = .error e ↔ ∃ cause, x = .error cause ∧ e = .parseAfterCreation cause := by
  cases x with
  | error cause => simp [conclude, eq_comm]
  | ok certificate => simp [conclude]

section

variable {m : Type → Type} [Monad m] [LawfulMonad m]

/-- The answer to an operation that is planned: the backend signs, then it reads what it signed. -/
def answer (backend : Backend m) (o : Operation) (t : Template) (publicKey : PublicKey)
    (key : KeyPair) : m (Except Fault IssuedCertificate) := do
  match ← (backend.create t o.issuer publicKey key).run with
  | .error e => return .error (.creation e)
  | .ok der => return o.conclude (← (backend.parse der).run)

theorem createCertificate_run {k : PrivateKey} {key : KeyPair} (data : k.data = some key)
    (backend : Backend m) (t : Template) (publicKey : PublicKey) (issuer : Issuer) :
    (k.createCertificate backend t publicKey issuer).run = (do
      match ← (backend.create t issuer publicKey key).run with
      | .error e => return .error (.creation e)
      | .ok der => return (← (backend.parse der).run).mapError .parseAfterCreation) := by
  rw [PrivateKey.createCertificate, data]
  simp only [ExceptT.run_bind, ExceptT.run_adapt, map_eq_pure_bind, bind_assoc, pure_bind]
  apply bind_congr
  intro made
  cases made with
  | error e => rfl
  | ok der => rfl

omit [LawfulMonad m] in
theorem perform_under (backend : Backend m) (now : Instant) (r : Request) (s : Subordinate) :
    (under r s).perform backend now = issue backend r (s.plan now r) := by
  cases s <;> rfl

theorem mk_ok_bind {α β : Type} (a : α) (f : α → ExceptT Fault m β) :
    (ExceptT.mk (pure (.ok a)) >>= f : ExceptT Fault m β) = f a :=
  pure_bind (m := ExceptT Fault m) a f

theorem mk_error_bind {α β : Type} (e : Fault) (f : α → ExceptT Fault m β) :
    (ExceptT.mk (pure (.error e)) >>= f : ExceptT Fault m β).run = pure (.error e) := by
  simp only [ExceptT.run_bind, ExceptT.run_mk, pure_bind]

theorem run_perform_of_refused {backend : Backend m} {now : Instant} {o : Operation} {e : Fault}
    (refused : o.plan now = .error e) : (o.perform backend now).run = pure (.error e) := by
  cases o with
  | root organization commonName key expiration =>
    rw [perform, newRoot, show planRoot now organization commonName key expiration = _ from refused]
    exact mk_error_bind e _
  | under r s =>
    have subordinate : s.plan now r = .error e := by
      rw [plan] at refused
      cases h : s.plan now r with
      | error e' => rw [h] at refused; exact congrArg Except.error (Except.error.inj refused)
      | ok t => rw [h] at refused; cases refused
    rw [perform_under, issue, subordinate]
    exact mk_error_bind e _

theorem run_perform_of_planned {backend : Backend m} {now : Instant} {o : Operation} {t : Template}
    {publicKey : PublicKey} {key : KeyPair} (planned : o.plan now = .ok (t, publicKey))
    (data : o.signer.data = some key) :
    (o.perform backend now).run = o.answer backend t publicKey key := by
  have signs : (o.perform backend now).run = (do
      match ← (o.signer.createCertificate backend t publicKey o.issuer).run with
      | .error e => return .error e
      | .ok certificate => return .ok ⟨o.organization.id, o.signedBy, certificate⟩) := by
    cases o with
    | root organization commonName key expiration =>
      rw [perform, newRoot,
        show planRoot now organization commonName key expiration = _ from planned, mk_ok_bind]
      simp only [ExceptT.run_bind]
      apply bind_congr
      intro made
      cases made <;> rfl
    | under r s =>
      obtain ⟨t', subordinate, same⟩ := map_eq_ok.mp planned
      cases same
      rw [perform_under, issue, subordinate, mk_ok_bind]
      simp only [ExceptT.run_bind]
      apply bind_congr
      intro made
      cases made <;> rfl
  rw [signs, createCertificate_run data, answer, bind_assoc]
  apply bind_congr
  intro made
  cases made with
  | error e => simp only [pure_bind]
  | ok der =>
    simp only [bind_assoc]
    apply bind_congr
    intro read
    rw [pure_bind]
    cases read <;> rfl

end

end Operation

end Chain

end CertAuthority
