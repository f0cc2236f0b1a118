import CertAuthority.Proofs.Chain.Profile
import Mathlib.Logic.Relation

namespace CertAuthority

/-- A certificate with a signature over its own signed bytes, made by a key with a public half. -/
def Certificate.SignedFor (c : Certificate) (publicKey : PublicKey) : Prop :=
  ∃ key nonce message signature, KeyPair.publicKey key = publicKey
    ∧ SignedCertificate.tbsBytes? c.der = some message
    ∧ key.sign nonce message = .ok signature
    ∧ c.signed.signature = .ofOctets signature
    ∧ c.contents.algorithm = .ofKeyType key.keyType

/-- A certificate of which a verifier takes the signature for that of a public key. -/
def Certificate.VerifiesUnder (c : Certificate)
    (verify : SignatureAlgorithm → PublicKey → Bytes → Bytes → Bool) (publicKey : PublicKey) :
    Prop :=
  ∃ message signature, SignedCertificate.tbsBytes? c.der = some message
    ∧ c.signed.signature.octets? = some signature
    ∧ verify c.contents.algorithm publicKey message signature = true

/-- A verifier that takes every signature that a key makes, whatever the nonce, for one of its
public half. -/
def TakesSignatures (verify : SignatureAlgorithm → PublicKey → Bytes → Bytes → Bool) : Prop :=
  ∀ (key : KeyPair) nonce message signature, key.sign nonce message = .ok signature →
    verify (.ofKeyType key.keyType) key.publicKey message signature = true

theorem Certificate.SignedFor.verifiesUnder {c : Certificate} {publicKey : PublicKey}
    (h : c.SignedFor publicKey) {verify : SignatureAlgorithm → PublicKey → Bytes → Bytes → Bool}
    (complete : TakesSignatures verify) : c.VerifiesUnder verify publicKey := by
  obtain ⟨key, nonce, message, signature, rfl, bytes, signs, octets, algorithm⟩ := h
  refine ⟨message, signature, bytes, ?_, ?_⟩
  · rw [octets, Der.BitString.octets?_ofOctets]
  · rw [algorithm]
    exact complete key nonce message signature signs

namespace Chain

/-- A certificate that is linked to the one it was issued under. -/
structure LinkedTo (c parent : IssuedCertificate) : Prop where
  signedBy : c.signedBy = parent.serial
  issuer : c.certificate.contents.issuer = parent.certificate.contents.subject
  authorityKeyId : c.certificate.profile.authorityKeyId = parent.certificate.profile.subjectKeyId
  subjectKeyId : parent.certificate.profile.subjectKeyId
    = some (Sha1.hash parent.certificate.publicKey.octets)
  signed : c.certificate.SignedFor parent.certificate.publicKey

/-- A certificate that is its own issuer. -/
structure SelfIssued (c : IssuedCertificate) : Prop where
  signedBy : c.signedBy = c.serial
  issuer : c.certificate.contents.issuer = c.certificate.contents.subject
  signed : c.certificate.SignedFor c.certificate.publicKey

/-- A call in a run. A certificate is issued under one that an earlier call was answered with, which
is named by its place among them. -/
inductive Command
  | root (organization : Organization) (commonName : String) (key : PrivateKey)
    (expiration : Duration)
  | under (parent : Nat) (organization : Organization) (serial : SerialNumber)
    (publicKey : PublicKey) (parentKey : PrivateKey) (expiration : Duration)
    (subordinate : Subordinate)

/-- A certificate that was handed out, and the operation that asked for it. -/
structure Entry where
  operation : Operation
  certificate : IssuedCertificate

/-- The operation of a call, if there is a certificate at its parent's place. -/
def Command.operation? (history : List Entry) : Command → Option Operation
  | root organization commonName key expiration =>
    some (.root organization commonName key expiration)
  | under parent organization serial publicKey parentKey expiration subordinate =>
    history[parent]?.map fun e =>
      .under ⟨organization, serial, publicKey, e.certificate, parentKey, expiration⟩ subordinate

section

variable {m : Type → Type} [Monad m]

/-- Carries out a call at a time. A call that fails leaves nothing behind. -/
def step (backend : Backend m) (history : List Entry) (call : Instant × Command) :
    m (List Entry) :=
  match call.2.operation? history with
  | none => return history
  | some o => do
    match ← (o.perform backend call.1).run with
    | .ok c => return history ++ [⟨o, c⟩]
    | .error _ => return history

/-- The certificates that calls one after another are answered with. -/
def run (backend : Backend m) (history : List Entry) (calls : List (Instant × Command)) :
    m (List Entry) :=
  calls.foldlM (step backend) history

end

/-- Entries of which each is what its operation asks for, under an earlier one or none. -/
inductive Grown : List Entry → Prop
  | empty : Grown []
  | issue {history : List Entry} {e : Entry} {now : Instant} : Grown history →
    e.operation.Issued now e.certificate →
    (∀ p ∈ e.operation.parent, ∃ e' ∈ history, e'.certificate = p) → Grown (history ++ [e])

theorem Command.parent_mem {history : List Entry} {call : Command} {o : Operation}
    (h : call.operation? history = some o) :
    ∀ p ∈ o.parent, ∃ e ∈ history, e.certificate = p := by
  intro p hp
  cases call with
  | root organization commonName key expiration =>
    cases Option.some.inj h
    cases hp
  | under parent organization serial publicKey parentKey expiration subordinate =>
    obtain ⟨e, he, rfl⟩ := Option.map_eq_some_iff.mp h
    cases Option.some.inj hp
    exact ⟨e, List.mem_of_getElem? he, rfl⟩

section

variable {σ : Type} {b : Backend (StateM σ)} {random : RandomSource (StateM σ)}
  {nonces : StateM σ Nat} {history history' : List Entry} {s s' : σ}

/-- A call that succeeds puts its certificate behind the others, and any other call changes
nothing. -/
theorem step_cases {call : Instant × Command}
    (h : (step b history call).run s = (history', s')) :
    history' = history ∨ ∃ o c, call.2.operation? history = some o
      ∧ (o.perform b call.1).run.run s = (.ok c, s') ∧ history' = history ++ [⟨o, c⟩] := by
  unfold Chain.step at h
  split at h
  next => exact Or.inl (congrArg Prod.fst h).symm
  next o named =>
    cases performed : (o.perform b call.1).run.run s with
    | mk result s'' =>
      rw [StateT.run_bind, performed] at h
      cases result with
      | error e => exact Or.inl (congrArg Prod.fst h).symm
      | ok c =>
        obtain ⟨rfl, rfl⟩ := Prod.mk.inj h
        exact Or.inr ⟨o, c, named, performed, rfl⟩

/-- What each call of a run keeps, the run keeps. -/
theorem run_invariant (kept : List Entry → Prop) {calls : List (Instant × Command)}
    (step : ∀ call ∈ calls, ∀ history history' s s', kept history →
      (step b history call).run s = (history', s') → kept history')
    (start : kept history) (h : (run b history calls).run s = (history', s')) : kept history' := by
  induction calls generalizing history s with
  | nil =>
    cases congrArg Prod.fst h
    exact start
  | cons call calls ih =>
    cases first : (Chain.step b history call).run s with
    | mk between s'' =>
      rw [Chain.run, List.foldlM_cons, StateT.run_bind, first] at h
      have later := fun c hc => step c (List.mem_cons_of_mem call hc)
      exact ih later (step call (by simp) history between s s'' start first) h

theorem Grown.step {call : Instant × Command} (grown : Grown history)
    (h : (step (.standard random nonces) history call).run s = (history', s')) :
    Grown history' := by
  rcases step_cases h with rfl | ⟨o, c, named, performed, rfl⟩
  · exact grown
  · exact .issue grown (Operation.issued_of_perform performed) (Command.parent_mem named)

theorem Grown.run {calls : List (Instant × Command)} (grown : Grown history)
    (h : (run (.standard random nonces) history calls).run s = (history', s')) : Grown history' :=
  run_invariant Grown (fun _ _ _ _ _ _ => Grown.step) grown h

end

namespace Operation.Issued

variable {o : Operation} {now : Instant} {c : IssuedCertificate}

theorem subjectKeyId (h : o.Issued now c) :
    c.certificate.profile.subjectKeyId = some (Sha1.hash c.certificate.publicKey.octets) := by
  obtain ⟨validity, publicKey, key, nonce, -, -, -, reflected⟩ := h.reflected
  rw [reflected.subjectKeyId, reflected.publicKey]

/-- The key of an operation signs the very bytes that stand in the certificate. -/
theorem signedFor (h : o.Issued now c) {publicKey : PublicKey}
    (half : o.signer.publicKey = some publicKey) : c.certificate.SignedFor publicKey := by
  obtain ⟨validity, subjectKey, key, nonce, -, -, data, reflected⟩ := h.reflected
  obtain ⟨signature, signs, octets⟩ := reflected.signature
  obtain ⟨bytes, fits⟩ := withinLimit_eq_ok.mp reflected.reencode
  rw [PrivateKey.publicKey, data] at half
  refine ⟨key, nonce, c.certificate.signed.tbs.encode, signature, Option.some.inj half, ?_, signs,
    octets, reflected.algorithm⟩
  rw [← bytes]
  exact SignedCertificate.tbsBytes?_encode fits

theorem linkedTo (h : o.Issued now c) {p : IssuedCertificate} (parent : o.parent = some p)
    (keyId : p.certificate.profile.subjectKeyId
      = some (Sha1.hash p.certificate.publicKey.octets)) : LinkedTo c p := by
  have signed := h.signedFor (h.passes.parent p parent)
  obtain ⟨validity, subjectKey, key, nonce, -, -, -, reflected⟩ := h.reflected
  cases o with
  | root organization commonName key expiration => cases parent
  | under r s =>
    cases Option.some.inj parent
    refine ⟨h.signedBy, reflected.issuerName, ?_, keyId, signed⟩
    -- Only an empty identifier is read as none, and a digest is never empty.
    have filled : (Sha1.hash r.parent.certificate.publicKey.octets).isEmpty = false := by
      rw [List.isEmpty_eq_false_iff_exists_mem]
      apply List.exists_mem_of_length_pos
      rw [Sha1.hash_length]
      decide
    have named : (under r s).issuer.authorityKeyId
        = some (Sha1.hash r.parent.certificate.publicKey.octets) := keyId
    rw [reflected.authorityKeyId, named, keyId, Option.filter_some, filled]
    rfl

theorem selfIssued (h : o.Issued now c) (parent : o.parent = none) : SelfIssued c := by
  obtain ⟨validity, subjectKey, key, nonce, -, subject, -, reflected⟩ := h.reflected
  cases o with
  | root organization commonName key expiration =>
    refine ⟨?_, ?_, ?_⟩
    · rw [h.signedBy, IssuedCertificate.serial, reflected.serial]
      rfl
    · rw [reflected.issuerName, reflected.subjectName]
      rfl
    · rw [reflected.publicKey]
      exact h.signedFor subject
  | under r s => cases parent

end Operation.Issued

/-- The entry of a history that another one was issued under. -/
def Under (history : List Entry) (e above : Entry) : Prop :=
  above ∈ history ∧ e.operation.parent = some above.certificate

theorem Under.mono {history later : List Entry} {e above : Entry} (sub : history ⊆ later)
    (h : Under history e above) : Under later e above := by
  obtain ⟨mem, parent⟩ := h
  exact ⟨sub mem, parent⟩

theorem Grown.issued {history : List Entry} (grown : Grown history) {e : Entry}
    (he : e ∈ history) : (∃ now, e.operation.Issued now e.certificate)
      ∧ ∀ p ∈ e.operation.parent, ∃ e' ∈ history, e'.certificate = p := by
  induction grown with
  | empty => cases he
  | @issue history last now before issued parents ih =>
    rcases List.mem_append.mp he with he | he
    · obtain ⟨made, earlier⟩ := ih he
      refine ⟨made, ?_⟩
      intro p hp
      obtain ⟨e', mem, same⟩ := earlier p hp
      exact ⟨e', List.mem_append_left _ mem, same⟩
    · cases List.mem_singleton.mp he
      refine ⟨⟨now, issued⟩, ?_⟩
      intro p hp
      obtain ⟨e', mem, same⟩ := parents p hp
      exact ⟨e', List.mem_append_left _ mem, same⟩

/-- From every entry the way up ends at a root. -/
theorem Grown.leads_to_root {history : List Entry} (grown : Grown history) {e : Entry}
    (he : e ∈ history) :
    ∃ root ∈ history, Relation.ReflTransGen (Under history) e root
      ∧ root.operation.parent = none := by
  induction grown generalizing e with
  | empty => cases he
  | @issue history last now before issued parents ih =>
    -- An entry is under an earlier one, so the new one is on no way but its own.
    have sub : history ⊆ history ++ [last] := List.subset_append_left _ _
    have up {e : Entry} (he : e ∈ history) : ∃ root ∈ history ++ [last],
        Relation.ReflTransGen (Under (history ++ [last])) e root
          ∧ root.operation.parent = none := by
      obtain ⟨root, mem, way, top⟩ := ih he
      have longer := way.lift id fun _ _ => Under.mono sub
      exact ⟨root, sub mem, longer, top⟩
    rcases List.mem_append.mp he with he | he
    · exact up he
    · cases List.mem_singleton.mp he
      cases parent : last.operation.parent with
      | none => exact ⟨last, by simp, .refl, parent⟩
      | some p =>
        obtain ⟨above, mem, rfl⟩ := parents p parent
        obtain ⟨root, mem', way, top⟩ := up mem
        exact ⟨root, mem', way.head ⟨sub mem, parent⟩, top⟩

/-- Every certificate of a run is linked to the one it was issued under or is its own issuer, its
signature is good for the key of that one, and the way up from it ends at a root. -/
theorem linked_of_run {σ : Type} (random : RandomSource (StateM σ)) (nonces : StateM σ Nat)
    (calls : List (Instant × Command)) (history : List Entry) (s s' : σ)
    (h : (run (.standard random nonces) [] calls).run s = (history, s')) :
    ∀ e ∈ history,
      (∀ p, e.operation.parent = some p → (∃ above ∈ history, above.certificate = p)
        ∧ LinkedTo e.certificate p
        ∧ ∀ verify, TakesSignatures verify →
          e.certificate.certificate.VerifiesUnder verify p.certificate.publicKey)
      ∧ (e.operation.parent = none → SelfIssued e.certificate
        ∧ ∀ verify, TakesSignatures verify →
          e.certificate.certificate.VerifiesUnder verify e.certificate.certificate.publicKey)
      ∧ ∃ root ∈ history, Relation.ReflTransGen (Under history) e root
        ∧ root.operation.parent = none
        ∧ root.certificate.certificate.contents.issuer
          = root.certificate.certificate.contents.subject := by
  have grown := Grown.run .empty h
  intro e he
  obtain ⟨⟨now, issued⟩, parents⟩ := grown.issued he
  refine ⟨?_, ?_, ?_⟩
  · intro p parent
    obtain ⟨above, mem, rfl⟩ := parents p parent
    obtain ⟨⟨_, issued'⟩, -⟩ := grown.issued mem
    have linked := issued.linkedTo parent issued'.subjectKeyId
    exact ⟨⟨above, mem, rfl⟩, linked, fun _ complete => linked.signed.verifiesUnder complete⟩
  · intro top
    have itself := issued.selfIssued top
    exact ⟨itself, fun _ complete => itself.signed.verifiesUnder complete⟩
  · obtain ⟨root, mem, way, top⟩ := grown.leads_to_root he
    obtain ⟨⟨_, issued'⟩, -⟩ := grown.issued mem
    exact ⟨root, mem, way, top, (issued'.selfIssued top).issuer⟩

/-- A root, a call that fails for want of a key, and a server under the root. -/
def sampleCalls : List (Instant × Command) :=
  [(⟨1500000000, 0⟩, .root ⟨"acme", ["Acme"], by decide⟩ "Root" (.ofKeyPair 1 Template.sampleKey)
      ⟨3600000000000⟩),
    (⟨2500000000, 0⟩, .under 0 ⟨"acme", ["Acme"], by decide⟩ 3 Template.sampleKey.publicKey
      ⟨1, .stub .ed25519⟩ ⟨60000000000⟩ (.client "someone@acme.org")),
    (⟨2500000000, 0⟩, .under 0 ⟨"acme", ["Acme"], by decide⟩ 2 Template.sampleKey.publicKey
      (.ofKeyPair 1 Template.sampleKey) ⟨60000000000⟩ (.server ["acme.org", "*.acme.org"]))]

open Classical in
/-- The verifier that takes just the signatures that keys make. -/
noncomputable def exactVerifier (algorithm : SignatureAlgorithm) (publicKey : PublicKey)
    (message signature : Bytes) : Bool :=
  decide (∃ key : KeyPair, .ofKeyType key.keyType = algorithm ∧ key.publicKey = publicKey
    ∧ ∃ nonce, key.sign nonce message = .ok signature)

theorem exactVerifier_takesSignatures : TakesSignatures exactVerifier := by
  intro key nonce message signature signs
  simp only [exactVerifier, decide_eq_true_eq]
  exact ⟨key, rfl, rfl, nonce, signs⟩

set_option maxRecDepth 100000 in
theorem linked_of_run_sample :
    ∃ history, (run Operation.sampleBackend [] sampleCalls).run () = (history, ())
      ∧ history.map (·.operation.parent.isSome) = [false, true]
      ∧ ∀ e ∈ history,
        (∀ p, e.operation.parent = some p → (∃ above ∈ history, above.certificate = p)
          ∧ LinkedTo e.certificate p
          ∧ e.certificate.certificate.VerifiesUnder exactVerifier p.certificate.publicKey)
        ∧ (e.operation.parent = none → SelfIssued e.certificate
          ∧ e.certificate.certificate.VerifiesUnder exactVerifier
            e.certificate.certificate.publicKey) := by
  have parents : ((run Operation.sampleBackend [] sampleCalls).run ()).1.map
      (·.operation.parent.isSome) = [false, true] := by decide +kernel
  cases ran : (run Operation.sampleBackend [] sampleCalls).run () with
  | mk history s =>
    rw [ran] at parents
    refine ⟨history, rfl, parents, ?_⟩
    intro e he
    obtain ⟨under, alone, -⟩ :=
      linked_of_run Operation.sampleSource (pure 1) sampleCalls history () s ran e he
    refine ⟨?_, ?_⟩
    · intro p parent
      obtain ⟨above, linked, verifies⟩ := under p parent
      exact ⟨above, linked, verifies exactVerifier exactVerifier_takesSignatures⟩
    · intro top
      obtain ⟨itself, verifies⟩ := alone top
      exact ⟨itself, verifies exactVerifier exactVerifier_takesSignatures⟩

end Chain

end CertAuthority
