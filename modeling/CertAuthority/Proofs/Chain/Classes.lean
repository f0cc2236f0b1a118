import CertAuthority.Proofs.Chain.Run

namespace CertAuthority

namespace IssuedCertificate

theorem classes_of_isAuthority {c : IssuedCertificate} (h : c.isAuthority = true) :
    c.isRoot = c.certificate.isSelfSigned ∧ c.isIntermediate = !c.certificate.isSelfSigned := by
  rw [isRoot, isIntermediate, h, Bool.true_and, Bool.true_and]
  exact ⟨rfl, rfl⟩

/-- Certificates that are the same to those who issue under them. -/
structure Alike (p q : IssuedCertificate) : Prop where
  serial : p.serial = q.serial
  publicKey : p.certificate.publicKey = q.certificate.publicKey
  issuer : p.asIssuer = q.asIssuer

end IssuedCertificate

namespace Chain

theorem checkKey_of_alike {p q : IssuedCertificate} (h : p.Alike q) (k : PrivateKey) :
    checkKey p k = checkKey q k := by
  rw [checkKey, checkKey, h.serial, h.publicKey]

theorem Subordinate.plan_of_alike {p : IssuedCertificate} {r : Request} (h : p.Alike r.parent)
    (s : Subordinate) (now : Instant) : s.plan now { r with parent := p } = s.plan now r := by
  have template (validity : Validity) :
      s.template { r with parent := p } validity = s.template r validity := by
    cases s <;> rfl
  rw [plan_eq, plan_eq, checkKey_of_alike h]
  simp only [template]

namespace Operation

/-- Whether an operation asks for an authority. -/
def isAuthority : Operation → Bool
  | root _ _ _ _ => true
  | under _ (.intermediate _) => true
  | under _ (.server _) | under _ (.client _) => false

/-- Whether the certificate to issue under is an authority plays no part. -/
theorem perform_of_alike {m : Type → Type} [Monad m] {p : IssuedCertificate} {r : Request}
    (h : p.Alike r.parent) (backend : Backend m) (now : Instant) (s : Subordinate) :
    (under { r with parent := p } s).perform backend now = (under r s).perform backend now := by
  rw [perform_under, perform_under, s.plan_of_alike h now, issue, issue]
  simp only [h.issuer, h.serial]

namespace Issued

variable {o : Operation} {now : Instant} {c : IssuedCertificate}

theorem isCa (h : o.Issued now c) : c.certificate.isCa = o.isAuthority := by
  obtain ⟨validity, publicKey, key, nonce, -, -, -, reflected⟩ := h.reflected
  rw [reflected.isCa]
  cases o with
  | root organization commonName key expiration => rfl
  | under r s => cases s <;> rfl

theorem isAuthority (h : o.Issued now c) : c.isAuthority = o.isAuthority := by
  rw [IssuedCertificate.isAuthority, h.certified.constrained.1, h.isCa, Bool.true_and]

/-- A certificate under another one is taken for self-signed exactly if the keys of both have the
same identifier. Their names play no part. -/
theorem isSelfSigned_iff (h : o.Issued now c) {p : IssuedCertificate} (parent : o.parent = some p)
    (keyId : p.certificate.profile.subjectKeyId
      = some (Sha1.hash p.certificate.publicKey.octets)) :
    c.certificate.isSelfSigned = true ↔ Sha1.hash c.certificate.publicKey.octets
      = Sha1.hash p.certificate.publicKey.octets := by
  have authority := (h.linkedTo parent keyId).authorityKeyId
  rw [keyId] at authority
  rw [Certificate.isSelfSigned, authority, h.subjectKeyId]
  exact beq_iff_eq.trans eq_comm

end Issued

end Operation

/-- An intermediate under a certificate of a chain is recognised as one unless its key has the
identifier of the parent's key. Then it counts as a root. -/
theorem classes_of_newIntermediate {σ τ : Type} (random : RandomSource (StateM σ))
    (nonces : StateM σ Nat) (random' : RandomSource (StateM τ)) (nonces' : StateM τ Nat)
    (above : Operation) (now now' : Instant) (r : Request) (commonName : String)
    (c : IssuedCertificate) (s s' : σ) (t t' : τ)
    (issued : (above.perform (.standard random' nonces') now').run.run t = (.ok r.parent, t'))
    (done : (newIntermediate (.standard random nonces) now r commonName).run.run s
      = (.ok c, s')) :
    if Sha1.hash r.publicKey.octets = Sha1.hash r.parent.certificate.publicKey.octets then
      c.isIntermediate = false ∧ c.isRoot = true ∧ c.certificate.isSelfSigned = true
    else c.isIntermediate = true ∧ c.isRoot = false ∧ c.certificate.isSelfSigned = false := by
  have made : (Operation.under r (.intermediate commonName)).Issued now c :=
    Operation.issued_of_perform done
  have parent := Operation.issued_of_perform issued
  obtain ⟨root, intermediate⟩ := IssuedCertificate.classes_of_isAuthority made.isAuthority
  have publicKey : r.publicKey = c.certificate.publicKey := Option.some.inj made.certified.publicKey
  have selfSigned := made.isSelfSigned_iff rfl parent.subjectKeyId
  rw [publicKey, root, intermediate]
  split
  next same => simp [selfSigned.mpr same]
  next other => simp [mt selfSigned.mp other]

/-- What the call for a root comes to with the standard backend. -/
def rootAnswer : Except Fault IssuedCertificate × Unit :=
  (Operation.sampleRoot.perform Operation.sampleBackend ⟨1500000000, 0⟩).run.run ()

/-- A request for a certificate for a key under a root. -/
def sampleRequest (publicKey : PublicKey) (root : IssuedCertificate) : Request where
  organization := Operation.sampleRoot.organization
  serial := 2
  publicKey
  parent := root
  parentKey := .ofKeyPair 1 Template.sampleKey
  expiration := ⟨60000000000⟩

def intermediateAnswer (publicKey : PublicKey) (root : IssuedCertificate) :
    Except Fault IssuedCertificate × Unit :=
  (newIntermediate Operation.sampleBackend ⟨2500000000, 0⟩
    (sampleRequest publicKey root) "Sub").run.run ()

theorem eq_of_fst {α : Type} {x : α × Unit} {a : α} (h : x.1 = a) : x = (a, ()) :=
  Prod.ext h (Subsingleton.elim _ _)

theorem exists_intermediate {α : Type} {publicKey : PublicKey} {f : IssuedCertificate → α} {a : α}
    (h : (do
      let root ← rootAnswer.1
      let c ← (intermediateAnswer publicKey root).1
      return f c) = .ok a) :
    ∃ root c, rootAnswer = (.ok root, ()) ∧ intermediateAnswer publicKey root = (.ok c, ())
      ∧ f c = a := by
  obtain ⟨root, issued, h⟩ := bind_eq_ok.mp h
  obtain ⟨c, made, h⟩ := bind_eq_ok.mp h
  exact ⟨root, c, eq_of_fst issued, eq_of_fst made, Except.ok.inj h⟩

set_option maxRecDepth 100000 in
theorem classes_of_newIntermediate_sample :
    ∃ root c, rootAnswer = (.ok root, ()) ∧ intermediateAnswer (.rsa ⟨55, 3⟩) root = (.ok c, ())
      ∧ Sha1.hash (PublicKey.rsa ⟨55, 3⟩).octets ≠ Sha1.hash root.certificate.publicKey.octets
      ∧ c.isIntermediate = true ∧ c.isRoot = false ∧ c.certificate.isSelfSigned = false := by
  obtain ⟨root, c, issued, made, own⟩ := @exists_intermediate Bool (.rsa ⟨55, 3⟩)
    (·.certificate.isSelfSigned) false (by decide +kernel)
  have classes := classes_of_newIntermediate Operation.sampleSource (pure 1) Operation.sampleSource
    (pure 1) Operation.sampleRoot ⟨2500000000, 0⟩ ⟨1500000000, 0⟩
    (sampleRequest (.rsa ⟨55, 3⟩) root) "Sub" c () () () () issued made
  split at classes
  next =>
    obtain ⟨-, -, itself⟩ := classes
    cases itself.symm.trans own
  next other => exact ⟨root, c, issued, made, other, classes⟩

set_option maxRecDepth 100000 in
/-- An intermediate for the root's own key counts as a root. -/
theorem not_isIntermediate_sample :
    ∃ root c, rootAnswer = (.ok root, ())
      ∧ intermediateAnswer Template.sampleKey.publicKey root = (.ok c, ())
      ∧ c.isIntermediate = false ∧ c.isRoot = true ∧ c.certificate.isSelfSigned = true := by
  obtain ⟨root, c, issued, made, classes⟩ := @exists_intermediate (Bool × Bool × Bool)
    Template.sampleKey.publicKey (fun c => (c.isIntermediate, c.isRoot, c.certificate.isSelfSigned))
    (false, true, true) (by decide +kernel)
  simp only [Prod.mk.injEq] at classes
  exact ⟨root, c, issued, made, classes⟩

/-- The key that a call presents to sign with. -/
def Command.key : Command → PrivateKey
  | root _ _ key _ => key
  | under _ _ _ _ parentKey _ _ => parentKey

theorem Command.signer_of_operation? {history : List Entry} {call : Command} {o : Operation}
    (h : call.operation? history = some o) : o.signer = call.key := by
  cases call with
  | root organization commonName key expiration =>
    cases Option.some.inj h
    rfl
  | under parent organization serial publicKey parentKey expiration subordinate =>
    obtain ⟨e, -, rfl⟩ := Option.map_eq_some_iff.mp h
    rfl

theorem Command.operation?_append {history : List Entry} {call : Command} {o : Operation}
    (h : call.operation? history = some o) (later : List Entry) :
    call.operation? (history ++ later) = some o := by
  cases call with
  | root organization commonName key expiration => exact h
  | under parent organization serial publicKey parentKey expiration subordinate =>
    obtain ⟨e, found, rfl⟩ := Option.map_eq_some_iff.mp h
    obtain ⟨place, -⟩ := List.getElem?_eq_some_iff.mp found
    rw [operation?, List.getElem?_append_left place, found]
    rfl

/-- Every certificate of a run was asked for by one of its calls. -/
theorem called_of_run {σ : Type} {b : Backend (StateM σ)} {calls : List (Instant × Command)}
    {history : List Entry} {s s' : σ} (h : (run b [] calls).run s = (history, s')) :
    ∀ e ∈ history, ∃ call ∈ calls, call.2.operation? history = some e.operation := by
  apply run_invariant (fun history =>
    ∀ e ∈ history, ∃ call ∈ calls, call.2.operation? history = some e.operation) _ _ h
  · intro call mem history history' s s' called done
    rcases step_cases done with rfl | ⟨o, c, named, -, rfl⟩
    · exact called
    · intro e he
      rcases List.mem_append.mp he with he | he
      · obtain ⟨call', mem', named'⟩ := called e he
        exact ⟨call', mem', Command.operation?_append named' _⟩
      · cases List.mem_singleton.mp he
        exact ⟨call, mem, Command.operation?_append named _⟩
  · intro e he
    cases he

/-- Authorities of a run are its roots and intermediates. A certificate is issued under another one,
of whatever class, for a call that presents the other one's own key, so a certificate of which no
call presents the key is a leaf. -/
theorem children_of_run {σ : Type} (random : RandomSource (StateM σ)) (nonces : StateM σ Nat)
    (calls : List (Instant × Command)) (history : List Entry) (s s' : σ)
    (h : (run (.standard random nonces) [] calls).run s = (history, s')) :
    (∀ e ∈ history,
      e.certificate.certificate.isCa = e.operation.isAuthority
      ∧ (∀ p, e.operation.parent = some p → (∃ above ∈ history, above.certificate = p)
        ∧ ∃ call ∈ calls, call.2.operation? history = some e.operation
          ∧ call.2.key.publicKey = some p.certificate.publicKey)
      ∧ ((∀ call ∈ calls, call.2.key.publicKey ≠ some e.certificate.certificate.publicKey) →
        ∀ below ∈ history, below.operation.parent ≠ some e.certificate))
      ∧ ∀ (r : Request) (p : IssuedCertificate) (now : Instant) (subordinate : Subordinate),
        p.Alike r.parent → (Operation.under { r with parent := p } subordinate).perform
            (.standard random nonces) now
          = (Operation.under r subordinate).perform (.standard random nonces) now := by
  have grown := Grown.run .empty h
  have child {e : Entry} (he : e ∈ history) {p : IssuedCertificate}
      (parent : e.operation.parent = some p) : ∃ call ∈ calls,
        call.2.operation? history = some e.operation
          ∧ call.2.key.publicKey = some p.certificate.publicKey := by
    obtain ⟨⟨now, issued⟩, -⟩ := grown.issued he
    obtain ⟨call, mem, named⟩ := called_of_run h e he
    have presented := issued.passes.parent p parent
    rw [Command.signer_of_operation? named] at presented
    exact ⟨call, mem, named, presented⟩
  refine ⟨?_, fun r p now subordinate alike =>
    Operation.perform_of_alike alike (.standard random nonces) now subordinate⟩
  intro e he
  obtain ⟨⟨now, issued⟩, parents⟩ := grown.issued he
  refine ⟨issued.isCa, fun p parent => ⟨parents p parent, child he parent⟩, ?_⟩
  intro absent below hb parent
  obtain ⟨call, mem, -, presented⟩ := child hb parent
  exact absent call mem presented

/-- A root and a server under it. -/
def serverCalls (publicKey : PublicKey) : List (Instant × Command) :=
  [(⟨1500000000, 0⟩, .root Operation.sampleRoot.organization "Root"
      (.ofKeyPair 1 Template.sampleKey) ⟨3600000000000⟩),
    (⟨2500000000, 0⟩, .under 0 Operation.sampleRoot.organization 2 publicKey
      (.ofKeyPair 1 Template.sampleKey) ⟨60000000000⟩ (.server ["acme.org"]))]

set_option maxRecDepth 100000 in
def serverKey : KeyPair := .ed25519 ⟨List.replicate 32 8, by decide +kernel⟩

/-- A call for a client under the server, which presents the server's key. -/
def clientCall : Instant × Command :=
  (⟨2500000000, 0⟩, .under 1 Operation.sampleRoot.organization 3 Template.sampleKey.publicKey
    (.ofKeyPair 2 serverKey) ⟨60000000000⟩ (.client "someone"))

theorem exists_run {α : Type} {calls : List (Instant × Command)} {f : Entry → α} {l : List α}
    (h : ((run Operation.sampleBackend [] calls).run ()).1.map f = l) :
    ∃ history, (run Operation.sampleBackend [] calls).run () = (history, ())
      ∧ history.map f = l :=
  ⟨_, eq_of_fst rfl, h⟩

set_option maxRecDepth 100000 in
theorem children_of_run_sample :
    ∃ history, (run Operation.sampleBackend [] (serverCalls (.rsa ⟨55, 3⟩))).run ()
        = (history, ())
      ∧ history.map (·.certificate.certificate.isCa) = [true, false]
      ∧ ∀ e ∈ history, e.certificate.certificate.publicKey = .rsa ⟨55, 3⟩ →
        ∀ below ∈ history, below.operation.parent ≠ some e.certificate := by
  obtain ⟨history, ran, classes⟩ := @exists_run Bool (serverCalls (.rsa ⟨55, 3⟩))
    (·.certificate.certificate.isCa) [true, false] (by decide +kernel)
  refine ⟨history, ran, classes, ?_⟩
  intro e he own
  apply ((children_of_run Operation.sampleSource (pure 1) _ history () () ran).1 e he).2.2
  intro call mem presented
  rw [own] at presented
  simp only [serverCalls, List.mem_cons, List.not_mem_nil, or_false] at mem
  rcases mem with rfl | rfl
  · cases Option.some.inj presented
  · cases Option.some.inj presented

set_option maxRecDepth 100000 in
/-- A server whose key is presented has a client under it. -/
theorem not_leaf_sample :
    ∃ history, (run Operation.sampleBackend []
        (serverCalls serverKey.publicKey ++ [clientCall])).run () = (history, ())
      ∧ history.map (·.operation.parent.map (·.certificate.isCa))
        = [none, some true, some false] := by
  have parents : ((run Operation.sampleBackend []
      (serverCalls serverKey.publicKey ++ [clientCall])).run ()).1.map
      (·.operation.parent.map (·.certificate.isCa)) = [none, some true, some false] := by
    decide +kernel
  exact exists_run parents

end Chain

end CertAuthority
