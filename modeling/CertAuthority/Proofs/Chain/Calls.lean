import CertAuthority.Proofs.Chain.Operation

namespace CertAuthority

namespace Backend

inductive Call
  | draw (bound : Nat)
  | create (template : Template) (issuer : Issuer) (publicKey : PublicKey) (key : KeyPair)
  | parse (der : Bytes)
deriving DecidableEq

def Call.isCreate : Call → Bool
  | create _ _ _ _ => true
  | draw _ | parse _ => false

variable {m : Type → Type} [Monad m]

/-- A step of a backend, put behind the calls so far. -/
def note {α : Type} (call : Call) (step : ExceptT Fault m α) :
    ExceptT Fault (StateT (List Call) m) α :=
  ExceptT.mk fun calls => do
    let result ← step.run
    return (result, calls ++ [call])

/-- A backend that keeps its calls. -/
def recorded (b : Backend m) : Backend (StateT (List Call) m) where
  random := ⟨fun bound => note (.draw bound) (b.random.draw bound)⟩
  create t issuer publicKey key :=
    note (.create t issuer publicKey key) (b.create t issuer publicKey key)
  parse der := note (.parse der) (b.parse der)

end Backend

namespace Chain.Operation

variable {σ : Type}

/-- How a backend serves a planned operation from a state on: the answer, the state that it leaves
and its calls. -/
inductive Served (b : Backend (StateM σ)) (o : Operation) (t : Template) (publicKey : PublicKey)
    (key : KeyPair) (s : σ) : Except Fault IssuedCertificate → σ → List Backend.Call → Prop
  | unsigned {e : Fault} {s' : σ} :
    (b.create t o.issuer publicKey key).run s = (.error e, s') →
    Served b o t publicKey key s (.error (.creation e)) s' [.create t o.issuer publicKey key]
  | unread {der : Bytes} {e : Fault} {s' s'' : σ} :
    (b.create t o.issuer publicKey key).run s = (.ok der, s') →
    (b.parse der).run s' = (.error e, s'') →
    Served b o t publicKey key s (.error (.parseAfterCreation e)) s''
      [.create t o.issuer publicKey key, .parse der]
  | issued {der : Bytes} {certificate : Certificate} {s' s'' : σ} :
    (b.create t o.issuer publicKey key).run s = (.ok der, s') →
    (b.parse der).run s' = (.ok certificate, s'') →
    Served b o t publicKey key s (.ok ⟨o.organization.id, o.signedBy, certificate⟩) s''
      [.create t o.issuer publicKey key, .parse der]

theorem run_note {α : Type} (call : Backend.Call) {step : ExceptT Fault (StateM σ) α}
    {result : Except Fault α} {s s' : σ} (h : step.run.run s = (result, s'))
    (calls : List Backend.Call) :
    ((Backend.note call step).run.run calls).run s = ((result, calls ++ [call]), s') := by
  show (fun p : Except Fault α × σ => ((p.1, calls ++ [call]), p.2)) (step.run.run s) = _
  rw [h]

/-- What an operation does with the answers of a backend to its calls. -/
theorem served_answer (b : Backend (StateM σ)) (o : Operation) (t : Template)
    (publicKey : PublicKey) (key : KeyPair) (s : σ) :
    ∃ result s' calls, (o.answer b t publicKey key).run s = (result, s')
      ∧ ((o.answer b.recorded t publicKey key).run []).run s = ((result, calls), s')
      ∧ Served b o t publicKey key s result s' calls := by
  cases made : (b.create t o.issuer publicKey key).run.run s with
  | mk first s' =>
    have noted := run_note (.create t o.issuer publicKey key) made []
    cases first with
    | error e =>
      refine ⟨_, _, _, ?_, ?_, .unsigned made⟩
      · rw [answer, StateT.run_bind, made]
        rfl
      · rw [answer, StateT.run_bind, StateT.run_bind, Backend.recorded, noted]
        rfl
    | ok der =>
      cases read : (b.parse der).run.run s' with
      | mk second s'' =>
        have noted' := run_note (.parse der) read [.create t o.issuer publicKey key]
        have parsed : (o.answer b t publicKey key).run s = (o.conclude second, s'') := by
          rw [answer, StateT.run_bind, made]
          show StateT.run (_ >>= _) s' = _
          rw [StateT.run_bind, read]
          rfl
        -- The recording backend goes the same way and adds a call at each step.
        have recorded : ((o.answer b.recorded t publicKey key).run []).run s
            = ((o.conclude second, [.create t o.issuer publicKey key, .parse der]), s'') := by
          rw [answer, StateT.run_bind, StateT.run_bind, Backend.recorded, noted]
          show StateT.run (StateT.run (_ >>= _) [_]) s' = _
          rw [StateT.run_bind, StateT.run_bind, noted']
          rfl
        cases second with
        | error e => exact ⟨_, _, _, parsed, recorded, .unread made read⟩
        | ok certificate => exact ⟨_, _, _, parsed, recorded, .issued made read⟩

theorem Served.create_once {b : Backend (StateM σ)} {o : Operation} {t : Template}
    {publicKey : PublicKey} {key : KeyPair} {s s' : σ} {result : Except Fault IssuedCertificate}
    {calls : List Backend.Call} (h : Served b o t publicKey key s result s' calls) :
    calls.countP (·.isCreate) = 1 := by
  cases h with
  | unsigned => rfl
  | unread => rfl
  | issued => rfl

/-- Nothing unchecked reaches a backend. Unless all checks pass it is left alone and the answer
refuses the input. Else it is asked for a certificate once, and to read just what it signed, and
its failures are told apart. -/
theorem perform_calls (b : Backend (StateM σ)) (now : Instant) (o : Operation) (s : σ) :
    ∃ result s' calls, (o.perform b now).run.run s = (result, s')
      ∧ ((o.perform b.recorded now).run.run []).run s = ((result, calls), s')
      ∧ (calls.countP (·.isCreate) = 1 ↔ o.Passes now)
      ∧ ((¬ o.Passes now ∧ (∃ f, result = .error (.input f)) ∧ s' = s ∧ calls = [])
        ∨ (o.Passes now ∧ ∃ validity publicKey key,
          Validity.startingAt now o.expiration = .ok validity ∧ o.subjectKey = some publicKey
          ∧ o.signer.data = some key
          ∧ Served b o (o.template validity) publicKey key s result s' calls)) := by
  have checks := o.plan_decides now
  by_cases passes : o.Passes now
  · obtain ⟨⟨t, publicKey⟩, planned⟩ := checks.exists_ok passes
    obtain ⟨key, data⟩ := Option.isSome_iff_exists.mp passes.data
    obtain ⟨validity, span, rfl, subject⟩ := plan_eq_ok planned
    obtain ⟨result, s', calls, alone, noted, served⟩ :=
      o.served_answer b (o.template validity) publicKey key s
    refine ⟨result, s', calls, ?_, ?_, ?_, Or.inr ⟨passes, validity, publicKey, key, span, subject,
      data, served⟩⟩
    · rw [run_perform_of_planned planned data, alone]
    · rw [run_perform_of_planned planned data, noted]
    · exact ⟨fun _ => passes, fun _ => served.create_once⟩
  · obtain ⟨f, refused⟩ := checks.exists_input passes
    refine ⟨.error (.input f), s, [], ?_, ?_, ?_, Or.inl ⟨passes, ⟨f, rfl⟩, rfl, rfl⟩⟩
    · rw [run_perform_of_refused refused]
      rfl
    · rw [run_perform_of_refused refused]
      rfl
    · exact ⟨fun none => absurd none (by decide), fun h => absurd h passes⟩

end Chain.Operation

end CertAuthority
