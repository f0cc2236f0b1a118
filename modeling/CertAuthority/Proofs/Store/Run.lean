import CertAuthority.Proofs.Store.Files

namespace CertAuthority

open Store

theorem RecordName.answer_update (kept : RecordName → Option Record) (r : Record)
    (name : RecordName) : name.answer (Function.update kept r.name (some r))
      = if name = r.name then .ok r else name.answer kept := by
  unfold answer
  by_cases same : name = r.name
  · subst name
    rw [Function.update_self, if_pos rfl]
    rfl
  · rw [Function.update_of_ne same, if_neg same]

namespace Store.Memory

variable {κ α : Type} [DecidableEq κ]

theorem lookup_insert (key other : κ) (value : α) (name : RecordName) (records : List (κ × α)) :
    lookup other name (insert key value records)
      = if other = key then .ok value else lookup other name records := by
  unfold lookup insert
  by_cases same : other = key
  · subst other
    simp
  · have rest : (records.filter (·.1 ≠ key)).find? (·.1 = other)
        = records.find? (·.1 = other) := by
      rw [List.find?_filter]
      congr 1
      funext entry
      by_cases here : entry.1 = other
      · simp [here, same]
      · simp [here]
    have first : ¬ key = other := fun h => same h.symm
    rw [List.find?_cons_of_neg (by simpa using first), rest, if_neg same]

/-- Records in memory that answer each look-up with what is kept. -/
def Keeps (m : Memory) (kept : RecordName → Option Record) : Prop :=
  ∀ name, (Stores.memory m).get name = name.answer kept

theorem keeps_nothing : Keeps {} fun _ => none := by
  intro name
  cases name <;> rfl

/-- The look-ups of one kind when a record of that kind is put: only that of its name changes. -/
theorem answer_insert {address : κ → RecordName} (injective : Function.Injective address)
    {wrap : α → Record} {records : List (κ × α)} {kept : RecordName → Option Record}
    (h : ∀ key, (lookup key (address key) records).map wrap = (address key).answer kept)
    {key : κ} {value : α} (named : (wrap value).name = address key) (other : κ) :
    (lookup other (address other) (insert key value records)).map wrap
      = (address other).answer (Function.update kept (wrap value).name (some (wrap value))) := by
  rw [lookup_insert, RecordName.answer_update, named]
  by_cases same : other = key
  · subst other
    rw [if_pos rfl, if_pos rfl]
    rfl
  · rw [if_neg same, if_neg (injective.ne same)]
    exact h other

theorem Keeps.put_ok {m : Memory} {kept : RecordName → Option Record} (h : Keeps m kept)
    {r : Record} (accepted : r.refusal? = none) :
    ∃ m', (Stores.memory m).put r = (.ok (), .memory m')
      ∧ Keeps m' (Function.update kept r.name (some r)) := by
  -- A record has the name of its own kind.
  have others (name : RecordName) (different : name ≠ r.name) :
      (Stores.memory m).get name = name.answer (Function.update kept r.name (some r)) := by
    rw [RecordName.answer_update, if_neg different]
    exact h name
  cases r with
  | organization o =>
    refine ⟨_, rfl, fun name => ?_⟩
    cases name with
    | organization id =>
      exact answer_insert (fun _ _ => RecordName.organization.inj)
        (fun id => h (.organization id)) rfl id
    | certificate serial => exact others (.certificate serial) fun h => by cases h
    | privateKey serial => exact others (.privateKey serial) fun h => by cases h
  | certificate c =>
    refine ⟨_, rfl, fun name => ?_⟩
    cases name with
    | organization id => exact others (.organization id) fun h => by cases h
    | certificate serial =>
      exact answer_insert (fun _ _ => RecordName.certificate.inj)
        (fun serial => h (.certificate serial)) rfl serial
    | privateKey serial => exact others (.privateKey serial) fun h => by cases h
  | privateKey k =>
    cases data : k.data with
    | none => simp [Record.refusal?, data] at accepted
    | some key =>
      refine ⟨{ m with privateKeys := insert k.serial k m.privateKeys }, ?_, fun name => ?_⟩
      · simp only [Stores.put, Stores.putPrivateKey, Stores.change, putPrivateKey,
          PrivateKey.dataToStore, data]
      cases name with
      | organization id => exact others (.organization id) fun h => by cases h
      | certificate serial => exact others (.certificate serial) fun h => by cases h
      | privateKey serial =>
        exact answer_insert (fun _ _ => RecordName.privateKey.inj)
          (fun serial => h (.privateKey serial)) rfl serial

theorem put_refused {r : Record} {e : Fault} (refused : r.refusal? = some e) (m : Memory) :
    (Stores.memory m).put r = (.error e, .memory m) := by
  cases r with
  | organization o => cases refused
  | certificate c => cases refused
  | privateKey k =>
    cases data : k.data with
    | some key => simp [Record.refusal?, data] at refused
    | none =>
      simp only [Record.refusal?, data, Option.isSome_none, Bool.false_eq_true, if_false,
        Option.some.injEq] at refused
      simp only [Stores.put, Stores.putPrivateKey, Stores.change, putPrivateKey,
        PrivateKey.dataToStore, data, refused]

end Store.Memory

namespace Stores

inductive Call
  | put (r : Record)
  | get (name : RecordName)

/-- What befalls stores: a call, or that they are opened anew. -/
inductive Event
  | call (c : Call)
  | reopen

/-- Answers a call. A record that is put is itself the answer. -/
def perform (s : Stores) : Call → Except Fault Record × Stores
  | .put r =>
    let (done, s) := s.put r
    (done.map fun _ => r, s)
  | .get name => (s.get name, s)

def step (s : Stores) : Event → Stores
  | .call c => (s.perform c).2
  | .reopen => s.reopen.2

def after (s : Stores) (events : List Event) : Stores := events.foldl step s

namespace Call

/-- Whether a call keeps to what callers may do: records that may be stored and names that can be
addresses. -/
def IsAdmissible : Call → Prop
  | put r => r.IsStorable
  | get name => name.IsAddress

/-- The record that a call stores under a name, if it does. -/
def stored? (name : RecordName) : Call → Option Record
  | put r => if r.name = name ∧ r.refusal? = none then some r else none
  | get _ => none

end Call

namespace Event

def isCall : Event → Bool
  | call _ => true
  | reopen => false

def IsAdmissible : Event → Prop
  | call c => c.IsAdmissible
  | reopen => True

def stored? (name : RecordName) : Event → Option Record
  | call c => c.stored? name
  | reopen => none

end Event

def latest (events : List Event) (name : RecordName) : Option Record :=
  events.reverse.findSome? (·.stored? name)

/-- The answer to a call behind a run of events: a record that is put is answered unless it is
refused, and a look-up is answered with the record that was stored last. -/
def expected (before : List Event) : Call → Except Fault Record
  | .put r => r.refusal?.elim (.ok r) .error
  | .get name => name.answer (latest before)

theorem latest_append (events : List Event) (e : Event) (name : RecordName) :
    latest (events ++ [e]) name = (e.stored? name).or (latest events name) := by
  rw [latest, List.reverse_append, List.reverse_singleton, List.singleton_append,
    List.findSome?_cons]
  cases e.stored? name <;> rfl

theorem latest_put {r : Record} (accepted : r.refusal? = none) (events : List Event) :
    latest (events ++ [.call (.put r)]) = Function.update (latest events) r.name (some r) := by
  funext name
  rw [latest_append, Event.stored?, Call.stored?]
  by_cases same : name = r.name
  · subst name
    rw [if_pos ⟨rfl, accepted⟩, Function.update_self]
    rfl
  · rw [if_neg fun h => same h.1.symm, Function.update_of_ne same]
    rfl

theorem latest_of_stores_nothing {e : Event} (h : ∀ name, e.stored? name = none)
    (events : List Event) : latest (events ++ [e]) = latest events := by
  funext name
  rw [latest_append, h]
  rfl

theorem after_append (s : Stores) (events later : List Event) :
    s.after (events ++ later) = (s.after events).after later := List.foldl_append

/-- Stores in files and stores in memory that keep the same records. -/
structure Agree (root : String) (files memory : Stores) (kept : RecordName → Option Record) :
    Prop where
  inFiles : ∃ t, files = .files root t ∧ Files.Keeps t kept
  inMemory : ∃ m, memory = .memory m ∧ Memory.Keeps m kept

namespace Agree

variable {root : String} {files memory : Stores} {kept : RecordName → Option Record}
  (h : Agree root files memory kept)

include h

theorem reopen : files.reopen = (.ok (), files) := by
  obtain ⟨t, rfl, keeps⟩ := h.inFiles
  simp only [Stores.reopen, openFiles, keeps.prepare_self root]

/-- A record that is not refused is the answer to putting it, and is kept from then on. -/
theorem put_ok {r : Record} (storable : r.IsStorable) (accepted : r.refusal? = none) :
    (files.perform (.put r)).1 = .ok r ∧ (memory.perform (.put r)).1 = .ok r
      ∧ Agree root (files.perform (.put r)).2 (memory.perform (.put r)).2
        (Function.update kept r.name (some r)) := by
  obtain ⟨t, rfl, inFiles⟩ := h.inFiles
  obtain ⟨m, rfl, inMemory⟩ := h.inMemory
  obtain ⟨t', putFiles, keepsFiles⟩ := inFiles.put_ok storable accepted root
  obtain ⟨m', putMemory, keepsMemory⟩ := inMemory.put_ok accepted
  simp only [perform, putFiles, putMemory]
  exact ⟨rfl, rfl, ⟨t', rfl, keepsFiles⟩, ⟨m', rfl, keepsMemory⟩⟩

theorem put_refused {r : Record} {e : Fault} (refused : r.refusal? = some e) :
    files.perform (.put r) = (.error e, files) ∧ memory.perform (.put r) = (.error e, memory) := by
  obtain ⟨t, rfl, -⟩ := h.inFiles
  obtain ⟨m, rfl, -⟩ := h.inMemory
  simp only [perform, Files.put_refused refused, Memory.put_refused refused]
  exact ⟨rfl, rfl⟩

theorem get {name : RecordName} (address : name.IsAddress) :
    files.get name = name.answer kept ∧ memory.get name = name.answer kept := by
  obtain ⟨t, rfl, inFiles⟩ := h.inFiles
  obtain ⟨m, rfl, inMemory⟩ := h.inMemory
  exact ⟨inFiles.get root address, inMemory name⟩

end Agree

theorem agree_nothing (root : String) :
    ∃ files, openFiles root (Tree.empty none) = (.ok (), files)
      ∧ Agree root files empty (latest []) := by
  obtain ⟨t, prepared, keeps⟩ := Files.keeps_nothing root
  refine ⟨.files root t, ?_, ⟨t, rfl, keeps⟩, ⟨{}, rfl, Memory.keeps_nothing⟩⟩
  simp only [openFiles, prepared]

/-- An event that befalls the files, and the memory too if it is a call, leaves both with the same
records. -/
theorem Agree.step {root : String} {files memory : Stores} {before : List Event}
    (h : Agree root files memory (latest before)) {e : Event} (admissible : e.IsAdmissible) :
    Agree root (files.step e) (memory.after ([e].filter (·.isCall))) (latest (before ++ [e])) := by
  match e with
  | .reopen =>
    rw [latest_of_stores_nothing fun _ => rfl, Stores.step, h.reopen]
    exact h
  | .call (.get name) =>
    rw [latest_of_stores_nothing fun _ => rfl]
    exact h
  | .call (.put r) =>
    show Agree root (files.perform (.put r)).2 (memory.perform (.put r)).2 _
    cases refusal : r.refusal? with
    | none =>
      rw [latest_put refusal]
      exact (h.put_ok admissible refusal).2.2
    | some e =>
      obtain ⟨inFiles, inMemory⟩ := h.put_refused refusal
      have nothing (name : RecordName) : (Event.call (.put r)).stored? name = none :=
        if_neg (by simp [refusal])
      rw [latest_of_stores_nothing nothing, inFiles, inMemory]
      exact h

theorem Agree.after {root : String} {files : Stores} (h : Agree root files empty (latest []))
    {events : List Event} (admissible : ∀ e ∈ events, e.IsAdmissible) :
    Agree root (files.after events) (empty.after (events.filter (·.isCall))) (latest events) := by
  induction events using List.reverseRecOn with
  | nil => exact h
  | append_singleton events e ih =>
    obtain ⟨earlier, last⟩ := List.forall_mem_append.mp admissible
    rw [after_append, List.filter_append, after_append]
    exact (ih earlier).step (last e (by simp))

theorem Agree.perform {root : String} {files memory : Stores} {before : List Event}
    (h : Agree root files memory (latest before)) {c : Call} (admissible : c.IsAdmissible) :
    (files.perform c).1 = expected before c ∧ (memory.perform c).1 = expected before c := by
  match c with
  | .get name => exact h.get admissible
  | .put r =>
    rw [expected]
    cases refusal : r.refusal? with
    | none =>
      obtain ⟨inFiles, inMemory, -⟩ := h.put_ok admissible refusal
      exact ⟨inFiles, inMemory⟩
    | some e =>
      obtain ⟨inFiles, inMemory⟩ := h.put_refused refusal
      rw [inFiles, inMemory]
      exact ⟨rfl, rfl⟩

/-- Whatever befell the stores before, a call is answered alike from files and from memory: with
the record that is put unless it is refused, and with the one that was stored last under a name.
Opening the files anew succeeds and changes nothing. -/
theorem answers_agree (root : String) (before : List Event) (c : Call)
    (earlier : ∀ e ∈ before, e.IsAdmissible) (now : c.IsAdmissible) :
    ∃ files, openFiles root (Tree.empty none) = (.ok (), files)
      ∧ ((files.after before).perform c).1
        = ((empty.after (before.filter (·.isCall))).perform c).1
      ∧ ((files.after before).perform c).1 = expected before c
      ∧ (files.after before).reopen = (.ok (), files.after before) := by
  obtain ⟨files, opened, start⟩ := agree_nothing root
  have agree := start.after earlier
  obtain ⟨inFiles, inMemory⟩ := agree.perform now
  exact ⟨files, opened, inFiles.trans inMemory.symm, inFiles, agree.reopen⟩

def sampleOrganization : Organization := ⟨"acme", ["Acme Inc", "Acme Labs"], by decide⟩

def sampleKey : PrivateKey := ⟨7, .pair .sample⟩

/-- An organization and a key are stored, and the files are opened anew. Then a stub is refused that
has the name of the key. -/
def sampleRun : List Event :=
  [.call (.put (.organization sampleOrganization)), .call (.put (.privateKey sampleKey)), .reopen,
    .call (.get (.organization "acme")), .call (.put (.privateKey ⟨7, .stub .ed25519⟩))]

theorem answers_agree_sample :
    (∀ e ∈ sampleRun, e.IsAdmissible) ∧ (Call.get (.privateKey 7)).IsAdmissible
      ∧ ∃ files, openFiles "/ca" (Tree.empty none) = (.ok (), files)
        ∧ ((files.after sampleRun).perform (.get (.privateKey 7))).1
          = ((empty.after (sampleRun.filter (·.isCall))).perform (.get (.privateKey 7))).1
        ∧ ((files.after sampleRun).perform (.get (.privateKey 7))).1
          = .ok (.privateKey sampleKey) := by
  have exported : ∀ key ∈ sampleKey.data, key.toPem.isOk = true := by
    rintro key ⟨rfl⟩
    decide +kernel
  have stub : ∀ key ∈ (PrivateKey.mk 7 (.stub .ed25519)).data, key.toPem.isOk = true := by
    rintro key ⟨⟩
  have earlier : ∀ e ∈ sampleRun, e.IsAdmissible := by
    intro e he
    simp only [sampleRun, List.mem_cons, List.not_mem_nil, or_false] at he
    obtain rfl | rfl | rfl | rfl | rfl := he
    · trivial
    · exact exported
    · trivial
    · show Files.isComponent "acme" = true
      decide
    · exact stub
  obtain ⟨files, opened, alike, answer, -⟩ :=
    answers_agree "/ca" sampleRun (.get (.privateKey 7)) earlier trivial
  exact ⟨earlier, trivial, files, opened, alike, answer⟩

end Stores

end CertAuthority
