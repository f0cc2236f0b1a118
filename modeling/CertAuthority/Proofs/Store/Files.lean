import CertAuthority.Proofs.KeyPair
import CertAuthority.Proofs.Store.Record
import CertAuthority.Proofs.Store.Tree
import CertAuthority.Store.Basic
import Mathlib.Logic.Function.Basic

namespace CertAuthority

open Store

inductive Record
  | organization (o : Organization)
  | certificate (c : IssuedCertificate)
  | privateKey (k : PrivateKey)
deriving DecidableEq

theorem Store.Files.Kind.directory_injective : Function.Injective Files.Kind.directory := by
  intro k l h
  cases k <;> cases l <;> first
    | rfl
    | exact absurd h (by decide)

namespace RecordName

def kind : RecordName → Files.Kind
  | organization _ => .organization
  | certificate _ => .certificate
  | privateKey _ => .privateKey

/-- The name of the directory of a record. -/
def key : RecordName → String
  | organization id => id
  | certificate serial => Numeral.decimal serial
  | privateKey serial => Numeral.decimal serial

/-- Whether a record can be asked for: the id of an organization can name a directory. -/
def IsAddress : RecordName → Prop
  | organization id => Files.isComponent id = true
  | certificate _ => True
  | privateKey _ => True

theorem eq_of_kind_key {a b : RecordName} (kind : a.kind = b.kind) (key : a.key = b.key) :
    a = b := by
  cases a <;> cases b <;> first
    | exact congrArg _ key
    | exact congrArg _ (SerialNumber.decimal_injective key)
    | cases kind

theorem eq_of_directory {a b : RecordName}
    (h : Files.directory a.kind a.key = Files.directory b.kind b.key) : a = b := by
  obtain ⟨kind, rest⟩ := List.cons.inj h
  exact eq_of_kind_key (Files.Kind.directory_injective kind) (List.cons.inj rest).1

theorem eq_of_path {a b : RecordName} (h : Files.path a.kind a.key = Files.path b.kind b.key) :
    a = b := by
  obtain ⟨kind, rest⟩ := List.cons.inj h
  exact eq_of_kind_key (Files.Kind.directory_injective kind) (List.cons.inj rest).1

end RecordName

namespace Record

def name : Record → RecordName
  | organization o => .organization o.id
  | certificate c => .certificate c.serial
  | privateKey k => .privateKey k.serial

/-- The text that a record is kept as in a file. A stub has none. -/
def text : Record → Except Fault String
  | organization o => .ok (OrganizationRecord.ofOrganization o).render
  | certificate c => .ok (CertificateRecord.ofCertificate c).render
  | privateKey k => k.dataToStore >>= (·.toPem)

/-- Whether a record may be put into a store: a certificate's organization can name a directory, and
a private key is a stub or can be written. -/
def IsStorable : Record → Prop
  | organization _ => True
  | certificate c => Files.isComponent c.organization = true
  | privateKey k => ∀ key ∈ k.data, key.toPem.isOk = true

/-- Why a record is not kept, if it is not. -/
def refusal? : Record → Option Fault
  | organization _ => none
  | certificate _ => none
  | privateKey k => if k.data.isSome then none else some (.input (.noKeyToStore k.serial))

theorem exists_text {r : Record} (storable : r.IsStorable) (kept : r.refusal? = none) :
    ∃ text, r.text = .ok text := by
  cases r with
  | organization o => exact ⟨_, rfl⟩
  | certificate c => exact ⟨_, rfl⟩
  | privateKey k =>
    cases data : k.data with
    | none => simp [refusal?, data] at kept
    | some key =>
      obtain ⟨text, done⟩ := exists_of_isOk (storable key data)
      refine ⟨text, ?_⟩
      rw [Record.text, PrivateKey.dataToStore, data]
      exact done

theorem text_of_refusal? {r : Record} {e : Fault} (h : r.refusal? = some e) :
    r.text = .error e := by
  cases r with
  | organization o => cases h
  | certificate c => cases h
  | privateKey k =>
    cases data : k.data with
    | none =>
      simp only [refusal?, data, Option.isSome_none, Bool.false_eq_true, if_false,
        Option.some.injEq] at h
      rw [text, PrivateKey.dataToStore, data, ← h]
      rfl
    | some key => simp [refusal?, data] at h

end Record

namespace Stores

def get (s : Stores) : RecordName → Except Fault Record
  | .organization id => (s.organization id).map .organization
  | .certificate serial => (s.certificate serial).map .certificate
  | .privateKey serial => (s.privateKey serial).map .privateKey

def put (s : Stores) : Record → Except Fault Unit × Stores
  | .organization o => s.putOrganization o
  | .certificate c => s.putCertificate c
  | .privateKey k => s.putPrivateKey k

end Stores


def RecordName.answer (kept : RecordName → Option Record) (name : RecordName) :
    Except Fault Record :=
  (kept name).elim (.error (.notFound name)) .ok

theorem PrivateKey.eq_of_dataToStore {k : PrivateKey} {key : KeyPair}
    (h : k.dataToStore = .ok key) : ofKeyPair k.serial key = k := by
  obtain ⟨serial, material⟩ := k
  cases material with
  | stub keyType => cases h
  | pair pair =>
    cases Except.ok.inj h
    rfl

namespace Store.Files

theorem checkComponent_ok {id : String} (h : isComponent id = true) : checkComponent id = .ok () :=
  if_pos h

/-- An organization's id can name a directory, and so it is never refused. -/
theorem isComponent_id (o : Organization) : isComponent o.id = true := by
  obtain ⟨long, chars, dot⟩ := Field.organizationId_spec o.rules.1
  have first : o.id ≠ "." := fun h => dot (by rw [h]; rfl)
  have second : o.id ≠ ".." := fun h => dot (by rw [h]; rfl)
  have filled : o.id.toList ≠ [] := fun h => long (by rw [h]; decide)
  have named : ∀ c ∈ o.id.toList, isNameChar c = true := by
    intro c hc
    have slug := chars c hc
    simp only [Text.isSlugChar, Bool.or_eq_true] at slug
    obtain ((lower | digit) | dash) | point := slug
    · simp [isNameChar, Text.isAlphanum_eq, lower]
    · simp [isNameChar, Text.isAlphanum_eq, digit]
    · simp [isNameChar, dash]
    · simp [isNameChar, point]
  simp [isComponent, first, second, filled, List.all_eq_true.mpr named]

/-- A tree in which every record that is kept is in its file, and nothing is in the place of one
that is not kept. -/
structure Keeps (t : Tree) (kept : RecordName → Option Record) : Prop where
  unbounded : t.limits = none
  kinds : ∀ kind : Kind, t.node? [kind.directory] = some .directory
  missing : ∀ name : RecordName, kept name = none →
    t.node? (directory name.kind name.key) = none ∧ t.node? (path name.kind name.key) = none
  present : ∀ (name : RecordName) (r : Record), kept name = some r →
    r.name = name ∧ r.IsStorable ∧ t.node? (directory name.kind name.key) = some .directory
      ∧ ∃ text, r.text = .ok text
        ∧ t.node? (path name.kind name.key) = some (.file (Der.utf8 text))

namespace Keeps

variable {t : Tree} {kept : RecordName → Option Record} (h : Keeps t kept)

include h

theorem readText_missing {name : RecordName} (missing : kept name = none) (root : String) :
    readText root t name.kind name.key name = .error (.notFound name) := by
  have found : t.follow (path name.kind name.key) = .missing :=
    Tree.follow_missing h.unbounded (h.kinds _) (h.missing name missing).1
  rw [readText, found]

theorem readText_present {name : RecordName} {r : Record} {text : String}
    (present : kept name = some r) (written : r.text = .ok text) (root : String) :
    readText root t name.kind name.key name = .ok text := by
  obtain ⟨-, -, directory, text', written', file⟩ := h.present name r present
  cases Except.ok.inj (written.symm.trans written')
  have found : t.follow (path name.kind name.key) = .node (.file (Der.utf8 text)) :=
    Tree.follow_node h.unbounded (h.kinds _) directory file
  rw [readText, found]
  simp only [Der.utf8Text?_utf8]

/-- A text that is written becomes that of its record, and no other record changes. -/
theorem writeText {r : Record} {text : String} (storable : r.IsStorable)
    (written : r.text = .ok text) (root : String) :
    ∃ t', writeText root t r.name.kind r.name.key text = (.ok (), t')
      ∧ Keeps t' (Function.update kept r.name (some r)) := by
  have free : (t.node? (directory r.name.kind r.name.key) = none
      ∨ t.node? (directory r.name.kind r.name.key) = some .directory)
      ∧ t.node? (path r.name.kind r.name.key) ≠ some .directory := by
    cases before : kept r.name with
    | none =>
      obtain ⟨directory, file⟩ := h.missing r.name before
      exact ⟨Or.inl directory, by rw [file]; simp⟩
    | some old =>
      obtain ⟨-, -, directory, _, -, file⟩ := h.present r.name old before
      exact ⟨Or.inr directory, by rw [file]; simp⟩
  obtain ⟨t', done, unbounded, nodes⟩ : ∃ t',
      t.write (directory r.name.kind r.name.key) r.name.kind.file (Der.utf8 text) = (true, t')
      ∧ t'.limits = none ∧ ∀ q, t'.node? q =
        if q = path r.name.kind r.name.key then some (.file (Der.utf8 text))
        else if q = directory r.name.kind r.name.key then some .directory else t.node? q :=
    Tree.write_spec h.unbounded (h.kinds _) free.1 free.2 (Der.utf8 text)
  -- Nothing changes in the place of another name.
  have other {name : RecordName} (different : name ≠ r.name) :
      t'.node? (directory name.kind name.key) = t.node? (directory name.kind name.key)
        ∧ t'.node? (path name.kind name.key) = t.node? (path name.kind name.key) := by
    constructor
    · rw [nodes, if_neg (by simp [path, directory]),
        if_neg fun same => different (RecordName.eq_of_directory same)]
    · rw [nodes, if_neg fun same => different (RecordName.eq_of_path same),
        if_neg (by simp [path, directory])]
  refine ⟨t', ?_, unbounded, fun kind => ?_, fun name missing => ?_, fun name r' present => ?_⟩
  · rw [Files.writeText, done]
  · rw [nodes, if_neg (by simp [path, directory]), if_neg (by simp [directory])]
    exact h.kinds kind
  · have different : name ≠ r.name := by
      rintro rfl
      simp at missing
    rw [Function.update_of_ne different] at missing
    rw [(other different).1, (other different).2]
    exact h.missing name missing
  · by_cases same : name = r.name
    · subst name
      rw [Function.update_self, Option.some.injEq] at present
      subst r'
      refine ⟨rfl, storable, ?_, text, written, ?_⟩
      · rw [nodes, if_neg (by simp [path, directory])]
        exact if_pos rfl
      · rw [nodes]
        exact if_pos rfl
    · rw [Function.update_of_ne same] at present
      rw [(other same).1, (other same).2]
      exact h.present name r' present

theorem get_missing {name : RecordName} (missing : kept name = none) (root : String)
    (address : name.IsAddress) :
    (Stores.files root t).get name = .error (.notFound name) := by
  have absent := h.readText_missing missing root
  cases name with
  | organization id =>
    show (Files.organization root t id).map _ = _
    rw [RecordName.kind, RecordName.key] at absent
    rw [Files.organization, checkComponent_ok address, ok_bind, absent]
    rfl
  | certificate serial =>
    show (Files.certificate root t serial).map _ = _
    rw [RecordName.kind, RecordName.key] at absent
    simp only [Files.certificate, absent]
    rfl
  | privateKey serial =>
    show (Files.privateKey root t serial).map _ = _
    rw [RecordName.kind, RecordName.key] at absent
    simp only [Files.privateKey, absent]
    rfl

theorem get_present {r : Record} (present : kept r.name = some r) (root : String) :
    (Stores.files root t).get r.name = .ok r := by
  obtain ⟨-, -, -, text, written, -⟩ := h.present r.name r present
  have there := h.readText_present present written root
  cases r with
  | organization o =>
    cases Except.ok.inj written
    have record := OrganizationRecord.parse?_render (.ofOrganization o)
    show (Files.organization root t o.id).map _ = _
    rw [Record.name, RecordName.kind, RecordName.key] at there
    rw [Files.organization, checkComponent_ok (isComponent_id o), ok_bind, there, ok_bind, record]
    simp only [orUnreadable, ok_bind, OrganizationRecord.toOrganization_ofOrganization]
    rfl
  | certificate c =>
    cases Except.ok.inj written
    have record := CertificateRecord.parse?_render (.ofCertificate c)
    show (Files.certificate root t c.serial).map _ = _
    rw [Record.name, RecordName.kind, RecordName.key] at there
    simp only [Files.certificate, there, ok_bind, record, orUnreadable,
      CertificateRecord.toCertificate_ofCertificate, if_true]
    rfl
  | privateKey k =>
    obtain ⟨key, data, exported⟩ := bind_eq_ok.mp written
    show (Files.privateKey root t k.serial).map _ = _
    rw [Record.name, RecordName.kind, RecordName.key] at there
    simp only [Files.privateKey, there, ok_bind, KeyPair.ofPem_toPem exported]
    rw [← PrivateKey.eq_of_dataToStore data]
    rfl

theorem get (root : String) {name : RecordName} (address : name.IsAddress) :
    (Stores.files root t).get name = name.answer kept := by
  rw [RecordName.answer]
  cases found : kept name with
  | none => exact h.get_missing found root address
  | some r =>
    obtain ⟨rfl, -⟩ := h.present name r found
    exact h.get_present found root

theorem put_ok {r : Record} (storable : r.IsStorable) (accepted : r.refusal? = none)
    (root : String) :
    ∃ t', (Stores.files root t).put r = (.ok (), .files root t')
      ∧ Keeps t' (Function.update kept r.name (some r)) := by
  obtain ⟨text, written⟩ := Record.exists_text storable accepted
  obtain ⟨t', done, keeps⟩ := h.writeText storable written root
  refine ⟨t', ?_, keeps⟩
  cases r with
  | organization o =>
    cases Except.ok.inj written
    rw [Record.name, RecordName.kind, RecordName.key] at done
    simp only [Stores.put, Stores.putOrganization, Stores.change, putOrganization,
      checkComponent_ok (isComponent_id o), done]
  | certificate c =>
    cases Except.ok.inj written
    rw [Record.name, RecordName.kind, RecordName.key] at done
    simp only [Stores.put, Stores.putCertificate, Stores.change, putCertificate,
      checkComponent_ok storable, done]
  | privateKey k =>
    rw [Record.name, RecordName.kind, RecordName.key] at done
    rw [Record.text] at written
    simp only [Stores.put, Stores.putPrivateKey, Stores.change, putPrivateKey, written, done]

/-- A tree that keeps records has the directories that opening it makes. -/
theorem prepare_self (root : String) : prepare root t = (.ok (), t) := by
  have there (kind : Kind) : t.makeDirectory [kind.directory] = (true, t) := by
    rw [Tree.makeDirectory, if_pos (Tree.reaches_all h.unbounded _),
      Tree.makeFrom_directory h.unbounded (h.kinds kind)]
    rfl
  simp only [prepare, List.foldl_cons, List.foldl_nil, there]

end Keeps

theorem put_refused {r : Record} {e : Fault} (refused : r.refusal? = some e) (root : String)
    (t : Tree) : (Stores.files root t).put r = (.error e, .files root t) := by
  have unwritten := Record.text_of_refusal? refused
  cases r with
  | organization o => cases refused
  | certificate c => cases refused
  | privateKey k =>
    rw [Record.text] at unwritten
    simp only [Stores.put, Stores.putPrivateKey, Stores.change, putPrivateKey, unwritten]

theorem keeps_nothing (root : String) :
    ∃ t, prepare root (Tree.empty none) = (.ok (), t) ∧ Keeps t fun _ => none := by
  refine ⟨⟨none, [(["keys"], .directory), (["certificates"], .directory),
    (["organizations"], .directory)]⟩, rfl, rfl, ?_, fun name _ => ?_, fun _ _ h => by cases h⟩
  · intro kind
    cases kind <;> rfl
  · simp [Tree.node?, directory, path]

end Store.Files

end CertAuthority
