import CertAuthority.Extension.BasicConstraints
import CertAuthority.Extension.KeyIdentifier
import CertAuthority.Extension.KeyUsage
import CertAuthority.Extension.Purpose
import CertAuthority.Proofs.Der.Primitive
import CertAuthority.Proofs.Fault

namespace CertAuthority

/-- A kind of extension whose values are read back from the elements that they are written as. -/
class LawfulExtensionValue (α : Type) [ExtensionValue α] : Prop where
  known {a : α} {e : Der.Element} : ExtensionValue.element a = .ok e → Der.Tag.isKnown e.tag = true
  ofElement?_element {a : α} {e : Der.Element} :
    ExtensionValue.element a = .ok e → e.Fits → ExtensionValue.ofElement? e = some a

namespace ExtensionValue

/-- The bytes of an element are read as what the element is read as. -/
theorem decode_of_withinLimit {α : Type} [ExtensionValue α] {e : Der.Element} {b : Bytes}
    (known : Der.Tag.isKnown e.tag = true) (h : withinLimit e.encode = .ok b) :
    decode α b = orMalformed (ofElement? e) := by
  obtain ⟨rfl, readable⟩ := readable_of_withinLimit known h
  rw [decode, Der.Element.ofBytes?_encode readable, Option.bind_some]

theorem decode_encode {α : Type} [ExtensionValue α] [LawfulExtensionValue α] {a : α} {b : Bytes}
    (h : encode a = .ok b) : decode α b = .ok a := by
  obtain ⟨e, he, hb⟩ := bind_eq_ok.mp h
  have readable := (readable_of_withinLimit (LawfulExtensionValue.known he) hb).2
  rw [decode_of_withinLimit readable.known hb,
    LawfulExtensionValue.ofElement?_element he readable.fits]
  rfl

theorem decode_encode_append {α : Type} [ExtensionValue α] [LawfulExtensionValue α] {a : α}
    {b rest : Bytes} (h : encode a = .ok b) (more : rest ≠ []) :
    decode α (b ++ rest) = .error .malformed := by
  obtain ⟨e, he, hb⟩ := bind_eq_ok.mp h
  obtain ⟨rfl, readable⟩ := readable_of_withinLimit (LawfulExtensionValue.known he) hb
  rw [decode, Der.Element.ofBytes?_append readable more]
  rfl

end ExtensionValue

theorem filterMap_of_inverse {α : Type} {f : α → Option α} {values : List α}
    (h : ∀ a ∈ values, f a = some a) : values.filterMap f = values := by
  induction values with
  | nil => rfl
  | cons a rest ih =>
    obtain ⟨first, later⟩ := List.forall_mem_cons.mp h
    rw [List.filterMap_cons_some first, ih later]

namespace BasicConstraints

theorem length?_integer (n : UInt8) : length? (.integer n.toNat) = some n := by
  have small : n.toNat < 256 := n.toNat_lt
  rw [length?, Der.Element.natural?_integer]
  simp [small]

theorem ofElement?_element {c : BasicConstraints} (fits : c.element.Fits) :
    ofElement? c.element = some c := by
  have parts : c.element.sequence? = some ((if c.isCa then [.boolean true] else [])
      ++ c.maxPathLength.toList.map (.integer ·.toNat)) := by
    apply Der.Element.sequence?_sequence _ fits
    intro x hx
    rcases List.mem_append.mp hx with hx | hx
    · split at hx
      next =>
        rw [List.mem_singleton.mp hx]
        rfl
      next => simp at hx
    · obtain ⟨n, -, rfl⟩ := List.mem_map.mp hx
      rfl
  rw [ofElement?, parts]
  obtain ⟨isCa, length⟩ := c
  cases isCa with
  | false =>
    cases length with
    | none => rfl
    | some n =>
      have other : ¬ (Der.Element.integer n.toNat).tag = Der.Tag.boolean :=
        show ¬ Der.Tag.integer = Der.Tag.boolean by decide
      simp [length?_integer, other]
  | true =>
    cases length with
    | none => rfl
    | some n => simp [length?_integer, Der.Element.boolean?_boolean]

instance : LawfulExtensionValue BasicConstraints where
  known h := by
    cases Except.ok.inj h
    rfl
  ofElement?_element h fits := by
    cases Except.ok.inj h
    exact ofElement?_element fits

end BasicConstraints

namespace KeyUsage

/-- Whether a use survives the way through a bit string, and whether that can be read. -/
def survives (u : KeyUsage) : Bool :=
  decide (Der.BitString.ofContent? u.toBitString.content = some u.toBitString)
    && decide (ofBitString? u.toBitString = some u)

theorem survives_all : ∀ a b c d e f g h i, survives ⟨a, b, c, d, e, f, g, h, i⟩ = true := by
  decide +kernel

instance : LawfulExtensionValue KeyUsage where
  known h := by
    cases Except.ok.inj h
    rfl
  ofElement?_element {u e} h _ := by
    cases Except.ok.inj h
    obtain ⟨hc, hb⟩ := Bool.and_eq_true_iff.mp (survives_all u.1 u.2 u.3 u.4 u.5 u.6 u.7 u.8 u.9)
    have content : Der.BitString.ofElement? u.toBitString.element = some u.toBitString :=
      of_decide_eq_true hc
    change (Der.BitString.ofElement? u.toBitString.element).bind ofBitString? = _
    rw [content, Option.bind_some]
    exact of_decide_eq_true hb

theorem eq_none_of_isEmpty {u : KeyUsage} (h : u.isEmpty = true) : u = none := by
  cases u
  simp [isEmpty, bits] at h
  simp [none, h]

end KeyUsage

namespace Purpose

theorem oid_readable (p : Purpose) : p.oid.Readable := by cases p <;> decide

theorem ofOid?_oid (p : Purpose) : ofOid? p.oid = some p := by cases p <;> decide

end Purpose

namespace ExtendedKeyUsage

theorem ofElement?_element {u : ExtendedKeyUsage} (fits : u.element.Fits) :
    ofElement? u.element = some u := by
  have parts : u.element.sequence? = some (u.purposes.map (·.oid.element)) := by
    apply Der.Element.sequence?_sequence _ fits
    intro x hx
    obtain ⟨p, -, rfl⟩ := List.mem_map.mp hx
    rfl
  have oids : (u.purposes.map (·.oid.element)).mapM Oid.ofElement?
      = some (u.purposes.map (·.oid)) := by
    have two : u.purposes.map (·.oid.element) = (u.purposes.map (·.oid)).map Oid.element := by simp
    rw [two]
    apply Der.mapM_map_of_inverse
    intro o ho
    obtain ⟨p, -, rfl⟩ := List.mem_map.mp ho
    exact Oid.ofElement?_element p.oid_readable
  have purposes : (u.purposes.map (·.oid)).filterMap Purpose.ofOid? = u.purposes := by
    rw [List.filterMap_map]
    exact filterMap_of_inverse fun p _ => p.ofOid?_oid
  rw [ofElement?, parts, Option.bind_eq_bind, Option.bind_some, oids]
  simp only [Option.bind_eq_bind, Option.bind_some, purposes]

instance : LawfulExtensionValue ExtendedKeyUsage where
  known h := by
    cases Except.ok.inj h
    rfl
  ofElement?_element h fits := by
    cases Except.ok.inj h
    exact ofElement?_element fits

end ExtendedKeyUsage

namespace SubjectAltName

def dnsElement (name : String) : Der.Element := ⟨GeneralName.dnsTag, Der.utf8 name⟩

theorem nameElement_eq_ok {name : String} {e : Der.Element} :
    nameElement name = .ok e ↔ e = dnsElement name ∧ Der.isAscii (Der.utf8 name) = true := by
  unfold nameElement
  split
  next h => simp [h, dnsElement, eq_comm]
  next h => simp [h]

/-- The first name that is not ASCII. -/
def misfit? (s : SubjectAltName) : Option String :=
  s.names.find? fun name => !Der.isAscii (Der.utf8 name)

/-- The listing of all names as if they were ASCII. -/
def draft (s : SubjectAltName) : Der.Element := .sequence (s.names.map dnsElement)

/-- Names are written one after another, up to the first one that is not ASCII. -/
theorem mapM_nameElement (names : List String) : names.mapM nameElement
    = match names.find? fun name => !Der.isAscii (Der.utf8 name) with
      | none => .ok (names.map dnsElement)
      | some name => .error (.input (.dnsName name)) := by
  induction names with
  | nil => rfl
  | cons name rest ih =>
    rw [List.mapM_cons, ih]
    by_cases ascii : Der.isAscii (Der.utf8 name) = true
    · rw [nameElement_eq_ok.mpr ⟨rfl, ascii⟩, ok_bind, List.find?_cons_of_neg (by simp [ascii])]
      cases rest.find? fun name => !Der.isAscii (Der.utf8 name) with
      | none => rfl
      | some other => rfl
    · have refused : nameElement name = .error (.input (.dnsName name)) := if_neg ascii
      rw [refused, List.find?_cons_of_pos (by simp [ascii])]
      rfl

theorem element_eq (s : SubjectAltName) : s.element
    = match s.misfit? with
      | none => .ok s.draft
      | some name => .error (.input (.dnsName name)) := by
  rw [element, mapM_nameElement, misfit?]
  cases s.names.find? fun name => !Der.isAscii (Der.utf8 name) with
  | none => rfl
  | some name => rfl

theorem element_eq_ok {s : SubjectAltName} {e : Der.Element} (h : s.element = .ok e) :
    e = .sequence (s.names.map dnsElement)
      ∧ ∀ name ∈ s.names, Der.isAscii (Der.utf8 name) = true := by
  rw [element_eq] at h
  cases misfit : s.misfit? with
  | some name =>
    rw [misfit] at h
    cases h
  | none =>
    rw [misfit] at h
    refine ⟨(Except.ok.inj h).symm, fun name hn => ?_⟩
    simpa using List.find?_eq_none.mp misfit name hn

theorem element_of_ascii {s : SubjectAltName}
    (ascii : ∀ name ∈ s.names, Der.isAscii (Der.utf8 name) = true) :
    s.element = .ok (.sequence (s.names.map dnsElement)) := by
  have fitting : s.misfit? = none := List.find?_eq_none.mpr fun name hn => by simp [ascii name hn]
  rw [element_eq, fitting]
  rfl

theorem ofElement?_dnsElement {name : String} (h : Der.isAscii (Der.utf8 name) = true) :
    GeneralName.ofElement? (dnsElement name) = some (.dns (Der.utf8 name)) := by
  have form : ¬ GeneralName.dnsTag = Der.Tag.contextConstructed 0 := by decide
  have mail : ¬ GeneralName.dnsTag = Der.Tag.context 1 := by decide
  rw [GeneralName.ofElement?, dnsElement, if_neg form, if_neg mail, if_pos rfl]
  exact if_pos h

theorem ofElement?_sequence {names : List String}
    (ascii : ∀ name ∈ names, Der.isAscii (Der.utf8 name) = true)
    (fits : (Der.Element.sequence (names.map dnsElement)).Fits) :
    ofElement? (.sequence (names.map dnsElement)) = some ⟨names⟩ := by
  have parts : Der.Element.readAll (Der.Element.encodeAll (names.map dnsElement))
      = some (names.map dnsElement) := by
    apply Der.Element.sequence?_sequence _ fits
    intro x hx
    obtain ⟨name, -, rfl⟩ := List.mem_map.mp hx
    exact show Der.Tag.isKnown GeneralName.dnsTag = true by decide
  have forms : (names.map dnsElement).mapM GeneralName.ofElement?
      = some (names.map fun name => .dns (Der.utf8 name)) := by
    clear parts fits
    induction names with
    | nil => rfl
    | cons name rest ih =>
      obtain ⟨first, later⟩ := List.forall_mem_cons.mp ascii
      rw [List.map_cons, List.mapM_cons, ofElement?_dnsElement first, ih later]
      rfl
  have texts : (names.map fun name => GeneralName.dns (Der.utf8 name)).filterMap (·.dnsText?)
      = names := by
    rw [List.filterMap_map]
    exact filterMap_of_inverse fun name _ => Der.utf8Text?_utf8 name
  rw [ofElement?, Der.Element.sequence, Der.Element.content?_of_tag, Option.bind_eq_bind,
    Option.bind_some, GeneralName.readAll, parts]
  simp only [Option.bind_eq_bind, Option.bind_some, forms, texts]

instance : LawfulExtensionValue SubjectAltName where
  known h := by
    rw [(element_eq_ok h).1]
    rfl
  ofElement?_element h fits := by
    obtain ⟨rfl, ascii⟩ := element_eq_ok h
    exact ofElement?_sequence ascii fits

end SubjectAltName

instance : LawfulExtensionValue SubjectKeyIdentifier where
  known h := by
    cases Except.ok.inj h
    rfl
  ofElement?_element h _ := by
    cases Except.ok.inj h
    rfl

namespace AuthorityKeyIdentifier

theorem ofElement?_element {i : AuthorityKeyIdentifier} (fits : i.element.Fits) :
    ofElement? i.element = some i := by
  have known : Der.Tag.isKnown (Der.Tag.context 0) = true := by decide
  have parts : i.element.sequence? = some [⟨Der.Tag.context 0, i.octets⟩] := by
    apply Der.Element.sequence?_sequence _ fits
    intro x hx
    rw [List.mem_singleton.mp hx]
    exact known
  have key : Der.takeContext 0 [⟨Der.Tag.context 0, i.octets⟩]
      = (some ⟨Der.Tag.context 0, i.octets⟩, []) :=
    Der.takeContext_same (show Der.Tag.isContext (Der.Tag.context 0) = true by decide)
      (show Der.Tag.number (Der.Tag.context 0) = 0 by decide)
  have issuer : Der.takeContext 1 [] = (none, []) := rfl
  have serial : Der.takeContext 2 [] = (none, []) := rfl
  rw [ofElement?, parts]
  simp only [Option.bind_eq_bind, Option.bind_some, key, issuer, serial, Option.mapM_some,
    Option.mapM_none, Der.Element.content?_of_tag]
  rfl

instance : LawfulExtensionValue AuthorityKeyIdentifier where
  known h := by
    cases Except.ok.inj h
    rfl
  ofElement?_element h fits := by
    cases Except.ok.inj h
    exact ofElement?_element fits

end AuthorityKeyIdentifier

end CertAuthority
