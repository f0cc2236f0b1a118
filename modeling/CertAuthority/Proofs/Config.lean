import CertAuthority.Config
import CertAuthority.Proofs.Json.Field

namespace CertAuthority

open Json

theorem KeyType.ofName_name (t : KeyType) : ofName t.name = .ok t := by
  cases t <;> rfl

namespace Config

theorem keyTypeOfJson?_ofText (t : KeyType) : keyTypeOfJson? (ofText t.name).reread = some t := by
  rw [keyTypeOfJson?, text?_reread, text?_ofText, Option.bind_eq_bind, Option.bind_some,
    KeyType.ofName_name]
  rfl

theorem countOfJson?_ofInt (n : UInt64) : countOfJson? (ofInt n.toNat).reread = some n := by
  have bound : n.toNat < UInt64.size := n.toNat_lt
  show countOfJson? (ofInt n.toNat) = some n
  rw [countOfJson?, int?_ofInt, Option.bind_eq_bind, Option.bind_some, if_pos (by omega),
    Int.toNat_natCast, UInt64.ofNat_toNat]

theorem daysOfJson?_ofInt (n : Int64) : daysOfJson? (ofInt n.toInt).reread = some n := by
  have low : Int64.minValue.toInt ≤ n.toInt := n.le_toInt
  have high : n.toInt ≤ Int64.maxValue.toInt := Int.le_of_lt_add_one n.toInt_lt
  show daysOfJson? (ofInt n.toInt) = some n
  rw [daysOfJson?, int?_ofInt, Option.bind_eq_bind, Option.bind_some, if_pos ⟨low, high⟩,
    Int64.ofInt_toInt]

/-- The text that says what kind of thing an object is does not belong to the thing. -/
theorem splitKind?_object (kind : String) {name : String} (h : name ≠ kindField) (value : Json) :
    splitKind? (object [(pieces kindField, ofText kind), (pieces name, value)]).reread
      = some (kind, (object [(pieces name, value)]).reread) := by
  have text : (ofText kind).reread.text? = some kind := by rw [text?_reread, text?_ofText]
  simp [splitKind?, reread, rereadMembers, textOf?_reread, textOf?_pieces, h, text]

theorem fields?_single (name : String) (value : Json) :
    (object [(pieces name, value)]).reread.fields? [name] = some [some value.reread] := by
  have kept : [(name, value)].Perm ([(name, value)].filter (·.1 ∉ []) ++ []) := by simp
  have distinct : ([(name, value)].map (·.1)).Nodup := List.nodup_singleton _
  have found := fields?_of_perm distinct (by simp) kept
  simpa [fields?_reread] using congrArg (Option.map (List.map (Option.map reread))) found

theorem storageOfJson?_storageToJson (s : StorageConfig) :
    storageOfJson? (storageToJson s).reread = some s := by
  cases s with
  | memory => decide
  | file path =>
    have proper : (storageToJson (.file path)).reread.isProper maxDepth = true := by
      show areProperMembers 125 (rereadMembers _) = true
      simp [rereadMembers, areProperMembers, isProper, ofText, reread, decode?_reread,
        decode?_pieces]
    have kind := splitKind?_object "file" (show pathField ≠ kindField by decide) (ofText path)
    have found := fields?_single pathField (ofText path)
    rw [storageOfJson?, if_pos proper, storageToJson, kind]
    simp [found, text?_reread, text?_ofText]

theorem isWritable_storageToJson (s : StorageConfig) : (storageToJson s).IsWritable := by
  cases s with
  | memory =>
    show IsWritable (object ([(kindField, ofText "memory")].map (Prod.map pieces id)))
    exact isWritable_object (by simp [isWritable_ofText])
  | file path =>
    show IsWritable (object ([(kindField, ofText "file"), (pathField, ofText path)].map
      (Prod.map pieces id)))
    exact isWritable_object (by simp [isWritable_ofText])

/-- The fields of a configuration with their values, in order. -/
def fields (c : Config) : List (String × Json) :=
  fieldNames.zip [storageToJson c.storage, ofText c.keyType.name, ofInt c.rsaBits.toNat,
    ofInt c.rootDays.toInt, ofInt c.intermediateDays.toInt, ofInt c.leafDays.toInt]

theorem toJson_eq_object (c : Config) : c.toJson = object (c.fields.map (Prod.map pieces id)) :=
  congrArg object List.zip_map_left

theorem isWritable_fields (c : Config) : ∀ field ∈ c.fields, field.2.IsWritable := by
  simp [fields, fieldNames, isWritable_storageToJson, isWritable_ofText, isWritable_ofInt]

/-- A configuration whose fields of some names have their defaults. -/
def without (out : List String) (c : Config) : Config where
  storage := if "storage" ∈ out then default.storage else c.storage
  keyType := if "key_type" ∈ out then default.keyType else c.keyType
  rsaBits := if "rsa_bits" ∈ out then default.rsaBits else c.rsaBits
  rootDays := if "root_expiration_days" ∈ out then default.rootDays else c.rootDays
  intermediateDays :=
    if "intermediate_expiration_days" ∈ out then default.intermediateDays else c.intermediateDays
  leafDays := if "leaf_expiration_days" ∈ out then default.leafDays else c.leafDays

theorem orDefault_left {α : Type} {read : Json → Option α} {v : α} {j : Json}
    (h : read j = some v) (default : α) (left : Prop) [Decidable left] :
    orDefault read default (if left then none else some j)
      = some (if left then default else v) := by
  split
  · rfl
  · exact h

/-- Fields in any order, some left out and others added, make the configuration with defaults for
what was left out. -/
theorem ofJson?_of_fields? {j : Json} {c : Config} {out : List String}
    (h : j.fields? fieldNames
      = some (c.fields.map fun field => if field.1 ∈ out then none else some field.2.reread)) :
    ofJson? j = some (c.without out) := by
  rw [ofJson?, h]
  simp only [fields, fieldNames, List.zip_cons_cons, List.zip_nil_left, List.map_cons,
    List.map_nil, Option.bind_eq_bind, Option.bind_some]
  rw [orDefault_left (storageOfJson?_storageToJson _), Option.bind_some,
    orDefault_left (keyTypeOfJson?_ofText _), Option.bind_some,
    orDefault_left (countOfJson?_ofInt _), Option.bind_some,
    orDefault_left (daysOfJson?_ofInt _), Option.bind_some,
    orDefault_left (daysOfJson?_ofInt _), Option.bind_some,
    orDefault_left (daysOfJson?_ofInt _), Option.bind_some]
  rfl

theorem parse_of_isTextOf {c : Config} {out : List String} {others members : List (String × Json)}
    (foreign : ∀ field ∈ others, field.1 ∉ fieldNames ∧ field.2.IsWritable)
    (perm : members.Perm (c.fields.filter (·.1 ∉ out) ++ others)) {text : String}
    (written : IsTextOf text (object (members.map (Prod.map pieces id)))) :
    parse text = .ok (c.without out) := by
  have distinct : (c.fields.map (·.1)).Nodup := by
    show fieldNames.Nodup
    decide
  have writable : ∀ field ∈ c.fields ++ others, field.2.IsWritable :=
    List.forall_mem_append.mpr ⟨c.isWritable_fields, fun field found => (foreign field found).2⟩
  obtain ⟨j, read, found⟩ := Option.bind_eq_some_iff.mp
    (fields?_of_isTextOf distinct (fun field found => (foreign field found).1) writable perm
      written)
  rw [parse, read, Option.bind_some, ofJson?_of_fields? found]
  rfl

theorem parse_text {c : Config} {text : String} (written : IsTextOf text c.toJson) :
    parse text = .ok c := by
  have all : c.fields.Perm (c.fields.filter (·.1 ∉ []) ++ []) := by simp
  rw [toJson_eq_object] at written
  exact parse_of_isTextOf (List.forall_mem_nil _) all written

/-- A configuration is read back from its text, on many lines or without white space. So is what an
object says that has lost some fields, has the others in any order and has members of other names
between them, however it is laid out: what was lost has its default. -/
theorem parse_written (c : Config) :
    parse c.render = .ok c ∧ parse c.toJson.compact = .ok c
      ∧ ∀ (out : List String) (others members : List (String × Json)) (text : String),
        (∀ field ∈ others, field.1 ∉ fieldNames ∧ field.2.IsWritable) →
        members.Perm (c.fields.filter (·.1 ∉ out) ++ others) →
        IsTextOf text (object (members.map (Prod.map pieces id))) →
        parse text = .ok (c.without out) :=
  ⟨parse_text (isTextOf_render _), parse_text (isTextOf_compact _),
    fun _ _ _ _ foreign perm written => parse_of_isTextOf foreign perm written⟩

/-- Numbers at the ends of their ranges, and a path with quotes, a backslash and control
characters. -/
def sample : Config where
  storage := .file "/a \"b\"\\\n\x01"
  keyType := .ed25519
  rsaBits := 18446744073709551615
  rootDays := Int64.minValue
  intermediateDays := -1
  leafDays := Int64.maxValue

def sampleOthers : List (String × Json) :=
  [("note", null), ("note", ofText "\x00"), ("Storage", ofInt (-7))]

/-- Two fields are left out, and the others stand backwards behind those of other names. -/
def sampleMembers : List (String × Json) :=
  (sample.fields.filter (·.1 ∉ ["rsa_bits", "leaf_expiration_days"]) ++ sampleOthers).reverse

def sampleText : String := (object (sampleMembers.map (Prod.map pieces id))).compact

theorem parse_written_sample :
    (∀ field ∈ sampleOthers, field.1 ∉ fieldNames ∧ field.2.IsWritable)
      ∧ sampleMembers.Perm
        (sample.fields.filter (·.1 ∉ ["rsa_bits", "leaf_expiration_days"]) ++ sampleOthers)
      ∧ IsTextOf sampleText (object (sampleMembers.map (Prod.map pieces id)))
      ∧ parse sampleText
        = .ok { sample with rsaBits := 2048, leafDays := 365 } := by
  have foreign : ∀ field ∈ sampleOthers, field.1 ∉ fieldNames ∧ field.2.IsWritable := by
    have empty : IsWritable null := rfl
    simp [sampleOthers, fieldNames, empty, isWritable_ofText, isWritable_ofInt]
  have perm := List.reverse_perm
    (sample.fields.filter (·.1 ∉ ["rsa_bits", "leaf_expiration_days"]) ++ sampleOthers)
  have written := isTextOf_compact (object (sampleMembers.map (Prod.map pieces id)))
  exact ⟨foreign, perm, written,
    (parse_written sample).2.2 _ sampleOthers sampleMembers sampleText foreign perm written⟩

end Config

end CertAuthority
