import CertAuthority.Der.Element
import CertAuthority.Proofs.Bytes
import Mathlib.Data.List.Forall2

namespace CertAuthority.Der

theorem lengthLimit_lt : lengthLimit < 256 ^ 4 := by decide

theorem natBytes_length_of_le_limit {n : Nat} (h : n ≤ lengthLimit) : (natBytes n).length ≤ 4 :=
  natBytes_length_le (by have := lengthLimit_lt; omega)

theorem encodeLength_length_le {n : Nat} (h : n ≤ lengthLimit) : (encodeLength n).length ≤ 5 := by
  unfold encodeLength
  split
  next => simp
  next =>
    have := natBytes_length_of_le_limit h
    rw [List.length_cons]
    omega

theorem readLength_encodeLength {n : Nat} (h : n ≤ lengthLimit) (rest : Bytes) :
    readLength (encodeLength n ++ rest) = some (n, rest) := by
  by_cases short : n < 0x80
  · have value : (UInt8.ofNat n).toNat = n := by rw [toNat_ofNat_mod]; omega
    have low : UInt8.ofNat n < 0x80 := UInt8.lt_iff_toNat_lt.mpr (by rw [value]; exact short)
    simp only [encodeLength, if_pos short, List.cons_append, List.nil_append, readLength,
      if_pos low, value]
  · have bound := natBytes_length_of_le_limit h
    have value : (UInt8.ofNat (0x80 + (natBytes n).length)).toNat = 0x80 + (natBytes n).length := by
      rw [toNat_ofNat_mod]
      omega
    have high : ¬ UInt8.ofNat (0x80 + (natBytes n).length) < 0x80 := by
      rw [UInt8.lt_iff_toNat_lt, value]
      simp
    have long : encodeLength n = UInt8.ofNat (0x80 + (natBytes n).length) :: natBytes n := by
      rw [encodeLength, if_neg short]
    rw [long, List.cons_append, readLength, if_neg high, value]
    simp only [Nat.add_sub_cancel_left, List.take_left, List.drop_left, beNat_natBytes, long, h,
      and_self, if_true]

theorem encodeLength_of_readLength {b rest : Bytes} {n : Nat} (h : readLength b = some (n, rest)) :
    b = encodeLength n ++ rest ∧ n ≤ lengthLimit := by
  cases b with
  | nil => simp [readLength] at h
  | cons x octets =>
    simp only [readLength] at h
    split at h
    next low =>
      obtain ⟨rfl, rfl⟩ := Prod.mk.inj (Option.some.inj h)
      have short : x.toNat < 0x80 := by simpa using UInt8.lt_iff_toNat_lt.mp low
      have limit : (0x80 : Nat) ≤ lengthLimit := by decide
      refine ⟨?_, by omega⟩
      rw [encodeLength, if_pos short, UInt8.ofNat_toNat]
      rfl
    next high =>
      split at h
      next found =>
        obtain ⟨rfl, rfl⟩ := Prod.mk.inj (Option.some.inj h)
        refine ⟨?_, found.1⟩
        rw [found.2, List.cons_append, List.take_append_drop]
      next => simp at h

namespace Element

def Fits (e : Element) : Prop := e.content.length ≤ lengthLimit

/-- An element that is read back: its tag is understood and its content not too long. -/
structure Readable (e : Element) : Prop where
  known : Tag.isKnown e.tag = true
  fits : e.Fits

theorem read_encode {e : Element} (h : e.Readable) (rest : Bytes) :
    read (e.encode ++ rest) = some (e, rest) := by
  have size := readLength_encodeLength h.fits (e.content ++ rest)
  simp only [encode, List.cons_append, List.append_assoc, read, h.known, if_true, size,
    List.length_append, Nat.le_add_right, List.take_left, List.drop_left]

theorem encode_of_read {b rest : Bytes} {e : Element} (h : read b = some (e, rest)) :
    b = e.encode ++ rest ∧ e.Readable := by
  cases b with
  | nil => simp [read] at h
  | cons tag octets =>
    simp only [read] at h
    split at h
    next known =>
      split at h
      next => simp at h
      next n tail hl =>
        obtain ⟨hb, hn⟩ := encodeLength_of_readLength hl
        split at h
        next enough =>
          obtain ⟨rfl, rfl⟩ := Prod.mk.inj (Option.some.inj h)
          have length : (tail.take n).length = n := by rw [List.length_take]; omega
          refine ⟨?_, known, ?_⟩
          · rw [encode, hb, length, List.cons_append, List.append_assoc, List.take_append_drop]
          · exact length.le.trans hn
        next => simp at h
    next => simp at h

theorem readAll_nil : readAll [] = some [] := by
  rw [readAll]
  rfl

theorem readAll_append {e : Element} {b rest : Bytes} (h : read b = some (e, rest)) :
    readAll b = (readAll rest).map (e :: ·) := by
  have filled : b.isEmpty = false := by
    cases b with
    | nil => simp [read] at h
    | cons => rfl
  rw [readAll]
  simp only [filled, Bool.false_eq_true, if_false]
  split
  next hr => rw [h] at hr; simp at hr
  next hr =>
    rw [h] at hr
    obtain ⟨rfl, rfl⟩ := Prod.mk.inj (Option.some.inj hr)
    rfl

theorem encodeAll_cons (e : Element) (es : List Element) :
    encodeAll (e :: es) = e.encode ++ encodeAll es := List.flatMap_cons

theorem readAll_encodeAll {es : List Element} (h : ∀ e ∈ es, e.Readable) :
    readAll (encodeAll es) = some es := by
  induction es with
  | nil => exact readAll_nil
  | cons e es ih =>
    have first := read_encode (h e (by simp)) (encodeAll es)
    have later := ih fun x hx => h x (List.mem_cons_of_mem e hx)
    rw [encodeAll_cons, readAll_append first, later]
    rfl

theorem encodeAll_of_readAll {b : Bytes} {es : List Element} (h : readAll b = some es) :
    encodeAll es = b ∧ ∀ e ∈ es, e.Readable := by
  induction es generalizing b with
  | nil =>
    cases b with
    | nil => exact ⟨rfl, by simp⟩
    | cons x b =>
      rw [readAll] at h
      simp only [List.isEmpty_cons, Bool.false_eq_true, if_false] at h
      split at h
      next => simp at h
      next => simp at h
  | cons e es ih =>
    rw [readAll] at h
    split at h
    next => simp at h
    next =>
      split at h
      next => simp at h
      next first rest hr =>
        obtain ⟨tail, ht, he⟩ := Option.map_eq_some_iff.mp h
        obtain ⟨rfl, rfl⟩ := List.cons.inj he
        obtain ⟨hb, readable⟩ := encode_of_read hr
        obtain ⟨hrest, hes⟩ := ih ht
        refine ⟨by rw [encodeAll_cons, hrest, hb], ?_⟩
        intro x hx
        rcases List.mem_cons.mp hx with rfl | hx
        · exact readable
        · exact hes x hx

theorem ofBytes?_encode {e : Element} (h : e.Readable) : ofBytes? e.encode = some e := by
  have := read_encode h []
  rw [List.append_nil] at this
  rw [ofBytes?, this]

theorem ofBytes?_append {e : Element} (h : e.Readable) {rest : Bytes} (more : rest ≠ []) :
    ofBytes? (e.encode ++ rest) = none := by
  rw [ofBytes?, read_encode h rest]
  cases rest with
  | nil => exact absurd rfl more
  | cons => rfl

theorem encode_of_ofBytes? {b : Bytes} {e : Element} (h : ofBytes? b = some e) :
    e.encode = b ∧ e.Readable := by
  unfold ofBytes? at h
  split at h
  next x hr =>
    cases Option.some.inj h
    obtain ⟨hb, readable⟩ := encode_of_read hr
    exact ⟨by rw [hb, List.append_nil], readable⟩
  next => simp at h

theorem fits_of_encode {e : Element} (h : Der.fits e.encode = true) : e.Fits := by
  have := of_decide_eq_true h
  simp only [encode, List.length_cons, List.length_append] at this
  unfold Fits
  omega

/-- A frame adds a tag and the octets of a length. -/
theorem content_length_add_two_le (e : Element) : e.content.length + 2 ≤ e.encode.length := by
  have octet : 1 ≤ (encodeLength e.content.length).length := by
    unfold encodeLength
    split
    next => exact Nat.le_refl 1
    next => exact Nat.succ_le_succ (Nat.zero_le _)
  rw [encode, List.length_cons, List.length_append]
  omega

/-- A frame adds at most six octets to a content within the limit. -/
theorem encode_length_le {e : Element} (h : e.Fits) :
    e.encode.length ≤ e.content.length + 6 := by
  have := encodeLength_length_le h
  rw [encode, List.length_cons, List.length_append]
  omega

theorem encodeAll_length_le {es : List Element} {m : Nat}
    (h : ∀ e ∈ es, e.encode.length ≤ m) : (encodeAll es).length ≤ es.length * m := by
  induction es with
  | nil => simp [encodeAll]
  | cons e es ih =>
    have first := h e (by simp)
    have later := ih fun x hx => h x (List.mem_cons_of_mem e hx)
    rw [encodeAll_cons, List.length_append, List.length_cons, Nat.succ_mul]
    omega

theorem encodeAll_singleton (e : Element) : encodeAll [e] = e.encode :=
  List.flatMap_singleton ..

theorem encode_length_le_of_content {e : Element} {m : Nat} (h : e.content.length ≤ m)
    (room : m ≤ lengthLimit) : e.encode.length ≤ m + 6 :=
  Nat.le_trans (encode_length_le (Nat.le_trans h room)) (Nat.add_le_add_right h 6)

theorem length_le_encodeAll {e : Element} {es : List Element} (h : e ∈ es) :
    e.encode.length ≤ (encodeAll es).length :=
  (List.sublist_flatten_of_mem (List.mem_map_of_mem h)).length_le

theorem fits_of_mem {e : Element} {es : List Element} (h : e ∈ es)
    (limit : (encodeAll es).length ≤ lengthLimit) : e.Fits := by
  have := length_le_encodeAll h
  simp only [encode, List.length_cons, List.length_append] at this
  unfold Fits
  omega

theorem eq_of_encode {e e' : Element} (h : e.Readable) (h' : e'.Readable)
    (same : e.encode = e'.encode) : e = e' := by
  have first := ofBytes?_encode h
  rw [same, ofBytes?_encode h'] at first
  exact (Option.some.inj first).symm

/-- The bytes of elements that can be read tell the elements apart. -/
theorem eq_of_encodeAll {es es' : List Element} (h : ∀ e ∈ es, e.Readable)
    (h' : ∀ e ∈ es', e.Readable) (same : encodeAll es = encodeAll es') : es = es' := by
  have first := readAll_encodeAll h
  rw [same, readAll_encodeAll h'] at first
  exact (Option.some.inj first).symm

/-- Elements in the order in which the members of a set are written. -/
def Ascending (es : List Element) : Prop := es.Pairwise fun a b => a.encode < b.encode

instance (es : List Element) : Decidable (Ascending es) :=
  inferInstanceAs (Decidable (es.Pairwise _))

theorem Ascending.eq_of_perm {es es' : List Element} (h : Ascending es) (h' : Ascending es')
    (same : es.Perm es') : es = es' := by
  apply same.eq_of_pairwise _ h h'
  intro a b _ _ hab hba
  exact absurd hba (List.lt_asymm hab)

theorem children?_of_tag {tag : UInt8} {es : List Element}
    (known : ∀ e ∈ es, Tag.isKnown e.tag = true)
    (limit : (encodeAll es).length ≤ lengthLimit) :
    children? tag ⟨tag, encodeAll es⟩ = some es := by
  rw [children?, if_pos rfl]
  exact readAll_encodeAll fun e he => ⟨known e he, fits_of_mem he limit⟩

theorem of_children? {tag : UInt8} {e : Element} {es : List Element}
    (h : e.children? tag = some es) :
    e = ⟨tag, encodeAll es⟩ ∧ ∀ x ∈ es, x.Readable := by
  unfold children? at h
  split at h
  next ht =>
    obtain ⟨hc, readable⟩ := encodeAll_of_readAll h
    exact ⟨by rw [hc, ← ht], readable⟩
  next => simp at h

theorem sequence?_sequence {es : List Element} (known : ∀ e ∈ es, Tag.isKnown e.tag = true)
    (limit : (sequence es).Fits) : (sequence es).sequence? = some es :=
  children?_of_tag known limit

theorem of_sequence? {e : Element} {es : List Element} (h : e.sequence? = some es) :
    e = sequence es ∧ ∀ x ∈ es, x.Readable := of_children? h

theorem fits_of_mem_sequence {e : Element} {es : List Element} (limit : (sequence es).Fits)
    (h : e ∈ es) : e.Fits := fits_of_mem h limit

theorem content_suffix (e : Element) : e.content <:+ e.encode :=
  (List.suffix_append _ _).trans (List.suffix_cons _ _)

theorem infix_of_mem_sequence {e : Element} {es : List Element} (h : e ∈ es) :
    e.encode <:+: (sequence es).encode := by
  have part : e.encode <:+: encodeAll es := List.infix_of_mem_flatten (List.mem_map_of_mem h)
  exact part.trans (content_suffix (sequence es)).isInfix

theorem only?_explicit {number : UInt8} {e : Element}
    (constructed : Tag.isConstructed (Tag.contextConstructed number) = true)
    (h : e.Readable) : (explicit number e).only? = some e := by
  rw [only?, explicit, if_pos constructed]
  exact ofBytes?_encode h

theorem fits_of_explicit {number : UInt8} {e : Element} (limit : (explicit number e).Fits) :
    e.Fits :=
  fits_of_encode (decide_eq_true limit)

theorem content?_of_tag (tag : UInt8) (b : Bytes) : content? tag ⟨tag, b⟩ = some b := if_pos rfl

theorem of_content? {tag : UInt8} {e : Element} {b : Bytes} (h : e.content? tag = some b) :
    e = ⟨tag, b⟩ := by
  unfold content? at h
  split at h
  next ht =>
    cases Option.some.inj h
    rw [← ht]
  next => simp at h

end Element

theorem takeContext_same {number : UInt8} {e : Element} {es : List Element}
    (context : Tag.isContext e.tag = true) (same : Tag.number e.tag = number) :
    takeContext number (e :: es) = (some e, es) := by
  rw [takeContext, if_pos context, if_pos same]

theorem takeContext_other {number : UInt8} {e : Element} {es : List Element}
    (h : Tag.isContext e.tag = true → number < Tag.number e.tag) :
    takeContext number (e :: es) = (none, e :: es) := by
  rw [takeContext]
  split
  next context =>
    have later := UInt8.lt_iff_toNat_lt.mp (h context)
    have ne : Tag.number e.tag ≠ number := by
      intro he
      rw [he] at later
      omega
    have nlt : ¬ Tag.number e.tag < number := by
      rw [UInt8.lt_iff_toNat_lt]
      omega
    rw [if_neg ne, if_neg nlt]
  next => rfl

theorem mapM_eq_pure {m : Type → Type} [Monad m] [LawfulMonad m] {α β : Type} {f : α → m β}
    {g : α → β} {l : List α} (h : ∀ a ∈ l, f a = pure (g a)) : l.mapM f = pure (l.map g) := by
  induction l with
  | nil => rfl
  | cons a l ih =>
    have later := ih fun x hx => h x (List.mem_cons_of_mem a hx)
    rw [List.mapM_cons, h a (by simp), later, pure_bind, pure_bind]
    rfl

/-- Values that are each read from what they are written as are read one after another. -/
theorem mapM_map_of_inverse {α β : Type} {write : α → β} {read : β → Option α} {values : List α}
    (h : ∀ a ∈ values, read (write a) = some a) : (values.map write).mapM read = some values := by
  have all : values.mapM (read ∘ write) = some (values.map id) := mapM_eq_pure h
  rw [List.mapM_map, all, List.map_id]

/-- Values read one after another are each read from the part in the same place. -/
theorem forall₂_of_mapM {α β : Type} {read : β → Option α} {written : List β} {values : List α}
    (h : written.mapM read = some values) :
    List.Forall₂ (fun b a => read b = some a) written values := by
  induction written generalizing values with
  | nil =>
    cases Option.some.inj h
    exact .nil
  | cons b written ih =>
    rw [List.mapM_cons] at h
    obtain ⟨first, hb, h⟩ := Option.bind_eq_some_iff.mp h
    obtain ⟨later, hw, h⟩ := Option.bind_eq_some_iff.mp h
    cases Option.some.inj h
    exact .cons hb (ih hw)

/-- Parts that are each read are read one after another. -/
theorem exists_mapM {α β : Type} {read : β → Option α} {written : List β}
    (h : ∀ b ∈ written, (read b).isSome = true) : ∃ values, written.mapM read = some values := by
  induction written with
  | nil => exact ⟨[], rfl⟩
  | cons b written ih =>
    obtain ⟨first, later⟩ := List.forall_mem_cons.mp h
    obtain ⟨a, ha⟩ := Option.isSome_iff_exists.mp first
    obtain ⟨values, hv⟩ := ih later
    refine ⟨a :: values, ?_⟩
    rw [List.mapM_cons, ha, hv]
    rfl

theorem eq_map_of_mapM {α β : Type} {write : α → β} {read : β → Option α}
    (inverse : ∀ b a, read b = some a → b = write a) {written : List β} {values : List α}
    (h : written.mapM read = some values) : written = values.map write := by
  replace h := forall₂_of_mapM h
  induction h with
  | nil => rfl
  | cons hb _ ih => rw [List.map_cons, ← inverse _ _ hb, ← ih]

/-- Values are written as they were read exactly if each one is. -/
theorem map_eq_iff_of_mapM {α β : Type} {write : α → β} {read : β → Option α} {written : List β}
    {values : List α} (h : written.mapM read = some values) :
    values.map write = written ↔ ∀ b ∈ written, ∀ a ∈ read b, write a = b := by
  replace h := forall₂_of_mapM h
  induction h with
  | nil => simp
  | cons hb _ ih =>
    rw [List.map_cons, List.cons.injEq, List.forall_mem_cons, hb]
    exact and_congr (by simp) ih

theorem exists_of_mem_mapM {α β : Type} {read : β → Option α} {written : List β} {values : List α}
    (h : written.mapM read = some values) : ∀ a ∈ values, ∃ b ∈ written, read b = some a := by
  replace h := forall₂_of_mapM h
  induction h with
  | nil => simp
  | cons hb _ ih =>
    intro a ha
    rcases List.mem_cons.mp ha with rfl | ha
    · exact ⟨_, List.mem_cons_self, hb⟩
    · obtain ⟨x, hx, hr⟩ := ih a ha
      exact ⟨x, List.mem_cons_of_mem _ hx, hr⟩

theorem exists_of_mapM_mem {α β : Type} {read : β → Option α} {written : List β} {values : List α}
    (h : written.mapM read = some values) : ∀ b ∈ written, ∃ a ∈ values, read b = some a := by
  replace h := forall₂_of_mapM h
  induction h with
  | nil => simp
  | cons hb _ ih =>
    intro x hx
    rcases List.mem_cons.mp hx with rfl | hx
    · exact ⟨_, List.mem_cons_self, hb⟩
    · obtain ⟨a, ha, hr⟩ := ih x hx
      exact ⟨a, List.mem_cons_of_mem _ ha, hr⟩

end CertAuthority.Der
