import CertAuthority.Pem
import CertAuthority.Proofs.Fault
import CertAuthority.Proofs.Bytes

namespace CertAuthority

namespace Base64

theorem value?_alphabet : ∀ n < 64, value? (alphabet n) = some n := by decide

/-- What holds of the padding and of every digit holds of all characters of an encoding. -/
theorem forall_mem_encode {p : Char → Prop} (padding : p '=') (digit : ∀ n < 64, p (alphabet n))
    (b : Bytes) : ∀ c ∈ encode b, p c := by
  fun_induction encode b with
  | case1 => simp
  | case2 x =>
    have bound := x.toNat_lt
    simp only [List.forall_mem_cons, List.not_mem_nil, false_imp_iff, implies_true, and_true]
    exact ⟨digit _ (by omega), digit _ (by omega), padding, padding⟩
  | case3 x y =>
    have hx := x.toNat_lt
    have hy := y.toNat_lt
    simp only [List.forall_mem_cons, List.not_mem_nil, false_imp_iff, implies_true, and_true]
    exact ⟨digit _ (by omega), digit _ (by omega), digit _ (by omega), padding⟩
  | case4 x y z rest ih =>
    have hx := x.toNat_lt
    have hy := y.toNat_lt
    have hz := z.toNat_lt
    simp only [List.forall_mem_cons]
    exact ⟨digit _ (by omega), digit _ (by omega), digit _ (by omega), digit _ (by omega), ih⟩

/-- Four characters of which the last one is no padding stand for three bytes. -/
theorem decode?_cons {a b c d : Char} (full : d ≠ '=') (rest : List Char) :
    decode? (a :: b :: c :: d :: rest) = (do
      let a ← value? a
      let b ← value? b
      let c ← value? c
      let d ← value? d
      let bytes ← decode? rest
      some (UInt8.ofNat (a * 4 + b / 16) :: UInt8.ofNat (b % 16 * 16 + c / 4)
        :: UInt8.ofNat (c % 4 * 64 + d) :: bytes)) := by
  rw [decode?]
  · intro _ h _
    exact full h
  · intro h _
    exact full h

theorem decode?_encode (b : Bytes) : decode? (encode b) = some b := by
  have byte {n : Nat} {x : UInt8} (h : n = x.toNat) : UInt8.ofNat n = x := by
    rw [h, UInt8.ofNat_toNat]
  fun_induction encode b with
  | case1 => rfl
  | case2 x =>
    have hx := x.toNat_lt
    have first := value?_alphabet (x.toNat / 4) (by omega)
    have second := value?_alphabet (x.toNat % 4 * 16) (by omega)
    simp only [decode?, first, second, Option.bind_eq_bind, Option.bind_some]
    rw [if_pos (by omega), byte (x := x) (by omega)]
  | case3 x y =>
    have hx := x.toNat_lt
    have hy := y.toNat_lt
    have first := value?_alphabet (x.toNat / 4) (by omega)
    have second := value?_alphabet (x.toNat % 4 * 16 + y.toNat / 16) (by omega)
    have third := value?_alphabet (y.toNat % 16 * 4) (by omega)
    have digit : alphabet (y.toNat % 16 * 4) ≠ '=' := by
      intro h
      rw [h] at third
      cases third
    rw [decode?]
    · simp only [first, second, third, Option.bind_eq_bind, Option.bind_some]
      rw [if_pos (by omega), byte (x := x) (by omega), byte (x := y) (by omega)]
    · exact digit
  | case4 x y z rest ih =>
    have hx := x.toNat_lt
    have hy := y.toNat_lt
    have hz := z.toNat_lt
    have first := value?_alphabet (x.toNat / 4) (by omega)
    have second := value?_alphabet (x.toNat % 4 * 16 + y.toNat / 16) (by omega)
    have third := value?_alphabet (y.toNat % 16 * 4 + z.toNat / 64) (by omega)
    have fourth := value?_alphabet (z.toNat % 64) (by omega)
    have digit : alphabet (z.toNat % 64) ≠ '=' := by
      intro h
      rw [h] at fourth
      cases fourth
    rw [decode?_cons digit]
    simp only [first, second, third, fourth, ih, Option.bind_eq_bind, Option.bind_some]
    rw [byte (x := x) (by omega), byte (x := y) (by omega), byte (x := z) (by omega)]

end Base64

namespace Pem

/-- What holds of the characters of a text and of line feeds holds of its lines. -/
theorem forall_mem_wrap {p : Char → Prop} (feed : p '\n') {cs : List Char} (h : ∀ c ∈ cs, p c) :
    ∀ c ∈ wrap cs, p c := by
  fun_induction wrap cs with
  | case1 => simp
  | case2 c rest ih =>
    obtain ⟨first, later⟩ := List.forall_mem_cons.mp h
    refine List.forall_mem_append.mpr ⟨?_, ?_⟩
    · exact List.forall_mem_cons.mpr ⟨first, fun x hx => later x (List.mem_of_mem_take hx)⟩
    · exact List.forall_mem_cons.mpr ⟨feed, ih fun x hx => later x (List.mem_of_mem_drop hx)⟩

theorem filter_wrap {p : Char → Bool} (feed : p '\n' = false) {cs : List Char}
    (h : ∀ c ∈ cs, p c = true) : (wrap cs).filter p = cs := by
  fun_induction wrap cs with
  | case1 => rfl
  | case2 c rest ih =>
    obtain ⟨first, later⟩ := List.forall_mem_cons.mp h
    have line : (c :: rest.take (lineWidth - 1)).filter p = c :: rest.take (lineWidth - 1) :=
      List.filter_eq_self.mpr
        (List.forall_mem_cons.mpr ⟨first, fun x hx => later x (List.mem_of_mem_take hx)⟩)
    rw [List.filter_append, line, List.filter_cons_of_neg (by simp [feed]),
      ih fun x hx => later x (List.mem_of_mem_drop hx), List.cons_append, List.take_append_drop]

section

variable {p : Char} {ps cs : List Char}

/-- What does not start a marker is passed over. -/
theorem scan_append (absent : p ∉ cs) (rest : List Char) :
    scan (p :: ps) (p :: ps) (cs ++ rest)
      = (scan (p :: ps) (p :: ps) rest).map fun (seen, rest) => (cs ++ seen, rest) := by
  induction cs with
  | nil => simp
  | cons c cs ih =>
    obtain ⟨other, absent⟩ := not_or.mp (List.mem_cons.not.mp absent)
    rw [List.cons_append, scan, if_neg fun h => other h.symm, ih absent, Option.map_map]
    rfl

theorem scan_self (marker todo rest : List Char) :
    scan marker todo (todo ++ rest) = some (todo, rest) := by
  induction todo with
  | nil => cases rest <;> rfl
  | cons c todo ih => rw [List.cons_append, scan, if_pos rfl, ih]; rfl

theorem splitAt?_append (marker : String) (starts : marker.toList = p :: ps) (absent : p ∉ cs)
    (rest : List Char) : splitAt? marker (cs ++ (marker.toList ++ rest)) = some (cs, rest) := by
  rw [splitAt?, starts, scan_append absent, scan_self]
  simp

theorem splitAt?_of_not_mem {marker : String} (starts : marker.toList = p :: ps)
    (absent : p ∉ cs) : splitAt? marker cs = none := by
  have found : scan (p :: ps) (p :: ps) (cs ++ []) = none := by rw [scan_append absent]; rfl
  rw [List.append_nil] at found
  rw [splitAt?, starts, found]
  rfl

end

/-- No line of a text is empty, whether or not a line has just ended. -/
theorem scan_wrap {cs : List Char} (h : ∀ c ∈ cs, c ≠ '\n') {todo : List Char}
    (started : todo = ['\n'] ∨ todo = ['\n', '\n']) :
    scan ['\n', '\n'] todo (wrap cs) = none := by
  fun_induction wrap cs generalizing todo with
  | case1 => rcases started with rfl | rfl <;> rfl
  | case2 c rest ih =>
    obtain ⟨first, later⟩ := List.forall_mem_cons.mp h
    have line : '\n' ∉ rest.take (lineWidth - 1) := fun hx =>
      later _ (List.mem_of_mem_take hx) rfl
    have next := ih (fun x hx => later x (List.mem_of_mem_drop hx)) (Or.inl rfl)
    have behind : scan ['\n', '\n'] ['\n', '\n']
        (rest.take (lineWidth - 1) ++ '\n' :: wrap (rest.drop (lineWidth - 1))) = none := by
      rw [scan_append line, scan, if_pos rfl, next]
      rfl
    rcases started with rfl | rfl
    · rw [List.cons_append, scan, if_neg first, behind]
      rfl
    · rw [List.cons_append, scan, if_neg first, behind]
      rfl

theorem splitBody_wrap {cs : List Char} (h : ∀ c ∈ cs, c ≠ '\n' ∧ c ≠ '\r') :
    splitBody (wrap cs) = ([], wrap cs) := by
  have noBlankLine : splitAt? "\n\n" (wrap cs) = none := by
    rw [splitAt?]
    show (scan ['\n', '\n'] ['\n', '\n'] (wrap cs)).map _ = none
    rw [scan_wrap (fun c hc => (h c hc).1) (Or.inr rfl)]
    rfl
  have noReturn : '\r' ∉ wrap cs := fun hr =>
    forall_mem_wrap (by decide) (fun c hc => (h c hc).2) '\r' hr rfl
  rw [splitBody, noBlankLine, splitAt?_of_not_mem rfl noReturn]
  rfl

/-- A character of data: it starts no marker and stands for itself. -/
structure IsData (c : Char) : Prop where
  dash : c ≠ '-'
  feed : c ≠ '\n'
  carriage : c ≠ '\r'
  gap : isGap c = false
  blank : Text.isBlank c = false
  visible : ¬ c < ' '

instance (c : Char) : Decidable (IsData c) :=
  decidable_of_iff (c ≠ '-' ∧ c ≠ '\n' ∧ c ≠ '\r' ∧ isGap c = false ∧ Text.isBlank c = false
    ∧ ¬ c < ' ')
    ⟨fun h => ⟨h.1, h.2.1, h.2.2.1, h.2.2.2.1, h.2.2.2.2.1, h.2.2.2.2.2⟩,
      fun h => ⟨h.dash, h.feed, h.carriage, h.gap, h.blank, h.visible⟩⟩

theorem isData_of_mem_encode {b : Bytes} {c : Char} (h : c ∈ Base64.encode b) : IsData c :=
  Base64.forall_mem_encode (p := IsData) (by decide) (by decide) b c h

/-- The block that bytes and a label were written as is read back, unless the label is empty or
could be taken for the dashes around it. -/
theorem parse?_armor {label : String} (named : label ≠ "") (plain : '-' ∉ label.toList)
    (b : Bytes) : parse? (armor b label) = some ⟨label, b⟩ := by
  have filled : label.toList ≠ [] := by simpa using named
  have data : ∀ c ∈ Base64.encode b, IsData c := fun c => isData_of_mem_encode
  let closing := "-----END ".toList ++ (label.toList ++ ("-----".toList ++ ['\n']))
  have text : (armor b label).toList = "-----BEGIN ".toList ++ (label.toList ++ ("-----".toList
      ++ '\n' :: (wrap (Base64.encode b) ++ closing))) := by
    show ("-----BEGIN " ++ label ++ "-----\n" ++ String.ofList (wrap (Base64.encode b))
      ++ "-----END " ++ label ++ "-----\n").toList = _
    simp [closing]
  -- Behind the label only the line feed is a gap.
  have gap : ('\n' :: (wrap (Base64.encode b) ++ closing)).dropWhile isGap
      = wrap (Base64.encode b) ++ closing := by
    rw [List.dropWhile_cons_of_pos (by decide)]
    cases encoded : Base64.encode b with
    | nil =>
      rw [wrap]
      rfl
    | cons c rest =>
      have first := (data c (by simp [encoded])).gap
      rw [wrap, List.cons_append, List.cons_append, List.dropWhile_cons_of_neg (by simp [first])]
  have begins := splitAt?_append "-----BEGIN " rfl List.not_mem_nil
    (label.toList ++ ("-----".toList ++ '\n' :: (wrap (Base64.encode b) ++ closing)))
  rw [List.nil_append] at begins
  have labelled := splitAt?_append "-----" rfl plain ('\n' :: (wrap (Base64.encode b) ++ closing))
  have noDash : '-' ∉ wrap (Base64.encode b) := fun hd =>
    forall_mem_wrap (by decide) (fun c hc => (data c hc).dash) '-' hd rfl
  have ends : splitAt? "-----END " (wrap (Base64.encode b) ++ closing)
      = some (wrap (Base64.encode b), label.toList ++ ("-----".toList ++ ['\n'])) :=
    splitAt?_append "-----END " rfl noDash _
  have closed := splitAt?_append "-----" rfl plain ['\n']
  have body := splitBody_wrap fun c hc => ⟨(data c hc).feed, (data c hc).carriage⟩
  have unwrapped : (wrap (Base64.encode b)).filter (!Text.isBlank ·) = Base64.encode b :=
    filter_wrap (by decide) fun c hc => by rw [(data c hc).blank]; rfl
  simp only [parse?, text, begins, labelled, gap, ends, closed, body, unwrapped,
    Base64.decode?_encode, Option.bind_eq_bind, Option.bind_some, lines, List.all_nil,
    String.ofList_toList, and_self, and_true, ne_eq, filled, not_false_eq_true, if_true]

theorem decode_armor {label : String} (named : label ≠ "") (plain : '-' ∉ label.toList)
    (b : Bytes) : decode (armor b label) = .ok b := by
  rw [decode, parse?_armor named plain]
  rfl

theorem decodeLabelled_armor {label : String} (named : label ≠ "") (plain : '-' ∉ label.toList)
    (b : Bytes) : decodeLabelled (armor b label) label = .ok b := by
  rw [decodeLabelled, parse?_armor named plain]
  exact if_pos rfl

theorem decodeLabelled_armor_other {label wanted : String} (named : label ≠ "")
    (plain : '-' ∉ label.toList) (other : wanted ≠ label) (b : Bytes) :
    decodeLabelled (armor b label) wanted = .error (.decoding (.label wanted label)) := by
  rw [decodeLabelled, parse?_armor named plain]
  exact if_neg other.symm

/-- Armored bytes are read back under their own label and where no label is asked for. Any other
label is refused, and both labels are told. -/
theorem armor_lossless (b : Bytes) {label : String} (named : label ≠ "")
    (plain : '-' ∉ label.toList) :
    decode (armor b label) = .ok b ∧ decodeLabelled (armor b label) label = .ok b
      ∧ ∀ wanted, wanted ≠ label →
        decodeLabelled (armor b label) wanted = .error (.decoding (.label wanted label)) :=
  ⟨decode_armor named plain b, decodeLabelled_armor named plain b,
    fun _ other => decodeLabelled_armor_other named plain other b⟩

/-- One byte more than a line has room for, under a label that ends as a line does. -/
theorem armor_lossless_sample :
    "X509 CRL\n" ≠ "" ∧ '-' ∉ "X509 CRL\n".toList
      ∧ decode (armor (List.replicate 49 0xff) "X509 CRL\n") = .ok (List.replicate 49 0xff)
      ∧ decodeLabelled (armor (List.replicate 49 0xff) "X509 CRL\n") "X509 CRL"
        = .error (.decoding (.label "X509 CRL" "X509 CRL\n")) := by
  have named : "X509 CRL\n" ≠ "" := by decide
  have plain : '-' ∉ "X509 CRL\n".toList := by decide
  obtain ⟨read, -, others⟩ := armor_lossless (List.replicate 49 0xff) named plain
  exact ⟨named, plain, read, others "X509 CRL" (by decide)⟩

end Pem

end CertAuthority
