import CertAuthority.Proofs.Json.Field
import CertAuthority.Proofs.Organization
import CertAuthority.Proofs.Pem
import CertAuthority.Proofs.SerialNumber
import CertAuthority.Proofs.Text.Rules
import CertAuthority.Store.Record

namespace CertAuthority

namespace Certificate

theorem ofPem_toPem (c : Certificate) : ofPem c.toPem = .ok c := by
  rw [ofPem, toPem, Pem.decodeLabelled_armor (by decide) (by decide), ok_bind]
  exact ofDer_eq_ok.mpr ⟨rfl, c.sound⟩

end Certificate

namespace Store

namespace OrganizationRecord

theorem texts?_reread (j : Json) : texts? j.reread = texts? j := by
  cases j with
  | array items =>
    rw [Json.reread, Json.rereadItems_eq_map, texts?, texts?, List.mapM_map]
    exact congrArg (items.mapM ·) (funext Json.text?_reread)
  | _ => rfl

theorem parse?_render (r : OrganizationRecord) : parse? r.render = some r := by
  have list : Json.IsWritable (.array (r.allNames.map .ofText)) :=
    Json.isWritable_array (List.forall_mem_map.mpr fun n _ => Json.isWritable_ofText n)
  have values : ∀ j ∈ [Json.ofText r.id, .ofText r.name, .array (r.allNames.map .ofText)],
      j.IsWritable := by
    simp [Json.isWritable_ofText, list]
  obtain ⟨j, parsed, fields⟩ := Option.bind_eq_some_iff.mp
    (Json.fields?_render (by decide : fieldNames.Nodup) rfl values)
  have texts : texts? (.array (r.allNames.map .ofText)) = some r.allNames :=
    Der.mapM_map_of_inverse fun n _ => Json.text?_ofText n
  rw [parse?, render, parsed, Option.bind_eq_bind, Option.bind_some, fields]
  simp [Json.text?_reread, Json.text?_ofText, texts?_reread, texts]

theorem toOrganization_ofOrganization (o : Organization) :
    (ofOrganization o).toOrganization = .ok o := o.make_self

end OrganizationRecord

namespace CertificateRecord

theorem parse?_render (r : CertificateRecord) : parse? r.render = some r := by
  have values : ∀ j ∈ [Json.ofText r.organization, .ofText r.signedBy, .ofText r.serialNumber,
      .ofText r.certificate], j.IsWritable := by
    simp [Json.isWritable_ofText]
  obtain ⟨j, parsed, fields⟩ := Option.bind_eq_some_iff.mp
    (Json.fields?_render (by decide : fieldNames.Nodup) rfl values)
  rw [parse?, render, parsed, Option.bind_eq_bind, Option.bind_some, fields]
  simp [Json.text?_reread, Json.text?_ofText]

theorem toCertificate_ofCertificate (c : IssuedCertificate) :
    (ofCertificate c).toCertificate = .ok c := by
  rw [toCertificate, ofCertificate, SerialNumber.parse_decimal, ok_bind, Certificate.ofPem_toPem]
  rfl

end CertificateRecord

end Store

end CertAuthority
