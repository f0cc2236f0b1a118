import CertAuthority.Proofs.Curve.Field
import CertAuthority.Proofs.Curve.Generator

namespace CertAuthority

/-- Shows that the numbers of points are prime, each behind the large factors it rests on. -/
def Primality.orderEvidence : List Evidence :=
  [⟨10909, 2, [(3, 3), (101, 1)]⟩,
   ⟨11105363, 2, [(10909, 1)]⟩,
   ⟨821796863, 2, [(11105363, 1)]⟩,
   ⟨432621809776543, 2, [(821796863, 1)]⟩,
   ⟨136401162692544977256234449, 2, [(432621809776543, 1)]⟩,
   ⟨34646440928557194402992574983797, 2, [(136401162692544977256234449, 1)]⟩,
   ⟨375503554633724504423937478103159147573209, 2, [(34646440928557194402992574983797, 1)]⟩,
   ⟨50520606258875818707470860153287666700917696099933389351507, 2,
    [(375503554633724504423937478103159147573209, 1)]⟩,
   ⟨NistCurve.curve224.n, 2, [(50520606258875818707470860153287666700917696099933389351507, 1)]⟩,
   ⟨155317, 2, [(43, 2)]⟩,
   ⟨191039911, 2, [(155317, 1)]⟩,
   ⟨208150935158385979, 2, [(3023, 1), (191039911, 1)]⟩,
   ⟨2624747550333869278416773953, 2, [(208150935158385979, 1)]⟩,
   ⟨104471, 2, [(337, 1)]⟩,
   ⟨3969899, 2, [(104471, 1)]⟩,
   ⟨1002328039319, 2, [(3969899, 1)]⟩,
   ⟨NistCurve.curve256.n, 2, [(1002328039319, 1), (2624747550333869278416773953, 1)]⟩,
   ⟨272109983, 2, [(233, 1), (421, 1)]⟩,
   ⟨228572385721, 2, [(272109983, 1)]⟩,
   ⟨23314383343543, 2, [(228572385721, 1)]⟩,
   ⟨426632512014427833817, 2, [(23314383343543, 1)]⟩,
   ⟨1495199339761412565498084319, 2, [(426632512014427833817, 1)]⟩,
   ⟨17942392077136950785977011829, 2, [(1495199339761412565498084319, 1)]⟩,
   ⟨9863677, 2, [(311, 1), (881, 1)]⟩,
   ⟨37344768852931, 2, [(9863677, 1)]⟩,
   ⟨55942463741690639, 2, [(37344768852931, 1)]⟩,
   ⟨1059392654943455286185473617842338478315215895509773412096307, 2,
    [(55942463741690639, 1), (17942392077136950785977011829, 1)]⟩,
   ⟨3055465788140352002733946906144561090641249606160407884365391979704929268480326390471, 2,
    [(1059392654943455286185473617842338478315215895509773412096307, 1)]⟩,
   ⟨NistCurve.curve384.n, 2,
    [(3055465788140352002733946906144561090641249606160407884365391979704929268480326390471, 1)]⟩,
   ⟨17467, 3, [(41, 1), (71, 1)]⟩,
   ⟨19353437, 2, [(17467, 1)]⟩,
   ⟨777241, 2, [(17, 1), (127, 1)]⟩,
   ⟨60018716061994831, 2, [(777241, 1), (19353437, 1)]⟩,
   ⟨4239602065187190872179, 2, [(60018716061994831, 1)]⟩,
   ⟨7427946019382605513260578233234962521, 2, [(4239602065187190872179, 1)]⟩,
   ⟨15994076126984618329123851002118749004583184815459808099, 2,
    [(7427946019382605513260578233234962521, 1)]⟩,
   ⟨3636410625392624440351547907325502812950802686368714273274221490761556277859337865760708490235892541081304511, 2,
    [(15994076126984618329123851002118749004583184815459808099, 1)]⟩,
   ⟨3615194794881930010216942559103847593050265703173292383701371712350878926821661243755933835426896058418509759880171943, 2,
    [(3636410625392624440351547907325502812950802686368714273274221490761556277859337865760708490235892541081304511, 1)]⟩,
   ⟨NistCurve.curve521.n, 2,
    [(3615194794881930010216942559103847593050265703173292383701371712350878926821661243755933835426896058418509759880171943, 1)]⟩]

theorem Primality.proves_orderEvidence : proves orderEvidence [] = true := by decide +kernel

namespace NistCurve

instance (c : NistCurve) : Fact c.curve.p.Prime := ⟨c.p_prime⟩

theorem n_prime (c : NistCurve) : c.curve.n.Prime := by
  apply Primality.prime_of_number Primality.proves_orderEvidence
  cases c <;> decide +kernel

theorem sound (c : NistCurve) : c.curve.IsSound where
  above := by cases c <;> decide +kernel
  smooth := by cases c <;> decide +kernel
  generator := by cases c <;> decide +kernel
  order := c.n_prime
  returns := by cases c <;> decide +kernel

end NistCurve

end CertAuthority
