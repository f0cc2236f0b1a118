import CertAuthority.Arith.Modular
import CertAuthority.Backend
import CertAuthority.Base64
import CertAuthority.Bytes
import CertAuthority.Calendar.Civil
import CertAuthority.Calendar.Instant
import CertAuthority.Calendar.Time
import CertAuthority.Certificate.Basic
import CertAuthority.Certificate.Contents
import CertAuthority.Certificate.Issued
import CertAuthority.Certificate.Tbs
import CertAuthority.Chain
import CertAuthority.Config
import CertAuthority.Curve.Edwards25519
import CertAuthority.Curve.Nist
import CertAuthority.Curve.Weierstrass
import CertAuthority.Der.Element
import CertAuthority.Der.Oid
import CertAuthority.Der.Primitive
import CertAuthority.DistinguishedName
import CertAuthority.Duration
import CertAuthority.Ecdsa
import CertAuthority.Extension.Basic
import CertAuthority.Extension.BasicConstraints
import CertAuthority.Extension.GeneralName
import CertAuthority.Extension.KeyIdentifier
import CertAuthority.Extension.KeyUsage
import CertAuthority.Extension.Purpose
import CertAuthority.Fault
import CertAuthority.Hash.Sha1
import CertAuthority.Hash.Sha2
import CertAuthority.Issuer
import CertAuthority.Json.Basic
import CertAuthority.Json.Number
import CertAuthority.Json.Parser
import CertAuthority.Json.Printer
import CertAuthority.Json.Token
import CertAuthority.Key.KeyPair
import CertAuthority.Key.Pkcs8
import CertAuthority.Key.PublicKey
import CertAuthority.Key.Spki
import CertAuthority.KeyType
import CertAuthority.Name
import CertAuthority.Organization
import CertAuthority.Pem
import CertAuthority.PrivateKey
import CertAuthority.Random
import CertAuthority.Rsa
import CertAuthority.SerialNumber
import CertAuthority.SignatureAlgorithm
import CertAuthority.Store.Basic
import CertAuthority.Store.Files
import CertAuthority.Store.Memory
import CertAuthority.Store.Record
import CertAuthority.Store.Tree
import CertAuthority.Template
import CertAuthority.Text.Blank
import CertAuthority.Text.Extending
import CertAuthority.Text.Numeral
import CertAuthority.Text.Quoted
import CertAuthority.Text.Rules
import CertAuthority.Text.Unprintable
import CertAuthority.Validity
import CertAuthority.Proofs.Backend
import CertAuthority.Proofs.Chain.Calls
import CertAuthority.Proofs.Chain.Run
import CertAuthority.Proofs.Json.Token
import CertAuthority.Proofs.Pem
import CertAuthority.Proofs.SerialNumber
import CertAuthority.Proofs.Json.Field
import CertAuthority.Proofs.KeyPair
import CertAuthority.Proofs.Store.Record
import CertAuthority.Proofs.Store.Files
import CertAuthority.Proofs.Store.Run
import CertAuthority.Proofs.Certificate.Decode
import CertAuthority.Proofs.Chain.SubjectKey
import CertAuthority.Proofs.NameChaining
import CertAuthority.Proofs.Chain.Classes
import CertAuthority.Proofs.Draft
import CertAuthority.Proofs.Chain.Complete
import CertAuthority.Proofs.Arith.Modular
import CertAuthority.Proofs.KeyExport
import CertAuthority.Proofs.Store.Lookup
import CertAuthority.Proofs.Store.Place
import CertAuthority.Proofs.Der.Signed
import CertAuthority.Proofs.Certificate.Serial
import CertAuthority.Proofs.ReadingFault
import CertAuthority.Proofs.ClockOffset
import CertAuthority.Proofs.DistinguishedName
import CertAuthority.Proofs.Chain.Lifetime
import CertAuthority.Proofs.Extension.Kind
import CertAuthority.Proofs.Der.Oid
import CertAuthority.Proofs.Extension.Unknown
import CertAuthority.Proofs.Entropy
import CertAuthority.Proofs.KeyForm
import CertAuthority.Proofs.FreshSerial
import CertAuthority.Proofs.DnsName
import CertAuthority.Proofs.CommonName
import CertAuthority.Proofs.OrganizationName
import CertAuthority.Proofs.Certificate.SerialField
import CertAuthority.Proofs.Json.Layout
import CertAuthority.Proofs.Config
import CertAuthority.Proofs.Expiration
import CertAuthority.Proofs.Curve.Group
import CertAuthority.Proofs.Arith.Root
import CertAuthority.Proofs.Curve.Generator
import CertAuthority.Proofs.Curve.Nist
import CertAuthority.Proofs.Curve.Edwards
import CertAuthority.Proofs.Ecdsa
