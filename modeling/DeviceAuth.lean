import DeviceAuth.Cipher
import DeviceAuth.KeyFiles
import DeviceAuth.Token.Issue
import DeviceAuth.Proofs.Base64
import DeviceAuth.Proofs.Text
import DeviceAuth.Proofs.Json.Scalar
import DeviceAuth.Proofs.Json.Value
import DeviceAuth.Proofs.Token.Verify
import DeviceAuth.Proofs.Token.RoundTrip
import DeviceAuth.Proofs.Json.Record
import DeviceAuth.Proofs.Token.Digest
import DeviceAuth.Proofs.Token.Issue
import DeviceAuth.Proofs.Token.Expiry
import DeviceAuth.Proofs.Der
import DeviceAuth.Proofs.Key.Load
import DeviceAuth.Proofs.Pem
import DeviceAuth.Proofs.Key.Wrapping
import DeviceAuth.Proofs.Base64.Defect
import DeviceAuth.Proofs.Pem.Body
import DeviceAuth.Proofs.Key.Export
import DeviceAuth.Proofs.Der.Form
import DeviceAuth.Proofs.Key.Rsa
import DeviceAuth.Proofs.Key.Kinds
import DeviceAuth.Proofs.Modular
import DeviceAuth.Proofs.Cipher
import DeviceAuth.Proofs.Certificate
import DeviceAuth.Proofs.Token.Enrollment
import DeviceAuth.Proofs.Token.Outcome
import DeviceAuth.Proofs.Token.Identity
import DeviceAuth.Proofs.Dotenv
import DeviceAuth.Proofs.Settings
import DeviceAuth.Proofs.Dotenv.Lines
import DeviceAuth.Proofs.Settings.Layers
import DeviceAuth.Proofs.Token.Lifetime
import DeviceAuth.Proofs.Token.Content
import DeviceAuth.Proofs.Log
import DeviceAuth.Proofs.Settings.Reference
import DeviceAuth.Proofs.Json.Literal
import DeviceAuth.Proofs.Json.Member
import DeviceAuth.Proofs.Token.NumericExpiry
import DeviceAuth.Proofs.Json.Fields
import DeviceAuth.Proofs.Token.Wire
import DeviceAuth.Proofs.Token.Polynomial
import DeviceAuth.Proofs.Pem.Armour
import DeviceAuth.Proofs.Log.Refusal
import DeviceAuth.Proofs.Token.Overflow
