import CeresMpc.Encoding.Base64
import CeresMpc.Encoding.Standard
import CeresMpc.Toy
import CeresMpc.Signing.Nonces
import CeresMpc.Signing.FrostMessage
import CeresMpc.Signing.ExportLock
import CeresMpc.Signing.ConsumedFlag
import CeresMpc.Dispatch.Rounds
import CeresMpc.Dispatch.Sender
import CeresMpc.Lifecycle.Expiry
import CeresMpc.Lifecycle.Isolation
import CeresMpc.Lifecycle.Completion
import CeresMpc.Lifecycle.Serial
import CeresMpc.Lifecycle.Ceremony
import CeresMpc.Lifecycle.Rotation
import CeresMpc.Signing.Commitments
import CeresMpc.Arithmetic.Ed25519Order
import CeresMpc.Delivery.Ledger
import CeresMpc.Api.AddressProperties
import CeresMpc.Api.WireBatches
import CeresMpc.Client.Results
import CeresMpc.Client.Failures
import CeresMpc.Lifecycle.FailedStart
import CeresMpc.Lifecycle.Malformed
import CeresMpc.Api.ExportEd25519
import CeresMpc.Delivery.Messages
import CeresMpc.Lifecycle.Keyshare
import CeresMpc.Client.Backups
import CeresMpc.Signing.ExportGuard
import CeresMpc.Signing.Shares
import CeresMpc.Lifecycle.Progress
import CeresMpc.Delivery.FirstRounds
import CeresMpc.Lifecycle.Seeds
