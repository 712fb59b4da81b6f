import EuWallet.Protocol.Reference
import EuWallet.Protocol.IssuanceReference
import EuWallet.Wallet.Closing
import EuWallet.Wallet.Consent
import EuWallet.Wallet.Replay
import EuWallet.Wallet.ResponseMode
import EuWallet.Wallet.ShownElements
import EuWallet.Wallet.MdocLabels
import EuWallet.Wallet.SdJwtConsent
import EuWallet.Wallet.StatusFreshness
import EuWallet.Wallet.Audit
import EuWallet.Wallet.Export
import EuWallet.Wallet.Agent
import EuWallet.Hybrid.KeyAgreement
import EuWallet.Zkp.EqualityProof
import EuWallet.Delivery.Order
import EuWallet.Delivery.Batch
import EuWallet.Delivery.Checkpoint
import EuWallet.X509.IssuerIdentity
import EuWallet.Vci.Polling
import EuWallet.Vci.CredentialStory
import EuWallet.Vci.AuthorizationStory
