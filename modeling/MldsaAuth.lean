import MldsaAuth.Protocol.Failures
import MldsaAuth.Protocol.NonceUse
import MldsaAuth.Protocol.Authentication
import MldsaAuth.Protocol.Agreement
import MldsaAuth.Protocol.Ownership
import MldsaAuth.Authd.Disabling
import MldsaAuth.Authd.Store.AuditTrail
import MldsaAuth.Authd.RecoveryUse
import MldsaAuth.Authd.FaultAnswers
import MldsaAuth.Authd.KeyHistory
import MldsaAuth.Protocol.LedgerMap
import MldsaAuth.Authd.Store.Sweeping
import MldsaAuth.Authd.Config
import MldsaAuth.Authd.Passphrase
import MldsaAuth.Authd.LimiterTable
