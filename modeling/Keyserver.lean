import Keyserver.SharedPrograms
import Keyserver.SharedPools
import Keyserver.SharedUpdates
import Keyserver.SharedPushes
import Keyserver.ServerTypes
import Keyserver.ServerErrors
import Keyserver.ServerOps
import Keyserver.Authentication
import Keyserver.KeyDb
import Keyserver.KeyHandlers
import Keyserver.Bitcoin
import Keyserver.Payments
import Keyserver.Server
import Keyserver.KeyProtocol
import Keyserver.KeyRequests
import Keyserver.PaymentProtocol
import Keyserver.ServerProtocol
import Keyserver.WireFormat
import Keyserver.WireMessages
import Keyserver.SoloRuns
import Keyserver.PaymentRuns
import Keyserver.SampleDeployment
import Keyserver.SampleUpdates
import Keyserver.StoreAuthenticity
import Keyserver.PaymentGate
import Keyserver.InvoiceSpending
import Keyserver.LazyDeletion
import Keyserver.StaleOverwrite
import Keyserver.UpdateOrder
import Keyserver.ReferenceStore
import Keyserver.AdvertisedOutput
import Keyserver.IngestionAgreement
import Keyserver.IngestionVisits
import Keyserver.PutOutcomes
import Keyserver.ExpiryBounds
import Keyserver.UpdateRuns
import Keyserver.ReplicaConvergence
import Keyserver.PaymentOutcomes
import Keyserver.RedirectToken
import Keyserver.InvoiceIssuing
import Keyserver.DataScript
import Keyserver.SharedMatches
import Keyserver.DetailStream
import Keyserver.OutputChecks
import Keyserver.StoreProvenance
import Keyserver.KeyPreimage
import Keyserver.TokenBinding
import Keyserver.SharedLocks
import Keyserver.ExclusiveRuns
import Keyserver.PanicCauses
import Keyserver.WalletLedger
import Keyserver.SharedNetworks
import Keyserver.PeerNetwork
import Keyserver.SharedPairs
import Keyserver.HiddenErrors
import Keyserver.SharedLoops
import Keyserver.PeerStream
import Keyserver.SharedGossip
import Keyserver.GossipSpread
import Keyserver.RefusalCauses
import Keyserver.PurchaseProtocol
import Keyserver.PurchaseGossip
import Keyserver.ClientSessions
import Keyserver.SharedRestarts
import Keyserver.ServerRestarts
