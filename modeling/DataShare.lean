import DataShare.ByteCodec
import DataShare.FieldStream
import DataShare.ReaderWords
import DataShare.OrderedMap
import DataShare.CppBuffer
import DataShare.CppPredicates
import DataShare.CppValuesBucket
import DataShare.CppProxyData
import DataShare.RustPredicates
import DataShare.PredicatesWire
import DataShare.RustProxyData
import DataShare.MeteredReaders
import DataShare.ProxyResultDecoder
import DataShare.ProxyDataWire
import DataShare.RustStatements
import DataShare.OperationCodes
import DataShare.RustParcel
import DataShare.PredicatesFields
import DataShare.PredicatesPaths
import DataShare.PredicatesAgreement
import DataShare.ByteMemory
import DataShare.SharedBlock
import DataShare.SharedBlockTable
import DataShare.SharedBlockRows
import DataShare.SharedBlockRefinement
import DataShare.AllocRow
import DataShare.BlockSafety
import DataShare.RustResultSet
import DataShare.ResultSetSoundness
import DataShare.CppResultSet
import DataShare.CppSharedBlock
import DataShare.InterchangeableBlocks
import DataShare.CppBlockLoads
import DataShare.CppGetters
import DataShare.IntegerTexts
import DataShare.TypedGetters
import DataShare.GetterAgreement
import DataShare.NapiCallbacksManager
import DataShare.ObserverConfigs
import DataShare.OperationResults
import DataShare.DisableThenEnable
import DataShare.GoToRowWindow
import DataShare.CursorArithmetic
import DataShare.ColumnIndex
import DataShare.CppResultSetReads
import DataShare.CursorAgreement
import DataShare.DataSharePermission
import DataShare.PermissionCache
import DataShare.SearchTree
import DataShare.PermissionMaps
import DataShare.FieldNames
import DataShare.RustPredicatesVerify
import DataShare.VerifyAgreement
import DataShare.ProxyDataPermission
import DataShare.BundleConfigCache
import DataShare.BundleConfigUpdates
import DataShare.ExtensionTrusts
import DataShare.PredicatesVerify
import DataShare.StubImpl
import DataShare.FileRequests
import DataShare.History
import DataShare.KeyedLoop
import DataShare.Threads
import DataShare.CallbacksManager
import DataShare.CallbacksManagerKeys
import DataShare.SubscriptionLedger
import DataShare.SubscriptionBookkeeping
import DataShare.SubscriptionRollback
import DataShare.RdbSubscriberManager
import DataShare.RdbSubscriberCleanup
import DataShare.RdbEmission
import DataShare.RdbInterleaving
import DataShare.RustPublishedData
import DataShare.PublishedKeys
import DataShare.ProxyDataEmission
import DataShare.Json
import DataShare.JsonReader
import DataShare.JsonDescent
import DataShare.JsonGrammar
import DataShare.JsonSoundness
import DataShare.JsonTotality
import DataShare.JsonRoundTrip
import DataShare.JsonRfc
import DataShare.CppRdbSubscriberManager
import DataShare.CppPublishedData
import DataShare.PublishedEmission
import DataShare.SubscriptionRecovery
import DataShare.ReplayEpochs
import DataShare.MissedChanges
import DataShare.MissedItems
import DataShare.PublishedReplays
import DataShare.KeyEvents
import DataShare.KeyViews
import DataShare.RdbKeyMoves
import DataShare.PublishedKeyMoves
import DataShare.DeadObservers
import DataShare.AmbientFlag
import DataShare.SystemFlag
import DataShare.HelperFlag
import DataShare.RdbKeyProtocol
import DataShare.ReplayShares
import DataShare.ReplayInterleaving
import DataShare.DeferredMessages
import DataShare.RdbBooking
import DataShare.PublishedKeyProtocol
import DataShare.PublishedInterleaving
import DataShare.ThreadMachine
import DataShare.Bursts
import DataShare.CppConnection
import DataShare.ReconnectBudget
import DataShare.ConnectionRelease
import DataShare.ObserverRecovery
import DataShare.RustConnection
import DataShare.ObserverTable
import DataShare.CppStatements
import DataShare.BatchRequests
import DataShare.CallPhases
import DataShare.ServiceRestarts
import DataShare.SurvivingSubscriptions
import DataShare.LockedCode
import DataShare.ReentrantManagers
import DataShare.NapiDataShareHelper
import DataShare.GeneralControllerServiceImpl
import DataShare.SilentObservers
import DataShare.RustReRegistration
import DataShare.RustReconnectBudget
import DataShare.RustDataProxyHandle
import DataShare.RustServiceRestarts
import DataShare.ResultWrap
import DataShare.ProviderWrites
import DataShare.ProviderReplies
import DataShare.BoundedReaders
import DataShare.RustTruncatedBuffers
import DataShare.LossyUtf8
import DataShare.RdbSharedMemory
import DataShare.JsonTexts
import DataShare.UriIds
import DataShare.Ownership
import DataShare.OwnedCalls
import DataShare.SubscriptionOwners
import DataShare.OwnerLifetimes
import DataShare.ObserverStubs
import DataShare.NapiSubscriberManager
import DataShare.NapiEmission
import DataShare.NapiLinks
import DataShare.NapiTables
import DataShare.RustText
import DataShare.RustUriUtils
import DataShare.RustStringUtils
import DataShare.StrippedQueries
import DataShare.CallWindows
import DataShare.RustCallReporter
import DataShare.StsBatchInsert
import DataShare.ParcelCodecs
import DataShare.PublishedItems
import DataShare.CppSAConnection
import DataShare.RustSAConnection
import DataShare.MethodSimulation
import DataShare.ResultSetClass
import DataShare.RemoteResultSet
import DataShare.RemoteResultSetReads
