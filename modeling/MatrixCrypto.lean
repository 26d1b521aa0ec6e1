import MatrixCrypto.Lib.Transition
import MatrixCrypto.Lib.Sections
import MatrixCrypto.Lib.Threads
import MatrixCrypto.Lib.OrdMap
import MatrixCrypto.Lib.InsertionSet
import MatrixCrypto.Lib.KeySort
import MatrixCrypto.Lib.Json
import MatrixCrypto.Lib.Except
import MatrixCrypto.Session.Requests
import MatrixCrypto.Session.Registry
import MatrixCrypto.Session.Take
import MatrixCrypto.Signing.Identity
import MatrixCrypto.Signing.Arrival
import MatrixCrypto.Handout.Foreign
import MatrixCrypto.Session.Mark
import MatrixCrypto.Signing.Publication
import MatrixCrypto.Process
import MatrixCrypto.Session.Share
import MatrixCrypto.Signing.Gate
import MatrixCrypto.Signing.CreateOrder
import MatrixCrypto.Signing.EveryLaunch
import MatrixCrypto.Session.Pump
import MatrixCrypto.Handout.Sections
import MatrixCrypto.Session.Reports
import MatrixCrypto.Handout.Stamps
import MatrixCrypto.Handout.Order
import MatrixCrypto.Handout.Eviction
import MatrixCrypto.Handout.Conservation
import MatrixCrypto.Verification.Upstream
import MatrixCrypto.Verification.Flows
import MatrixCrypto.Verification.Lookup
import MatrixCrypto.Verification.Begin
import MatrixCrypto.Verification.Carried
import MatrixCrypto.Verification.BeginOnce
import MatrixCrypto.Verification.BothStart
import MatrixCrypto.Verification.Completion
import MatrixCrypto.Verification.CompletedOnce
import MatrixCrypto.Verification.Identifier
import MatrixCrypto.Verification.Invitations
import MatrixCrypto.Verification.Confirm
import MatrixCrypto.Verification.ConfirmOrder
import MatrixCrypto.Verification.PeerQuery
import MatrixCrypto.Verification.Records
import MatrixCrypto.Verification.OwnFlow
import MatrixCrypto.Verification.OwnFlowSettled
import MatrixCrypto.Verification.PeerQueryOrder
import MatrixCrypto.Recovery.AccountData
import MatrixCrypto.Recovery.SecretStorage
import MatrixCrypto.Recovery.Interrupted
import MatrixCrypto.Recovery.WrongSecret
import MatrixCrypto.Verification.InviteBooks
import MatrixCrypto.Verification.InvitedOnce
import MatrixCrypto.Verification.Retention
import MatrixCrypto.Verification.RetentionRuns
import MatrixCrypto.Signals.Channel
import MatrixCrypto.Signals.Lifecycle
import MatrixCrypto.Backup.Batches
import MatrixCrypto.Backup.OneBatch
import MatrixCrypto.Machine.Init
import MatrixCrypto.Verification.ConfirmActs
import MatrixCrypto.Recovery.Additions
import MatrixCrypto.Backup.Restore
import MatrixCrypto.Verification.Code
import MatrixCrypto.Verification.Displaced
import MatrixCrypto.Lib.Passing
import MatrixCrypto.Verification.Negotiation
import MatrixCrypto.Verification.CodeReasons
import MatrixCrypto.Verification.Reasons
import MatrixCrypto.Lib.JsonText
import MatrixCrypto.Verification.BareStarts
import MatrixCrypto.Verification.Material
import MatrixCrypto.Verification.ConfirmShown
import MatrixCrypto.Lib.Voprf
import MatrixCrypto.Oprf.Client
import MatrixCrypto.Oprf.Facade
import MatrixCrypto.Oprf.RoundTrip
import MatrixCrypto.Facade.Errors
import MatrixCrypto.Facade.Stringify
import MatrixCrypto.Session.Sync
import MatrixCrypto.Facade.Sync
import MatrixCrypto.Facade.Events
import MatrixCrypto.History.Attachment
import MatrixCrypto.History.Bundle
import MatrixCrypto.History.Handover
import MatrixCrypto.Signals.Delivery
import MatrixCrypto.Backup.Custody
import MatrixCrypto.Verification.Announce
import MatrixCrypto.Verification.Capabilities
import MatrixCrypto.App.Gate
import MatrixCrypto.Backup.Vault
import MatrixCrypto.App.ScannedRun
import MatrixCrypto.App.ScannedWarrants
