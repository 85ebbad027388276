import GhidraBridge.Lib.Table
import GhidraBridge.Lib.Hex
import GhidraBridge.Lib.Scan
import GhidraBridge.Lib.Bits
import GhidraBridge.Lib.Runs
import GhidraBridge.Lib.Fold
import GhidraBridge.Lib.Settle
import GhidraBridge.Records
import GhidraBridge.BinaryView
import GhidraBridge.TypeNames
import GhidraBridge.SyncEngine
import GhidraBridge.CheckinState
import GhidraBridge.Collect
import GhidraBridge.Json
import GhidraBridge.CheckinJson
import GhidraBridge.Checkin
import GhidraBridge.DatabaseExporter
import GhidraBridge.DbExportJson
import GhidraBridge.ProgramApplier
import GhidraBridge.EquateTable
import GhidraBridge.DataTypeApplier
import GhidraBridge.ImportRoundTrip
import GhidraBridge.ImportEffects
import GhidraBridge.DataItemBaseline
import GhidraBridge.TypeReadback
import GhidraBridge.TypeBaseline
import GhidraBridge.CheckinAtomicity
import GhidraBridge.BaselineMoves
import GhidraBridge.CommentEdits
import GhidraBridge.CheckinRetention
import GhidraBridge.Convergence
import GhidraBridge.CommentConvergence
import GhidraBridge.VariableConvergence
import GhidraBridge.SignatureDiff
import GhidraBridge.RamRecords
import GhidraBridge.VariableSymbols
import GhidraBridge.CommentRouting
import GhidraBridge.BookmarkWriteback
import GhidraBridge.BookmarkConvergence
import GhidraBridge.EquateRenames
import GhidraBridge.EquateRefAdds
import GhidraBridge.DataTypeEntries
import GhidraBridge.TypeAnnotations
import GhidraBridge.ServerSession
import GhidraBridge.ProjectPanel
import GhidraBridge.CheckinTarget
import GhidraBridge.CheckoutBookkeeping
import GhidraBridge.ImportFrames
import GhidraBridge.WritebackMaps
import GhidraBridge.SymbolImport
import GhidraBridge.ImportPreserves
import GhidraBridge.BridgeSession
import GhidraBridge.Streamers
import GhidraBridge.SessionAgreement
import GhidraBridge.CheckoutRelease
import GhidraBridge.BridgeClient
import GhidraBridge.ResponseRouting
import GhidraBridge.PeerLoss
import GhidraBridge.Lib.Front
import GhidraBridge.Lib.Leads
import GhidraBridge.FunctionPasses
import GhidraBridge.TypeSettling
import GhidraBridge.VariableSettling
import GhidraBridge.Reimport
import GhidraBridge.TypeSpelling
import GhidraBridge.DataTypeNames
import GhidraBridge.UnchangedTypes
import GhidraBridge.TypeOrder
import GhidraBridge.TypeIdentity
import GhidraBridge.ListingApplier
import GhidraBridge.AddressAcceptance
import GhidraBridge.AddressTransport
import GhidraBridge.Lib.Template
import GhidraBridge.Lib.Text
import GhidraBridge.UploadAnalysis
import GhidraBridge.UploadRoundTrip
import GhidraBridge.PanelLink
import GhidraBridge.PanelState
import GhidraBridge.CommentRoundTrip
import GhidraBridge.VariableBaseline
import GhidraBridge.SymbolNaming
import GhidraBridge.VariableNames
import GhidraBridge.AddedTypeIds
import GhidraBridge.Lib.Renames
import GhidraBridge.VariableRenames
import GhidraBridge.NewParameters
import GhidraBridge.CompoundTypes
import GhidraBridge.Lib.Passes
import GhidraBridge.TypeNameMap
import GhidraBridge.StructLayout
import GhidraBridge.Lib.Tally
import GhidraBridge.FailingCalls
import GhidraBridge.AppliedEffects
import GhidraBridge.AppliedSteps
import GhidraBridge.AppliedTypes
import GhidraBridge.AppliedFrames
import GhidraBridge.AppliedCounts
import GhidraBridge.Lib.Nearest
import GhidraBridge.AddressEncoding
import GhidraBridge.BookmarkSpelling
import GhidraBridge.MemoryMap
import GhidraBridge.LineFraming
import GhidraBridge.Lib.Strip
import GhidraBridge.TypeNormalForm
import GhidraBridge.RequestLoop
import GhidraBridge.BridgeWire
import GhidraBridge.RequestDelivery
import GhidraBridge.RequestsAtRest
import GhidraBridge.ServerCalls
import GhidraBridge.RepositoryTree
import GhidraBridge.TreeListings
import GhidraBridge.TreeContents
import GhidraBridge.BridgeProcess
import GhidraBridge.ProcessLifetime
import GhidraBridge.RepositoryEvents
import GhidraBridge.EventDelivery
import GhidraBridge.Lib.Worklist
import GhidraBridge.ProjectItems
import GhidraBridge.SharedNames
import GhidraBridge.UploadCommand
import GhidraBridge.ProjectFiles
import GhidraBridge.LinkedFiles
import GhidraBridge.AddedItems
