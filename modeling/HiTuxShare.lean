import HiTuxShare.UploadCapRuns
import HiTuxShare.UploadRelease
import HiTuxShare.DownloadCompletion
import HiTuxShare.TransferEnd
import HiTuxShare.DownloadHarmless
import HiTuxShare.DownloadLateEvents
import HiTuxShare.DownloadCancellation
import HiTuxShare.ConnectionIdentity
import HiTuxShare.ConnectionDialling
import HiTuxShare.ConnectionTeardown
import HiTuxShare.OwnSession
import HiTuxShare.MessageAttribution
import HiTuxShare.UserListMirror
import HiTuxShare.LiveResults
import HiTuxShare.NameNode
import HiTuxShare.SharingFolder
import HiTuxShare.AdvertisedPort
import HiTuxShare.SecondLogin
import HiTuxShare.PublishedFileCount
import HiTuxShare.UploadPacing
import HiTuxShare.UploadConversation
import HiTuxShare.UploadIndependence
import HiTuxShare.PublishedNodeCount
import HiTuxShare.QueryIsolation
import HiTuxShare.PrivateMessages
import HiTuxShare.KeyedList
import HiTuxShare.ChatWindowEvents
import HiTuxShare.ConnectedServers
import HiTuxShare.ServerRestart
import HiTuxShare.ServerLogs
import HiTuxShare.DownloadFailures
import HiTuxShare.Selections
import HiTuxShare.DialledPeers
import HiTuxShare.TransferProgress
import HiTuxShare.ScanRuns
import HiTuxShare.PublishedBatches
import HiTuxShare.ResultRows
import HiTuxShare.RememberedServers
import HiTuxShare.FetchedServers
import HiTuxShare.CommandWords
import HiTuxShare.DefinedAliases
import HiTuxShare.ExactNames
import HiTuxShare.LogLines
import HiTuxShare.ServerListLines
import HiTuxShare.SettingsFile
import HiTuxShare.AcceptedSettings
import HiTuxShare.InputHistory
import HiTuxShare.TabCompletion
import HiTuxShare.ChunkChecksum
import HiTuxShare.TransferRate
import HiTuxShare.ServingTermination
import HiTuxShare.AcceptedGlobs
import HiTuxShare.ResultKeys
import HiTuxShare.Mentions
import HiTuxShare.DirectoryTree
import HiTuxShare.SeenCode
import HiTuxShare.ChatLogView
import HiTuxShare.MirroredResults
import HiTuxShare.DeliveredLines
