import ChatService.Client.ChatState
import ChatService.Client.ConversationOrder
import ChatService.Client.Conversations
import ChatService.Client.IceCandidates
import ChatService.Client.LateSteps
import ChatService.Client.RoomActions
import ChatService.Client.SocketMessages
import ChatService.Client.UserLists
import ChatService.Common.Commands
import ChatService.Common.JsonArray
import ChatService.Common.JsonEscapes
import ChatService.Common.JsonLanguage
import ChatService.Common.JsonSlices
import ChatService.Common.NumberTokens
import ChatService.Common.Numbers
import ChatService.Foundation.BigEndian
import ChatService.Foundation.Binary64
import ChatService.Foundation.Doubles
import ChatService.Foundation.Emissions
import ChatService.Foundation.Footprints
import ChatService.Foundation.Histories
import ChatService.Foundation.Paging
import ChatService.Foundation.SetTables
import ChatService.Foundation.Slices
import ChatService.Foundation.SortedLog
import ChatService.Foundation.Utf16
import ChatService.Foundation.Utf8
import ChatService.Foundation.Words
import ChatService.Gateway.AttachBridge
import ChatService.Gateway.BrowserRequests
import ChatService.Gateway.HandleTcpText
import ChatService.Gateway.HistoryForwarding
import ChatService.Gateway.JsonLengths
import ChatService.Gateway.JsonLines
import ChatService.Gateway.JsonText
import ChatService.Gateway.ReadBack
import ChatService.Muduo.AsyncLogging
import ChatService.Muduo.Buffer
import ChatService.Muduo.EventLoop
import ChatService.Muduo.Integers
import ChatService.Muduo.TcpConnection
import ChatService.Muduo.TimerRuns
import ChatService.Network.CallAgreement
import ChatService.Network.OneCall
import ChatService.Network.RoomAnnouncements
import ChatService.Network.RoomReplies
import ChatService.Network.ShownMessages
import ChatService.Network.WebRequests
import ChatService.QtClient.Conversations
import ChatService.QtClient.MergedHistories
import ChatService.QtClient.Protocol
import ChatService.QtClient.TypedMessages
import ChatService.Server.AsideHandlers
import ChatService.Server.AverageLatency
import ChatService.Server.Browsing
import ChatService.Server.CallIndependence
import ChatService.Server.CallRegistry
import ChatService.Server.CommandRequests
import ChatService.Server.Contents
import ChatService.Server.Delivery
import ChatService.Server.HistoryPages
import ChatService.Server.HistoryRequests
import ChatService.Server.InputBuffer
import ChatService.Server.PageDelivery
import ChatService.Server.PrivateDelivery
import ChatService.Server.PrivateOrder
import ChatService.Server.Replies
import ChatService.Server.RequestLatency
import ChatService.Server.RoomDelivery
import ChatService.Server.RoomMembership
import ChatService.Server.RoomPresence
import ChatService.Server.RoomRecipients
import ChatService.Server.RoomWires
import ChatService.Server.SentOrder
