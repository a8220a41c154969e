import GoJump.Lib.Run
import GoJump.Lib.Pool
import GoJump.Lib.Log
import GoJump.Lib.Table
import GoJump.Lib.Chan
import GoJump.Lib.Join
import GoJump.Lib.Trace
import GoJump.Lib.Fallible
import GoJump.Lib.Forest
import GoJump.Lib.Framing
import GoJump.Lib.Bisect
import GoJump.Lib.Spread
import GoJump.Lib.TwoStack
import GoJump.Lib.Unwinding
import GoJump.Lib.Ring
import GoJump.Lib.Vt
import GoJump.Lib.Wire
import GoJump.Go.Strings
import GoJump.Go.Sort
import GoJump.Go.Utf8
import GoJump.Go.Json
import GoJump.Go.Slice
import GoJump.Common.Completion
import GoJump.Common.Table
import GoJump.Common.Terminal
import GoJump.Common.ReadLine
import GoJump.Common.ReadProgress
import GoJump.Common.WordMotion
import GoJump.Common.History
import GoJump.Common.LineLength
import GoJump.Common.Screen
import GoJump.Common.LineEditor
import GoJump.Common.Rendering
import GoJump.Common.SameLine
import GoJump.Common.Password
import GoJump.Common.Cursor
import GoJump.Common.Transcript
import GoJump.Model.Records
import GoJump.Core.Queries
import GoJump.Core.Otp
import GoJump.Core.LoginLimit
import GoJump.Auth.LoginConfirm
import GoJump.Auth.OrphanTickets
import GoJump.Auth.UserAuth
import GoJump.SrvConn.SSHManager
import GoJump.SrvConn.ReuseKey
import GoJump.SrvConn.SSHClient
import GoJump.Proxy.Server
import GoJump.Proxy.Bookkeeping
import GoJump.Proxy.Record
import GoJump.Proxy.Replay
import GoJump.Proxy.Bridge
import GoJump.Proxy.BridgeEnd
import GoJump.Proxy.BridgeInput
import GoJump.Handler.DirectHandler
import GoJump.Handler.SelectHandler
import GoJump.Handler.Dispatch
import GoJump.Handler.Listed
import GoJump.Handler.Paging
import GoJump.Handler.SearchResult
import GoJump.Handler.IpOrder
import GoJump.Handler.NodeTree
import GoJump.Handler.IdleCheck
import GoJump.Handler.AdminConsole
import GoJump.Handler.AutoComplete
import GoJump.Handler.WrapperSession
import GoJump.Ssh.Wire
import GoJump.Ssh.Server
import GoJump.Ssh.Session
import GoJump.Server.Vscode
import GoJump.Server.Forwarding
import GoJump.Server.Reviewers
import GoJump.Server.Login
import GoJump.Server.SessionHandler
