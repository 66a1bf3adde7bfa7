import Nuacom.Support.Transition
import Nuacom.Support.CString
import Nuacom.Support.CMemory
import Nuacom.Support.Rapidjson
import Nuacom.Support.Registry
import Nuacom.Support.Url
import Nuacom.Support.StdMap
import Nuacom.Support.BlockHash
import Nuacom.Api.Md5
import Nuacom.Api.Md5Stream
import Nuacom.Api.Client
import Nuacom.Api.Response
import Nuacom.Api.Request
import Nuacom.Server.Config
import Nuacom.Server.ConfigWrite
import Nuacom.Server.ConfigRoundTrip
import Nuacom.Server.ConfigInterleaving
import Nuacom.Server.ConfigTearing
import Nuacom.Server.Connection
import Nuacom.Server.Lifetime
import Nuacom.Server.Callback
import Nuacom.Server.SendString
import Nuacom.Server.ServiceMain
import Nuacom.Server.OutString
import Nuacom.Client.Wrapper
import Nuacom.Client.Dispatch
import Nuacom.Message.Ssio
import Nuacom.Message.Callbacks
import Nuacom.Message.Handover
import Nuacom.Provider.Api
import Nuacom.Provider.Config
import Nuacom.Provider.Line
import Nuacom.Provider.LineRequests
import Nuacom.Provider.LineCalls
import Nuacom.Provider.LineWatchdog
import Nuacom.Provider.LineContext
import Nuacom.Provider.CallInfo
import Nuacom.Provider.DevSpecific
