import Wxp.RunLoop.Dispatch
import Wxp.RunLoop.BlockOn
import Wxp.RunLoop.Fifo
import Wxp.RunLoop.Delays
import Wxp.RunLoop.Passes
import Wxp.RunLoop.Cancel
import Wxp.RunLoop.Deadlines
import Wxp.RunLoop.Pipe
import Wxp.RunLoop.Wakes
import Wxp.RunLoop.Process
import Wxp.RunLoop.Transitions
import Wxp.RunLoop.Call
import Wxp.RunLoop.Generations
import Wxp.RunLoop.Shutdown
import Wxp.RunLoop.Wakeup
import Wxp.RunLoop.Guards
import Wxp.RunLoop.Stranding
import Wxp.Release.Tolerance
import Wxp.RunLoopTimer.Timer
import Wxp.Foundations.ReorderBuffer
import Wxp.Page.Channel
import Wxp.Page.Exceptions
import Wxp.Page.Close
import Wxp.Page.Invoke
import Wxp.Page.Registry
import Wxp.Channel.State
import Wxp.Channel.Transitions
import Wxp.Channel.Transport
import Wxp.Channel.Delivery
import Wxp.Channel.End
import Wxp.Channel.Payload
import Wxp.Bridge.State
import Wxp.Bridge.Routing
import Wxp.Bridge.Pages
import Wxp.Tasks.Joiner
import Wxp.Tasks.Leaf
import Wxp.Tasks.Shutdown
import Wxp.Tasks.Drops
import Wxp.WebView.Cleanup
import Wxp.WebView.Order
import Wxp.Invoke.Handler
import Wxp.Serve.Directory
import Wxp.Serve.Assets
import Wxp.Serve.Agreement
import Wxp.WebView2.Refinement
import Wxp.Android.Progress
import Wxp.Android.Panics
import Wxp.WKWebView.Checks
import Wxp.Channel.Token
import Wxp.Channel.Protocol
import Wxp.RunLoop.DarwinFreed
import Wxp.RunLoop.Innermost
