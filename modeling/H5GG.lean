import H5GG.Library.Stride
import H5GG.Value.Type
import H5GG.Reader
import H5GG.Results
import H5GG.Filter
import H5GG.Engine.Step
import H5GG.Facade
import H5GG.Bridge
import H5GG.Dump.Controller
import H5GG.Proof.Engine.Spec
import H5GG.Proof.Engine.Exact
import H5GG.Proof.Engine.Bounds
import H5GG.Proof.Engine.Reject
import H5GG.Proof.Engine.Compose
import H5GG.Proof.Engine.Agreement
import H5GG.Proof.Engine.Ascending
import H5GG.Proof.Engine.Neighbourhood
import H5GG.Proof.Engine.Paging
import H5GG.Proof.Facade
import H5GG.Proof.Bridge
import H5GG.Proof.Dump
import H5GG.Proof.Engine.Change
import H5GG.Proof.OutOfMemory
import H5GG.Proof.Lifecycle
import H5GG.Proof.GlobalView.Mailbox
import H5GG.Proof.GlobalView.ImageTransfer
import H5GG.Proof.ModalRequestQueue
import H5GG.Proof.Freezer
import H5GG.Proof.TargetSwitch
import H5GG.Proof.TargetSession
import H5GG.Proof.Dylib.Builder
import H5GG.Proof.FileNames
import H5GG.Proof.ScriptStore
import H5GG.Proof.ScriptStore.Listing
import H5GG.Proof.Dylib.Embedded
import H5GG.Proof.RuntimeCoordinator
import H5GG.Proof.PointerSearch
import H5GG.Proof.Value.Parse
import H5GG.Proof.Value.HexPattern
import H5GG.Proof.Value.RoundTrip
import H5GG.Proof.Value.Tokens
import H5GG.Proof.Value.Expression
import H5GG.Proof.Filter
import H5GG.Proof.TextEncoding
import H5GG.Proof.MemoryPage
import H5GG.Proof.MachO
import H5GG.Proof.WriteMemory
import H5GG.Proof.Dump.Calls
import H5GG.Proof.WebView
import H5GG.Proof.BridgeMethods
import H5GG.Proof.VMMap
import H5GG.Proof.PreferencesStore
import H5GG.Proof.PluginLoader
import H5GG.Proof.Editing.Search
import H5GG.Proof.SearchPages
import H5GG.Proof.Inspector
import H5GG.Proof.Modules
import H5GG.Proof.GlobalView.Handshake
import H5GG.Proof.GlobalView.Loading
