import DemonOS.Proofs.Accounting
import DemonOS.Proofs.Acpi
import DemonOS.Proofs.BytecodeScan
import DemonOS.Proofs.Bzip2.Entropy
import DemonOS.Proofs.Bzip2.Huffman
import DemonOS.Proofs.Bzip2.Transform
import DemonOS.Proofs.ChunkedReads
import DemonOS.Proofs.Clips
import DemonOS.Proofs.Compositor.Keys
import DemonOS.Proofs.Compositor.Launcher
import DemonOS.Proofs.Compositor.Restore
import DemonOS.Proofs.Console
import DemonOS.Proofs.CxxRuntime.Programs
import DemonOS.Proofs.DemonX.ClientRelease
import DemonOS.Proofs.DemonX.Clipping
import DemonOS.Proofs.DemonX.EventQueue
import DemonOS.Proofs.DemonX.HintCalls
import DemonOS.Proofs.DemonX.PassiveGrabs
import DemonOS.Proofs.DemonX.Redirect
import DemonOS.Proofs.DemonX.SurfaceGrants
import DemonOS.Proofs.DemonX.Tables
import DemonOS.Proofs.DemonX.WindowSizes
import DemonOS.Proofs.DisplaySubmit
import DemonOS.Proofs.ElfLoading
import DemonOS.Proofs.Endpoints
import DemonOS.Proofs.FileHandles
import DemonOS.Proofs.Frames
import DemonOS.Proofs.GitCommits
import DemonOS.Proofs.Keyboard
import DemonOS.Proofs.Listing
import DemonOS.Proofs.Mouse
import DemonOS.Proofs.Network.Arp
import DemonOS.Proofs.Network.DnsQuery
import DemonOS.Proofs.Network.HttpBody
import DemonOS.Proofs.Network.RoundTrip
import DemonOS.Proofs.Network.Stream
import DemonOS.Proofs.PeReloc
import DemonOS.Proofs.Persistence
import DemonOS.Proofs.PortKit.Programs
import DemonOS.Proofs.QoiDecode
import DemonOS.Proofs.Rights
import DemonOS.Proofs.Scheduling
import DemonOS.Proofs.Services
import DemonOS.Proofs.Shell.CalculatorRuns
import DemonOS.Proofs.Shell.Files
import DemonOS.Proofs.Slots
import DemonOS.Proofs.SurfaceDamage
import DemonOS.Proofs.Timeouts
import DemonOS.Proofs.Wakeups
import DemonOS.Proofs.WinePe
import DemonOS.Proofs.Xterm.SavedFiles
