import ExanicCapture.Rx.Delivery
import ExanicCapture.Rx.Tearing
import ExanicCapture.Rx.Recovery
import ExanicCapture.Rx.Reassembly
import ExanicCapture.Rx.Library
import ExanicCapture.Rx.InPlace
import ExanicCapture.Rx.FlowHashing
import ExanicCapture.Tx.Checksum
import ExanicCapture.Tx.Chunk
import ExanicCapture.Tx.Progress
import ExanicCapture.Firewall.InForce
import ExanicCapture.Time.Defined
import ExanicCapture.Capture.Rotation
import ExanicCapture.Capture.Stdout
import ExanicCapture.Capture.ShortWrites
import ExanicCapture.Capture.ExitPaths
import ExanicCapture.Capture.Snaplen
import ExanicCapture.Capture.SharedNames
import ExanicCapture.Capture.DevicePort
import ExanicCapture.Filter.Meaning
import ExanicCapture.Filter.Grammar
import ExanicCapture.Handle.Names
import ExanicCapture.Capture.EndToEnd
import ExanicCapture.Time.Convert
