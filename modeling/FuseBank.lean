import FuseBank.Bench.Session
import FuseBank.Proofs.Planning
import FuseBank.Proofs.Cycle
import FuseBank.Proofs.Transaction
import FuseBank.Proofs.PromptRead
import FuseBank.Proofs.HonestRead
import FuseBank.Proofs.LateCompletion
import FuseBank.Proofs.Life
import FuseBank.Proofs.Courses
import FuseBank.Proofs.Footprint
import FuseBank.Proofs.ClockBracket
import FuseBank.Proofs.NonSecure
import FuseBank.Proofs.UserSession
import FuseBank.Proofs.Verdict
import FuseBank.Proofs.DeviceSession
import FuseBank.Proofs.LatchedFetch
import FuseBank.Proofs.Requests
import FuseBank.Proofs.Buffers
import FuseBank.Proofs.EntryPoints
import FuseBank.Proofs.Alike
import FuseBank.Proofs.VeiledFuses
import FuseBank.Proofs.Samples
import FuseBank.Proofs.LeastCover
import FuseBank.Proofs.WordCycles
import FuseBank.Proofs.AlteredWords
import FuseBank.Proofs.Reassembly
import FuseBank.Proofs.Addressable
import FuseBank.Proofs.CheckedRead
import FuseBank.Proofs.DelayAccount
import FuseBank.Proofs.Tells
import FuseBank.Proofs.Narrative
import FuseBank.Proofs.WindowBounds
import FuseBank.Proofs.WindowCells
