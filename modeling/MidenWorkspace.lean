import MidenWorkspace.Library.Positional
import MidenWorkspace.Library.PushNew
import MidenWorkspace.Library.ReadModifyWrite
import MidenWorkspace.Library.ReplaceAll
import MidenWorkspace.Library.Runs
import MidenWorkspace.Library.Saturating
import MidenWorkspace.Library.Simulation
import MidenWorkspace.Library.SlidingWindow
import MidenWorkspace.Library.Structured
import MidenWorkspace.Library.MerkleTree
import MidenWorkspace.Library.XorFold
import MidenWorkspace.Vm.BasicBlockRoundTrip
import MidenWorkspace.Vm.BlockCommitment
import MidenWorkspace.Vm.Comparison
import MidenWorkspace.Vm.Contexts
import MidenWorkspace.Vm.MastEvaluation
import MidenWorkspace.Vm.MerkleStore
import MidenWorkspace.Vm.Stepping
import MidenWorkspace.Sealed.Scorer
import MidenWorkspace.Sealed.Issuance
import MidenWorkspace.Sealed.Vault
import MidenWorkspace.Sealed.Score
import MidenWorkspace.Syndex.History
import MidenWorkspace.Syndex.Effect
import MidenWorkspace.Syndex.Advice
import MidenWorkspace.Syndex.InstitutionId
import MidenWorkspace.CallAbi
import MidenWorkspace.Frontend.Document
import MidenWorkspace.Frontend.RateLimit
import MidenWorkspace.Frontend.FailedRead
import MidenWorkspace.Frontend.Interleaving
import MidenWorkspace.Frontend.HashPair
import MidenWorkspace.Frontend.DigestFelts
import MidenWorkspace.Frontend.Handover
import MidenWorkspace.Frontend.Convergence
import MidenWorkspace.Frontend.Participants
import MidenWorkspace.Client.DiscardCascade
import MidenWorkspace.Client.ExecutionOrder
import MidenWorkspace.Client.NoteRun
import MidenWorkspace.Client.NoteStore
import MidenWorkspace.Client.StoreHistory
import MidenWorkspace.Client.TrackerCodec
