import Disassembler.Main
import Disassembler.Table.Lemmas
import Disassembler.Proofs.Seen
import Disassembler.Proofs.Room
import Disassembler.Proofs.Source
import Disassembler.Proofs.Postorder
import Disassembler.Proofs.Cut
import Disassembler.Proofs.Reachable
import Disassembler.Proofs.Tiling
import Disassembler.Proofs.Simulation
import Disassembler.Proofs.Parts
import Disassembler.Proofs.Start
import Disassembler.Proofs.Caches
import Disassembler.Proofs.Frozen
import Disassembler.Proofs.Derived
import Disassembler.Proofs.Crossing
import Disassembler.Proofs.Effects
import Disassembler.Proofs.Faultless
import Disassembler.Proofs.Accounts
import Disassembler.Proofs.Balance
import Disassembler.Proofs.Tables
import Disassembler.Proofs.Finalized
import Disassembler.Proofs.Isolation
import Disassembler.Proofs.RoundTrip
import Disassembler.Proofs.Nested
import Disassembler.Proofs.Steps
import Disassembler.Proofs.Jumps
import Disassembler.Proofs.Extensions
import Disassembler.Proofs.LineStarts
import Disassembler.Proofs.LineRanges
import Disassembler.Proofs.Spelling
import Disassembler.Proofs.ExceptionEntries
import Disassembler.Proofs.LocationRanges
import Disassembler.Proofs.LocationEntries
import Disassembler.Proofs.Pools
import Disassembler.Proofs.RepeatedStarts
import Disassembler.Proofs.Relined
import Disassembler.Proofs.Appended
import Disassembler.Proofs.Reapplied
import Disassembler.Proofs.Ranges
import Disassembler.Proofs.Faults
import Disassembler.Proofs.FaultRows
import Disassembler.Proofs.Redefinition
import Disassembler.Proofs.KeywordCalls
import Disassembler.Proofs.OperatorTexts
import Disassembler.Proofs.ReadBack
import Disassembler.Proofs.SingleEdits
import Disassembler.Proofs.Inheritance
import Disassembler.Proofs.BuildOrder
import Disassembler.Proofs.ExactEffects
import Disassembler.Proofs.Literals
