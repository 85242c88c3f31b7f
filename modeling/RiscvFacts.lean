import RiscvFacts.Main
import RiscvFacts.Proofs.Analysis.Accounting
import RiscvFacts.Proofs.Analysis.InputPaths
import RiscvFacts.Proofs.Encoding.MaskBit
import RiscvFacts.Proofs.Encoding.Restriction
import RiscvFacts.Proofs.Instr.Breakdown
import RiscvFacts.Proofs.Instr.FirstFault
import RiscvFacts.Proofs.Query.AddressSpace
import RiscvFacts.Proofs.Query.ArgumentOrder
import RiscvFacts.Proofs.Query.Decoded
import RiscvFacts.Proofs.Query.Width
import RiscvFacts.Proofs.Query.Overflow
import RiscvFacts.Proofs.Query.AccessOperands
import RiscvFacts.Proofs.Query.FrameLowering
import RiscvFacts.Proofs.Query.RecordedAccess
import RiscvFacts.Proofs.Query.DefinedRegister
import RiscvFacts.Proofs.Encoding.Bytes
import RiscvFacts.Proofs.Instr.OperandText
import RiscvFacts.Proofs.Query.RegisterFile
import RiscvFacts.Proofs.Instr.AssemblyText
import RiscvFacts.Proofs.Query.Explanation
import RiscvFacts.Proofs.Analysis.RejectedInput
import RiscvFacts.Proofs.Analysis.StatedFacts
import RiscvFacts.Proofs.Analysis.VerboseLog
import RiscvFacts.Proofs.Instr.Mnemonic
import RiscvFacts.Proofs.Word.Fields
