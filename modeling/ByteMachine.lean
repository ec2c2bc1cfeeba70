import ByteMachine.Main
import ByteMachine.Machine.Op
import ByteMachine.Page
import ByteMachine.Screen
import ByteMachine.Proofs.Command.Resuming
import ByteMachine.Proofs.Machine.History
import ByteMachine.Proofs.Machine.Driving
import ByteMachine.Proofs.Machine.Refusals
import ByteMachine.Proofs.Machine.Respelling
import ByteMachine.Proofs.Machine.Restarting
import ByteMachine.Proofs.Machine.Addressing
import ByteMachine.Proofs.Machine.Framing
import ByteMachine.Proofs.Stepper.Pacing
import ByteMachine.Proofs.MicroOp.Grammar
import ByteMachine.Proofs.Adder.Exact
import ByteMachine.Proofs.Adder.Agreement
import ByteMachine.Proofs.Program.Diagnosing
import ByteMachine.Proofs.Program.Reassembling
import ByteMachine.Proofs.Machine.Counting
import ByteMachine.Proofs.Machine.Latching
import ByteMachine.Proofs.Machine.Presets
import ByteMachine.Proofs.Machine.Resetting
import ByteMachine.Proofs.Adder.Derivation
import ByteMachine.Proofs.Program.Editing
import ByteMachine.Proofs.Command.Limiting
import ByteMachine.Proofs.Screen.Marking
import ByteMachine.Proofs.Octet.Reading
import ByteMachine.Proofs.Document.Configuring
import ByteMachine.Proofs.Command.Inspecting
import ByteMachine.Proofs.Machine.Seeding
import ByteMachine.Proofs.Command.Reading
import ByteMachine.Proofs.Screen.Windows
import ByteMachine.Proofs.Clock.Waiting
import ByteMachine.Proofs.Config.Building
import ByteMachine.Proofs.Memory.Mapping
