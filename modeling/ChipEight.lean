import ChipEight.Instruction.Pattern
import ChipEight.Main
import ChipEight.Proofs.Checked.Machine
import ChipEight.Proofs.Console.BlankWait
import ChipEight.Proofs.Console.DialectIndependence
import ChipEight.Proofs.Console.ListingText
import ChipEight.Proofs.Console.ReportedChange
import ChipEight.Proofs.Console.Residue
import ChipEight.Proofs.Console.Schedule
import ChipEight.Proofs.Console.StraightLine
import ChipEight.Proofs.Keypad.ReleaseEdge
import ChipEight.Proofs.Screen.LowResolution
import ChipEight.Proofs.Sound.Phase
import ChipEight.Proofs.Console.IdleCycles
import ChipEight.Proofs.Console.Moment
import ChipEight.Proofs.Machine.CallNesting
import ChipEight.Proofs.Screen.PlaneIsolation
import ChipEight.Proofs.Console.Countdown
import ChipEight.Proofs.Console.Consistency
import ChipEight.Proofs.Console.RandomDraws
import ChipEight.Proofs.Screen.Collision
import ChipEight.Proofs.Screen.Cancellation
import ChipEight.Proofs.Screen.Displacement
import ChipEight.Proofs.Machine.RegisterBlock
import ChipEight.Proofs.Machine.ResultAndFlag
import ChipEight.Proofs.Console.Tiling
import ChipEight.Proofs.Console.LookAhead
import ChipEight.Proofs.Sound.Buffers
import ChipEight.Proofs.Screen.Rendering
import ChipEight.Proofs.Catalogue.ImageConfiguration
import ChipEight.Proofs.Catalogue.FieldByField
import ChipEight.Proofs.Catalogue.Legend
import ChipEight.Proofs.Catalogue.Opening
import ChipEight.Proofs.CommandLine.BrokenCatalogue
