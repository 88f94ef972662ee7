import ChipEight.Hex
import ChipEight.Processor

/-!
The registers on one line.
-/

namespace ChipEight.Processor

def text (cpu : Processor) : String :=
  "PC=" ++ Hex.fixed 4 cpu.counter.toNat ++ " I=" ++ Hex.fixed 4 cpu.index.toNat ++
    " DT=" ++ Hex.fixed 2 cpu.delay.remaining.toNat ++ " SP=" ++ toString cpu.stack.depth ++
    " V=[" ++ ", ".intercalate (cpu.registers.toList.map fun value => Hex.fixed 2 value.toNat) ++
    "]"

end ChipEight.Processor
