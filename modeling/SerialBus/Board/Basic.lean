import SerialBus.Board.Settings
import SerialBus.Peripheral

namespace SerialBus

structure Board where
  settings : Settings := {}
  hosts : Trio Limits := ⟨{}, {}, {}⟩
  deriving DecidableEq, Repr

namespace Board

/-- Block by block, its own limits first and then the settings against them. -/
def validate (b : Board) : Except ConfigError Unit :=
  b.hosts.toList.forM fun l => do
    l.validate
    b.settings.validate l

end Board

end SerialBus
