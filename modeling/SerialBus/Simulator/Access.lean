import SerialBus.Simulator.Condition
import SerialBus.Simulator.Traffic

namespace SerialBus.Simulator

def readRegister (r : Register) (s : Simulator) : Word × Simulator :=
  match r with
  | .intrState => (s.intrState, s)
  | .intrEnable => (s.intrEnable, s)
  | .control => (s.control, s)
  | .status => (s.status, s)
  | .configOpts line => (s.options.getD line 0, s)
  | .csid => (s.csid, s)
  | .rxData => s.popData
  | .errorEnable => (s.errorEnable, s)
  | .errorStatus => (s.errorStatus, s)
  | .eventEnable => (s.eventEnable, s)
  | .intrTest | .alertTest | .command | .txData => (0, s)

def applyWrite (r : Register) (w : Word) (s : Simulator) : Simulator :=
  match r with
  | .intrState => { s with intrLatched := s.intrLatched &&& ~~~w }
  | .intrEnable => { s with intrEnable := w }
  | .intrTest => { s with intrLatched := s.intrLatched ||| w }
  | .alertTest => if AlertTest.fatalFault.isSet w then { s with alerts := s.alerts + 1 } else s
  | .control =>
    let s := if Control.reset.isSet w then s.softReset else s
    { s with control := w }
  | .configOpts line => { s with options := s.options.set line w }
  | .csid => { s with csid := w }
  | .command => s.pushCommand w
  | .txData => s.pushData w
  | .errorEnable => { s with errorEnable := w }
  | .errorStatus => { s with errorStatus := s.errorStatus &&& ~~~w }
  | .eventEnable => { s with eventEnable := w }
  | .status | .rxData => s

def writeRegister (r : Register) (w : Word) (s : Simulator) : Simulator :=
  applyWrite r w { s with writes := s.writes ++ [(r, w)] }

instance : RegisterBlock Simulator where
  read := readRegister
  write := writeRegister

end SerialBus.Simulator
