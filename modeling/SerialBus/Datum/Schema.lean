import SerialBus.Board.Basic
import SerialBus.Datum.Basic
import SerialBus.Slave

namespace SerialBus

def ByteOrder.names : List (String × ByteOrder) :=
  [("LittleEndian", .little), ("BigEndian", .big)]

def Polarity.names : List (String × Polarity) :=
  [("IdleLow", .idleLow), ("IdleHigh", .idleHigh)]

def Phase.names : List (String × Phase) :=
  [("CaptureOnFirstTransition", .first), ("CaptureOnSecondTransition", .second)]

def Mode.names : List (String × Mode) :=
  [("Mode0", .mode0), ("Mode1", .mode1), ("Mode2", .mode2), ("Mode3", .mode3)]

def Direction.names : List (String × Direction) :=
  [("Dummy", .dummy), ("RxOnly", .rxOnly), ("TxOnly", .txOnly), ("Bidir", .bidir)]

def Speed.names : List (String × Speed) :=
  [("Standard", .standard), ("Dual", .dual), ("Quad", .quad)]

def PeripheralId.names : List (String × PeripheralId) :=
  [("Flash", .flash), ("Host", .host), ("Host2", .host2)]

def Datum.named [DecidableEq α] (names : List (String × α)) (a : α) : Datum :=
  match names.find? fun entry => entry.2 = a with
  | some (name, _) => .text name
  | none => .null

def Datum.ofUInt8 (n : UInt8) : Datum := .int n.toNat

def Datum.ofUInt32 (n : UInt32) : Datum := .int n.toNat

namespace Segment

def ofDatum (d : Dialect) (v : Datum) : Option Segment :=
  match v.slots d ["direction", "speed", "len"] with
  | some [direction, speed, len] => do
    return { direction := ← Datum.required (Datum.choice d Direction.names) direction
             speed := ← Datum.required (Datum.choice d Speed.names) speed
             len := ← Datum.required Datum.uint32? len }
  | _ => none

def toDatum (s : Segment) : Datum :=
  .table [("direction", .named Direction.names s.direction),
    ("speed", .named Speed.names s.speed), ("len", .ofUInt32 s.len)]

def listOfDatum (d : Dialect) (v : Datum) : Option (List Segment) := do
  (← v.atMost maxCount).mapM (ofDatum d)

end Segment

namespace Slave

def ofDatum (d : Dialect) (v : Datum) : Option Slave :=
  match v.slots d ["csid", "freq_hz", "polarity", "phase", "csn_idle", "csn_lead", "csn_trail",
      "full_cycle"] with
  | some [csid, freq, polarity, phase, idle, lead, trail, fullCycle] => do
    return { csid := ← Datum.required Datum.uint8? csid
             freq := ← Datum.required Datum.uint32? freq
             polarity := ← Datum.required (Datum.choice d Polarity.names) polarity
             phase := ← Datum.required (Datum.choice d Phase.names) phase
             idle := ← Datum.required Datum.uint8? idle
             lead := ← Datum.required Datum.uint8? lead
             trail := ← Datum.required Datum.uint8? trail
             fullCycle := ← Datum.required Datum.bool? fullCycle }
  | _ => none

def toDatum (s : Slave) : Datum :=
  .table [("csid", .ofUInt8 s.csid), ("freq_hz", .ofUInt32 s.freq),
    ("polarity", .named Polarity.names s.polarity), ("phase", .named Phase.names s.phase),
    ("csn_idle", .ofUInt8 s.idle), ("csn_lead", .ofUInt8 s.lead),
    ("csn_trail", .ofUInt8 s.trail), ("full_cycle", .bool s.fullCycle)]

end Slave

namespace Limits

def ofDatum (d : Dialect) (v : Datum) : Option Limits :=
  match v.slots d ["num_cs", "tx_depth", "rx_depth", "cmd_depth"] with
  | some [lines, txDepth, rxDepth, cmdDepth] => do
    let default : Limits := {}
    return { lines := ← Datum.orElse default.lines Datum.uint8? lines
             txDepth := ← Datum.orElse default.txDepth Datum.uint8? txDepth
             rxDepth := ← Datum.orElse default.rxDepth Datum.uint8? rxDepth
             cmdDepth := ← Datum.orElse default.cmdDepth Datum.uint8? cmdDepth }
  | _ => none

def toDatum (l : Limits) : Datum :=
  .table [("num_cs", .ofUInt8 l.lines), ("tx_depth", .ofUInt8 l.txDepth),
    ("rx_depth", .ofUInt8 l.rxDepth), ("cmd_depth", .ofUInt8 l.cmdDepth)]

end Limits

namespace Settings

def ofDatum (d : Dialect) (v : Datum) : Option Settings :=
  match v.slots d ["system_clock_hz", "tx_watermark", "rx_watermark", "byte_order"] with
  | some [clock, tx, rx, order] => do
    let default : Settings := {}
    return { clock := ← Datum.orElse default.clock Datum.uint32? clock
             txOverride := ← Datum.orElse none (Datum.nullable Datum.uint8?) tx
             rxOverride := ← Datum.orElse none (Datum.nullable Datum.uint8?) rx
             byteOrder := ← Datum.orElse default.byteOrder (Datum.choice d ByteOrder.names) order }
  | _ => none

def toDatum (s : Settings) : Datum :=
  .table [("system_clock_hz", .ofUInt32 s.clock),
    ("tx_watermark", (s.txOverride.map Datum.ofUInt8).getD .null),
    ("rx_watermark", (s.rxOverride.map Datum.ofUInt8).getD .null),
    ("byte_order", .named ByteOrder.names s.byteOrder)]

end Settings

namespace Board

def hostsOfDatum (d : Dialect) (v : Datum) : Option (Trio Limits) :=
  match v.exactly d 3 with
  | some [flash, host, host2] => do
    return ⟨← Limits.ofDatum d flash, ← Limits.ofDatum d host, ← Limits.ofDatum d host2⟩
  | _ => none

def ofDatum (d : Dialect) (v : Datum) : Option Board :=
  match v.slots d ["sdk", "peripherals"] with
  | some [settings, hosts] => do
    let default : Board := {}
    return { settings := ← Datum.orElse default.settings (Settings.ofDatum d) settings
             hosts := ← Datum.orElse default.hosts (hostsOfDatum d) hosts }
  | _ => none

def toDatum (b : Board) : Datum :=
  .table [("sdk", b.settings.toDatum), ("peripherals", .list (b.hosts.toList.map Limits.toDatum))]

end Board

end SerialBus
