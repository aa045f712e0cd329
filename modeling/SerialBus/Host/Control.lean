import SerialBus.ChipOptions
import SerialBus.Host.Basic

namespace SerialBus.Host

variable {β : Type} [RegisterBlock β]

def softReset (h : Host β) : Host β :=
  (h.modify .control (Control.reset.put 1)).modify .control (Control.reset.put 0)

def setEnable (h : Host β) (on : Bool) : Host β :=
  h.modify .control (Control.enable.putBit on)

def setOutputEnable (h : Host β) (on : Bool) : Host β :=
  h.modify .control (Control.outputEnable.putBit on)

def setTxWatermark (h : Host β) (level : UInt8) : Except HostError Unit × Host β :=
  if h.limits.txDepth < level then (.error .watermarkExceeds, h)
  else (.ok (), h.modify .control (Control.txWatermark.put level.toNat))

def setRxWatermark (h : Host β) (level : UInt8) : Except HostError Unit × Host β :=
  if h.limits.rxDepth < level then (.error .watermarkExceeds, h)
  else (.ok (), h.modify .control (Control.rxWatermark.put level.toNat))

def lines (h : Host β) : Nat := min h.limits.lines.toNat Register.optionLines

def csid (h : Host β) : Word × Host β := h.read .csid

def setCsid (h : Host β) (csid : Word) : Except HostError Unit × Host β :=
  if h.lines ≤ csid.toNat then (.error .csidInvalid, h)
  else (.ok (), h.write .csid csid)

def chipOptions (h : Host β) (csid : Word) : Except HostError ChipOptions × Host β :=
  if h.lines ≤ csid.toNat then (.error .csidInvalid, h)
  else
    let (w, h) := h.read (.configOpts csid.toNat)
    (.ok (.ofWord w), h)

def setChipOptions (h : Host β) (csid : Word) (o : ChipOptions) : Except HostError Unit × Host β :=
  if h.lines ≤ csid.toNat then (.error .csidInvalid, h)
  else (.ok (), h.write (.configOpts csid.toNat) o.toWord)

end SerialBus.Host
