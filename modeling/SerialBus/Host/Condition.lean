import SerialBus.Host.Basic
import SerialBus.Wait

namespace SerialBus.Host

variable {β : Type} [RegisterBlock β]

inductive Condition
  | ready
  | idle
  | cmdNotFull
  | txWatermark
  | txEmpty
  | txNotEmpty
  | txNotFull
  | rxEmpty
  | rxNotEmpty
  | rxNotFull
  | rxWatermark
  deriving DecidableEq, Repr

def Condition.holds (l : Limits) (s : Status) : Condition → Bool
  | ready => s.isReady
  | idle => !s.isActive
  | cmdNotFull => s.cmdLevel < l.cmdDepth.toNat
  | txWatermark => s.tx.atWatermark
  | txEmpty => s.tx.isEmpty
  | txNotEmpty => !s.tx.isEmpty
  | txNotFull => !s.tx.isFull
  | rxEmpty => s.rx.isEmpty
  | rxNotEmpty => !s.rx.isEmpty
  | rxNotFull => !s.rx.isFull
  | rxWatermark => s.rx.atWatermark

/-- Look at the status once; a value says that the condition holds. -/
def look (c : Condition) (h : Host β) : Option Unit × Host β :=
  let (s, h) := h.status
  (if c.holds h.limits s then some () else none, h)

/-- Wait for a condition, among surroundings `ω`, and say whether it came to hold. -/
def waitFor {ω : Type} (c : Condition) (w : Wait (Host β × ω)) (s : Host β × ω) :
    Bool × Host β × ω :=
  let (seen, s) := w.poll (fun (h, o) => let (seen, h) := h.look c; (seen, h, o)) s
  (seen.isSome, s)

end SerialBus.Host
