import SerialBus.Proofs.Engine.Resetting

namespace SerialBus.Engine

open Simulator (Move)

variable {settings : Settings} {limits : Limits} {build : Simulator.Build} {base : Simulator}
  {r : Request} {csid : Word} {received words : List Word} {e f : Engine Simulator}

/-- From `e` to `f`, at which the bus gave `words`, the transaction of `r` went on, or it ended. -/
inductive Proceeds (base : Simulator) (r : Request) (received words : List Word)
    (e f : Engine Simulator) : Prop
  | on (busy : f.state = .busy) (underway : Underway base r (received ++ words) f)
  | delivered (flow : Flow base r r.handle.slave.line received e) (silent : words = [])
      (delivered : Delivered base r r.handle.slave.line received e f)
  | failed (failed : Failed e f)

theorem Books.proceeds (books : Books base r {} {} received words e f) :
    Proceeds base r received words e f := by
  cases books with
  | on busy booked => exact .on busy (underway_iff.mpr booked)
  | accounted ledger silent nothing accounted =>
    exact .delivered (flow_iff.mpr ledger) silent accounted.delivered
  | failed failed => exact .failed failed

theorem Flow.acknowledged (flow : Flow base r csid received e) :
    Flow base r csid received e.acknowledged := by
  have spec := e.host.block.acknowledged_spec
  exact flow.of_lanes rfl rfl rfl rfl spec.lanes (congrArg Simulator.Switches.csid spec.switches)

theorem Wired.proceeds_handleIrq (wired : Wired settings limits build e) (busy : e.state = .busy)
    (underway : Underway base r received e) : Proceeds base r received [] e e.handleIrq :=
  (wired.books_handleIrq busy (underway_iff.mp underway)).proceeds

theorem loses_of_unreset (e : Engine Simulator) (st : Stimulus Move) (unreset : st ≠ .reset) :
    e.loses st = {} := by
  cases st with
  | reset => exact absurd rfl unreset
  | _ => rfl

theorem Wired.proceeds (wired : Wired settings limits build e) (sound : Sound settings limits)
    (busy : e.state = .busy) (underway : Underway base r received e) (st : Stimulus Move)
    (undisturbed : st.undisturbed = true) :
    Proceeds base r received (e.answered st) e (e.respond Simulator.apply settings st) := by
  have books := wired.books sound busy (underway_iff.mp underway) st
    (st.honest_of_undisturbed undisturbed)
  rw [e.loses_of_unreset st (st.unreset_of_undisturbed undisturbed)] at books
  exact books.proceeds

end SerialBus.Engine
