import SerialBus.Controller.Binding
import SerialBus.Engine.Launch
import SerialBus.Interrupt

namespace SerialBus

/-- Writing the register is neither a command, nor a change of the control word or of the faults that
    interrupt, nor a test. -/
def Register.isPlain : Register → Bool
  | command | control | errorEnable | intrTest | alertTest => false
  | _ => true

def Register.selects : Register → Bool
  | csid | configOpts _ => true
  | _ => false

variable {β : Type} [RegisterBlock β]

namespace Host

inductive Adjusts : (Word → Word) → Prop
  | enable : Adjusts (Control.enable.putBit true)
  | outputEnable : Adjusts (Control.outputEnable.putBit true)
  | reset (n : Nat) : Adjusts (Control.reset.put n)
  | txWatermark (n : Nat) : Adjusts (Control.txWatermark.put n)
  | rxWatermark (n : Nat) : Adjusts (Control.rxWatermark.put n)

/-- `P` is kept by every read, by every write of a plain register, and by the changes made to the
    control word and to the faults that interrupt. -/
structure Steady (P : Host β → Prop) : Prop where
  read : ∀ (r : Register) (h : Host β), P h → P (h.read r).2
  write : ∀ (r : Register) (w : Word) (h : Host β), r.isPlain = true → P h → P (h.write r w)
  control : ∀ (f : Word → Word) (h : Host β), Adjusts f → P h → P (h.modify .control f)
  faults : ∀ h : Host β, P h → P (h.modify .errorEnable (· ||| Faults.interrupting.bits))

/-- `P` is kept by all of these, apart from the writes that choose a slave. -/
structure Firm (P : Host β → Prop) : Prop where
  read : ∀ (r : Register) (h : Host β), P h → P (h.read r).2
  write : ∀ (r : Register) (w : Word) (h : Host β), r.isPlain = true → r.selects = false → P h →
    P (h.write r w)
  control : ∀ (f : Word → Word) (h : Host β), Adjusts f → P h → P (h.modify .control f)
  faults : ∀ h : Host β, P h → P (h.modify .errorEnable (· ||| Faults.interrupting.bits))

theorem Steady.firm {P : Host β → Prop} (steady : Steady P) : Firm P where
  read := steady.read
  write r w h plain _ := steady.write r w h plain
  control := steady.control
  faults := steady.faults

theorem steady_limits (limits : Limits) : Steady fun h : Host β => h.limits = limits :=
  ⟨fun _ _ same => same, fun _ _ _ _ same => same, fun _ _ _ same => same, fun _ same => same⟩

variable {P : Host β → Prop} {h : Host β}

theorem Firm.modify (firm : Firm P) (r : Register) (f : Word → Word) (plain : r.isPlain = true)
    (other : r.selects = false) (start : P h) : P (h.modify r f) :=
  firm.write r _ _ plain other (firm.read r h start)

theorem queueWord_cases (h : Host β) (w : Word) :
    (∃ err, HostError.isTransient err = true ∧ h.queueWord w = (.error err, h.status.2)) ∨
      h.queueWord w = (.ok (), h.status.2.write .command w) := by
  unfold queueWord checkQueue
  simp only
  split
  · rename_i checked
    split at checked
    · cases checked
    · split at checked <;> cases checked
      exact .inr rfl
  · rename_i err _ checked
    split at checked
    · cases checked
      exact .inl ⟨_, rfl, rfl⟩
    · split at checked <;> cases checked
      exact .inl ⟨_, rfl, rfl⟩

theorem Firm.writeWords (firm : Firm P) (ws : List Word) (start : P h) :
    P (h.writeWords ws).2 := by
  induction ws generalizing h with
  | nil => exact start
  | cons w rest ih =>
    have looked : P h.status.2 := firm.read .status h start
    simp only [Host.writeWords, Host.writeWord]
    split
    · rename_i accepted
      split at accepted
      · cases accepted
      · cases accepted
        exact ih (firm.write .txData w _ rfl rfl looked)
    · rename_i refused
      split at refused
      · cases refused
        exact looked
      · cases refused

theorem Firm.readWords (firm : Firm P) (n : Nat) (start : P h) : P (h.readWords n).2 := by
  induction n generalizing h with
  | zero => exact start
  | succ n ih =>
    have looked : P h.status.2 := firm.read .status h start
    simp only [Host.readWords, Host.readWord]
    split
    · rename_i read
      split at read
      · cases read
      · cases read
        exact ih (firm.read .rxData _ looked)
    · rename_i refused
      split at refused
      · cases refused
        exact looked
      · cases refused

theorem Firm.spin (firm : Firm P) (c : Condition) (n : Nat) (start : P h) :
    P ((Wait.spin n).poll (look c) h).2 := by
  have looked (g : Host β) (before : P g) : P (g.look c).2 := firm.read .status g before
  unfold Wait.poll Wait.spin
  simp only
  induction n generalizing h with
  | zero =>
    have after := looked h start
    unfold Wait.pollFrom
    split <;> rename_i seen <;> rw [seen] at after <;> exact after
  | succ n ih =>
    have after := looked h start
    unfold Wait.pollFrom
    split <;> rename_i seen <;> rw [seen] at after
    · exact after
    · exact ih after

theorem Firm.softReset (firm : Firm P) (start : P h) : P h.softReset :=
  firm.control _ _ (.reset 0) (firm.control _ _ (.reset 1) start)

theorem Firm.take (firm : Firm P) (start : P h) : P (Interrupt.take h).2 := by
  have pending : P h.intrPending.2 :=
    firm.read .intrEnable _ (firm.read .intrState h start)
  have events : P (if Intr.event.isSet h.intrPending.1 then h.intrPending.2.pendingEvents
      else (.empty, h.intrPending.2)).2 := by
    split
    · exact firm.read .eventEnable _ (firm.read .status _ pending)
    · exact pending
  have faults (g : Host β) (before : P g) : P (if Intr.error.isSet h.intrPending.1 then
      (g.faults.1, g.faults.2.acknowledgeFaults) else (.empty, g)).2 := by
    split
    · exact firm.write .errorStatus _ _ rfl rfl (firm.read .errorStatus g before)
    · exact before
  have last (g : Host β) (before : P g) :
      P (if h.intrPending.1 ≠ 0 then g.acknowledgeIntr h.intrPending.1 else g) := by
    split
    · exact firm.write .intrState _ _ rfl rfl before
    · exact before
  exact last _ (faults _ events)

theorem Firm.enableHost_of_on (firm : Firm P)
    (on : P ((h.setEnable true).setOutputEnable true)) : P (Controller.enableHost h).2 := by
  have all : Faults.interrupting.contains Faults.interrupting = true := by decide
  simp only [Controller.enableHost, setFaultsEnabled, all, if_true, andThen]
  exact firm.read .status _ (firm.modify .intrEnable _ rfl rfl (firm.faults _ on))

theorem Firm.enableHost (firm : Firm P) (start : P h) : P (Controller.enableHost h).2 :=
  firm.enableHost_of_on (firm.control _ _ .outputEnable (firm.control _ _ .enable start))

theorem Firm.setEventsEnabled (firm : Firm P) (events : Events) (on : Bool) (start : P h) :
    P (h.setEventsEnabled events on).2 := by
  have set := firm.modify .eventEnable
    (fun w => if on then w ||| events.bits else w &&& ~~~events.bits) rfl rfl start
  unfold Host.setEventsEnabled
  split
  · exact set
  · exact start

omit [RegisterBlock β] in
theorem andThen_keeps (first : Except HostError Unit × Host β)
    (next : Host β → Except HostError Unit × Host β) (start : P first.2)
    (onward : ∀ g, P g → P (next g).2) : P (Host.andThen first next).2 := by
  rcases first with ⟨result, g⟩
  cases result with
  | ok _ => exact onward g start
  | error err => exact start

theorem Firm.prepare (firm : Firm P) (settings : Settings) (start : P h) :
    P (Engine.prepare h settings).2 := by
  unfold Engine.prepare
  refine andThen_keeps _ _ ?_ fun g before => andThen_keeps _ _ ?_ fun g before => ?_
  · unfold setTxWatermark
    split
    · exact start
    · exact firm.control _ _ (.txWatermark _) start
  · unfold setRxWatermark
    split
    · exact before
    · exact firm.control _ _ (.rxWatermark _) before
  · exact firm.setEventsEnabled _ true before

theorem Steady.selectSlave (steady : Steady P) (slave : Slave) (divider : UInt16) (start : P h) :
    P (Engine.selectSlave h slave divider).2 := by
  simp only [Engine.selectSlave, chipOptions]
  split
  · rename_i refused
    split at refused
    · cases refused
      exact start
    · cases refused
  · rename_i current g read
    have looked : P g := by
      split at read
      · cases read
      · cases read
        exact steady.read _ h start
    refine andThen_keeps _ _ ?_ fun f before => ?_
    · split
      · exact looked
      · unfold setChipOptions
        split
        · exact looked
        · exact steady.write _ _ _ rfl looked
    · split
      · exact steady.read .csid f before
      · unfold setCsid
        split
        · exact steady.read .csid f before
        · exact steady.write .csid _ _ rfl (steady.read .csid f before)

end Host

end SerialBus
