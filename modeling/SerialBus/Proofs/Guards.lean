import SerialBus.Proofs.Host.Operations
import SerialBus.Proofs.Simulator.Selection
import SerialBus.Proofs.Run.Simulated

namespace SerialBus

open Simulator (Move)

def Register.isPassive : Register → Bool
  | command | csid | rxData | txData => false
  | _ => true

namespace Host

/-- The block has the line that is chosen, and has latched no fault. -/
structure Spotless (limits : Limits) (build : Simulator.Build) (h : Host Simulator) : Prop where
  host : h.limits = limits
  sized : h.block.build = build
  line : h.block.csid.toNat < build.lines
  clean : h.block.errorStatus = 0

variable {limits : Limits} {build : Simulator.Build} {h : Host Simulator}

theorem Spotless.of_block (spotless : Spotless limits build h) (block : Simulator)
    (same : block.build = h.block.build) (csid : block.csid = h.block.csid)
    (clean : block.errorStatus = h.block.errorStatus) :
    Spotless limits build { h with block } :=
  ⟨spotless.host, same.trans spotless.sized, by rw [csid]; exact spotless.line,
    clean.trans spotless.clean⟩

theorem read_of_passive (h : Host Simulator) (r : Register) (passive : r.isPassive = true) :
    (h.read r).2 = h := by
  cases r with
  | rxData => cases passive
  | _ => rfl

theorem Spotless.write (spotless : Spotless limits build h) (r : Register) (w : Word)
    (passive : r.isPassive = true) : Spotless limits build (h.write r w) := by
  cases r with
  | command | csid | rxData | txData => cases passive
  | control =>
    obtain ⟨build, switches⟩ := h.block.switches_writeControl w
    refine spotless.of_block _ build (congrArg Simulator.Switches.csid switches) ?_
    change (Simulator.applyWrite .control w _).errorStatus = _
    simp only [Simulator.applyWrite]
    split <;> rfl
  | errorStatus =>
    refine ⟨spotless.host, spotless.sized, spotless.line, ?_⟩
    change h.block.errorStatus &&& ~~~w = 0
    rw [spotless.clean]
    exact BitVec.zero_and
  | alertTest =>
    refine spotless.of_block _ ?_ ?_ ?_ <;>
      simp only [RegisterBlock.write, Simulator.writeRegister, Simulator.applyWrite] <;>
      split <;> rfl
  | _ => exact spotless.of_block _ rfl rfl rfl

theorem Spotless.modify (spotless : Spotless limits build h) (r : Register) (f : Word → Word)
    (passive : r.isPassive = true) : Spotless limits build (h.modify r f) := by
  have looked : Spotless limits build (h.read r).2 := by
    rw [h.read_of_passive r passive]
    exact spotless
  exact looked.write r _ passive

theorem Spotless.setCsid (spotless : Spotless limits build h)
    (lines : min limits.lines.toNat 2 ≤ build.lines) (csid : Word) :
    Spotless limits build (h.setCsid csid).2 := by
  unfold Host.setCsid
  split
  · exact spotless
  · rename_i inside
    refine ⟨spotless.host, spotless.sized, ?_, spotless.clean⟩
    have counted : csid.toNat < min limits.lines.toNat 2 := by
      rw [← spotless.host]
      exact Nat.not_le.mp inside
    exact Nat.lt_of_lt_of_le counted lines

theorem Spotless.queueWord (spotless : Spotless limits build h) (w : Word)
    (allowed : Command.codesAllowed (Command.directionField.get w)
      (Command.speedField.get w) = true) :
    Spotless limits build (h.queueWord w).2 := by
  unfold Host.queueWord
  rcases h.checkQueue_cases with ⟨err, -, refused, -⟩ | ⟨taken, room⟩
  · rw [refused]
    exact spotless
  · rw [taken]
    have line : ¬ h.block.build.lines ≤ h.block.csid.toNat := by
      rw [spotless.sized]
      exact Nat.not_le.mpr spotless.line
    have pushed : (h.write .command w).block = Simulator.pushCommand
        { h.block with writes := h.block.writes ++ [(.command, w)] } w := rfl
    rw [Simulator.pushCommand_of_allowed _ w allowed (by exact room), if_neg line] at pushed
    refine spotless.of_block (h.write .command w).block ?_ ?_ ?_ <;> rw [pushed]

theorem Spotless.writeWord (spotless : Spotless limits build h) (w : Word) :
    Spotless limits build (h.writeWord w).2 := by
  by_cases room : h.block.tx.length < h.block.build.txDepth
  · rw [h.writeWord_of_room w room]
    exact spotless.of_block _ rfl rfl rfl
  · rw [h.writeWord_of_full w (Nat.not_lt.mp room)]
    exact spotless

theorem Spotless.readWord (spotless : Spotless limits build h) :
    Spotless limits build h.readWord.2 := by
  cases words : h.block.rx with
  | nil =>
    rw [h.readWord_of_empty words]
    exact spotless
  | cons w rest =>
    rw [h.readWord_of_words w rest words]
    exact spotless.of_block _ rfl rfl rfl

theorem Spotless.checked (spotless : Spotless limits build h)
    (lines : min limits.lines.toNat 2 ≤ build.lines) (q : Checked) :
    Spotless limits build (q.perform h).2 := by
  cases q with
  | setEventsEnabled flags on | setFaultsEnabled flags on =>
    simp only [Checked.perform, Host.setEventsEnabled, Host.setFaultsEnabled]
    split
    · exact spotless.modify _ (fun w => if on then w ||| flags.bits else w &&& ~~~flags.bits) rfl
    · exact spotless
  | setTxWatermark | setRxWatermark =>
    simp only [Checked.perform, Host.setTxWatermark, Host.setRxWatermark]
    split
    · exact spotless
    · exact spotless.modify .control _ rfl
  | setCsid csid => exact spotless.setCsid lines csid
  | chipOptions csid =>
    simp only [Checked.perform, Host.chipOptions]
    split <;> exact spotless
  | setChipOptions csid o =>
    simp only [Checked.perform, Host.setChipOptions]
    split
    · exact spotless
    · exact spotless.write _ _ rfl
  | setCommand c =>
    simp only [Checked.perform, Host.setCommand]
    split
    · exact spotless
    · rename_i valid
      refine spotless.queueWord c.toWord ?_
      rw [Command.direction_toWord, Command.speed_toWord, Command.codesAllowed_code]
      unfold Command.validate at valid
      split at valid
      · cases valid
      · split at valid
        · cases valid
        · rename_i allowed
          simpa using allowed
  | setCommandWord w =>
    simp only [Checked.perform, Host.setCommandWord]
    split
    · rename_i allowed
      exact spotless.queueWord w allowed
    · exact spotless
  | writeWord w => exact spotless.writeWord w
  | writeByte b => exact spotless.writeWord (b.setWidth 32)
  | readWord => exact spotless.readWord

theorem Spotless.plain (spotless : Spotless limits build h) (q : Plain) :
    Spotless limits build (q.perform h) := by
  cases q with
  | disableEvents | acknowledgeFaults | testErrorIntr | testEventIntr | testFatalAlert
  | acknowledgeIntr => exact spotless.write _ _ rfl
  | setEnable | setOutputEnable | setEventIntr | setErrorIntr => exact spotless.modify _ _ rfl
  | softReset => exact (spotless.modify .control _ rfl).modify .control _ rfl
  | _ => exact spotless

theorem Spotless.turn (spotless : Spotless limits build h)
    (lines : min limits.lines.toNat 2 ≤ build.lines) (t : Turn Move)
    (unforced : ∀ bits, t ≠ .move (.inject bits)) :
    Spotless limits build (h.turn Simulator.apply t) := by
  cases t with
  | call o =>
    cases o with
    | checked q => exact spotless.checked lines q
    | plain q => exact spotless.plain q
  | move m =>
    cases m with
    | inject bits => exact absurd rfl (unforced bits)
    | tick =>
      have registers := h.block.registers_step
      exact spotless.of_block _ h.block.build_step
        (congrArg Simulator.Registers.csid registers)
        (congrArg Simulator.Registers.errorStatus registers)
    | pushMiso | setLoopback => exact spotless.of_block _ rfl rfl rfl

theorem Spotless.turns (spotless : Spotless limits build h)
    (lines : min limits.lines.toNat 2 ≤ build.lines) (ts : List (Turn Move))
    (unforced : ∀ bits, Turn.move (.inject bits) ∉ ts) :
    Spotless limits build (turns Simulator.apply h ts) := by
  induction ts generalizing h with
  | nil => exact spotless
  | cons t ts ih =>
    refine ih (spotless.turn lines t fun bits forced => ?_) fun bits later => ?_
    · exact unforced bits (forced ▸ List.mem_cons_self)
    · exact unforced bits (List.mem_cons_of_mem t later)

/-- Whatever is asked of the driver of a block, from its reset on, and however the hardware moves in
    between, the block latches no fault: each request that the driver lets through is one that the
    block accepts. The queues of the block and the limits of its driver may have any sizes, as long
    as the block has a line and those lines that the driver counts on. -/
theorem driver_meets_no_fault (limits : Limits) (build : Simulator.Build) (some : 1 ≤ build.lines)
    (lines : min limits.lines.toNat 2 ≤ build.lines) (ts : List (Turn Move))
    (unforced : ∀ bits, Turn.move (.inject bits) ∉ ts) :
    (turns Simulator.apply ⟨Simulator.fresh build, limits⟩ ts).block.errorStatus = 0 := by
  -- the line that is chosen at reset is the first one
  have start : Spotless limits build ⟨Simulator.fresh build, limits⟩ := ⟨rfl, rfl, some, rfl⟩
  exact (start.turns lines ts unforced).clean

theorem driver_meets_no_fault_mismatched :
    let build : Simulator.Build := { lines := 1, txDepth := 2, rxDepth := 300, cmdDepth := 1 }
    let limits : Limits := { lines := 1, txDepth := 255, rxDepth := 3, cmdDepth := 15 }
    let call (q : Checked) : Turn Move := .call (.checked q)
    let ts : List (Turn Move) :=
      [call (.writeWord 1), call (.writeByte 2), call (.writeWord 3), call (.setCsid 1),
        call (.setCommandWord 0x06000000), call (.setCommandWord 0x10000007),
        call (.setCommand ⟨.bidir, .standard, 8, false⟩), call .readWord,
        .call (.plain (.setEnable true)), .move .tick, call .readWord]
    (turns Simulator.apply ⟨Simulator.fresh build, limits⟩ ts).block.errorStatus = 0 ∧
      (turns Simulator.apply ⟨Simulator.fresh build, limits⟩ ts).block.sent = [1] ∧
      (turns Simulator.apply ⟨Simulator.fresh build, limits⟩ ts).block.accepted.length = 1 := by
  intro build limits call ts
  refine ⟨driver_meets_no_fault limits build (by decide) (by decide) ts ?_, ?_, ?_⟩
  · simp [ts, call]
  · decide +kernel
  · decide +kernel

end Host

end SerialBus
